import BlockArchive.Json.Document
import BlockArchive.Proofs.Json.Digits
import BlockArchive.Proofs.Json.RoundTrip
import BlockArchive.Record.Basic
import Mathlib.Data.List.Forall2

/-!
# Records are read back from their documents

A record is stored as the text of its document. Any record is read back from the document itself;
the text needs the fields to have the types that they are declared with, and whole numbers to have
few enough digits to be written.

* `KeptOutput.Typed`, `ResolvedInput.Typed`, `TransactionRecord.Typed` and `BlockRecord.Typed` say
  that the fields of a record have their declared types;
* `TransactionRecord.Typed.isData` and `BlockRecord.Typed.isData`: the documents of such records are
  data;
* `Document.write_of_isData` and `Document.read_render` are the two ways between data and text.
-/

namespace BlockArchive

/-! ### Documents and records -/

theorem Except.mapM_ok {ε α β : Type} {f : α → Except ε β} {xs : List α} {ys : List β}
    (h : List.Forall₂ (fun x y => f x = .ok y) xs ys) : xs.mapM f = .ok ys := by
  induction h with
  | nil => rfl
  | cons hx _ ih =>
    rw [List.mapM_cons, hx, ih]
    rfl

theorem Except.mapM_map_ok {ε α β : Type} {f : β → Except ε α} {g : α → β} {xs : List α}
    (h : ∀ x ∈ xs, f (g x) = .ok x) : (xs.map g).mapM f = .ok xs :=
  mapM_ok (List.forall₂_map_left_iff.2 (List.forall₂_same.2 h))

theorem Value.optionalList_map {α : Type} {v : Value} {name : String} {xs : List α}
    {document : α → Value} {read : Value → Except Fault α}
    (hv : v.optional name (.list []) = .ok (.list (xs.map document)))
    (hread : ∀ x ∈ xs, read (document x) = .ok x) : v.optionalList name read = .ok xs := by
  simp only [optionalList, hv, bind, Except.bind, elements, Except.mapM_map_ok hread]

theorem KeptOutput.ofDocument_document (o : KeptOutput) : ofDocument o.document = .ok o := rfl

theorem ResolvedInput.ofDocument_document (i : ResolvedInput) : ofDocument i.document = .ok i := rfl

theorem TransactionRecord.optionalList_inputs (r : TransactionRecord) :
    r.document.optionalList "txInputs" ResolvedInput.ofDocument = .ok r.inputs :=
  Value.optionalList_map rfl fun i _ => i.ofDocument_document

theorem TransactionRecord.optionalList_outputs (r : TransactionRecord) :
    r.document.optionalList "txOutputs" KeptOutput.ofDocument = .ok r.outputs :=
  Value.optionalList_map rfl fun o _ => o.ofDocument_document

theorem TransactionRecord.ofDocument_document (r : TransactionRecord) :
    ofDocument r.document = .ok r := by
  rw [ofDocument, r.optionalList_inputs, r.optionalList_outputs]
  rfl

theorem StoredTransaction.ofDocument_document (r : TransactionRecord) :
    ofDocument r.document = .ok (ofRecord r) := by
  rw [ofDocument, r.optionalList_outputs]
  rfl

theorem BlockRecord.ofDocument_document (b : BlockRecord) : ofDocument b.document = .ok b := rfl

/-! ### Declared types -/

/-- A text. -/
def Value.IsText (v : Value) : Prop := ∃ s, v = .string s

/-- A whole number of few enough digits to be written. -/
def Value.IsShort (v : Value) : Prop := ∃ n, v = .int n ∧ Document.isTooLong n = false

theorem Value.IsText.isData {v : Value} : v.IsText → v.IsData := by
  rintro ⟨s, rfl⟩
  exact .string s

theorem Value.IsShort.isData {v : Value} : v.IsShort → v.IsData := by
  rintro ⟨n, rfl, hn⟩
  exact .int hn

theorem Document.isTooLong_of_le {m n : Nat} (h : isTooLong n = false) (hmn : m ≤ n) :
    isTooLong m = false := by
  rw [isTooLong_eq_false_iff, Int.natAbs_natCast] at h ⊢
  exact Nat.lt_of_le_of_lt hmn h

theorem Value.IsShort.of_le {m n : Nat} (h : IsShort (.nat n)) (hmn : m ≤ n) :
    IsShort (.nat m) := by
  obtain ⟨k, hk, hshort⟩ := h
  cases hk
  exact ⟨m, rfl, Document.isTooLong_of_le hshort hmn⟩

theorem Value.isShort_amount (n : UInt64) : IsShort (.nat n.toNat) := by
  have hlong : IsShort (.nat UInt64.size) := ⟨UInt64.size, rfl, by decide +kernel⟩
  exact hlong.of_le (Nat.le_of_lt n.toNat_lt_size)

/-- The fields of an output have their declared types. -/
structure KeptOutput.Typed (o : KeptOutput) : Prop where
  txHash : o.txHash.IsText
  index : o.index.IsShort
  value : o.value.IsShort
  script : o.script.IsText
  address : o.address.IsText

/-- The fields of an input have their declared types. -/
structure ResolvedInput.Typed (i : ResolvedInput) : Prop where
  txHash : i.txHash.IsText
  index : i.index.IsShort
  previousHash : i.previousHash.IsText
  previousIndex : i.previousIndex.IsShort
  script : i.script.IsText
  sequence : i.sequence.IsShort
  value : i.value.IsShort
  address : i.address.IsText

/-- The fields of a transaction have their declared types, and its lists are not so long that their
lengths could not be written. -/
structure TransactionRecord.Typed (r : TransactionRecord) : Prop where
  hash : r.hash.IsText
  blockHash : r.blockHash.IsText
  version : r.version.IsShort
  lockTime : r.lockTime.IsShort
  inputs : ∀ i ∈ r.inputs, i.Typed
  inputCount : (Value.nat r.inputs.length).IsShort
  outputs : ∀ o ∈ r.outputs, o.Typed
  outputCount : (Value.nat r.outputs.length).IsShort

/-- The fields of a block have their declared types. -/
structure BlockRecord.Typed (b : BlockRecord) : Prop where
  hash : b.hash.IsText
  height : b.height.IsShort
  version : b.version.IsShort
  size : b.size.IsShort
  previousHash : b.previousHash.IsText
  merkleRootHash : b.merkleRootHash.IsText
  timestamp : b.timestamp.IsShort
  bits : b.bits.IsShort
  transactionCount : b.transactionCount.IsShort
  nonce : b.nonce.IsShort

theorem KeptOutput.Typed.isData {o : KeptOutput} (h : o.Typed) : o.document.IsData := by
  refine .mapping (by simp) ?_
  simp [h.txHash.isData, h.index.isData, h.value.isData, h.script.isData, h.address.isData]

theorem ResolvedInput.Typed.isData {i : ResolvedInput} (h : i.Typed) : i.document.IsData := by
  refine .mapping (by simp) ?_
  simp [h.txHash.isData, h.index.isData, h.previousHash.isData, h.previousIndex.isData,
    h.script.isData, h.sequence.isData, h.value.isData, h.address.isData]

theorem TransactionRecord.Typed.isData {r : TransactionRecord} (h : r.Typed) :
    r.document.IsData := by
  have hinputs : (Value.list (r.inputs.map ResolvedInput.document)).IsData := by
    refine .list fun v hv => ?_
    obtain ⟨i, hi, rfl⟩ := List.mem_map.1 hv
    exact (h.inputs i hi).isData
  have houtputs : (Value.list (r.outputs.map KeptOutput.document)).IsData := by
    refine .list fun v hv => ?_
    obtain ⟨o, ho, rfl⟩ := List.mem_map.1 hv
    exact (h.outputs o ho).isData
  refine .mapping (by simp) ?_
  simp [h.hash.isData, h.blockHash.isData, h.version.isData, h.lockTime.isData,
    h.inputCount.isData, h.outputCount.isData, hinputs, houtputs]

theorem BlockRecord.Typed.isData {b : BlockRecord} (h : b.Typed) : b.document.IsData := by
  refine .mapping (by simp) ?_
  simp [h.hash.isData, h.height.isData, h.version.isData, h.size.isData, h.previousHash.isData,
    h.merkleRootHash.isData, h.timestamp.isData, h.bits.isData, h.transactionCount.isData,
    h.nonce.isData]

/-! ### Texts -/

namespace Document

theorem hasLongInteger_of_isData {v : Value} (hv : v.IsData) : hasLongInteger v = false := by
  induction hv with
  | null | bool | string => rfl
  | int hn => exact hn
  | list _ ih => simpa [hasLongInteger, anyLong_eq] using ih
  | mapping _ _ ih => simpa [hasLongInteger, anyFieldLong_eq] using ih

/-- Data can be written. -/
theorem write_of_isData {v : Value} (hv : v.IsData) :
    write v = .ok (Json.render Json.stored v) := by
  rw [write, hasLongInteger_of_isData hv, if_neg Bool.false_ne_true]

/-- What was written for data is read back. -/
theorem read_render {σ : Type} {v : Value} (hv : v.IsData) :
    (read (Json.render Json.stored v) : Act σ Value) = pure v := by
  rw [read, Json.parse_render Json.stored hv, reported]

end Document

end BlockArchive
