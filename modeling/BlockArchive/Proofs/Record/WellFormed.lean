import BlockArchive.Proofs.Record.Declared

/-!
# Well-formed transactions

A transaction is well-formed if its hashes and scripts are hex text, its values are amounts, and its
inputs and outputs bear its hash and their own positions. The outputs of such a transaction are
found at their positions, and nothing is found elsewhere.

* `Value.IsHashText`, `Value.IsScriptText` and `Value.IsAmount` say what fields hold, and
  `Hash.isHashText_display` and `Hex.isScriptText_encode` that hashes and scripts are written so;
* `TransactionRecord.WellFormed` is the whole of it, where something else says which values are
  addresses of inputs;
* `TransactionRecord.WellFormed.output_placed` and `TransactionRecord.WellFormed.output_elsewhere`
  are about looking for outputs;
* `TransactionRecord.WellFormed.isData`: such transactions can be read back.
-/

namespace BlockArchive

/-! ### What fields hold -/

/-- A hex digit in lower case. -/
def Hex.IsDigit (c : Char) : Prop := ('0' ≤ c ∧ c ≤ '9') ∨ ('a' ≤ c ∧ c ≤ 'f')

instance (c : Char) : Decidable (Hex.IsDigit c) :=
  inferInstanceAs (Decidable (('0' ≤ c ∧ c ≤ '9') ∨ ('a' ≤ c ∧ c ≤ 'f')))

namespace Value

/-- A text of 64 lower-case hex digits. -/
def IsHashText (v : Value) : Prop :=
  ∃ s, v = .string s ∧ s.length = 64 ∧ ∀ c ∈ s.toList, Hex.IsDigit c

/-- A text of lower-case hex digits, of even length. -/
def IsScriptText (v : Value) : Prop :=
  ∃ s, v = .string s ∧ s.length % 2 = 0 ∧ ∀ c ∈ s.toList, Hex.IsDigit c

/-- A whole number from 0 up to, and not including, the 64th power of two. -/
def IsAmount (v : Value) : Prop := ∃ n : Nat, v = .nat n ∧ n < UInt64.size

theorem IsHashText.isText {v : Value} (h : v.IsHashText) : v.IsText :=
  h.imp fun _ h => h.1

theorem IsScriptText.isText {v : Value} (h : v.IsScriptText) : v.IsText :=
  h.imp fun _ h => h.1

theorem IsAmount.isWhole {v : Value} : v.IsAmount → v.IsWhole := by
  rintro ⟨n, rfl, -⟩
  exact ⟨n, rfl⟩

theorem isAmount_toNat (n : UInt64) : IsAmount (.nat n.toNat) := ⟨_, rfl, n.toNat_lt⟩

theorem toAmount_ok_iff {v : Value} {n : UInt64} : v.toAmount = .ok n ↔ v = .nat n.toNat := by
  constructor
  · intro h
    unfold toAmount at h
    split at h
    · rename_i m
      split_ifs at h with hbounds
      obtain rfl := Except.ok.inj h
      rw [UInt64.toNat_ofNat_of_lt' hbounds.2, nat, Int.toNat_of_nonneg hbounds.1]
    · cases h
  · rintro rfl
    have hbounds : 0 ≤ (n.toNat : Int) ∧ (n.toNat : Int).toNat < UInt64.size :=
      ⟨Int.natCast_nonneg _, n.toNat_lt_size⟩
    rw [nat, toAmount, if_pos hbounds, Int.toNat_natCast, UInt64.ofNat_toNat]

theorem IsAmount.toAmount {v : Value} : v.IsAmount → ∃ n, v.toAmount = .ok n := by
  rintro ⟨n, rfl, hn⟩
  exact ⟨UInt64.ofNat n, toAmount_ok_iff.2 (by rw [UInt64.toNat_ofNat_of_lt' hn])⟩

end Value

namespace Hex

theorem isDigit_digit : ∀ n : Fin 16, IsDigit (digit n) := by decide

theorem length_encode (b : Bytes) : (encode b).length = 2 * b.length := by
  rw [encode, String.length_ofList]
  induction b with
  | nil => rfl
  | cons x rest ih =>
    simp only [encodeChars, List.length_cons, ih]
    omega

theorem isDigit_of_mem_encode {b : Bytes} {c : Char} (h : c ∈ (encode b).toList) : IsDigit c := by
  rw [encode, String.toList_ofList] at h
  induction b with
  | nil => cases h
  | cons x rest ih =>
    have hx := x.toNat_lt
    rcases List.mem_cons.1 h with rfl | h
    · exact isDigit_digit ⟨x.toNat / 16, by omega⟩
    · rcases List.mem_cons.1 h with rfl | h
      · exact isDigit_digit ⟨x.toNat % 16, by omega⟩
      · exact ih h

theorem isScriptText_encode (b : Bytes) : Value.IsScriptText (.string (encode b)) :=
  ⟨_, rfl, by rw [length_encode, Nat.mul_mod_right], fun _ => isDigit_of_mem_encode⟩

end Hex

theorem Hash.isHashText_display (h : Hash) : Value.IsHashText (.string h.display) := by
  refine ⟨_, rfl, ?_, fun _ => Hex.isDigit_of_mem_encode⟩
  rw [display, Hex.length_encode, List.length_reverse, h.length_eq]
  rfl

/-! ### Well-formed transactions -/

/-- The input bears the hash of its transaction and its position, and its fields hold what they
should. -/
structure ResolvedInput.WellFormed (address : Value → Prop) (txHash : Value) (index : Nat)
    (i : ResolvedInput) : Prop where
  txHash : i.txHash = txHash
  index : i.index = .nat index
  previousHash : i.previousHash.IsHashText
  previousIndex : i.previousIndex.IsWhole
  script : i.script.IsScriptText
  sequence : i.sequence.IsWhole
  value : i.value.IsAmount
  address : address i.address

/-- The output bears the hash of its transaction and its position, and its fields hold what they
should. -/
structure KeptOutput.WellFormed (txHash : Value) (index : Nat) (o : KeptOutput) : Prop where
  txHash : o.txHash = txHash
  index : o.index = .nat index
  value : o.value.IsAmount
  script : o.script.IsScriptText
  address : o.address.IsText

/-- The transaction is well-formed with all its inputs and outputs, where the inputs have certain
addresses. -/
structure TransactionRecord.WellFormed (address : Value → Prop) (r : TransactionRecord) : Prop where
  hash : r.hash.IsHashText
  blockHash : r.blockHash.IsHashText
  version : r.version.IsWhole
  lockTime : r.lockTime.IsWhole
  inputs : ∀ (j : Nat) i, r.inputs[j]? = some i → i.WellFormed address r.hash j
  outputs : ∀ (j : Nat) o, r.outputs[j]? = some o → o.WellFormed r.hash j

/-- The document tells how many inputs and outputs it lists. -/
def TransactionRecord.Counted (r : TransactionRecord) : Prop :=
  ∃ inputs outputs, r.document.field? "txInputs" = some (.list inputs) ∧
    r.document.field? "inputCount" = some (.nat inputs.length) ∧
    r.document.field? "txOutputs" = some (.list outputs) ∧
    r.document.field? "outputCount" = some (.nat outputs.length)

theorem TransactionRecord.counted (r : TransactionRecord) : r.Counted :=
  ⟨r.inputs.map ResolvedInput.document, r.outputs.map KeptOutput.document, rfl,
    by rw [List.length_map]; rfl, rfl, by rw [List.length_map]; rfl⟩

/-! ### Looking for outputs -/

/-- The output in its place of a stored transaction is the one that is found by its index. -/
theorem StoredTransaction.select?_placed {t : StoredTransaction} {n : Nat} {o : KeptOutput}
    (ho : t.outputs[n]? = some o) (hindex : o.index = .nat n) : t.select? n = some o := by
  simp [select?, ho, Option.filter, hindex, Value.nat, Value.equalsInt]

/-- A payment tells value and address of the output that it is read of. -/
theorem KeptOutput.eq_of_payment {o : KeptOutput} {p : Payment} (h : o.payment = .ok p) :
    o.value = .nat p.value.toNat ∧ o.address = p.address := by
  unfold payment at h
  cases hvalue : o.value.toAmount with
  | error f =>
    rw [hvalue] at h
    cases h
  | ok value =>
    rw [hvalue] at h
    obtain rfl := Except.ok.inj h
    exact ⟨Value.toAmount_ok_iff.1 hvalue, rfl⟩

theorem KeptOutput.WellFormed.payment {txHash : Value} {index : Nat} {o : KeptOutput}
    (h : o.WellFormed txHash index) : ∃ p, o.payment = .ok p := by
  obtain ⟨n, hn⟩ := h.value.toAmount
  exact ⟨⟨n, o.address⟩, by rw [KeptOutput.payment, hn]; rfl⟩

namespace TransactionRecord.WellFormed

variable {P Q : Value → Prop} {r : TransactionRecord}

/-- An output of a well-formed transaction is found at its position. -/
theorem output_placed (h : r.WellFormed P) {j : Nat} {o : KeptOutput}
    (ho : r.outputs[j]? = some o) :
    ∃ p, (StoredTransaction.ofRecord r).output j = .ok (some p) ∧
      o.value = .nat p.value.toNat ∧ o.address = p.address := by
  have hplaced := h.outputs j o ho
  obtain ⟨p, hp⟩ := hplaced.payment
  have hselect : (StoredTransaction.ofRecord r).select? j = some o :=
    StoredTransaction.select?_placed ho hplaced.index
  exact ⟨p, by rw [StoredTransaction.output, hselect]; simp [hp, Except.map],
    KeptOutput.eq_of_payment hp⟩

/-- Nothing is found in a well-formed transaction by an index that is no position. -/
theorem output_elsewhere (h : r.WellFormed P) {n : Int}
    (hn : ∀ j < r.outputs.length, n ≠ (j : Nat)) :
    (StoredTransaction.ofRecord r).output n = .ok none := by
  have hbears : ∀ o ∈ r.outputs, o.index.equalsInt n = false := by
    intro o ho
    obtain ⟨j, hj⟩ := List.mem_iff_getElem?.1 ho
    have hne := hn j (List.getElem?_eq_some_iff.1 hj).1
    rw [(h.outputs j o hj).index, Value.nat, Value.equalsInt, beq_eq_false_iff_ne]
    exact fun heq => hne heq.symm
  have hfind : r.outputs.find? (fun o => o.index.equalsInt n) = none :=
    List.find?_eq_none.2 fun o ho => by simp [hbears o ho]
  -- neither in its place nor anywhere else
  have hselect : (StoredTransaction.ofRecord r).select? n = none := by
    have hplaced : (if 0 ≤ n then r.outputs[n.toNat]? else none).filter
        (fun o => o.index.equalsInt n) = none := by
      split_ifs with hsign
      · refine Option.filter_eq_none_iff.2 fun o ho => ?_
        simp [hbears o (List.mem_of_getElem? ho)]
      · rfl
    simp only [StoredTransaction.select?, StoredTransaction.ofRecord, hplaced, hfind]
  rw [StoredTransaction.output, hselect]

/-! ### Reading back -/

theorem mono (h : r.WellFormed P) (hPQ : ∀ a, P a → Q a) : r.WellFormed Q :=
  { h with inputs := fun j i hi =>
      { h.inputs j i hi with address := hPQ _ (h.inputs j i hi).address } }

/-- If the addresses of its inputs are data, all of a transaction is data, unless a number in it is
too long to be written. -/
theorem isData (h : r.WellFormed P) (hP : ∀ a, P a → a.IsData) (hshort : r.document.Short) :
    r.document.IsData := by
  simp only [document, Value.short_mapping, List.forall_mem_cons, Value.short_list,
    List.forall_mem_map] at hshort
  obtain ⟨-, -, hversion, hlockTime, hinputCount, hinputs, houtputCount, houtputs, -⟩ := hshort
  have hinputsData : (Value.list (r.inputs.map ResolvedInput.document)).IsData := by
    refine .list (List.forall_mem_map.2 fun i hi => ?_)
    obtain ⟨j, hj⟩ := List.mem_iff_getElem?.1 hi
    have hshort := hinputs i hi
    have hi := h.inputs j i hj
    simp only [ResolvedInput.document, Value.short_mapping, List.forall_mem_cons] at hshort
    obtain ⟨-, -, hprevious, hindex, -, hsequence, hvalue, -⟩ := hshort
    have hindex' : i.index.IsWhole := ⟨j, hi.index⟩
    refine .mapping (by simp) ?_
    simp [(hi.txHash ▸ h.hash.isText : i.txHash.IsText).isData, (hindex'.isShort hindex).isData,
      hi.previousHash.isText.isData, (hi.previousIndex.isShort hprevious).isData,
      hi.script.isText.isData, (hi.sequence.isShort hsequence).isData,
      (hi.value.isWhole.isShort hvalue).isData, hP _ hi.address]
  have houtputsData : (Value.list (r.outputs.map KeptOutput.document)).IsData := by
    refine .list (List.forall_mem_map.2 fun o ho => ?_)
    obtain ⟨j, hj⟩ := List.mem_iff_getElem?.1 ho
    have hshort := houtputs o ho
    have ho := h.outputs j o hj
    have hdeclared : o.Declared := ⟨ho.txHash ▸ h.hash.isText, ⟨j, ho.index⟩, ho.value.isWhole,
      ho.script.isText, ho.address⟩
    exact (hdeclared.typed hshort).isData
  have hinputCountData : (Value.nat r.inputs.length).IsData := .int hinputCount
  have houtputCountData : (Value.nat r.outputs.length).IsData := .int houtputCount
  refine .mapping (by simp) ?_
  simp [h.hash.isText.isData, h.blockHash.isText.isData, (h.version.isShort hversion).isData,
    (h.lockTime.isShort hlockTime).isData, hinputsData, houtputsData, hinputCountData,
    houtputCountData]

end TransactionRecord.WellFormed

theorem TransactionRecord.isData_address {r : TransactionRecord} (h : r.document.IsData)
    {o : KeptOutput} (ho : o ∈ r.outputs) : o.address.IsData := by
  cases h with
  | mapping _ hfields =>
    cases hfields ("txOutputs", .list (r.outputs.map KeptOutput.document)) (by simp) with
    | list hitems =>
      cases hitems o.document (List.mem_map_of_mem ho) with
      | mapping _ hvalues => exact hvalues ("address", o.address) (by simp)

end BlockArchive
