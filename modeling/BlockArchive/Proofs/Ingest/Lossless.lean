import BlockArchive.Proofs.Chain.Fixture
import BlockArchive.Proofs.Ingest.Batch
import BlockArchive.Proofs.Ingest.History

/-!
# What is kept of a block determines it

A block is kept as the document of the block and one document for each of its transactions. Between
them these hold all that the block holds but the names of the patterns of its scripts, and whether
an address that is missing is none or the empty one: all the rest is read back from them, whatever
its inputs were found to be paid.

* `Block.restore` reads a block and its height from its documents: hashes and scripts from their hex
  texts, numbers as they are;
* `Block.bare` is a block as it can be read back, and `Block.bare_eq_iff` says that blocks which are
  the same when bare are alike but for pattern names and missing addresses;
* `TransactionRecord.unpaid` is a record without what its inputs are paid;
* `Block.restore_batch`: the documents of a block are read back as the block and its height, so that
  blocks with the same documents are alike.
-/

namespace BlockArchive

/-! ### Reading back -/

/-- Reads an input back. -/
def ResolvedInput.restore (i : ResolvedInput) : Except Fault TxInput := do
  let hash ← i.previousHash.toHash
  let index ← i.previousIndex.toInteger
  let source ← OutPoint.make hash index
  let script ← i.script.toBytes
  let sequence ← i.sequence.toInteger
  return ⟨source, script, sequence⟩

/-- Reads an output back, which has no pattern. -/
def KeptOutput.restore (o : KeptOutput) : Except Fault EvaluatedOutput := do
  let value ← o.value.toAmount
  let script ← o.script.toBytes
  return ⟨⟨value, script⟩, ⟨o.address, .null⟩⟩

/-- Reads a transaction back. -/
def TransactionRecord.restore (r : TransactionRecord) : Except Fault Transaction := do
  let hash ← r.hash.toHash
  let version ← r.version.toInteger
  let locktime ← r.lockTime.toInteger
  let inputs ← r.inputs.mapM ResolvedInput.restore
  let outputs ← r.outputs.mapM KeptOutput.restore
  return ⟨hash, version, locktime, inputs, outputs⟩

/-- Reads the header of a block back. -/
def BlockRecord.restore (r : BlockRecord) : Except Fault BlockHeader := do
  let hash ← r.hash.toHash
  let version ← r.version.toInteger
  let previous ← r.previousHash.toHash
  let merkleRoot ← r.merkleRootHash.toHash
  let timestamp ← r.timestamp.toInteger
  let bits ← r.bits.toInteger
  let nonce ← r.nonce.toInteger
  return ⟨hash, version, previous, merkleRoot, timestamp, bits, nonce⟩

/-- Reads a block and its height back from the document of the block and those of its
transactions. -/
def Block.restore (document : Value) (batch : List Value) : Except Fault (Block × Int) := do
  let r ← BlockRecord.ofDocument document
  let header ← r.restore
  let size ← r.size.toInteger
  let height ← r.height.toInteger
  let records ← batch.mapM TransactionRecord.ofDocument
  let transactions ← records.mapM TransactionRecord.restore
  return (⟨header, size, transactions⟩, height)

/-! ### What is read back -/

/-- The evaluation without its pattern; an address that counts as false is the empty one. -/
def Evaluation.bare (e : Evaluation) : Evaluation := ⟨e.keptAddress, .null⟩

/-- The output without the pattern of its script. -/
def EvaluatedOutput.bare (o : EvaluatedOutput) : EvaluatedOutput := ⟨o.output, o.evaluation.bare⟩

/-- The transaction without the patterns of its scripts. -/
def Transaction.bare (t : Transaction) : Transaction :=
  { t with outputs := t.outputs.map EvaluatedOutput.bare }

/-- The block without the patterns of its scripts. -/
def Block.bare (b : Block) : Block :=
  { b with transactions := b.transactions.map Transaction.bare }

/-- The evaluations have the same address, or both have none. -/
def Evaluation.Alike (e f : Evaluation) : Prop :=
  e.address = f.address ∨ e.address.isTruthy = false ∧ f.address.isTruthy = false

/-- The outputs are the same but for the patterns of their scripts and addresses that are
missing. -/
structure EvaluatedOutput.Alike (o p : EvaluatedOutput) : Prop where
  output : o.output = p.output
  evaluation : o.evaluation.Alike p.evaluation

/-- So are the transactions. -/
structure Transaction.Alike (t u : Transaction) : Prop where
  hash : t.hash = u.hash
  version : t.version = u.version
  locktime : t.locktime = u.locktime
  inputs : t.inputs = u.inputs
  outputs : List.Forall₂ EvaluatedOutput.Alike t.outputs u.outputs

/-- So are the blocks. -/
structure Block.Alike (b c : Block) : Prop where
  header : b.header = c.header
  size : b.size = c.size
  transactions : List.Forall₂ Transaction.Alike b.transactions c.transactions

theorem Evaluation.bare_eq_iff {e f : Evaluation} : e.bare = f.bare ↔ e.Alike f := by
  simp only [bare, mk.injEq, and_true, keptAddress, Alike]
  cases he : e.address.isTruthy <;> cases hf : f.address.isTruthy
  · simp
  · -- an address that counts as true is not the empty one
    simp only [Bool.false_eq_true, ↓reduceIte, and_false, or_false, reduceCtorEq]
    constructor
    · intro h
      rw [← h] at hf
      cases hf
    · intro h
      rw [h, hf] at he
      cases he
  · simp only [Bool.false_eq_true, ↓reduceIte, and_true, or_false, reduceCtorEq]
    constructor
    · intro h
      rw [h] at he
      cases he
    · intro h
      rw [h, hf] at he
      cases he
  · simp

theorem EvaluatedOutput.bare_eq_iff {o p : EvaluatedOutput} : o.bare = p.bare ↔ o.Alike p := by
  rw [bare, bare, mk.injEq, Evaluation.bare_eq_iff]
  exact ⟨fun ⟨houtput, hevaluation⟩ => ⟨houtput, hevaluation⟩,
    fun ⟨houtput, hevaluation⟩ => ⟨houtput, hevaluation⟩⟩

theorem map_eq_map_iff_forall₂ {α β : Type} {f : α → β} {R : α → α → Prop}
    (h : ∀ x y, f x = f y ↔ R x y) {xs ys : List α} :
    xs.map f = ys.map f ↔ List.Forall₂ R xs ys := by
  rw [← List.forall₂_eq_eq_eq, List.forall₂_map_left_iff, List.forall₂_map_right_iff]
  simp only [h]

theorem Transaction.bare_eq_iff {t u : Transaction} : t.bare = u.bare ↔ t.Alike u := by
  rw [bare, bare, mk.injEq, map_eq_map_iff_forall₂ fun _ _ => EvaluatedOutput.bare_eq_iff]
  exact ⟨fun ⟨h₁, h₂, h₃, h₄, h₅⟩ => ⟨h₁, h₂, h₃, h₄, h₅⟩,
    fun ⟨h₁, h₂, h₃, h₄, h₅⟩ => ⟨h₁, h₂, h₃, h₄, h₅⟩⟩

/-- Blocks are the same when bare exactly if they are alike. -/
theorem Block.bare_eq_iff {b c : Block} : b.bare = c.bare ↔ b.Alike c := by
  rw [bare, bare, mk.injEq, map_eq_map_iff_forall₂ fun _ _ => Transaction.bare_eq_iff]
  exact ⟨fun ⟨h₁, h₂, h₃⟩ => ⟨h₁, h₂, h₃⟩, fun ⟨h₁, h₂, h₃⟩ => ⟨h₁, h₂, h₃⟩⟩

/-! ### Records without payments -/

/-- The input without what it is paid. -/
def ResolvedInput.unpaid (i : ResolvedInput) : ResolvedInput :=
  { i with value := .null, address := .null }

/-- The record without what its inputs are paid. -/
def TransactionRecord.unpaid (r : TransactionRecord) : TransactionRecord :=
  { r with inputs := r.inputs.map ResolvedInput.unpaid }

theorem TransactionRecord.restore_unpaid (r : TransactionRecord) :
    r.unpaid.restore = r.restore := by
  have hinputs : (r.inputs.map ResolvedInput.unpaid).mapM ResolvedInput.restore =
      r.inputs.mapM ResolvedInput.restore := List.mapM_map
  rw [restore, restore, unpaid, hinputs]

/-! ### Documents of a block -/

theorem ResolvedInput.restore_record (txHash : String) (index : Nat) (i : TxInput) (p : Payment) :
    (Resolution.record txHash index i p).restore = .ok i := by
  simp [restore, Resolution.record, Value.toHash_display, Value.toBytes_encode, Value.toInteger,
    Value.nat, OutPoint.make, bind, Except.bind, pure, Except.pure]

theorem KeptOutput.restore_ofOutput (txHash : String) (index : Nat) (o : EvaluatedOutput) :
    (ofOutput txHash index o).restore = .ok o.bare := by
  have hamount : (Value.nat o.output.value.toNat).toAmount = .ok o.output.value :=
    Value.toAmount_nat _
  simp [restore, ofOutput, hamount, Value.toBytes_encode, EvaluatedOutput.bare, Evaluation.bare,
    bind, Except.bind, pure, Except.pure]

/-- A transaction is read back from any record of it. -/
theorem Transaction.Recorded.restore {blockHash : String} {t : Transaction} {r : TransactionRecord}
    (h : t.Recorded blockHash r) : r.restore = .ok t.bare := by
  have hinputs : r.inputs.mapM ResolvedInput.restore = .ok t.inputs := by
    refine Except.mapM_ok (List.forall₂_iff_get.2 ⟨h.inputCount, fun j hr ht => ?_⟩)
    obtain ⟨p, hp⟩ := h.inputs j _ (List.getElem?_eq_getElem ht)
    rw [List.getElem?_eq_getElem hr] at hp
    rw [List.get_eq_getElem, Option.some.inj hp, ResolvedInput.restore_record]
    rfl
  have houtputs : r.outputs.mapM KeptOutput.restore =
      .ok (t.outputs.map EvaluatedOutput.bare) := by
    rw [h.outputs, Transaction.kept]
    refine Except.mapM_ok (List.forall₂_iff_get.2 ⟨by simp, fun j hr ht => ?_⟩)
    simp only [List.get_eq_getElem, List.getElem_mapIdx, List.getElem_map,
      KeptOutput.restore_ofOutput]
  simp [TransactionRecord.restore, h.hash, h.version, h.lockTime, hinputs, houtputs,
    Value.toHash_display, Value.toInteger, Transaction.bare, bind, Except.bind, pure, Except.pure]

theorem TransactionRecord.mapM_ofDocument (rs : List TransactionRecord) :
    (rs.map document).mapM ofDocument = .ok rs :=
  Except.mapM_map_ok fun r _ => r.ofDocument_document

theorem BlockRecord.restore_ofBlock (b : Block) (height : Value) :
    (ofBlock b height).restore = .ok b.header := by
  simp [restore, ofBlock, Value.toHash_display, Value.toInteger, bind, Except.bind, pure,
    Except.pure]

/-- A block is read back from its document and those of its transactions. -/
theorem Block.restore_documents (b : Block) (height : Int) {blockHash : String}
    {rs : List TransactionRecord}
    (h : List.Forall₂ (Transaction.Recorded blockHash) b.transactions rs) :
    restore (BlockRecord.ofBlock b (.int height)).document (rs.map TransactionRecord.document) =
      .ok (b.bare, height) := by
  have hrecords := TransactionRecord.mapM_ofDocument rs
  have htransactions : rs.mapM TransactionRecord.restore =
      .ok (b.transactions.map Transaction.bare) := by
    refine Except.mapM_ok (List.forall₂_map_right_iff.2 (h.flip.imp fun r t hr => ?_))
    exact Transaction.Recorded.restore hr
  simp only [restore, BlockRecord.ofDocument_document, hrecords, bind, Except.bind,
    BlockRecord.restore_ofBlock, htransactions]
  rfl

theorem Block.restore_unpaid (document : Value) (rs : List TransactionRecord) :
    restore document ((rs.map TransactionRecord.unpaid).map TransactionRecord.document) =
      restore document (rs.map TransactionRecord.document) := by
  have hrestore : TransactionRecord.restore ∘ TransactionRecord.unpaid =
      TransactionRecord.restore := funext TransactionRecord.restore_unpaid
  have hbatch : (rs.map TransactionRecord.unpaid).mapM TransactionRecord.restore =
      rs.mapM TransactionRecord.restore := by
    rw [List.mapM_map, hrestore]
  simp only [restore, TransactionRecord.mapM_ofDocument, bind, Except.bind, hbatch]

/-- **What is written of a block determines it.** Two batches come about, whatever blocks they are
made of, over any stores, with any policies and caches. Then the first block and its height are read
back from its documents, also where these leave out what its inputs are paid; and where the other
block has the same documents but for that, it stands at the same height and is alike. -/
theorem Block.restore_batch {σ τ : Type} [Store σ] [Store τ] {b₁ b₂ : Block} (h₁ h₂ : Int)
    {policy₁ policy₂ : CoinbasePolicy} {c₁ c₂ : Cache} {d₁ : Desk (Resolution σ)}
    {d₂ : Desk (Resolution τ)} {rs₁ rs₂ : List TransactionRecord}
    (hrs₁ : ((Pipeline.batchFrom policy₁ b₁.header.hash.display c₁ b₁.transactions).runAt d₁).1 =
      .ok rs₁)
    (hrs₂ : ((Pipeline.batchFrom policy₂ b₂.header.hash.display c₂ b₂.transactions).runAt d₂).1 =
      .ok rs₂) :
    let r₁ := BlockRecord.ofBlock b₁ (.int h₁)
    let r₂ := BlockRecord.ofBlock b₂ (.int h₂)
    restore r₁.document (rs₁.map TransactionRecord.document) = .ok (b₁.bare, h₁) ∧
      restore r₁.document ((rs₁.map TransactionRecord.unpaid).map TransactionRecord.document) =
        .ok (b₁.bare, h₁) ∧
      (r₁ = r₂ → rs₁.map TransactionRecord.unpaid = rs₂.map TransactionRecord.unpaid →
        h₁ = h₂ ∧ b₁.Alike b₂) := by
  intro r₁ r₂
  obtain ⟨hrecorded₁, -⟩ := Pipeline.batchFrom_counts _ _ _ _ d₁ rs₁ hrs₁
  obtain ⟨hrecorded₂, -⟩ := Pipeline.batchFrom_counts _ _ _ _ d₂ rs₂ hrs₂
  have hrestore₁ := b₁.restore_documents h₁ hrecorded₁
  have hrestore₂ := b₂.restore_documents h₂ hrecorded₂
  refine ⟨hrestore₁, (restore_unpaid _ _).trans hrestore₁, fun hblock hbatch => ?_⟩
  -- both are read back from the same documents
  have hsame : Except.ok (ε := Fault) (b₁.bare, h₁) = .ok (b₂.bare, h₂) := by
    rw [← hrestore₁, ← hrestore₂, ← restore_unpaid, hbatch, restore_unpaid]
    exact congrArg (fun r => restore r.document _) hblock
  obtain ⟨hbare, hheight⟩ := Prod.mk.inj (Except.ok.inj hsame)
  exact ⟨hheight, bare_eq_iff.1 hbare⟩

/-- A block with an address that is none and a pattern, and one with the empty address instead. Of
the stores over which their batches are made only the second knows what is spent. -/
theorem Block.restore_batch_hops :
    let t := Transaction.hop (.repeated 1) ⟨.repeated 2, 0⟩ 5 ""
    let u := { t with outputs := [⟨⟨5, []⟩, ⟨.null, .string "NotRecognised"⟩⟩] }
    let b₁ := Block.holding [t]
    let b₂ := Block.holding [u]
    let d₁ : Desk (Resolution MemoryStore) := ⟨⟨{}, {}⟩, []⟩
    let d₂ : Desk (Resolution MemoryStore) :=
      ⟨⟨{ transactions := [Pipeline.minted (.repeated 2) 7 "first"] }, {}⟩, []⟩
    ∃ rs₁ rs₂,
      ((Pipeline.batchFrom .sentinel b₁.header.hash.display .empty b₁.transactions).runAt d₁).1 =
          .ok rs₁ ∧
        ((Pipeline.batchFrom .empty b₂.header.hash.display .empty b₂.transactions).runAt d₂).1 =
          .ok rs₂ ∧
        (rs₁.flatMap TransactionRecord.inputs).map ResolvedInput.value = [.nat 0] ∧
        (rs₂.flatMap TransactionRecord.inputs).map ResolvedInput.value = [.nat 7] ∧
        restore (BlockRecord.ofBlock b₂ (.int 7)).document
          (rs₂.map TransactionRecord.document) = .ok (b₂.bare, 7) ∧
        b₁.Alike b₂ := by
  intro t u b₁ b₂ d₁ d₂
  have hrs₁ : ((Pipeline.batchFrom .sentinel b₁.header.hash.display .empty b₁.transactions).runAt
      d₁).1 = .ok _ := rfl
  have hrs₂ : ((Pipeline.batchFrom .empty b₂.header.hash.display .empty b₂.transactions).runAt
      d₂).1 = .ok _ := rfl
  obtain ⟨-, -, halike⟩ := restore_batch 7 7 hrs₁ hrs₂
  obtain ⟨hrestore, -, -⟩ := restore_batch 7 7 hrs₂ hrs₁
  exact ⟨_, _, hrs₁, hrs₂, rfl, rfl, hrestore, (halike rfl rfl).2⟩

end BlockArchive
