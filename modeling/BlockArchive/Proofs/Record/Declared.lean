import BlockArchive.Proofs.Record.Documents

/-!
# Records whose numbers may be too long

The fields of a record are declared as texts and whole numbers, and a whole number may be of any
length. Where the document of such a record can be written, all its numbers are short enough, so the
record is read back from the text.

* `BlockRecord.Declared` and `TransactionRecord.Declared` say that fields have their declared types;
* `BlockRecord.Declared.typed` and `TransactionRecord.Declared.typed` are about records whose
  documents can be written;
* `Document.write_cases` says what writing a document comes to.
-/

namespace BlockArchive

/-- A whole number. -/
def Value.IsWhole (v : Value) : Prop := ∃ n, v = .int n

theorem Value.IsWhole.isShort {v : Value} (h : v.IsWhole) (hshort : v.Short) : v.IsShort := by
  obtain ⟨n, rfl⟩ := h
  exact ⟨n, rfl, hshort⟩

/-- A document is written as it is rendered, unless a number in it is too long. -/
theorem Document.write_cases (v : Value) :
    v.Short ∧ write v = .ok (Json.render Json.stored v) ∨
      ¬ v.Short ∧ write v = .error .longInteger := by
  unfold write
  cases h : hasLongInteger v with
  | false => exact .inl ⟨h, rfl⟩
  | true => exact .inr ⟨by simp [Value.Short, h], rfl⟩

/-- The fields of an output are of their declared types. -/
structure KeptOutput.Declared (o : KeptOutput) : Prop where
  txHash : o.txHash.IsText
  index : o.index.IsWhole
  value : o.value.IsWhole
  script : o.script.IsText
  address : o.address.IsText

/-- The fields of an input are of their declared types. -/
structure ResolvedInput.Declared (i : ResolvedInput) : Prop where
  txHash : i.txHash.IsText
  index : i.index.IsWhole
  previousHash : i.previousHash.IsText
  previousIndex : i.previousIndex.IsWhole
  script : i.script.IsText
  sequence : i.sequence.IsWhole
  value : i.value.IsWhole
  address : i.address.IsText

/-- The fields of a transaction are of their declared types. -/
structure TransactionRecord.Declared (r : TransactionRecord) : Prop where
  hash : r.hash.IsText
  blockHash : r.blockHash.IsText
  version : r.version.IsWhole
  lockTime : r.lockTime.IsWhole
  inputs : ∀ i ∈ r.inputs, i.Declared
  outputs : ∀ o ∈ r.outputs, o.Declared

/-- The fields of a block are of their declared types. -/
structure BlockRecord.Declared (b : BlockRecord) : Prop where
  hash : b.hash.IsText
  height : b.height.IsWhole
  version : b.version.IsWhole
  size : b.size.IsWhole
  previousHash : b.previousHash.IsText
  merkleRootHash : b.merkleRootHash.IsText
  timestamp : b.timestamp.IsWhole
  bits : b.bits.IsWhole
  transactionCount : b.transactionCount.IsWhole
  nonce : b.nonce.IsWhole

theorem KeptOutput.Declared.typed {o : KeptOutput} (h : o.Declared) (hshort : o.document.Short) :
    o.Typed := by
  simp only [document, Value.short_mapping, List.forall_mem_cons] at hshort
  obtain ⟨-, hindex, hvalue, -⟩ := hshort
  exact ⟨h.txHash, h.index.isShort hindex, h.value.isShort hvalue, h.script, h.address⟩

theorem ResolvedInput.Declared.typed {i : ResolvedInput} (h : i.Declared)
    (hshort : i.document.Short) : i.Typed := by
  simp only [document, Value.short_mapping, List.forall_mem_cons] at hshort
  obtain ⟨-, -, hprevious, hindex, -, hsequence, hvalue, -⟩ := hshort
  exact ⟨h.txHash, h.index.isShort hindex, h.previousHash, h.previousIndex.isShort hprevious,
    h.script, h.sequence.isShort hsequence, h.value.isShort hvalue, h.address⟩

/-- A transaction that can be written is read back. -/
theorem TransactionRecord.Declared.typed {r : TransactionRecord} (h : r.Declared)
    (hshort : r.document.Short) : r.Typed := by
  simp only [document, Value.short_mapping, List.forall_mem_cons, Value.short_list,
    List.forall_mem_map] at hshort
  obtain ⟨-, -, hversion, hlockTime, hinputCount, hinputs, houtputCount, houtputs, -⟩ := hshort
  exact ⟨h.hash, h.blockHash, h.version.isShort hversion, h.lockTime.isShort hlockTime,
    fun i hi => (h.inputs i hi).typed (hinputs i hi), ⟨_, rfl, hinputCount⟩,
    fun o ho => (h.outputs o ho).typed (houtputs o ho), ⟨_, rfl, houtputCount⟩⟩

/-- A block that can be written is read back. -/
theorem BlockRecord.Declared.typed {b : BlockRecord} (h : b.Declared) (hshort : b.document.Short) :
    b.Typed := by
  simp only [document, Value.short_mapping, List.forall_mem_cons] at hshort
  obtain ⟨-, hheight, hversion, hsize, -, -, htimestamp, hbits, hcount, hnonce, -⟩ := hshort
  exact ⟨h.hash, h.height.isShort hheight, h.version.isShort hversion, h.size.isShort hsize,
    h.previousHash, h.merkleRootHash, h.timestamp.isShort htimestamp, h.bits.isShort hbits,
    h.transactionCount.isShort hcount, h.nonce.isShort hnonce⟩

end BlockArchive
