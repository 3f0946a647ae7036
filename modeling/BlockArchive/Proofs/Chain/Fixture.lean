import BlockArchive.Ingest.Source
import BlockArchive.Proofs.Ingest.Cache
import BlockArchive.Proofs.Record.Documents

/-!
# Fixtures of given blocks

Every source can be had from a fixture: what is written out field by field is read back. Only an
address must be one that a fixture can have, since one that counts as false is read as none.

* `Source.form` is the fixture of a source, and `Block.form`, `Transaction.form`, `TxInput.form` and
  `EvaluatedOutput.form` are its parts;
* `Source.read_form` reads it back.
-/

namespace BlockArchive

theorem Value.toBytes_encode (b : Bytes) : (string (Hex.encode b)).toBytes = .ok b := by
  rw [toBytes, Hex.decode_encode]
  rfl

theorem Value.toHash_display (h : Hash) : (string h.display).toHash = .ok h := by
  obtain ⟨bytes, hlength⟩ := h
  simp [toHash, Hash.display, toBytes_encode, Hash.ofBytes?, hlength, bind, Except.bind]

/-! ### Inputs and outputs -/

/-- The input as a fixture has it. -/
def TxInput.form (i : TxInput) : Value :=
  .mapping [("prev_hash", .string i.source.hash.display), ("prev_index", .nat i.source.index),
    ("script_sig", .string (Hex.encode i.script)), ("sequence", .int i.sequence)]

/-- The output as a fixture has it. -/
def EvaluatedOutput.form (o : EvaluatedOutput) : Value :=
  .mapping [("value", .nat o.output.value.toNat),
    ("script_pubkey", .string (Hex.encode o.output.script)), ("address", o.evaluation.address),
    ("pattern", o.evaluation.pattern)]

/-- The address is none, or does not count as none. -/
def Evaluation.Stated (e : Evaluation) : Prop := e.address = .null ∨ e.address.isTruthy = true

theorem TxInput.read_form (i : TxInput) : read i.form = .ok i := by
  simp [read, form, Value.require, Value.optionalScript, Value.optionalInteger, Value.optional,
    Value.lookup?, Value.toHash_display, Value.toBytes_encode, Value.toInteger, Value.nat,
    OutPoint.make, bind, Except.bind, pure, Except.pure]

theorem EvaluatedOutput.read_form {o : EvaluatedOutput} (h : o.evaluation.Stated) :
    read o.form = .ok o := by
  have haddress : (if o.evaluation.address.isTruthy = true then o.evaluation.address else .null) =
      o.evaluation.address := by
    split
    · rfl
    · rename_i hfalse
      exact (h.resolve_right hfalse).symm
  have hamount : (Value.int o.output.value.toNat).toAmount = .ok o.output.value :=
    Value.toAmount_nat _
  simp [read, form, Value.require, Value.optionalScript, Value.optional, Value.lookup?, haddress,
    hamount, Value.toBytes_encode, Value.toInteger, Value.nat, bind, Except.bind, pure, Except.pure]

/-! ### Transactions and blocks -/

/-- The transaction as a fixture has it. -/
def Transaction.form (t : Transaction) : Value :=
  .mapping [("hash", .string t.hash.display), ("version", .int t.version),
    ("locktime", .int t.locktime), ("inputs", .list (t.inputs.map TxInput.form)),
    ("outputs", .list (t.outputs.map EvaluatedOutput.form))]

/-- The block as a fixture has it. -/
def Block.form (b : Block) : Value :=
  .mapping [("hash", .string b.header.hash.display), ("version", .int b.header.version),
    ("prev_hash", .string b.header.previous.display),
    ("merkle_root", .string b.header.merkleRoot.display),
    ("timestamp", .int b.header.timestamp), ("bits", .int b.header.bits),
    ("nonce", .int b.header.nonce), ("size", .int b.size),
    ("txs", .list (b.transactions.map Transaction.form))]

/-- The fixture of the source. -/
def Source.form (s : Source) : Value :=
  .mapping [("coin", .string s.coin.name), ("start_height", .nat s.startHeight),
    ("blocks", .list (s.blocks.map Block.form))]

theorem Transaction.read_form {t : Transaction} (h : ∀ o ∈ t.outputs, o.evaluation.Stated) :
    read t.form = .ok t := by
  have hinputs : t.form.optionalList "inputs" TxInput.read = .ok t.inputs :=
    Value.optionalList_map rfl fun i _ => i.read_form
  have houtputs : t.form.optionalList "outputs" EvaluatedOutput.read = .ok t.outputs :=
    Value.optionalList_map rfl fun o ho => EvaluatedOutput.read_form (h o ho)
  rw [read, hinputs, houtputs]
  simp [form, Value.require, Value.optionalInteger, Value.optional, Value.lookup?,
    Value.toHash_display, Value.toInteger, bind, Except.bind, pure, Except.pure]

theorem Block.read_form {b : Block}
    (h : ∀ t ∈ b.transactions, ∀ o ∈ t.outputs, o.evaluation.Stated) : read b.form = .ok b := by
  have hheader : BlockHeader.read b.form = .ok b.header := by
    simp [BlockHeader.read, form, Value.require, Value.optionalInteger, Value.optionalHash,
      Value.optional, Value.lookup?, Value.toHash_display, Value.toInteger, bind, Except.bind, pure,
      Except.pure]
  have htransactions : b.form.optionalList "txs" Transaction.read = .ok b.transactions :=
    Value.optionalList_map rfl fun t ht => Transaction.read_form (h t ht)
  rw [read, hheader, htransactions]
  simp [form, Value.optionalInteger, Value.optional, Value.lookup?, Value.toInteger, bind,
    Except.bind, pure, Except.pure]

theorem Coin.read_name (c : Coin) : read (.string c.name) = .ok c := by
  have hname : ofText? c.name = some c := by
    cases c <;> decide +kernel
  simp only [read, hname]

theorem Source.readBlocks_form {bs : List Block}
    (h : ∀ b ∈ bs, ∀ t ∈ b.transactions, ∀ o ∈ t.outputs, o.evaluation.Stated) (position : Nat) :
    readBlocks position (bs.map Block.form) = .ok bs := by
  induction bs generalizing position with
  | nil => rfl
  | cons b rest ih =>
    obtain ⟨hb, hrest⟩ := List.forall_mem_cons.1 h
    rw [List.map_cons, readBlocks, Block.read_form hb, ih hrest]
    rfl

/-- The fixture of a source is read as the source. -/
theorem Source.read_form {s : Source}
    (h : ∀ b ∈ s.blocks, ∀ t ∈ b.transactions, ∀ o ∈ t.outputs, o.evaluation.Stated) :
    read s.form = .ok s := by
  have hheader : readHeader s.form = .ok (s.coin, (s.startHeight : Int)) := by
    simp [readHeader, form, Value.optional, Value.lookup?, Coin.read_name, Value.toInteger,
      Value.nat, bind, Except.bind, pure, Except.pure]
  have hblocks : s.form.field? "blocks" = some (.list (s.blocks.map Block.form)) := rfl
  have hread := readBlocks_form h 0
  simp only [read, hblocks, hheader]
  simp [form, hread, Except.mapError, bind, Except.bind, pure, Except.pure]

end BlockArchive
