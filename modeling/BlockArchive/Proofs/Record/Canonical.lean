import BlockArchive.Proofs.Chain.Reading
import BlockArchive.Proofs.Record.WellFormed

/-!
# Canonical documents

A record is found again in the text of its document, as the record itself and as what a look-up
gives of it. Other documents can be read as records, too: fields may be missing, there may be more
of them, and the stated numbers of inputs and outputs are not looked at. The document of what is
read of them is canonical.

* `Document.reread` writes a document, reads the text and takes up what it says;
* `Document.reread_of_isData`: for data that makes no difference;
* `StoredTransaction.ofDocument_of_transaction`: any document that can be read as a transaction is
  read by a look-up as the view of that transaction;
* `Document.reread_records` is the whole of it.
-/

namespace BlockArchive

/-- What is taken up of a document on its way through its text. -/
def Document.reread {σ α : Type} (take : Value → Except Fault α) (d : Value) : Act σ α := do
  let text ← Act.lift (Document.write d)
  let v ← Document.read text
  Act.lift (take v)

/-- Data is taken up behind its text as it is before. -/
theorem Document.reread_of_isData {σ α : Type} {take : Value → Except Fault α} {d : Value} {x : α}
    (hd : d.IsData) (htake : take d = .ok x) : (reread take d : Act σ α) = pure x := by
  rw [reread, write_of_isData hd, Act.lift, pure_bind, read_render hd, pure_bind, htake, Act.lift]

/-! ### Two readers of transactions -/

/-- A look-up reads a transaction's document as the view of that transaction. -/
theorem StoredTransaction.ofDocument_of_transaction {d : Value} {r : TransactionRecord}
    (h : TransactionRecord.ofDocument d = .ok r) : ofDocument d = .ok (ofRecord r) := by
  obtain ⟨hash, hhash, h⟩ := Except.bind_ok h
  obtain ⟨blockHash, hblock, h⟩ := Except.bind_ok h
  obtain ⟨version, -, h⟩ := Except.bind_ok h
  obtain ⟨lockTime, -, h⟩ := Except.bind_ok h
  obtain ⟨inputs, -, h⟩ := Except.bind_ok h
  obtain ⟨outputs, houtputs, h⟩ := Except.bind_ok h
  obtain rfl := Except.ok.inj h
  rw [ofDocument, hhash, hblock, houtputs]
  rfl

/-! ### Records behind their texts -/

namespace TransactionRecord.Typed

variable {σ : Type} {r : TransactionRecord}

theorem reread (h : r.Typed) :
    (Document.reread ofDocument r.document : Act σ TransactionRecord) = pure r :=
  Document.reread_of_isData h.isData r.ofDocument_document

theorem reread_stored (h : r.Typed) :
    (Document.reread StoredTransaction.ofDocument r.document : Act σ StoredTransaction) =
      pure (StoredTransaction.ofRecord r) :=
  Document.reread_of_isData h.isData
    (StoredTransaction.ofDocument_of_transaction r.ofDocument_document)

end TransactionRecord.Typed

theorem BlockRecord.Typed.reread {σ : Type} {b : BlockRecord} (h : b.Typed) :
    (Document.reread ofDocument b.document : Act σ BlockRecord) = pure b :=
  Document.reread_of_isData h.isData b.ofDocument_document

/-- **Records go through their texts.** Transactions and blocks with fields of their declared types
are found again behind the texts of their documents, transactions also as what a look-up gives of
them. Whatever a document is read as, the document of that is canonical: it is read as the same
transaction, as such and behind its text, it states how many inputs and outputs it lists, and a
look-up reads the first document as the view of that transaction. -/
theorem Document.reread_records :
    (∀ r : TransactionRecord, r.Typed → ∀ σ : Type,
      (reread TransactionRecord.ofDocument r.document : Act σ TransactionRecord) = pure r ∧
      (reread StoredTransaction.ofDocument r.document : Act σ StoredTransaction) =
        pure (StoredTransaction.ofRecord r)) ∧
    (∀ b : BlockRecord, b.Typed → ∀ σ : Type,
      (reread BlockRecord.ofDocument b.document : Act σ BlockRecord) = pure b) ∧
    ∀ (d : Value) (r : TransactionRecord), TransactionRecord.ofDocument d = .ok r →
      TransactionRecord.ofDocument r.document = .ok r ∧ r.Counted ∧
      StoredTransaction.ofDocument d = .ok (StoredTransaction.ofRecord r) ∧
      (r.Typed → ∀ σ : Type,
        (reread TransactionRecord.ofDocument r.document : Act σ TransactionRecord) = pure r) :=
  ⟨fun _ hr _ => ⟨hr.reread, hr.reread_stored⟩, fun _ hb _ => hb.reread,
    fun _ r hd => ⟨r.ofDocument_document, r.counted,
      StoredTransaction.ofDocument_of_transaction hd, fun hr _ => hr.reread⟩⟩

/-- A document that leaves out what it may, states wrong numbers and holds more than is read. -/
def TransactionRecord.bareDocument : Value :=
  .mapping [("note", .null), ("blockHash", .string "bb"), ("txHash", .string "aa"),
    ("inputCount", .int 7),
    ("txInputs", .list [.mapping [("indexIn", .int 0), ("hashPrevOut", .string "cc"),
      ("indexPrevOut", .int 3), ("txHash", .string "aa"), ("note", .bool true)]]),
    ("txOutputs",
      .list [.mapping [("value", .int 5), ("indexOut", .int 0), ("txHash", .string "aa")]])]

/-- The transaction that is read of it. -/
def TransactionRecord.bare : TransactionRecord :=
  ⟨.string "aa", .string "bb", .int 1, .int 0,
    [⟨.string "aa", .int 0, .string "cc", .int 3, .string "", .int 0, .int 0, .string ""⟩],
    [⟨.string "aa", .int 0, .int 5, .string "", .string ""⟩]⟩

/-- A block with a negative version. -/
def BlockRecord.sample : BlockRecord :=
  ⟨.string "bb", .int 2, .int (-1), .int 285, .string "aa", .string "é", .int 1231006505,
    .int 486604799, .int 1, .int 2083236893⟩

theorem TransactionRecord.typed_bare : bare.Typed := by
  have hshort : bare.document.Short := by
    unfold Value.Short
    decide +kernel
  refine TransactionRecord.Declared.typed
    ⟨⟨_, rfl⟩, ⟨_, rfl⟩, ⟨_, rfl⟩, ⟨_, rfl⟩, List.forall_mem_singleton.2 ?_,
      List.forall_mem_singleton.2 ?_⟩ hshort
  · exact ⟨⟨_, rfl⟩, ⟨_, rfl⟩, ⟨_, rfl⟩, ⟨_, rfl⟩, ⟨_, rfl⟩, ⟨_, rfl⟩, ⟨_, rfl⟩, ⟨_, rfl⟩⟩
  · exact ⟨⟨_, rfl⟩, ⟨_, rfl⟩, ⟨_, rfl⟩, ⟨_, rfl⟩, ⟨_, rfl⟩⟩

theorem BlockRecord.typed_sample : sample.Typed := by
  have hshort : sample.document.Short := by
    unfold Value.Short
    decide +kernel
  have hdeclared : sample.Declared := ⟨⟨_, rfl⟩, ⟨_, rfl⟩, ⟨_, rfl⟩, ⟨_, rfl⟩, ⟨_, rfl⟩, ⟨_, rfl⟩,
    ⟨_, rfl⟩, ⟨_, rfl⟩, ⟨_, rfl⟩, ⟨_, rfl⟩⟩
  exact hdeclared.typed hshort

theorem Document.reread_bare :
    (TransactionRecord.bare.Typed ∧ BlockRecord.sample.Typed ∧
      TransactionRecord.ofDocument TransactionRecord.bareDocument = .ok .bare) ∧
    (reread TransactionRecord.ofDocument TransactionRecord.bare.document :
      Act Unit TransactionRecord) = pure .bare ∧
    (reread BlockRecord.ofDocument BlockRecord.sample.document : Act Unit BlockRecord) =
      pure .sample ∧
    TransactionRecord.bare.Counted ∧
    StoredTransaction.ofDocument TransactionRecord.bareDocument =
      .ok (StoredTransaction.ofRecord .bare) :=
  have htyped := TransactionRecord.typed_bare
  have hread : TransactionRecord.ofDocument TransactionRecord.bareDocument = .ok .bare := rfl
  have hcanonical := reread_records.2.2 TransactionRecord.bareDocument .bare hread
  ⟨⟨htyped, BlockRecord.typed_sample, hread⟩, (reread_records.1 .bare htyped Unit).1,
    reread_records.2.1 .sample BlockRecord.typed_sample Unit, hcanonical.2.1, hcanonical.2.2.1⟩

end BlockArchive
