import BlockArchive.Proofs.Act.Invariant
import BlockArchive.Proofs.Record.WellFormed
import BlockArchive.Proofs.Store.Appending

/-!
# Stores that answer from what they keep

A look-up that does not fail gives the transaction last written under a hash. The store in memory
keeps the records themselves; the store in tables keeps the texts of their documents, so it gives
what is read back from them.

* `Answering` is the class of such stores. `Answering.Readable` says which records are given back as
  they were written: in memory all of them, in tables those whose documents are data;
* `TableStore.query_answers` is about any question to the store in tables, and
  `TableStore.find_answers` about look-ups.
-/

namespace BlockArchive

variable {σ α : Type}

/-- Look-ups give what was last written. -/
class Answering (σ : Type) [Store σ] extends Appending σ where
  /-- The record can be given back as it was written. -/
  Readable : TransactionRecord → Prop
  /-- A look-up gives the transaction last written under the hash, unless it fails. -/
  find_answer (hash : String) {d : Desk σ} {k : Contents} {answer : Option StoredTransaction} :
    Keeps d.state k → (∀ r ∈ k.transactions, Readable r) →
    ((Store.find hash).runAt d).1 = .ok answer → answer = k.lookup? hash
  /-- Well-formed transactions that are kept can be given back if each address in their inputs is a
  text or that of an output which can be. -/
  readable_of_wellFormed {s : σ} {k : Contents} {P : Value → Prop} {r : TransactionRecord} :
    Keeps s k → r ∈ k.transactions → r.WellFormed P →
    (∀ a, P a → a.IsText ∨ ∃ q, Readable q ∧ ∃ o ∈ q.outputs, a = o.address) → Readable r

theorem Answering.find_ensures [Store σ] [Answering σ] {k : Contents}
    (hk : ∀ r ∈ k.transactions, Readable σ r) (hash : String) :
    Act.Ensures (Appending.Keeps · k) (· = k.lookup? hash) (Store.find hash : Act σ _) :=
  fun _ hd => ⟨Appending.find_keeps hash hd, fun _ h => find_answer hash hd hk h⟩

instance : Answering MemoryStore where
  Readable _ := True
  find_answer hash d k answer hd _ h := by
    rw [MemoryStore.find_runAt] at h
    obtain rfl := Except.ok.inj h
    subst hd
    exact d.state.lookup?_eq hash
  readable_of_wellFormed _ _ _ _ := trivial

/-- A store that does not fail answers as it did. -/
instance [Store σ] [Answering σ] : Answering (Flaky σ) where
  Readable := Answering.Readable σ
  find_answer hash d k answer hd hk h := by
    simp only [Store.find, Flaky.call_runAt] at h
    split at h
    · cases h
    · exact Answering.find_answer hash (d := ⟨d.state.store, d.rows⟩) hd hk h
  readable_of_wellFormed {s} _ _ _ := Answering.readable_of_wellFormed (s := s.store)

/-! ### The store in tables -/

namespace TableStore

variable {k : Contents}

theorem connect_ensures : Act.Ensures (StandsFor · k) (·.working.Stands k) connect := by
  intro d hd
  have hconnect := hd.connect
  refine ⟨hconnect, fun c hc => ?_⟩
  obtain ⟨why, hrun⟩ | ⟨c', d', hrun, hc', -⟩ := connect_cases d
  · rw [hrun] at hc
    cases hc
  · rw [hrun] at hc hconnect
    obtain rfl := Except.ok.inj hc
    obtain ⟨-, db, hseen, hdb⟩ := hconnect
    rw [seen, hc'] at hseen
    obtain rfl := Except.ok.inj hseen
    exact hdb

/-- A question is put to tables that stand for what is kept. -/
theorem query_answers {f : Database → Except Fault α} :
    Act.Ensures (StandsFor · k) (fun x => ∃ db : Database, db.Stands k ∧ f db = .ok x)
      (query f) := by
  have hconnected : Act.Ensures (StandsFor · k) (·.working.Stands k) connected := by
    refine connect_ensures.bind fun c hc => ?_
    intro d hd
    cases hopen : c.isOpen with
    | true => exact ⟨hd, fun x hx => by obtain rfl := Except.ok.inj hx; exact hc⟩
    | false => exact ⟨hd, nofun⟩
  exact hconnected.bind fun c hc => .lift fun x hx => ⟨c.working, hc, hx⟩

theorem reporting_ensures {I : TableStore → Prop} {Q : α → Prop} {problem : String → Problem}
    {a : Act TableStore α} (ha : Act.Ensures I Q a) : Act.Ensures I Q (reporting problem a) := by
  intro d hd
  rw [reporting_desk]
  refine ⟨(ha d hd).1, fun x hx => (ha d hd).2 x ?_⟩
  simp only [reporting, Act.runAt_bind, Act.runAt_attempt] at hx
  generalize (a.runAt d).1 = outcome at hx ⊢
  split at hx
  · exact hx
  all_goals cases hx

theorem bears_of_standsFor {row : TableRow} {r : TransactionRecord}
    (h : row.StandsForTransaction r) (hash : String) :
    (row.first == .text hash) = MemoryStore.bears hash r := by
  obtain ⟨s, hfirst, hhash⟩ := h.hash
  simp only [hfirst, MemoryStore.bears, hhash]
  by_cases hs : s = hash
  · simp [hs]
  · simp [hs]

/-- The last row of a hash stands for the transaction last written under it. -/
theorem last?_stands {db : Database} (h : db.Stands k) {hash : String} {row : Option TableRow}
    (hrow : Database.last? .transactions (fun r => r.first == .text hash) db = .ok row) :
    Option.Rel TableRow.StandsForTransaction row
      (k.transactions.findRev? (MemoryStore.bears hash)) := by
  obtain ⟨t, ht, hrows⟩ := h.transactions
  rw [Database.last?, ht] at hrow
  obtain rfl := Except.ok.inj hrow
  rw [List.findRev?_eq_find?_reverse]
  exact Database.Holds.find?_rel (List.rel_reverse hrows) fun _ _ hr => bears_of_standsFor hr hash

theorem short_of_standsFor {row : TableRow} {r : TransactionRecord}
    (h : row.StandsForTransaction r) : r.document.Short := by
  obtain ⟨text, htext, -⟩ := h.document
  obtain ⟨hshort, -⟩ | ⟨-, hwrite⟩ := Document.write_cases r.document
  · exact hshort
  · rw [hwrite] at htext
    cases htext

theorem StandsFor.short {t : TableStore} (h : t.StandsFor k) :
    ∀ r ∈ k.transactions, r.document.Short := by
  obtain ⟨-, db, -, hdb⟩ := h
  obtain ⟨table, -, hrows⟩ := hdb.transactions
  generalize table.rows = rows at hrows
  generalize k.transactions = rs at hrows ⊢
  induction hrows with
  | nil => exact nofun
  | cons hrow _ ih => exact List.forall_mem_cons.2 ⟨short_of_standsFor hrow, ih⟩

theorem documentOf_data {row : TableRow} {r : TransactionRecord}
    (h : row.StandsForTransaction r) (hr : r.document.IsData) :
    documentOf (some row) = pure r.document := by
  obtain ⟨text, htext, hdocument⟩ := h.document
  obtain rfl := Except.ok.inj (htext.symm.trans (Document.write_of_isData hr))
  simp only [documentOf, hdocument, Cell.text?, Option.getD_some, Document.read_render hr]

/-- What is loaded is the document of the transaction last written under the hash. -/
theorem loadTransaction_answers (hk : ∀ r ∈ k.transactions, r.document.IsData) (hash : String) :
    Act.Ensures (StandsFor · k)
      (· = ((k.transactions.findRev? (MemoryStore.bears hash)).map
        TransactionRecord.document).getD .null) (loadTransaction hash) := by
  rw [loadTransaction, loadTransactionBy_string]
  refine (reporting_ensures query_answers).bind fun row ⟨db, hdb, hrow⟩ => ?_
  have hlast := last?_stands hdb hrow
  generalize hfound : k.transactions.findRev? (MemoryStore.bears hash) = found at hlast ⊢
  cases hlast with
  | none => exact .pure rfl
  | some hstands =>
    rw [List.findRev?_eq_find?_reverse] at hfound
    have hmem := List.mem_reverse.1 (List.mem_of_find?_eq_some hfound)
    rw [documentOf_data hstands (hk _ hmem)]
    exact .pure rfl

/-- **What is found is the transaction last written under the hash.** -/
theorem find_answers (hk : ∀ r ∈ k.transactions, r.document.IsData) (hash : String) :
    Act.Ensures (StandsFor · k) (· = k.lookup? hash) (find hash) := by
  refine (loadTransaction_answers hk hash).bind fun document hdocument => ?_
  subst hdocument
  unfold Contents.lookup?
  cases k.transactions.findRev? (MemoryStore.bears hash) with
  | none => exact .pure rfl
  | some r =>
    refine (Act.Ensures.lift (Q := (· = StoredTransaction.ofRecord r)) fun t ht => ?_).bind
      fun t ht => .pure (congrArg some ht)
    have hread := StoredTransaction.ofDocument_document r
    exact Except.ok.inj (ht.symm.trans hread)

instance : Answering TableStore where
  Readable r := r.document.IsData
  find_answer hash d _ _ hd hk h := (find_answers hk hash d hd).2 _ h
  readable_of_wellFormed {_ _ _ r} hs hr hwell haddress := by
    refine hwell.isData (fun a ha => ?_) (hs.short r hr)
    obtain htext | ⟨q, hq, o, ho, rfl⟩ := haddress a ha
    · exact htext.isData
    · exact q.isData_address hq ho

end TableStore

end BlockArchive
