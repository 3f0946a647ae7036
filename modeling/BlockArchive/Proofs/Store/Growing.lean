import BlockArchive.Proofs.Store.Answering

/-!
# What calls add to what a store keeps

Some stores are known by their contents (`AllOrNothing`), and of others it is only known which
records they may be said to keep (`Appending`): rows of tables do not tell what records they were
made of. What the pipeline relies on is the same: a call that succeeds adds what it is to write, and
every other call adds nothing.

* `Store.Grows` says so of a relation between a store and records, and `Store.Tells` that look-ups
  give what was last written among the records;
* `AllOrNothing.grows` and `Appending.grows`, `AllOrNothing.tells` and `Answering.tells`: both holds
  of both kinds of stores. With the latter it holds of the store in tables.
-/

namespace BlockArchive

variable {σ : Type} [Store σ]

/-- Calls that succeed add what they are to write to the records that the store keeps, and all other
calls add nothing. -/
structure Store.Grows (Keeps : σ → Contents → Prop) : Prop where
  find (hash : String) {d : Desk σ} {k : Contents} : Keeps d.state k →
    Keeps ((Store.find hash).runAt d).2.state k
  insertBlock {r : BlockRecord} {d : Desk σ} {k : Contents} : r.hash.IsText → Keeps d.state k →
    Keeps ((Store.insertBlock r).runAt d).2.state
      (k.when (k.addBlock r) ((Store.insertBlock r).runAt d).1)
  insertTransactions {rs : List TransactionRecord} {d : Desk σ} {k : Contents} :
    (∀ r ∈ rs, r.Named) → Keeps d.state k →
    Keeps ((Store.insertTransactions rs).runAt d).2.state
      (k.when (k.addTransactions rs) ((Store.insertTransactions rs).runAt d).1)

/-- A store that keeps these transactions gives the one last written under a hash, unless the
look-up fails. -/
def Store.Tells (Keeps : σ → Contents → Prop) (rs : List TransactionRecord) : Prop :=
  ∀ (hash : String) (d : Desk σ) (k : Contents) (answer : Option StoredTransaction),
    k.transactions = rs → Keeps d.state k → ((Store.find hash).runAt d).1 = .ok answer →
    answer = k.lookup? hash

namespace AllOrNothing

variable [AllOrNothing σ]

/-- The records are the contents of the store. -/
def Keeps (s : σ) (k : Contents) : Prop := contents s = k

theorem grows : Store.Grows (Keeps (σ := σ)) where
  find hash d _ hd := (find_contents hash d).trans hd
  insertBlock {r d _} _ hd := by
    subst hd
    refine (insertBlock_contents r d).trans ?_
    cases ((Store.insertBlock r).runAt d).1 <;> rfl
  insertTransactions {rs d _} hrs hd := by
    subst hd
    refine (insertTransactions_contents rs d fun r hr => (hrs r hr).hash).trans ?_
    cases ((Store.insertTransactions rs).runAt d).1 <;> rfl

theorem tells (rs : List TransactionRecord) : Store.Tells (Keeps (σ := σ)) rs := by
  rintro hash d k answer - rfl h
  exact find_answer hash d h

end AllOrNothing

theorem Appending.grows [Appending σ] : Store.Grows (Appending.Keeps (σ := σ)) where
  find hash := find_keeps hash
  insertBlock := insertBlock_keeps
  insertTransactions := insertTransactions_keeps

theorem Answering.tells [Answering σ] {rs : List TransactionRecord}
    (hrs : ∀ r ∈ rs, Readable σ r) : Store.Tells (Appending.Keeps (σ := σ)) rs := by
  rintro hash d k answer rfl hd h
  exact find_answer hash hd hrs h

end BlockArchive
