import BlockArchive.Proofs.Store.Memory

/-!
# Stores whose calls are all or nothing

A store may fail at any call. What the pipeline relies on is only that a call which fails has done
nothing, and that one which succeeds has done its work.

* `Contents` is what a store keeps, `AllOrNothing` the property of its calls;
* `Traced` is a store that notes which of its calls failed, and with which fault;
* `Flaky` is a store that fails by a script before it does anything.

Batches are only asked to be all or nothing if the hashes in them are texts, as they are in every
batch that the pipeline writes: the store in memory leaves a batch half written when it comes upon a
hash that cannot serve as a key.

The store in tables is not among them: its rows do not tell what records they were made of. What can
be said of it, and what both kinds have in common, is in `Proofs.Store.Growing`.
-/

namespace BlockArchive

/-- The records that a store keeps, in the order in which they were written. -/
structure Contents where
  /-- The blocks. -/
  blocks : List BlockRecord
  /-- The transactions. -/
  transactions : List TransactionRecord

namespace Contents

/-- The contents with a block added. -/
def addBlock (c : Contents) (r : BlockRecord) : Contents := { c with blocks := c.blocks ++ [r] }

/-- The contents with transactions added. -/
def addTransactions (c : Contents) (rs : List TransactionRecord) : Contents :=
  { c with transactions := c.transactions ++ rs }

/-- The transaction last written under a hash. -/
def lookup? (c : Contents) (hash : String) : Option StoredTransaction :=
  (c.transactions.findRev? (MemoryStore.bears hash)).map StoredTransaction.ofRecord

@[simp] theorem addTransactions_nil (c : Contents) : c.addTransactions [] = c := by
  simp [addTransactions]

end Contents

variable {σ α : Type}

/-- The calls of a store do all of their work or none of it. -/
class AllOrNothing (σ : Type) [Store σ] where
  /-- What the store keeps. -/
  contents : σ → Contents
  /-- Looking up changes nothing. -/
  find_contents (hash : String) (d : Desk σ) :
    contents ((Store.find hash).runAt d).2.state = contents d.state
  /-- A look-up gives the transaction last written under the hash, unless it fails. -/
  find_answer (hash : String) (d : Desk σ) {answer : Option StoredTransaction} :
    ((Store.find hash).runAt d).1 = .ok answer → answer = (contents d.state).lookup? hash
  /-- A block is written, unless the call fails. -/
  insertBlock_contents (r : BlockRecord) (d : Desk σ) :
    contents ((Store.insertBlock r).runAt d).2.state =
      match ((Store.insertBlock r).runAt d).1 with
      | .ok _ => (contents d.state).addBlock r
      | .error _ => contents d.state
  /-- A batch is written as a whole, unless the call fails. -/
  insertTransactions_contents (rs : List TransactionRecord) (d : Desk σ) :
    (∀ r ∈ rs, ∃ s, r.hash = .string s) →
    contents ((Store.insertTransactions rs).runAt d).2.state =
      match ((Store.insertTransactions rs).runAt d).1 with
      | .ok _ => (contents d.state).addTransactions rs
      | .error _ => contents d.state

/-! ### The store in memory -/

instance : AllOrNothing MemoryStore where
  contents m := ⟨m.blocks, m.transactions⟩
  find_contents hash d := by rw [MemoryStore.find_runAt]; rfl
  find_answer hash d answer h := by
    rw [MemoryStore.find_runAt] at h
    cases h
    exact d.state.lookup?_eq hash
  insertBlock_contents r d := rfl
  insertTransactions_contents rs d h := by
    rw [MemoryStore.insertTransactions_runAt rs h]
    rfl

/-! ### Noting failures -/

/-- A call of a store. -/
inductive StoreCall where
  /-- Asking whether the store answers. -/
  | probe
  /-- Looking a hash up. -/
  | find (hash : String)
  /-- Writing a block. -/
  | insertBlock
  /-- Writing a batch. -/
  | insertTransactions
deriving DecidableEq

/-- A store and the calls of it that failed, each with its fault. -/
structure Traced (σ : Type) where
  /-- The store. -/
  store : σ
  /-- The calls that failed, in order. -/
  failed : List (StoreCall × Fault) := []

namespace Traced

/-- Makes a call, and notes it if it fails. -/
def call (q : StoreCall) (a : Act σ α) : Act (Traced σ) α := do
  match ← Act.attempt (Act.within store (fun s t => { t with store := s }) a) with
  | .ok x => return x
  | .error f => do
    Act.update fun t => { t with failed := t.failed ++ [(q, f)] }
    Act.stop f

/-- The calls noted once a call of an outcome was made. -/
def noted (failed : List (StoreCall × Fault)) (q : StoreCall) :
    Except Fault α → List (StoreCall × Fault)
  | .ok _ => failed
  | .error f => failed ++ [(q, f)]

theorem call_runAt (q : StoreCall) (a : Act σ α) (d : Desk (Traced σ)) :
    (call q a).runAt d =
      ((a.runAt ⟨d.state.store, d.rows⟩).1,
        ⟨⟨(a.runAt ⟨d.state.store, d.rows⟩).2.state,
            noted d.state.failed q (a.runAt ⟨d.state.store, d.rows⟩).1⟩,
          (a.runAt ⟨d.state.store, d.rows⟩).2.rows⟩) := by
  simp only [call, Act.runAt_bind, Act.runAt_attempt, Act.runAt_within]
  cases h : (a.runAt ⟨d.state.store, d.rows⟩).1 <;> simp [noted]

instance [Store σ] : Store (Traced σ) where
  probe := call .probe Store.probe
  insertBlock r := call .insertBlock (Store.insertBlock r)
  insertTransactions rs := call .insertTransactions (Store.insertTransactions rs)
  find hash := call (.find hash) (Store.find hash)

end Traced

/-! ### Failing by a script -/

/-- A store and the faults with which its next calls fail, if they do. -/
structure Flaky (σ : Type) where
  /-- The store. -/
  store : σ
  /-- For each of the next calls the fault with which it fails, or nothing. -/
  script : List (Option Fault)

namespace Flaky

/-- Makes a call, unless it is its turn to fail. -/
def call (a : Act σ α) : Act (Flaky σ) α := do
  let next := (← Act.state).script.head?.join
  Act.update fun s => { s with script := s.script.tail }
  match next with
  | some f => Act.stop f
  | none => Act.within store (fun s t => { t with store := s }) a

instance [Store σ] : Store (Flaky σ) where
  probe := call Store.probe
  insertBlock r := call (Store.insertBlock r)
  insertTransactions rs := call (Store.insertTransactions rs)
  find hash := call (Store.find hash)

theorem call_runAt (a : Act σ α) (d : Desk (Flaky σ)) :
    (call a).runAt d =
      match d.state.script.head?.join with
      | some f => (.error f, ⟨⟨d.state.store, d.state.script.tail⟩, d.rows⟩)
      | none => ((a.runAt ⟨d.state.store, d.rows⟩).1,
          ⟨⟨(a.runAt ⟨d.state.store, d.rows⟩).2.state, d.state.script.tail⟩,
            (a.runAt ⟨d.state.store, d.rows⟩).2.rows⟩) := by
  simp only [call, Act.runAt_bind, Act.runAt_state, Act.runAt_update]
  split <;> simp

/-- Failing before anything is done is doing nothing. -/
instance [Store σ] [AllOrNothing σ] : AllOrNothing (Flaky σ) where
  contents s := AllOrNothing.contents s.store
  find_contents hash d := by
    simp only [Store.find, call_runAt]
    split
    · rfl
    · exact AllOrNothing.find_contents hash _
  find_answer hash d answer h := by
    simp only [Store.find, call_runAt] at h
    split at h
    · cases h
    · exact AllOrNothing.find_answer hash _ h
  insertBlock_contents r d := by
    simp only [Store.insertBlock, call_runAt]
    split
    · rfl
    · exact AllOrNothing.insertBlock_contents r _
  insertTransactions_contents rs d hrs := by
    simp only [Store.insertTransactions, call_runAt]
    split
    · rfl
    · exact AllOrNothing.insertTransactions_contents rs _ hrs

end Flaky

end BlockArchive
