import BlockArchive.Store.Memory
import BlockArchive.Store.Table

/-!
# Stores of either kind, and calls that are made to fail

* `AnyStore` is a store in memory or in tables, with the queries of both;
* `Guarded` puts in front of a store a list of calls that fail with a given problem before they
  reach it.
-/

namespace BlockArchive

/-- A store of either kind. -/
inductive AnyStore where
  /-- In memory. -/
  | memory (m : MemoryStore)
  /-- In tables. -/
  | tables (t : TableStore)

/-- A call to a store. -/
inductive Call where
  /-- The check that the store answers. -/
  | probe
  /-- Writing a block. -/
  | insertBlock
  /-- Writing transactions. -/
  | insertTransactions
  /-- Looking up a transaction. -/
  | find
  /-- Loading the document of a transaction. -/
  | loadTransaction
  /-- Loading a block. -/
  | loadBlock
  /-- Counting blocks. -/
  | blockCount
  /-- Counting transactions. -/
  | transactionCount
  /-- The greatest height. -/
  | latestHeight
  /-- An entry about the database. -/
  | metadata
  /-- Closing. -/
  | close
deriving DecidableEq, Repr

namespace AnyStore

variable {α : Type}

/-- Works on a store with one act for each kind. -/
def on (m : Act MemoryStore α) (t : Act TableStore α) : Act AnyStore α :=
  Act.ofRun fun d =>
    match d.state with
    | .memory s =>
      let r := m.runAt ⟨s, d.rows⟩
      (r.1, ⟨.memory r.2.state, r.2.rows⟩)
    | .tables s =>
      let r := t.runAt ⟨s, d.rows⟩
      (r.1, ⟨.tables r.2.state, r.2.rows⟩)

instance : Store AnyStore where
  probe := on Store.probe Store.probe
  insertBlock r := on (Store.insertBlock r) (Store.insertBlock r)
  insertTransactions rs := on (Store.insertTransactions rs) (Store.insertTransactions rs)
  find hash := on (Store.find hash) (Store.find hash)

/-- A call that the store in memory does not know. -/
def unknown (name : String) : Act MemoryStore α :=
  Act.stop (.noAttribute "MemoryTransactionStore" name)

/-- The number of blocks. -/
def blockCount : Act AnyStore Nat := on (return (← Act.state).blocks.length) TableStore.blockCount

/-- The number of transactions. -/
def transactionCount : Act AnyStore Nat :=
  on (return (← Act.state).transactions.length) TableStore.transactionCount

/-- The greatest height of a block, or nothing. -/
def latestHeight : Act AnyStore Value :=
  on (do Act.lift (← Act.state).latestHeight) TableStore.latestHeight

/-- The document of the transaction last written under a hash. -/
def loadTransaction (hash : String) : Act AnyStore Value :=
  on (unknown "load_transaction_document") (TableStore.loadTransaction hash)

/-- The block last written at a height. -/
def loadBlock (height : Int) : Act AnyStore (Option BlockRecord) :=
  on (unknown "load_block") (TableStore.loadBlock height)

/-- The entry about the database under a key. -/
def metadata (key : String) : Act AnyStore (Option String) :=
  on (unknown "get_metadata") (TableStore.metadata key)

/-- Closes the store. -/
def close : Act AnyStore Unit := on (pure ()) TableStore.close

/-- The documents of all records, or all rows. -/
def dump : Act AnyStore Value :=
  on (do
    let m ← Act.state
    return .mapping [("blocks", .list (m.blocks.map BlockRecord.document)),
      ("transactions", .list (m.transactions.map TransactionRecord.document))]) TableStore.dump

/-- The text that shows a store in tables. -/
def text : AnyStore → String
  | .memory _ => "MemoryTransactionStore()"
  | .tables t => "SQLiteTransactionStore(db_path=" ++ t.location.text ++ ")"

/-- The store in tables, if it is one. -/
def tables? : AnyStore → Option TableStore
  | .memory _ => none
  | .tables t => some t

end AnyStore

/-- A store, and the calls that are made to fail. -/
structure Guarded (σ : Type) where
  /-- The store. -/
  store : σ
  /-- The problems with which calls fail. -/
  failures : List (Call × Problem) := []

namespace Guarded

variable {σ α : Type}

/-- Makes a call fail from now on, or no longer. -/
def setFailure (g : Guarded σ) (c : Call) (p : Option Problem) : Guarded σ :=
  { g with failures := g.failures.filter (fun f => f.1 ≠ c) ++ (p.map fun p => (c, p)).toList }

/-- Performs an act on the store, unless one of the calls it makes is to fail. -/
def passing (calls : List Call) (a : Act σ α) : Act (Guarded σ) α := do
  match (← Act.state).failures.find? fun f => calls.contains f.1 with
  | some f => Act.stop (.problem f.2)
  | none => Act.within Guarded.store (fun s g => { g with store := s }) a

instance [Store σ] : Store (Guarded σ) where
  probe := passing [.probe] Store.probe
  insertBlock r := passing [.insertBlock] (Store.insertBlock r)
  insertTransactions rs := passing [.insertTransactions] (Store.insertTransactions rs)
  find hash := passing [.find, .loadTransaction] (Store.find hash)

end Guarded

end BlockArchive
