import BlockArchive.Keyed
import BlockArchive.Number.Quantity
import BlockArchive.Store.Basic

/-!
# The store in memory

Keeps the records themselves, in the order in which they were written, and beside them an index of
the transactions by hash, in which the last one written stands. It counts how often it was asked and
written to. It serves dry runs.

* `MemoryStore` is the store, an instance of `Store`;
* `MemoryStore.add` writes a transaction, to the list and to the index;
* `MemoryStore.lookup?` is what a look-up finds: it reads the index.
-/

namespace BlockArchive

namespace MemoryStore

/-- The index with a transaction entered under its hash, in place of an earlier one. Look-ups are
by texts, so no other hash is entered. -/
def enter (index : List (String × TransactionRecord)) (r : TransactionRecord) :
    List (String × TransactionRecord) :=
  match r.hash with
  | .string s => Keyed.put s r index
  | _ => index

/-- The index of transactions entered one after the other. -/
def indexOf (rs : List TransactionRecord) : List (String × TransactionRecord) := rs.foldl enter []

end MemoryStore

/-- A store in memory. -/
structure MemoryStore where
  /-- The blocks written. -/
  blocks : List BlockRecord := []
  /-- The transactions written. -/
  transactions : List TransactionRecord := []
  /-- The transaction last written under each hash. -/
  index : List (String × TransactionRecord) := MemoryStore.indexOf transactions
  /-- How many look-ups were made. -/
  lookups : Nat := 0
  /-- How many batches were written. -/
  batches : Nat := 0
  /-- The store answers. -/
  available : Bool := true
  /-- The index is that of the transactions written. -/
  indexed : index = MemoryStore.indexOf transactions := by rfl

namespace MemoryStore

/-- The transaction last written under a hash, from the index. -/
def lookup? (m : MemoryStore) (hash : String) : Option StoredTransaction :=
  (Keyed.get? hash m.index).map StoredTransaction.ofRecord

/-- The store with a transaction written. -/
def add (m : MemoryStore) (r : TransactionRecord) : MemoryStore :=
  { m with
    transactions := m.transactions ++ [r]
    index := enter m.index r
    indexed := by simp [m.indexed, indexOf] }

/-- The type of a value that cannot serve as a key. -/
def unhashable? : Value → Option String
  | .list _ => some "list"
  | .mapping _ => some "dict"
  | .buffer _ => some "bytearray"
  | _ => none

/-- Writes transactions one after the other; one whose hash cannot serve as a key is still
written, though not to the index, and stops the rest. -/
def append : List TransactionRecord → Act MemoryStore Unit
  | [] => pure ()
  | r :: rest => do
    Act.update fun m => m.add r
    match unhashable? r.hash with
    | some type => Act.stop (.unhashable type)
    | none => append rest

/-- The first of two heights lies above the second; texts are compared by their code points. -/
def above (a b : Value) : Except Fault Bool :=
  let codes? : Value → Option (List Nat) := fun v => match v with
    | .string s => some (s.toList.map Char.toNat)
    | .torn t => some (t.points.map Text.Point.code)
    | _ => none
  let number? : Value → Option Quantity := fun v => match v with
    | .int n => some (.whole n)
    | .bool t => some (.whole (if t then 1 else 0))
    | .real x => some (.real x)
    | _ => none
  match codes? a, codes? b with
  | some s, some t => .ok (t < s)
  | _, _ =>
    match number? a, number? b with
    | some x, some y => .ok (y.less x)
    | _, _ => .error (.notComparable ">" a.typeName b.typeName)

/-- The greatest of a height and others; of equal ones the first. -/
def greatest (best : Value) : List Value → Except Fault Value
  | [] => .ok best
  | h :: rest => do if ← above h best then greatest h rest else greatest best rest

/-- The greatest height of a block, nothing if there is none. -/
def latestHeight (m : MemoryStore) : Except Fault Value :=
  match m.blocks.map BlockRecord.height with
  | [] => .ok .null
  | h :: rest => greatest h rest

instance : Store MemoryStore where
  probe := do
    if !(← Act.state).available then Act.stop (.problem .unavailable)
  insertBlock r := Act.update fun m => { m with blocks := m.blocks ++ [r] }
  insertTransactions rs := do
    Act.update fun m => { m with batches := m.batches + 1 }
    append rs
  find hash := do
    Act.update fun m => { m with lookups := m.lookups + 1 }
    return (← Act.state).lookup? hash

end MemoryStore

end BlockArchive
