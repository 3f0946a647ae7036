import BlockArchive.Store.Cell

/-!
# The database

The database has a table of blocks and one of transactions, whose rows get ascending numbers and
hold two key columns and a document, and a table of entries about the database itself. A table
can be missing.

* `Database` is the contents, `Database.prepare` makes what is missing;
* `Database.insert` adds a row, `Database.last?` finds the last row with a key;
* `Database.greatestOf` is the greatest of the cells of a column.
-/

namespace BlockArchive

/-- The version of the archive. -/
def version : List Nat := [1, 0, 0]

/-- The version as text. -/
def versionText : String := ".".intercalate (version.map fun n : Nat => Text.ofInt n)

/-- A row of a table of documents. -/
structure TableRow where
  /-- The number of the row. -/
  id : Nat
  /-- The first key. -/
  first : Cell
  /-- The second key. -/
  second : Cell
  /-- The text of the document. -/
  document : Cell
deriving DecidableEq, Repr

/-- A table of documents. -/
structure Table where
  /-- The rows in ascending order of their numbers. -/
  rows : List TableRow := []
  /-- The number of the next row. -/
  next : Nat := 1
deriving DecidableEq, Repr

/-- Which table of documents is meant. -/
inductive Section where
  /-- The table of blocks. -/
  | blocks
  /-- The table of transactions. -/
  | transactions
deriving DecidableEq, Repr

namespace Section

/-- The name of a table. -/
def name : Section → String
  | .blocks => "blocks"
  | .transactions => "transactions"

/-- Names and affinities of the columns behind the number. -/
def columns : Section → List (String × Affinity)
  | .blocks => [("hash", .text), ("block_height", .integer), ("document", .text)]
  | .transactions => [("tx_hash", .text), ("block_hash", .text), ("document", .text)]

end Section

/-- The contents of a database. -/
structure Database where
  /-- The table of blocks. -/
  blocks : Option Table := none
  /-- The table of transactions. -/
  transactions : Option Table := none
  /-- The entries about the database. -/
  metadata : Option (List (String × String)) := none
deriving DecidableEq, Repr

namespace Database

/-- The table of a section. -/
def table? (db : Database) : Section → Option Table
  | .blocks => db.blocks
  | .transactions => db.transactions

/-- Replaces the table of a section. -/
def setTable (db : Database) (s : Section) (t : Option Table) : Database :=
  match s with
  | .blocks => { db with blocks := t }
  | .transactions => { db with transactions := t }

/-- The table of a section, which must be there. -/
def table (db : Database) (s : Section) : Except Fault Table :=
  match db.table? s with
  | some t => .ok t
  | none => .error (.database (.noTable s.name))

/-- Replaces or adds an entry about the database. -/
def setEntry (entries : List (String × String)) (key value : String) : List (String × String) :=
  entries.filter (fun e => e.1 != key) ++ [(key, value)]

/-- Makes the tables that are missing and enters the versions of layout and writer. -/
def prepare (db : Database) : Database where
  blocks := some (db.blocks.getD {})
  transactions := some (db.transactions.getD {})
  metadata := some (setEntry (setEntry (db.metadata.getD []) "schema_version" "1")
    "writer_version" versionText)

/-- Binds values to cells, the first at the given position. -/
def bindFrom : Nat → List Value → Except Fault (List Cell)
  | _, [] => .ok []
  | position, v :: rest => do
    let c ← Cell.bind position v
    return c :: (← bindFrom (position + 1) rest)

/-- Adapts cells to columns; none may hold nothing. -/
def adapt (table : String) : List (String × Affinity) → List Cell → Except Fault (List Cell)
  | (column, affinity) :: columns, c :: cells =>
    match affinity.apply c with
    | .null => .error (.database (.nothingIn (table ++ "." ++ column)))
    | adapted => do return adapted :: (← adapt table columns cells)
  | _, _ => .ok []

/-- Adds a row to the table of a section, unless another connection holds the write lock. -/
def insert (s : Section) (locked : Bool) (first second document : Value) (db : Database) :
    Except Fault Database := do
  let t ← db.table s
  let cells ← bindFrom 1 [first, second, document]
  if locked then .error (.database .locked)
  let adapted ← adapt s.name s.columns cells
  let row : TableRow :=
    ⟨t.next, adapted.getD 0 .null, adapted.getD 1 .null, adapted.getD 2 .null⟩
  return db.setTable s (some ⟨t.rows ++ [row], t.next + 1⟩)

/-- The last row of a section with a key. -/
def last? (s : Section) (hasKey : TableRow → Bool) (db : Database) :
    Except Fault (Option TableRow) := do
  return (← db.table s).rows.reverse.find? hasKey

/-- The number of rows of a section. -/
def count (s : Section) (db : Database) : Except Fault Nat := do
  return (← db.table s).rows.length

/-- The greatest of cells, of equal ones the first; nothing if there are none. -/
def greatestOf (cells : List Cell) : Cell :=
  cells.foldl (fun best c => if best.before c then c else best) .null

/-- The greatest height of a block. -/
def latestHeight (db : Database) : Except Fault Cell := do
  return greatestOf ((← db.table .blocks).rows.map TableRow.second)

/-- The entry about the database under a key. -/
def entry? (key : String) (db : Database) : Except Fault (Option String) :=
  match db.metadata with
  | some entries => .ok ((entries.find? fun e => e.1 == key).map (·.2))
  | none => .error (.database (.noTable "metadata"))

/-- Removes a table. -/
def drop (name : String) (locked : Bool) (db : Database) : Except Fault Database :=
  let missing : Except Fault Database := .error (.database (.noTable name))
  let unlessLocked : Database → Except Fault Database := fun db =>
    if locked then .error (.database .locked) else .ok db
  if name = "metadata" then
    if db.metadata.isSome then unlessLocked { db with metadata := none } else missing
  else if name = Section.blocks.name then
    if db.blocks.isSome then unlessLocked { db with blocks := none } else missing
  else if name = Section.transactions.name then
    if db.transactions.isSome then unlessLocked { db with transactions := none } else missing
  else missing

/-- A row as the values of its columns. -/
def rowValue (r : TableRow) : Value :=
  .list [.nat r.id, r.first.value, r.second.value, r.document.value]

/-- All rows of both sections. -/
def dump (db : Database) : Except Fault Value := do
  let blocks ← db.table .blocks
  let transactions ← db.table .transactions
  return .mapping [("blocks", .list (blocks.rows.map rowValue)),
    ("transactions", .list (transactions.rows.map rowValue))]

end Database

end BlockArchive
