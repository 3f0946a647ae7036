import BlockArchive.Disk.Basic
import BlockArchive.Json.Document
import BlockArchive.Store.Basic

/-!
# The store in tables

Keeps records as JSON documents in the tables of a database, in memory or in a file. The
connection is made when it is first needed and made anew after it was closed. Each call that
writes is committed as a whole or, when the database reports trouble, rolled back. Any other fault
during a batch, such as a number that no column holds or a text that cannot be encoded, leaves the
rows before it uncommitted: they are seen by this connection, and the next commit keeps them.

* `TableStore` is the store, an instance of `Store`; `Connection` is an open connection with
  committed and working contents;
* `loadTransaction`, `loadBlock`, the counts, `latestHeight` and `metadata` are further queries;
  `findBy` and `loadTransactionBy` take any text, also one that no string holds;
* `dropTable`, `insertRaw`, `breakConnection` and `failClose` are events from outside.
-/

namespace BlockArchive

/-- Where a database lives. -/
inductive Location where
  /-- In memory, for as long as the connection lasts. -/
  | memory
  /-- In a file. -/
  | file (path : Path)
deriving DecidableEq, Repr

namespace Location

/-- The location that a path names: one path means memory. -/
def ofPath (p : Path) : Location := if p.text = ":memory:" then .memory else .file p

/-- The text of a location. -/
def text : Location → String
  | .memory => ":memory:"
  | .file p => p.text

end Location

/-- A connection to a database. -/
structure Connection where
  /-- What has been committed. -/
  committed : Database
  /-- What this connection sees. -/
  working : Database
  /-- The connection has not been closed behind the store's back. -/
  isOpen : Bool := true

/-- A store in the tables of a database. -/
structure TableStore where
  /-- Where the database lives. -/
  location : Location
  /-- The connection, if there is one. -/
  connection : Option Connection := none
  /-- Another connection holds the write lock. -/
  locked : Bool := false
  /-- The disk on which files lie. -/
  disk : Disk := {}

namespace TableStore

/-- Writes a row of the store. -/
def log (level : Level) (message : String) (extra : List (String × Value)) : Act TableStore Unit :=
  Act.log ⟨level, some "storage", message, extra⟩

/-- The contents to start from in a file, and the disk with the directories above it. -/
def openFile (s : TableStore) (p : Path) : Except String (Database × Disk) := do
  let disk ← (s.disk.makeDirectory p.parent).mapError fun e : FileTrouble × Path =>
    e.1.message e.2.text
  let found : Except String Database := match disk.entry p with
    | .ok (.database db) => .ok db
    | .ok (.file content) =>
      if content.isEmpty then .ok {} else .error (DatabaseTrouble.message .notDatabase)
    | .error .missing => .ok {}
    | _ => .error (DatabaseTrouble.message .cannotOpen)
  let db ← found
  if s.locked then .error (DatabaseTrouble.message .locked)
  return (db.prepare, disk)

/-- The contents to start from, and the disk. -/
def openDatabase (s : TableStore) : Except String (Database × Disk) :=
  match s.location with
  | .memory => .ok (Database.prepare {}, s.disk)
  | .file p => s.openFile p

/-- The disk with contents kept in the store's file. -/
def keep (s : TableStore) (db : Database) (disk : Disk) : Disk :=
  match s.location with
  | .memory => disk
  | .file p => match disk.put p (.database db) with
    | .ok d => d
    | .error _ => disk

/-- The connection, made now if there is none. -/
def connect : Act TableStore Connection := do
  let s ← Act.state
  match s.connection with
  | some c => return c
  | none =>
    match s.openDatabase with
    | .error why => Act.stop (.problem (.connect s.location.text why))
    | .ok (db, disk) => do
      let c : Connection := { committed := db, working := db }
      Act.update fun s => { s with connection := some c, disk := s.keep db disk }
      log .info "Database initialized" [("db_path", .string s.location.text)]
      return c

/-- The connection, which must still be open. -/
def connected : Act TableStore Connection := do
  let c ← connect
  if !c.isOpen then Act.stop (.database .closed)
  return c

/-- Reads from the contents that the connection sees. -/
def query {α : Type} (f : Database → Except Fault α) : Act TableStore α := do
  Act.lift (f (← connected).working)

/-- Changes the contents that the connection sees. -/
def change (f : Bool → Database → Except Fault Database) : Act TableStore Unit := do
  let c ← connected
  let db ← Act.lift (f (← Act.state).locked c.working)
  Act.update fun s => { s with connection := some { c with working := db } }

/-- Commits what the connection sees. -/
def commit : Act TableStore Unit := do
  let c ← connected
  Act.update fun s =>
    { s with
      connection := some { c with committed := c.working }
      disk := s.keep c.working s.disk }

/-- Goes back to what was committed. -/
def rollback : Act TableStore Unit := do
  let c ← connected
  Act.update fun s => { s with connection := some { c with working := c.committed } }

/-- Performs a query; trouble in the database is reported as a problem. -/
def reporting {α : Type} (problem : String → Problem) (a : Act TableStore α) :
    Act TableStore α := do
  match ← Act.attempt a with
  | .ok x => return x
  | .error (.database t) => Act.stop (.problem (problem t.message))
  | .error f => Act.stop f

/-- Performs changes and commits them; on trouble in the database they are rolled back and a
problem is reported. -/
def writing (problem : String → Problem) (a : Act TableStore Unit) : Act TableStore Unit := do
  match ← Act.attempt (do a; commit) with
  | .ok _ => pure ()
  | .error (.database t) => do
    rollback
    Act.stop (.problem (problem t.message))
  | .error f => Act.stop f

/-- Adds a row with the text of a document. -/
def insertRow (s : Section) (first second : Value) (document : String) : Act TableStore Unit :=
  change fun locked => Database.insert s locked first second (.string document)

/-- Writes a block. -/
def insertBlock (r : BlockRecord) : Act TableStore Unit := do
  let _ ← connect
  let text ← Act.lift (Document.write r.document)
  writing (.insertBlock r.hash r.height) (insertRow .blocks r.hash r.height text)

/-- Adds the rows of transactions with the texts of their documents. -/
def insertRows : List (TransactionRecord × String) → Act TableStore Unit
  | [] => pure ()
  | (r, text) :: rest => do
    insertRow .transactions r.hash r.blockHash text
    insertRows rest

/-- Writes a batch of transactions; an empty one needs no connection. -/
def insertTransactions (rs : List TransactionRecord) : Act TableStore Unit :=
  match rs with
  | [] => pure ()
  | first :: _ => do
    let _ ← connect
    let texts ← Act.lift (rs.mapM fun r => Document.write r.document)
    writing (.insertTransactions rs.length first.blockHash) (insertRows (rs.zip texts))

/-- The document in a row. -/
def documentOf (row : Option TableRow) : Act TableStore Value :=
  match row with
  | none => return .null
  | some r => Document.read (r.document.text?.getD "")

/-- The document of the transaction last written under a text as hash, or nothing. -/
def loadTransactionBy (key : Value) : Act TableStore Value := do
  let row ← reporting (.loadTransaction key) (query fun db => do
    let _ ← db.table .transactions
    let cell ← Cell.bind 1 key
    Database.last? .transactions (fun r => r.first == cell) db)
  documentOf row

/-- Every string has a cell, so that only the last row with it as hash is asked for. -/
theorem loadTransactionBy_string (hash : String) :
    loadTransactionBy (.string hash) = (do
      let row ← reporting (.loadTransaction (.string hash))
        (query (Database.last? .transactions fun r => r.first == .text hash))
      documentOf row) := by
  have hlast : (fun db : Database => do
      let _ ← db.table .transactions
      let cell ← Cell.bind 1 (.string hash)
      Database.last? .transactions (fun r => r.first == cell) db) =
        Database.last? .transactions fun r => r.first == .text hash := by
    funext db
    cases h : db.table .transactions <;> simp [Database.last?, h, Cell.bind, bind, Except.bind]
  rw [loadTransactionBy, hlast]

/-- The document of the transaction last written under a hash, or nothing. -/
def loadTransaction (hash : String) : Act TableStore Value := loadTransactionBy (.string hash)

/-- The transaction last written under a text as hash. -/
def findBy (key : Value) : Act TableStore (Option StoredTransaction) := do
  match ← loadTransactionBy key with
  | .null => return none
  | document => return some (← Act.lift (StoredTransaction.ofDocument document))

/-- The transaction last written under a hash. -/
def find (hash : String) : Act TableStore (Option StoredTransaction) := findBy (.string hash)

/-- A cell that holds a number equal to a whole number. -/
def cellEquals (n : Int) (c : Cell) : Bool :=
  match c with
  | .integer m => m == n
  | .real x => x.compareInt? n == some .eq
  | _ => false

/-- The block last written at a height. -/
def loadBlock (height : Int) : Act TableStore (Option BlockRecord) := do
  let row ← reporting .loadBlock (query fun db => do
    let _ ← db.table .blocks
    if !Cell.fits height then .error .columnOverflow
    Database.last? .blocks (fun r => cellEquals height r.second) db)
  match row with
  | none => return none
  | some _ => return some (← Act.lift (BlockRecord.ofDocument (← documentOf row)))

/-- The number of blocks. -/
def blockCount : Act TableStore Nat := reporting .countBlocks (query (Database.count .blocks))

/-- The number of transactions. -/
def transactionCount : Act TableStore Nat :=
  reporting .countTransactions (query (Database.count .transactions))

/-- The greatest height of a block, or nothing. -/
def latestHeight : Act TableStore Value := do
  return (← reporting .latestHeight (query Database.latestHeight)).value

/-- The entry about the database under a key. -/
def metadata (key : String) : Act TableStore (Option String) :=
  reporting .readMetadata (query (Database.entry? key))

/-- Checks that the database answers. -/
def probe : Act TableStore Unit := do
  let path := (← Act.state).location.text
  let _ ← reporting (.ping path) connected
  log .debug "Database ping ok" [("db_path", .string path)]

/-- Closes the connection, if there is one. -/
def close : Act TableStore Unit := do
  if (← Act.state).connection.isSome then
    Act.update fun s => { s with connection := none }
    log .info "Database closed" []

instance : Store TableStore where
  probe := probe
  insertBlock := insertBlock
  insertTransactions := insertTransactions
  find := find

/-! ### Events from outside -/

/-- Closing fails: the connection is given up and a problem is reported. -/
def failClose : Act TableStore Unit := do
  if (← Act.state).connection.isSome then
    Act.update fun s => { s with connection := none }
    Act.stop (.problem (.close (DatabaseTrouble.message .unfinished)))

/-- The connection is closed behind the store's back. -/
def breakConnection : Act TableStore Unit :=
  Act.update fun s =>
    { s with connection := s.connection.map fun c => { c with isOpen := false } }

/-- A table is removed. -/
def dropTable (name : String) : Act TableStore Unit := do
  change (Database.drop name)
  commit

/-- A row is written that need not hold a document. -/
def insertRaw (s : Section) (first second : Value) (document : Value) : Act TableStore Unit := do
  change fun locked => Database.insert s locked first second document
  commit

/-- Another connection takes or gives back the write lock; it cannot be taken while changes are
waiting to be committed. -/
def setLock (locked : Bool) : Act TableStore Unit := do
  let pending := match (← Act.state).connection with
    | some c => c.isOpen && decide (c.working ≠ c.committed)
    | none => false
  if locked && pending then Act.stop (.database .locked)
  match (← Act.state).location with
  | .memory => pure ()
  | .file _ => Act.update fun s => { s with locked := locked }

/-- All rows of the database. -/
def dump : Act TableStore Value := query Database.dump

end TableStore

end BlockArchive
