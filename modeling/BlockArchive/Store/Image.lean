import BlockArchive.Json.Document
import BlockArchive.Store.Database
import BlockArchive.Text.Utf8

/-!
# Databases as bytes

A database is kept in a file as one line that marks it and one that holds its tables as JSON:
cells stand for themselves, bytes as an object with their hex text.

* `Database.toBytes` writes a database, `Database.ofBytes?` reads one.
-/

namespace BlockArchive

/-- A cell as a value. -/
def Cell.image : Cell → Value
  | .blob b => .mapping [("hex", .string (Hex.encode b))]
  | c => c.value

/-- The cell that a value stands for. -/
def Cell.ofImage? : Value → Option Cell
  | .null => some .null
  | .int n => some (.integer n)
  | .real x => some (.real x)
  | .string s => some (.text s)
  | .mapping [("hex", .string s)] => (Hex.decode s).toOption.map .blob
  | _ => none

/-- A table as a value. -/
def Table.image (t : Table) : Value :=
  .mapping [("next", .nat t.next), ("rows", .list (t.rows.map fun r =>
    .list [.nat r.id, r.first.image, r.second.image, r.document.image]))]

/-- The row that a value stands for. -/
def TableRow.ofImage? : Value → Option TableRow
  | .list [.int id, first, second, document] => do
    return ⟨id.toNat, ← Cell.ofImage? first, ← Cell.ofImage? second, ← Cell.ofImage? document⟩
  | _ => none

/-- The table that a value stands for; nothing stands for none. -/
def Table.ofImage? : Value → Option (Option Table)
  | .null => some none
  | .mapping [("next", .int next), ("rows", .list rows)] => do
    return some ⟨← rows.mapM TableRow.ofImage?, next.toNat⟩
  | _ => none

namespace Database

/-- The line that marks a database. -/
def mark : List Char := "chainingest database 1\n".toList

/-- An entry about the database that a value stands for. -/
def entryOfImage? : String × Value → Option (String × String)
  | (key, .string value) => some (key, value)
  | _ => none

/-- A database as a value. -/
def image (db : Database) : Value :=
  .mapping [("blocks", (db.blocks.map Table.image).getD .null),
    ("transactions", (db.transactions.map Table.image).getD .null),
    ("metadata", (db.metadata.map fun entries =>
      Value.mapping (entries.map fun e => (e.1, .string e.2))).getD .null)]

/-- The entries about a database that a value stands for; nothing stands for none. -/
def entriesOfImage? : Value → Option (Option (List (String × String)))
  | .null => some none
  | .mapping fields => (fields.mapM entryOfImage?).map some
  | _ => none

/-- The database that a value stands for. -/
def ofImage? : Value → Option Database
  | .mapping [("blocks", blocks), ("transactions", transactions), ("metadata", metadata)] => do
    return ⟨← Table.ofImage? blocks, ← Table.ofImage? transactions, ← entriesOfImage? metadata⟩
  | _ => none

/-- The bytes of a database. -/
def toBytes (db : Database) : Bytes :=
  Text.encodeUtf8 (String.ofList (mark ++ Json.renderChars Json.stored 0 db.image))

/-- The database that bytes hold, if they hold one. -/
def ofBytes? (b : Bytes) : Option Database := do
  let cs ← (Text.decodeUtf8 b).toOption
  let rest ← Json.afterWord? mark cs
  ofImage? (← (Json.parseChars rest).toOption)

end Database

end BlockArchive
