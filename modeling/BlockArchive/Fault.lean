import BlockArchive.Json.Digits
import BlockArchive.Problem
import BlockArchive.Settings.Refusal

/-!
# Faults

A `Fault` is anything that stops an operation: a `Problem` that the archive reports, or a misuse
of values, files or the database that it does not expect.

* `Fault.ofProblem` is the fault of a problem;
* `Fault.name` is the name of the kind of fault, `Fault.message` its wording;
* `Fault.literal` and `Fault.trace` show both in one text.

Three limits of what values can be are kept apart from the rest:

* a whole number of more than 4300 digits stops whatever writes or shows it (`Fault.longInteger`);
* a text with halves of pairs of UTF-16 units is a value of its own (`Text.Torn`), which no column
  of a database takes (`Fault.unencodable`). Names of fields, paths, messages and the hashes under
  which the store in memory is asked are strings: there a half is but the replacement character;
* how deep lists and objects may stand inside each other is limited where any value is written or
  read as a text (`Fault.recursion` and `Json.Trouble.deep`). Fixtures, stored documents and lines
  of the log are taken as they are, however deep.

There is always room in memory and on the disk, so no fault stands for the lack of it.
-/

namespace BlockArchive

/-- What can go wrong with a path of files. -/
inductive FileTrouble where
  /-- Something that is no directory stands where one is to be made. -/
  | occupied
  /-- Nothing is there. -/
  | missing
  /-- A part of the way is no directory. -/
  | notDirectory
  /-- A directory is there. -/
  | isDirectory
deriving DecidableEq, Repr

namespace FileTrouble

/-- The name of the trouble. -/
def name : FileTrouble → String
  | .occupied => "FileExistsError"
  | .missing => "FileNotFoundError"
  | .notDirectory => "NotADirectoryError"
  | .isDirectory => "IsADirectoryError"

/-- The wording of the trouble with a path. -/
def message (t : FileTrouble) (path : String) : String :=
  (match t with
    | .occupied => "[Errno 17] File exists: "
    | .missing => "[Errno 2] No such file or directory: "
    | .notDirectory => "[Errno 20] Not a directory: "
    | .isDirectory => "[Errno 21] Is a directory: ") ++ Text.quoted path

end FileTrouble

/-- What can go wrong in a database. -/
inductive DatabaseTrouble where
  /-- Another connection holds the write lock. -/
  | locked
  /-- The connection has been closed. -/
  | closed
  /-- The file holds something else. -/
  | notDatabase
  /-- The file cannot be opened. -/
  | cannotOpen
  /-- A table does not exist. -/
  | noTable (table : String)
  /-- A column that must be filled gets nothing. -/
  | nothingIn (column : String)
  /-- A parameter is of a type that no column holds. -/
  | unsupported (position : Nat) (type : String)
  /-- The connection still has work to finish. -/
  | unfinished
deriving DecidableEq, Repr

namespace DatabaseTrouble

/-- The name of the trouble. -/
def name : DatabaseTrouble → String
  | .locked | .cannotOpen | .noTable _ | .unfinished => "OperationalError"
  | .closed | .unsupported .. => "ProgrammingError"
  | .notDatabase => "DatabaseError"
  | .nothingIn _ => "IntegrityError"

/-- The wording of the trouble. -/
def message : DatabaseTrouble → String
  | .locked => "database is locked"
  | .closed => "Cannot operate on a closed database."
  | .notDatabase => "file is not a database"
  | .cannotOpen => "unable to open database file"
  | .noTable table => "no such table: " ++ table
  | .nothingIn column => "NOT NULL constraint failed: " ++ column
  | .unsupported position type =>
    "Error binding parameter " ++ Text.ofInt position ++ ": type '" ++ type ++
      "' is not supported"
  | .unfinished => "unable to close due to unfinalized statements"

end DatabaseTrouble

/-- What stops an operation. -/
inductive Fault where
  /-- A problem that the archive reports. -/
  | problem (p : Problem)
  /-- A field is missing. -/
  | missingField (name : String)
  /-- A value of this type has no fields. -/
  | noFields (type : String)
  /-- A text has no fields. -/
  | textFields
  /-- A sequence of this kind has no fields. -/
  | sequenceFields (kind : String)
  /-- A value of this type cannot be gone through. -/
  | notIterable (type : String)
  /-- A value of this type has no such member. -/
  | noAttribute (type member : String)
  /-- Two types have no order. -/
  | notComparable (operator left right : String)
  /-- A value of this type is no number. -/
  | notNumber (type : String)
  /-- A value of this type is no key. -/
  | unhashable (type : String)
  /-- An infinity is no whole number. -/
  | infiniteInteger
  /-- Something that is no number is no whole number. -/
  | nanInteger
  /-- A text is no whole number; `shown` is the text in quotes. -/
  | badInteger (shown : String)
  /-- A text has too many digits to be read as a number. -/
  | longText (digits : Nat)
  /-- A number has too many digits to be written. -/
  | longInteger
  /-- A name is not that of a coin. -/
  | unknownCoin (name : String)
  /-- A value is not one of a choice. -/
  | notMember (shown choice : String)
  /-- A log level has no such name. -/
  | unknownLevel (name : String)
  /-- A text is not JSON. -/
  | json (trouble : Json.Trouble)
  /-- Bytes are not UTF-8. -/
  | notUtf8 (message : String)
  /-- A text cannot be encoded as UTF-8. -/
  | unencodable (message : String)
  /-- Lists and objects stand too deep inside each other for what is done with them. -/
  | recursion (doing : String)
  /-- A number does not fit into a column. -/
  | columnOverflow
  /-- Trouble in a database that the archive does not report itself. -/
  | database (trouble : DatabaseTrouble)
  /-- Trouble with a path that the archive does not report itself. -/
  | file (trouble : FileTrouble) (path : String)
  /-- A message cannot be put together with its arguments. -/
  | badTemplate (message : String)
  /-- A number is out of the range of what it is turned into. -/
  | outOfRange (message : String)
  /-- Settings are rejected. -/
  | rejected (rejections : List Rejection)
  /-- Other code raised a fault about a value. -/
  | value (message : String)

namespace Fault

/-- What stops an operation that meets a problem: the problem, unless a number that its words name
has too many digits to be written. -/
def ofProblem (p : Problem) : Fault :=
  if p.shown.any Document.hasLongInteger then .longInteger else .problem p

/-- The name of the kind of fault. -/
def name : Fault → String
  | .problem p => p.category.name
  | .missingField _ => "KeyError"
  | .noFields _ | .textFields | .sequenceFields _ | .notIterable _ | .notComparable ..
  | .notNumber _ | .unhashable _ | .badTemplate _ => "TypeError"
  | .noAttribute .. | .unknownLevel _ => "AttributeError"
  | .infiniteInteger | .columnOverflow | .outOfRange _ => "OverflowError"
  | .nanInteger | .badInteger _ | .longText _ | .longInteger | .unknownCoin _ | .notMember ..
  | .value _ => "ValueError"
  | .json (.longInteger _) => "ValueError"
  | .json (.syntaxAt ..) => "JSONDecodeError"
  | .json (.deep _) | .recursion _ => "RecursionError"
  | .notUtf8 _ => "UnicodeDecodeError"
  | .unencodable _ => "UnicodeEncodeError"
  | .database t => t.name
  | .file t _ => t.name
  | .rejected _ => "SettingsValidationError"

/-- The wording of a fault. -/
def message : Fault → String
  | .problem p => p.message
  | .missingField name => Text.quoted name
  | .noFields type => "'" ++ type ++ "' object is not subscriptable"
  | .textFields => "string indices must be integers, not 'str'"
  | .sequenceFields kind => kind ++ " indices must be integers or slices, not str"
  | .notIterable type => "'" ++ type ++ "' object is not iterable"
  | .noAttribute type member =>
    "'" ++ type ++ "' object has no attribute '" ++ member ++ "'"
  | .notComparable operator left right =>
    "'" ++ operator ++ "' not supported between instances of '" ++ left ++ "' and '" ++ right ++
      "'"
  | .notNumber type =>
    "int() argument must be a string, a bytes-like object or a real number, not '" ++ type ++ "'"
  | .unhashable type => "unhashable type: '" ++ type ++ "'"
  | .infiniteInteger => "cannot convert float infinity to integer"
  | .nanInteger => "cannot convert float NaN to integer"
  | .badInteger shown => "invalid literal for int() with base 10: " ++ shown
  | .longText digits => (Json.Trouble.longInteger digits).message
  | .longInteger =>
    "Exceeds the limit (4300 digits) for integer string conversion; " ++
      "use sys.set_int_max_str_digits() to increase the limit"
  | .unknownCoin name => Coin.unknownText name
  | .notMember shown choice => shown ++ " is not a valid " ++ choice
  | .unknownLevel name => "module 'logging' has no attribute '" ++ name ++ "'"
  | .json t => t.message
  | .notUtf8 m => m
  | .unencodable m => m
  | .recursion doing => "maximum recursion depth exceeded " ++ doing
  | .columnOverflow => "Python int too large to convert to SQLite INTEGER"
  | .database t => t.message
  | .file t path => t.message path
  | .badTemplate m => m
  | .outOfRange m => m
  | .rejected rs =>
    Text.ofInt rs.length ++ " validation error" ++ (if rs.length = 1 then "" else "s")
  | .value m => m

/-- Kind and wording of a fault that is not a problem of the archive, as they appear inside the
report of another. -/
def literal (f : Fault) : String :=
  f.name ++ "(" ++ (match f with
    | .missingField name => Text.quoted name
    | _ => Text.quoted f.message) ++ ")"

/-- The name of the kind of fault, with the package of the archive's own ones. -/
def fullName (f : Fault) : String :=
  match f with
  | .problem _ => "chain_ingest.errors." ++ f.name
  | _ => f.name

/-- The fault as a trace of a failure shows it. -/
def trace (f : Fault) : String :=
  if f.message.isEmpty then f.fullName else f.fullName ++ ": " ++ f.message

/-- The fault is a storage failure. -/
def isStorage : Fault → Bool
  | .problem p => p.category.isStorage
  | _ => false

end Fault

end BlockArchive
