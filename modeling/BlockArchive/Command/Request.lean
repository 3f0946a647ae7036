import BlockArchive.Command.Options
import BlockArchive.Disk.Path

/-!
# Requests to the archive

The command line asks for the ingestion of a fixture, for a transaction, for facts about the
database, or for the version.

* `Request` is what is asked for, `Request.ofWords?` reads it from the words of a command line;
  no request means that the words are not understood.
-/

namespace BlockArchive

/-- What is asked for. -/
inductive Request where
  /-- Help on the command line. -/
  | help
  /-- The version. -/
  | version
  /-- The ingestion of a fixture. -/
  | ingest (fixture : Path) (database : Option Path) (inMemory : Bool) (policy : Option String)
      (progress : Option Bool)
  /-- A transaction by its hash. -/
  | transaction (hash : String) (database : Option Path)
  /-- Facts about the database. -/
  | facts (database : Option Path)
deriving DecidableEq, Repr

namespace Request

/-- The options before the name of a command. -/
def commonForms : List OptionForm :=
  [⟨["--verbose", "-v"], false⟩, ⟨["--version"], false⟩, ⟨["--help"], false⟩]

/-- The option for the path of the database. -/
def databaseForm : OptionForm := ⟨["--db"], true⟩

/-- The option for help. -/
def helpForm : OptionForm := ⟨["--help"], false⟩

/-- The options of an ingestion. -/
def ingestForms : List OptionForm :=
  [databaseForm, helpForm, ⟨["--in-memory"], false⟩, ⟨["--coinbase-address"], true⟩,
    ⟨["--progress"], false⟩, ⟨["--no-progress"], false⟩]

/-- The path of the database. -/
def database? (o : Options) : Option Path := (o.value? "--db").map Path.ofString

/-- Whether progress is to be shown: what was asked for last. -/
def progress? (o : Options) : Option Bool :=
  (o.options.reverse.find? fun p => p.1 == "--progress" || p.1 == "--no-progress").map fun p =>
    p.1 == "--progress"

/-- The request of a command with its options. -/
def ofCommand? (command : String) (words : List String) : Option Request :=
  match command with
  | "replay" => do
    let o ← Options.read ingestForms true words
    if o.has "--help" then return .help
    match o.operands with
    | [fixture] =>
      some (.ingest (.ofString fixture) (database? o) (o.has "--in-memory")
        (o.value? "--coinbase-address") (progress? o))
    | _ => none
  | "tx" => do
    let o ← Options.read [databaseForm, helpForm] true words
    if o.has "--help" then return .help
    match o.operands with
    | [hash] => some (.transaction hash (database? o))
    | _ => none
  | "info" => do
    let o ← Options.read [databaseForm, helpForm] true words
    if o.has "--help" then return .help
    match o.operands with
    | [] => some (.facts (database? o))
    | _ => none
  | _ => none

/-- The request of a command line, and whether all details are to be logged. -/
def ofWords? (words : List String) : Option (Bool × Request) := do
  let o ← Options.read commonForms false words
  match o.options.find? fun p => p.1 == "--version" || p.1 == "--help" with
  | some p => return (false, if p.1 == "--version" then .version else .help)
  | none =>
    match o.operands with
    | [] => none
    | command :: rest => return (o.has "--verbose", ← ofCommand? command rest)

end Request

end BlockArchive
