import BlockArchive.Command.Request
import BlockArchive.Command.Terminal

/-!
# Serving requests

A request is served with the settings of the environment and its own options. What the archive
reports as a problem is printed and ends the command with status 1.

* `Service.serve` serves a request, `Service.run` the words of a command line.
-/

namespace BlockArchive.Service

/-- A path as an option gives it. -/
def pathOption (p : Option Path) : Value := (p.map Settings.pathValue).getD .null

/-- A text as an option gives it. -/
def textOption (s : Option String) : Value := (s.map Value.string).getD .null

/-- Does something with the settings, once the log is set up as they say. -/
def configured (verbose : Bool) (given : List (String × Value))
    (next : Settings → Act Terminal Nat) : Act Terminal Nat := do
  match ← Act.attempt (Terminal.settings given) with
  | .error (.problem p) => do
    Terminal.say p.message
    return 1
  | .error f => Act.stop f
  | .ok s => do
    Terminal.onLog (Logbook.setUp
      { level := if verbose then Level.debug.name else s.logLevel.name, toFile := s.logToFile
        directory := s.logDirectory, format := s.logFormat })
    next s

/-- Prints a problem behind the words for what failed; other faults are passed on. -/
def orExplain {α : Type} (words : String) (a : Act Terminal α)
    (next : α → Act Terminal Nat) : Act Terminal Nat := do
  match ← Act.attempt a with
  | .error (.problem p) => do
    Terminal.say (words ++ ": " ++ p.message)
    return 1
  | .error f => Act.stop f
  | .ok x => next x

/-- Prints lines. -/
def sayAll : List String → Act Terminal Unit
  | [] => pure ()
  | line :: rest => do
    Terminal.say line
    sayAll rest

/-- The lines that sum up a run. -/
def summaryLines (t : Totals) (now : Quantity) : List String :=
  "Ingest Summary" :: (t.fields now).map fun f => f.1 ++ " " ++ f.2.text

/-- Takes in a fixture. -/
def ingest (fixture : Path) (inMemory : Bool) (s : Settings) : Act Terminal Nat := do
  let store ← if inMemory then pure (.memory {}) else Terminal.tableStore s
  orExplain "Replay failed" (Terminal.ingest fixture s store fun _ => pure ()) fun totals => do
    sayAll (summaryLines totals (← Act.state).clock.now)
    Terminal.say ("✅ Ingested " ++ Text.ofInt totals.blocks ++ " blocks (" ++
      Text.ofInt totals.transactions ++ " transactions) into " ++
      if inMemory then "memory" else s.databasePath.text)
    return 0

/-- Queries the database that the settings name, which must be there. -/
def querying {α : Type} (s : Settings) (query : Act AnyStore α)
    (next : α → Act Terminal Nat) : Act Terminal Nat := do
  if (← Terminal.disk).has s.databasePath then
    let store ← Terminal.tableStore s
    orExplain "Query failed"
      (Terminal.onStore (fun _ => store) id query (fun _ => pure ()) AnyStore.close) next
  else
    Terminal.say ("Database not found: " ++ s.databasePath.text)
    return 1

/-- The first 16 characters of a value's text, marked as cut. -/
def shortened (v : Value) : String := String.ofList (v.text.toList.take 16) ++ "..."

/-- An address, or a dash where there is none. -/
def shownAddress (v : Value) : String := if v.isTruthy then v.text else "-"

/-- The lines that show a transaction. -/
def transactionLines (t : TransactionRecord) : List String :=
  ["Transaction " ++ shortened t.hash, "Block: " ++ t.blockHash.text,
    "Version: " ++ t.version.text ++ "  LockTime: " ++ t.lockTime.text,
    "Inputs (" ++ Text.ofInt t.inputs.length ++ ")", "# Prev Out Value Address"] ++
  t.inputs.map (fun i => " ".intercalate [i.index.text,
    shortened i.previousHash ++ ":" ++ i.previousIndex.text, i.value.text,
    shownAddress i.address]) ++
  ["Outputs (" ++ Text.ofInt t.outputs.length ++ ")", "# Value Address"] ++
  t.outputs.map fun o => " ".intercalate [o.index.text, o.value.text, shownAddress o.address]

/-- Shows a transaction. -/
def showTransaction (hash : String) (s : Settings) : Act Terminal Nat :=
  querying s (AnyStore.loadTransaction (Text.lower hash)) fun document => do
    match document with
    | .null =>
      Terminal.say ("Transaction not found: " ++ hash)
      return 1
    | _ =>
      sayAll (transactionLines (← Act.lift (TransactionRecord.ofDocument document)))
      return 0

/-- Numbers of records, greatest height and writer of a database. -/
def readFacts : Act AnyStore (Nat × Nat × Value × Option String) := do
  let blocks ← AnyStore.blockCount
  let transactions ← AnyStore.transactionCount
  let height ← AnyStore.latestHeight
  let writer ← AnyStore.metadata "writer_version"
  return (blocks, transactions, height, writer)

/-- Shows facts about the database. -/
def showFacts (s : Settings) : Act Terminal Nat :=
  querying s readFacts fun (blocks, transactions, height, writer) => do
    let heightText := match height with
      | .null => "-"
      | h => h.text
    let writerText := match writer with
      | some w => if w.isEmpty then "-" else "chainingest " ++ w
      | none => "-"
    sayAll ["Database Information", "Path " ++ s.databasePath.text,
      "Blocks " ++ Text.ofInt blocks, "Transactions " ++ Text.ofInt transactions,
      "Latest Height " ++ heightText, "Written By " ++ writerText]
    return 0

/-- Serves a request and gives the status of the command. -/
def serve (verbose : Bool) : Request → Act Terminal Nat
  | .help => return 0
  | .version => do
    Terminal.say ("chainingest " ++ versionText)
    return 0
  | .ingest fixture database inMemory policy progress =>
    configured verbose
      [("db_path", pathOption database), ("coinbase_address", textOption policy),
        ("show_progress", (progress.map Value.bool).getD .null)] (ingest fixture inMemory)
  | .transaction hash database =>
    configured verbose [("db_path", pathOption database)] (showTransaction hash)
  | .facts database => configured verbose [("db_path", pathOption database)] showFacts

/-- The status of a command whose words are not understood. -/
def usageStatus : Nat := 2

/-- Serves the words of a command line and gives the status of the command. -/
def run (words : List String) : Act Terminal Nat :=
  match Request.ofWords? words with
  | none => return usageStatus
  | some (verbose, request) => serve verbose request

end BlockArchive.Service
