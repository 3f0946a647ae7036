import BlockArchive.Command.Replay.Arguments
import BlockArchive.Command.Terminal

/-!
# Replaying a fixture

The replay takes a fixture into the database and reports through the log alone. A fixture that is
not there and settings that are rejected are told on the error output.

* `Replay.Arguments.given` is what the words say of the settings, `Replay.run` the command.
-/

namespace BlockArchive.Replay

/-- A text as an option gives it. -/
def textValue (s : Option String) : Value := (s.map Value.string).getD .null

/-- A path as an option gives it; the empty text gives none. -/
def pathValue (s : Option String) : Value := textValue (s.filter fun t => !t.isEmpty)

/-- The settings that arguments give. -/
def Arguments.given (a : Arguments) : List (String × Value) :=
  [("coinbase_address", textValue a.policy), ("log_level", textValue a.level),
    ("data_dir", pathValue a.dataDirectory), ("db_path", pathValue a.database)]

/-- Writes a row of the replay. -/
def log {σ : Type} (level : Level) (message : String) : Act σ Unit :=
  Act.log ⟨level, some "replay", message, []⟩

/-- Takes in a fixture with settings. -/
def ingest (fixture : Path) (s : Settings) : Act Terminal Nat := do
  Terminal.onLog (Logbook.setUp
    { level := s.logLevel.name, toFile := s.logToFile, directory := s.logDirectory })
  log .info ("Database: " ++ s.databasePath.text)
  let store ← Terminal.tableStore s
  let report := fun p : Problem => log .error ("Replay failed: " ++ p.message)
  match ← Act.attempt (Terminal.ingest fixture s store report) with
  | .error (.problem _) => return 1
  | .error f => Act.stop f
  | .ok totals => do
    log .info "✅ Replay completed!"
    log .info ("   Blocks: " ++ Text.ofInt totals.blocks)
    log .info ("   Transactions: " ++ Text.ofInt totals.transactions)
    log .info ("   Unresolved inputs: " ++ Text.ofInt totals.tally.unresolved)
    return 0

/-- Replays what arguments ask for. -/
def replay (a : Arguments) : Act Terminal Nat := do
  let fixture := Path.ofString (a.fixture.getD "")
  if !(← Terminal.disk).has fixture then
    Terminal.complain ("Fixture not found: " ++ fixture.text)
    return 1
  match ← Act.attempt (Terminal.settings a.given) with
  | .error (.problem p) => do
    Terminal.complain ("Configuration error: " ++ p.message)
    return 1
  | .error f => Act.stop f
  | .ok s => ingest fixture s

/-- The name of the command in its complaints. -/
def programName : String := "replay_blocks.py"

/-- Replays what the words of a command line ask for. -/
def run (words : List String) : Act Terminal Nat :=
  match Arguments.ofWords words with
  | .error c => do
    Terminal.complain (programName ++ ": error: " ++ c.message)
    return 2
  | .ok a => if a.help then return 0 else replay a

end BlockArchive.Replay
