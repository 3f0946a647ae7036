import BlockArchive.Command.Replay
import BlockArchive.Command.Service
import BlockArchive.Store.Image
import Std.Time.DateTime.Timestamp

/-!
# The command line

The command works on the part of the disk that its words, the environment and the file of
variables name: what lies there is read before, and what has changed is written back after. All of
it happens at the time at which the command was started. With the word `replay-blocks` in front
the other words ask for a replay that reports through the log alone.
-/

namespace BlockArchive.CommandLine

/-- The names of the variables of the settings. -/
def variableNames : List String :=
  ({} : Settings).fields.map fun f => Text.upper (Sources.variableStart ++ f.1)

/-- The variables of the environment that are settings. -/
def readEnvironment : IO (List (String × String)) :=
  variableNames.filterMapM fun name => do return (← IO.getEnv name).map fun v => (name, v)

/-- What a path leads to. -/
def readEntry (p : Path) : IO (Option Entry) := do
  try
    let content := (← IO.FS.readBinFile p.text).toList
    match Database.ofBytes? content with
    | some db => return some (.database db)
    | none => return some (.file content)
  catch e =>
    match e with
    | .inappropriateType .. => return some .directory
    | _ => return none

/-- The directories that lead to a path, and the path. -/
def stepsTo (p : Path) : List Path :=
  (List.range p.steps.length).map fun n => ⟨p.root, p.steps.take (n + 1)⟩

/-- Reads what lies under paths and above them. -/
def readDisk (paths : List Path) : IO Disk :=
  (paths.flatMap stepsTo).foldlM (fun d p => do
    match ← readEntry p with
    | none => return d
    | some e => return (d.put p e).toOption.getD d) {}

/-- Writes an entry back. -/
def writeEntry (steps : List String) (e : Entry) : IO Unit := do
  let name := "/".intercalate steps
  match e with
  | .directory => IO.FS.createDirAll name
  | .file content => IO.FS.writeBinFile name ⟨content.toArray⟩
  | .database db => IO.FS.writeBinFile name ⟨db.toBytes.toArray⟩

/-- The file of variables. -/
def variablesPath : Path := .ofString Sources.fileName

/-- The texts that can name paths: words, what stands behind an equals sign in them, and the values
of variables. -/
def pathTexts (words : List String) (sources : Sources) : List String :=
  words ++ words.filterMap (fun w => (Options.splitValue w).2) ++ sources.environment.map (·.2) ++
    sources.file.filterMap (·.2)

/-- The paths that a command may use. -/
def usedPaths (words : List String) (sources : Sources) : List Path :=
  let named := (pathTexts words sources).map Path.ofString
  let defaults : Settings := {}
  variablesPath :: named ++
    (defaults.logDirectory :: named).map (·.join Logbook.fileName) ++
    (defaults.dataDirectory :: named).map (·.join Settings.databaseName)

/-- Runs the words of a command line and gives their status. -/
def run (words : List String) : IO UInt32 := do
  let environment ← readEnvironment
  let sources := Sources.ofDisk [] environment (← readDisk [variablesPath])
  let disk ← readDisk (usedPaths words (sources.toOption.getD { environment := environment }))
  let now := (← Std.Time.Timestamp.now).toSecondsSinceUnixEpoch.val
  let command := match words with
    | "replay-blocks" :: rest => Replay.run rest
    | _ => Service.run words
  let r := Terminal.execute command
    { environment := environment, clock := ⟨.whole now, []⟩, log := { disk := disk } }
  for (steps, e) in r.2.log.disk.entries do
    if disk.at? steps ≠ some e then writeEntry steps e
  IO.print r.2.output
  IO.eprint r.2.log.console
  match r.1 with
  | .ok status => return UInt32.ofNat status
  | .error f => do
    IO.eprintln f.trace
    return 1

end BlockArchive.CommandLine

/-- The program. -/
def main (words : List String) : IO UInt32 := BlockArchive.CommandLine.run words
