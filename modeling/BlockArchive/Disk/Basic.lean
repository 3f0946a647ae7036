import BlockArchive.Disk.Path
import BlockArchive.Text.Utf8
import BlockArchive.Store.Database

/-!
# The disk

A disk holds directories, files and databases under their paths. The working directory, the
directories above it and the root of absolute paths are always there; a step `..` goes back to the
directory before it.

* `Disk.entry` finds what a path leads to, or says what is in the way;
* `Disk.makeDirectory` makes a directory with those above it, `Disk.put` puts a file.
-/

namespace BlockArchive

/-- What a path can lead to. -/
inductive Entry where
  /-- A directory. -/
  | directory
  /-- A file with its bytes. -/
  | file (content : Bytes)
  /-- A database. -/
  | database (db : Database)
deriving DecidableEq, Repr

/-- What lies on a disk, under the steps that lead there from the working directory. -/
structure Disk where
  /-- The entries; each path stands once. -/
  entries : List (List String × Entry) := []
deriving DecidableEq, Repr

namespace Disk

/-- The step that stands for the root of absolute paths. -/
def rootStep : String := "/"

/-- The steps lead to the working directory or one above it, or to the root. -/
def isBase (steps : List String) : Bool := steps.all (· == "..") || steps == [rootStep]

/-- The entry under steps, of which only the first can lead up. -/
def at? (d : Disk) (steps : List String) : Option Entry :=
  if isBase steps then some .directory
  else (d.entries.find? fun e => e.1 == steps).map (·.2)

/-- The steps to the directory above; nothing is above the root. -/
def above (steps : List String) : List String :=
  if steps == [rootStep] then steps
  else if isBase steps then steps ++ [".."]
  else steps.dropLast

/-- Puts an entry under steps. -/
def putAt (d : Disk) (steps : List String) (e : Entry) : Disk :=
  ⟨d.entries.filter (fun x => x.1 != steps) ++ [(steps, e)]⟩

/-- Follows steps from a directory: where they lead to, which need not exist if it is the last
step that is missing. -/
def follow (d : Disk) (place : List String) : List String → Except FileTrouble (List String)
  | [] => .ok place
  | step :: rest =>
    match d.at? place with
    | some .directory =>
      follow d (if step = ".." then above place else place ++ [step]) rest
    | some _ => .error .notDirectory
    | none => .error .missing

/-- Where a path leads to. -/
def locate (d : Disk) (p : Path) : Except FileTrouble (List String) :=
  d.follow (if p.root = "" then [] else [rootStep]) p.steps

/-- What a path leads to. -/
def entry (d : Disk) (p : Path) : Except FileTrouble Entry := do
  match d.at? (← d.locate p) with
  | some e => .ok e
  | none => .error .missing

/-- Something is where a path leads to. -/
def has (d : Disk) (p : Path) : Bool :=
  match d.entry p with
  | .ok _ => true
  | .error _ => false

/-- Puts an entry where a path leads to. -/
def put (d : Disk) (p : Path) (e : Entry) : Except FileTrouble Disk := do
  return d.putAt (← d.locate p) e

/-- Makes a directory and those above it that are missing; `steps` is the path reversed. The
error tells at which path it failed. -/
def makeSteps (d : Disk) (root : String) : List String → Except (FileTrouble × Path) Disk
  | [] => .ok d
  | step :: above =>
    let here : Path := ⟨root, (step :: above).reverse⟩
    match d.entry here with
    | .ok .directory => .ok d
    | .ok _ => .error (.occupied, here)
    | .error .missing => do
      let d ← makeSteps d root above
      match d.put here .directory with
      | .ok d => .ok d
      | .error t => .error (t, here)
    | .error t => .error (t, here)

/-- Makes the directory of a path and those above it, where they are missing. -/
def makeDirectory (d : Disk) (p : Path) : Except (FileTrouble × Path) Disk :=
  d.makeSteps p.root p.steps.reverse

/-- The bytes of a file; those of a database are not told. -/
def content (d : Disk) (p : Path) : Except FileTrouble Bytes := do
  match ← d.entry p with
  | .file b => .ok b
  | .database _ => .ok (Text.encodeUtf8 "SQLite format 3")
  | .directory => .error .isDirectory

end Disk

end BlockArchive
