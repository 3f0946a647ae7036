/-!
# Paths

A path is a root and the names of the steps below it. Empty steps and single points are dropped
when a path is read, so `./a//b` is `a/b`; the path without steps is written `.`.

* `Path.ofString` and `Path.text` convert;
* `Path.join` and `Path.parent` go one step down and up.
-/

namespace BlockArchive

/-- A path of files. -/
structure Path where
  /-- What an absolute path begins with: one slash, or two. -/
  root : String
  /-- The steps. -/
  steps : List String
deriving DecidableEq, Repr

namespace Path

/-- The steps of a text: what stands between slashes, without what is empty or a single point. -/
def stepsOf (s : String) : List String :=
  ((s.toList.splitOn '/').map String.ofList).filter fun step => step != "" && step != "."

/-- The path of a text. Exactly two slashes at the beginning are kept, any other number counts
as one. -/
def ofString (s : String) : Path :=
  let slashes := (s.toList.takeWhile (· == '/')).length
  ⟨if slashes = 0 then "" else if slashes = 2 then "//" else "/", stepsOf s⟩

/-- The text of a path. -/
def text (p : Path) : String :=
  if p.root = "" ∧ p.steps = [] then "." else p.root ++ "/".intercalate p.steps

/-- The path one step further. -/
def join (p : Path) (name : String) : Path := ⟨p.root, p.steps ++ [name]⟩

/-- The path one step back. -/
def parent (p : Path) : Path := ⟨p.root, p.steps.dropLast⟩

end Path

end BlockArchive
