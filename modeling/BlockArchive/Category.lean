/-!
# Categories of failure

Failures of the archive fall into categories, which form a tree: a storage failure is a failure
of the archive, a failed write is a storage failure, and so on.

* `Category.parent?` is the tree;
* `Category.isStorage` holds in the subtree of storage failures, which abort a run.
-/

namespace BlockArchive

/-- A category of failure. -/
inductive Category where
  /-- Any failure of the archive. -/
  | archive
  /-- Settings that cannot be used. -/
  | config
  /-- An object that breaks a rule of the domain. -/
  | validation
  /-- A fixture that cannot be used. -/
  | fixture
  /-- A failure of a store. -/
  | storage
  /-- A failure of a database. -/
  | database
  /-- A store that cannot be reached. -/
  | connection
  /-- A write that failed. -/
  | write
  /-- A query that failed. -/
  | query
  /-- A failure of the pipeline. -/
  | pipeline
  /-- A call that the pipeline's phase does not allow. -/
  | phase
deriving DecidableEq, Repr

namespace Category

/-- All categories. -/
def all : List Category :=
  [.archive, .config, .validation, .fixture, .storage, .database, .connection, .write, .query,
    .pipeline, .phase]

/-- The name under which a category is reported. -/
def name : Category → String
  | .archive => "ChainIngestException"
  | .config => "ConfigError"
  | .validation => "ValidationError"
  | .fixture => "FixtureError"
  | .storage => "StorageError"
  | .database => "DatabaseError"
  | .connection => "DatabaseConnectionError"
  | .write => "DatabaseWriteError"
  | .query => "DatabaseQueryError"
  | .pipeline => "PipelineError"
  | .phase => "PipelineStateError"

/-- The category of a name. -/
def ofName? (s : String) : Option Category := all.find? fun c => c.name == s

/-- The next wider category. -/
def parent? : Category → Option Category
  | .archive => none
  | .config | .validation | .storage | .pipeline => some .archive
  | .fixture => some .validation
  | .database => some .storage
  | .connection | .write | .query => some .database
  | .phase => some .pipeline

/-- The category and the wider ones, narrowest first. -/
def ancestry (c : Category) : List Category :=
  c :: match c.parent? with
    | none => []
    | some p => p :: match p.parent? with
      | none => []
      | some q => q :: match q.parent? with
        | none => []
        | some r => [r]

/-- The category lies among the storage failures. -/
def isStorage (c : Category) : Bool := c.ancestry.contains .storage

/-- The names from the category up to the most general kind of failure. -/
def ancestryNames (c : Category) : List String := c.ancestry.map name ++ ["Exception"]

end Category

end BlockArchive
