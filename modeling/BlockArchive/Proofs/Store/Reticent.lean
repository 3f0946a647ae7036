import BlockArchive.Proofs.Act.Rows
import BlockArchive.Proofs.Store.AllOrNothing
import BlockArchive.Store.Table

/-!
# Stores that leave inputs and outputs to others

The resolver reports inputs and the assembly of records reports outputs. No store writes a row in
their names, whatever its calls come to.

* `Row.isDiagnosis` are the rows of these two reporters, and `Reticent` is the class of stores that
  write none of them;
* the store in memory, a store that fails by a script and the store in tables are such stores. The
  last reports in its own name and in that of the reader of documents.
-/

namespace BlockArchive

variable {σ α : Type}

/-- The row is one of the resolver or of the assembly of records. -/
def Row.isDiagnosis (r : Row) : Bool :=
  r.category == some "resolver" || r.category == some "records"

/-- No call of the store writes a row in the name of the resolver or of the assembly. -/
class Reticent (σ : Type) [Store σ] : Prop where
  find_quiet (hash : String) : Act.Quiet Row.isDiagnosis (Store.find hash : Act σ _)
  insertBlock_quiet (r : BlockRecord) : Act.Quiet Row.isDiagnosis (Store.insertBlock r : Act σ Unit)
  insertTransactions_quiet (rs : List TransactionRecord) :
    Act.Quiet Row.isDiagnosis (Store.insertTransactions rs : Act σ Unit)

/-! ### The store in memory -/

theorem MemoryStore.append_quiet (rs : List TransactionRecord) :
    Act.Quiet Row.isDiagnosis (append rs) := by
  induction rs with
  | nil => exact .pure ()
  | cons r rest ih =>
    refine (Act.Quiet.update _).bind fun _ => ?_
    cases unhashable? r.hash with
    | some type => exact .stop _
    | none => exact ih

instance : Reticent MemoryStore where
  find_quiet _ := (Act.Quiet.update _).bind fun _ => .state_bind fun _ => .pure _
  insertBlock_quiet _ := .update _
  insertTransactions_quiet rs := (Act.Quiet.update _).bind fun _ => MemoryStore.append_quiet rs

/-! ### A store that fails by a script -/

theorem Flaky.call_quiet {a : Act σ α} {p : Row → Bool} (h : Act.Quiet p a) :
    Act.Quiet p (call a) := by
  refine Act.Quiet.state_bind fun s => (Act.Quiet.update _).bind fun _ => ?_
  cases s.script.head?.join with
  | some f => exact .stop f
  | none => exact h.within

instance [Store σ] [Reticent σ] : Reticent (Flaky σ) where
  find_quiet hash := Flaky.call_quiet (Reticent.find_quiet hash)
  insertBlock_quiet r := Flaky.call_quiet (Reticent.insertBlock_quiet r)
  insertTransactions_quiet rs := Flaky.call_quiet (Reticent.insertTransactions_quiet rs)

/-! ### The store in tables -/

/-- What cannot be read is reported in the name of the reader of documents. -/
theorem Document.read_quiet (text : String) :
    Act.Quiet Row.isDiagnosis (Document.read text : Act σ Value) := by
  unfold read reported
  cases Json.parse text with
  | ok v => exact .pure v
  | error trouble =>
    cases trouble with
    | syntaxAt => exact Act.Quiet.bind (.log rfl) fun _ => .stop _
    | longInteger | deep => exact .stop _

namespace TableStore

theorem connect_quiet : Act.Quiet Row.isDiagnosis connect := by
  refine Act.Quiet.state_bind fun s => ?_
  cases s.connection with
  | some c => exact .pure c
  | none =>
    cases s.openDatabase with
    | error why => exact .stop _
    | ok opened =>
      refine (Act.Quiet.update _).bind fun _ => ?_
      exact (Act.Quiet.log rfl).bind fun _ => .pure _

theorem connected_quiet : Act.Quiet Row.isDiagnosis connected :=
  connect_quiet.bind fun _ => .guard _ (.pure _)

theorem query_quiet (f : Database → Except Fault α) : Act.Quiet Row.isDiagnosis (query f) :=
  connected_quiet.bind fun _ => .lift _

theorem change_quiet (f : Bool → Database → Except Fault Database) :
    Act.Quiet Row.isDiagnosis (change f) :=
  connected_quiet.bind fun _ => .state_bind fun _ => (Act.Quiet.lift _).bind fun _ => .update _

theorem commit_quiet : Act.Quiet Row.isDiagnosis commit := connected_quiet.bind fun _ => .update _

theorem rollback_quiet : Act.Quiet Row.isDiagnosis rollback :=
  connected_quiet.bind fun _ => .update _

theorem reporting_quiet {problem : String → Problem} {a : Act TableStore α}
    (h : Act.Quiet Row.isDiagnosis a) : Act.Quiet Row.isDiagnosis (reporting problem a) := by
  refine h.attempt.bind fun outcome => ?_
  split
  · exact .pure _
  · exact .stop _
  · exact .stop _

theorem writing_quiet {problem : String → Problem} {a : Act TableStore Unit}
    (h : Act.Quiet Row.isDiagnosis a) : Act.Quiet Row.isDiagnosis (writing problem a) := by
  refine (h.bind fun _ => commit_quiet).attempt.bind fun outcome => ?_
  split
  · exact .pure _
  · exact rollback_quiet.bind fun _ => .stop _
  · exact .stop _

theorem insertRows_quiet (rows : List (TransactionRecord × String)) :
    Act.Quiet Row.isDiagnosis (insertRows rows) := by
  induction rows with
  | nil => exact .pure ()
  | cons row rest ih => exact (change_quiet _).bind fun _ => ih

theorem documentOf_quiet (row : Option TableRow) : Act.Quiet Row.isDiagnosis (documentOf row) := by
  cases row with
  | none => exact .pure _
  | some r => exact Document.read_quiet _

theorem find_quiet (hash : String) : Act.Quiet Row.isDiagnosis (find hash) := by
  have hload : Act.Quiet Row.isDiagnosis (loadTransaction hash) :=
    (reporting_quiet (query_quiet _)).bind fun row => documentOf_quiet row
  refine hload.bind fun document => ?_
  split
  · exact .pure _
  · exact (Act.Quiet.lift _).bind fun _ => .pure _

instance : Reticent TableStore where
  find_quiet := find_quiet
  insertBlock_quiet _ :=
    connect_quiet.bind fun _ => (Act.Quiet.lift _).bind fun _ => writing_quiet (change_quiet _)
  insertTransactions_quiet rs := by
    cases rs with
    | nil => exact .pure ()
    | cons r rest =>
      refine connect_quiet.bind fun _ => (Act.Quiet.lift _).bind fun _ => ?_
      exact writing_quiet (insertRows_quiet _)

end TableStore

end BlockArchive
