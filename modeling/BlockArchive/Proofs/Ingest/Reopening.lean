import BlockArchive.Proofs.Ingest.History
import BlockArchive.Proofs.Ingest.Lookups
import BlockArchive.Proofs.Store.Atomic
import BlockArchive.Proofs.Store.Reopening

/-!
# Closing the store in between goes unnoticed

A pipeline works over a store in a file, and the store is asked and written to besides. Between any
two tasks the store may be closed, and this may fail. Every task then comes to what it would have
come to without any of this, and in the end pipeline, tables and file are the same. The exception
are batches with hashes that no column takes, which leave rows waiting in their connection.

* `Reopening.Task` are the tasks, `Reopening.Move` adds the closing of the store;
* `Reopening.Task.act_alike` is the step: over stores that are alike a task does the same and leaves
  them alike; `Reopening.follow_alike` carries it over to moves on the one side and to the tasks
  among them on the other;
* `Reopening.follow_tasks` puts together what this means for a store that can be reached;
* `Reopening.follow_loses` is a batch whose first row a close drops.
-/

namespace BlockArchive

open Act (Refines Matches)
open TableStore (Alike)

theorem Pipeline.take_alike (p : Path) (b : Block) (height : Int) :
    Matches (Station.Related (Alike p)) (take b height : Act (Station TableStore) Unit)
      (take b height) := by
  refine take_matches b height (ingest_matches (TableStore.alike_reaches p).find b height ?_ ?_)
  · exact TableStore.insertBlock_alike _
  · rintro r ⟨_, e, -, hr⟩
    exact TableStore.insertTransactions_alike (resolveBlock_named hr)

/-- The store lies in the file of a path and has no connection yet, and one can be made. -/
structure TableStore.Reachable (p : Path) (t : TableStore) : Prop where
  location : t.location = .file p
  unconnected : t.connection = none
  unlocked : t.locked = false
  opens : ∃ db disk, t.openDatabase = .ok (db, disk)

theorem TableStore.Reachable.alike {p : Path} {t : TableStore} (h : t.Reachable p) :
    Alike p t t := by
  obtain ⟨db, disk, hopen⟩ := h.opens
  have hoffers : t.Offers p db := .awaited h.unconnected h.location h.unlocked hopen
  exact ⟨⟨db, hoffers, hoffers⟩, rfl⟩

namespace Reopening

/-! ### Tasks and moves -/

/-- What is done with a pipeline, or with the store below it. -/
inductive Task where
  /-- A run is started. -/
  | start (coin : Value) (height : Int)
  /-- A block is taken in. -/
  | take (b : Block) (height : Int)
  /-- The run is completed. -/
  | complete (height : Int)
  /-- A new pipeline takes the place of the old one. -/
  | renew (policy : CoinbasePolicy) (slowBlock : Int) (now : Quantity)
  /-- The store is called. -/
  | call (q : TableStore.Call)

/-- What a task gives. -/
inductive Answer where
  /-- Nothing. -/
  | done
  /-- The totals of a run. -/
  | totals (t : Totals)
  /-- What the store gives. -/
  | reply (r : TableStore.Reply)

namespace Task

/-- What is done. -/
def act : Task → Act (Station TableStore) Answer
  | start coin height => do
    Pipeline.start coin height
    return .done
  | take b height => do
    Pipeline.take b height
    return .done
  | complete height => return .totals (← Pipeline.complete height)
  | renew policy slowBlock now => do
    Pipeline.update fun _ => .idle policy slowBlock now
    return .done
  | call q => return .reply (← Pipeline.onStore q.act)

/-- The hashes of transactions that are written to the store directly are texts. -/
def Named : Task → Prop
  | call q => q.Named
  | _ => True

/-- **Over stores that are alike a task comes to the same, and leaves them alike.** -/
theorem act_alike {x : Task} (hx : x.Named) (p : Path) :
    Matches (Station.Related (Alike p)) x.act x.act := by
  cases x with
  | start coin height =>
    exact (Pipeline.start_matches (TableStore.alike_reaches p).probe coin height).bind
      fun _ => .pure _
  | take b height => exact (Pipeline.take_alike p b height).bind fun _ => .pure _
  | complete height => exact (Pipeline.complete_matches height).bind fun _ => .pure _
  | renew policy slowBlock now => exact (Pipeline.update_matches _).bind fun _ => .pure _
  | call q =>
    exact (Pipeline.onStore_matches (TableStore.Call.act_alike hx p)).bind fun _ => .pure _

end Task

/-- A task, or the closing of the store. -/
inductive Move where
  /-- A task is done. -/
  | task (x : Task)
  /-- The store is closed. -/
  | close
  /-- The store is closed, and this fails. -/
  | failClose

/-- The move is a task. -/
def Move.isTask : Move → Bool
  | task _ => true
  | _ => false

/-- The hashes of transactions that are written to the store directly are texts. -/
def Move.Named : Move → Prop
  | task x => x.Named
  | _ => True

/-- The desk that a move leaves. One that stops does not keep others from being made. -/
def Move.after : Move → Desk (Station TableStore) → Desk (Station TableStore)
  | task x, d => (x.act.runAt d).2
  | close, d => ((Pipeline.onStore TableStore.close).runAt d).2
  | failClose, d => ((Pipeline.onStore TableStore.failClose).runAt d).2

/-- The desk that moves leave. -/
def follow (moves : List Move) (d : Desk (Station TableStore)) : Desk (Station TableStore) :=
  moves.foldl (fun d m => m.after d) d

/-- What the tasks among moves come to. -/
def outcomes : List Move → Desk (Station TableStore) → List (Except Fault Answer)
  | [], _ => []
  | .task x :: rest, d => (x.act.runAt d).1 :: outcomes rest (x.act.runAt d).2
  | m :: rest, d => outcomes rest (m.after d)

/-- The tasks among moves. -/
def tasks (moves : List Move) : List Move := moves.filter Move.isTask

/-! ### Moves and tasks alone -/

variable {p : Path} {d e : Desk (Station TableStore)} {moves : List Move}

theorem alike_of_close (h : Station.Related (Alike p) d.state e.state) {m : Move}
    (hm : m.isTask = false) : Station.Related (Alike p) (m.after d).state e.state := by
  obtain ⟨hpipeline, hstore, hclock⟩ := h
  cases m with
  | task x => cases hm
  | close =>
    refine ⟨hpipeline, ?_, hclock⟩
    show Alike p (TableStore.close.runAt ⟨d.state.store, d.rows⟩).2.state e.state.store
    rw [TableStore.close_store]
    exact hstore.disconnected
  | failClose =>
    refine ⟨hpipeline, ?_, hclock⟩
    show Alike p (TableStore.failClose.runAt ⟨d.state.store, d.rows⟩).2.state e.state.store
    rw [TableStore.failClose_store]
    exact hstore.disconnected

/-- Moves on one side and the tasks among them on the other come to the same. -/
theorem follow_alike (hmoves : ∀ m ∈ moves, m.Named)
    (h : Station.Related (Alike p) d.state e.state) :
    outcomes moves d = outcomes (tasks moves) e ∧
      Station.Related (Alike p) (follow moves d).state (follow (tasks moves) e).state := by
  induction moves generalizing d e with
  | nil => exact ⟨rfl, h⟩
  | cons m rest ih =>
    obtain ⟨hm, hrest⟩ := List.forall_mem_cons.1 hmoves
    cases htask : m.isTask with
    | false =>
      -- only the one side is closed
      have hclosed := ih hrest (alike_of_close h htask)
      cases m with
      | task x => cases htask
      | close => exact hclosed
      | failClose => exact hclosed
    | true =>
      cases m with
      | close => cases htask
      | failClose => cases htask
      | task x =>
        obtain ⟨houtcome, hstate⟩ := Act.matches_iff.1 (Task.act_alike hm p) d e h
        obtain ⟨houtcomes, hstates⟩ := ih hrest hstate
        exact ⟨congrArg₂ List.cons houtcome houtcomes, hstates⟩

/-- **Closing the store in between goes unnoticed.** Whatever is done over a store in a file that
can be reached comes to what it would have come to if the store had never been closed, and in the
end the pipeline is the same, the next connection sees the same tables, and the same lies in the
file. A close that fails is reported once, and the next connection is a new one that sees what the
old one saw. -/
theorem follow_tasks (hd : d.state.store.Reachable p) (hmoves : ∀ m ∈ moves, m.Named) :
    let left := (follow moves d).state
    let kept := (follow (tasks moves) d).state
    outcomes moves d = outcomes (tasks moves) d ∧
      left.pipeline = kept.pipeline ∧ left.clock = kept.clock ∧
      (∃ db, left.store.seen = .ok db ∧ kept.store.seen = .ok db) ∧
      left.store.disk.entry p = kept.store.disk.entry p ∧
      ∀ before rest c, moves = before ++ .failClose :: rest →
        (follow before d).state.store.connection = some c →
          (follow before d).state.store.GivenUp c := by
  have hstart : Station.Related (Alike p) d.state d.state := ⟨rfl, hd.alike, rfl⟩
  obtain ⟨houtcomes, hpipeline, halike, hclock⟩ := follow_alike hmoves hstart
  obtain ⟨db, hleft, hkept⟩ := halike.offers
  refine ⟨houtcomes, hpipeline, hclock, ⟨db, hleft.seen, hkept.seen⟩, halike.file, ?_⟩
  rintro before rest c rfl hc
  have hbefore := follow_alike (fun m hm => hmoves m (List.mem_append_left _ hm)) hstart
  obtain ⟨_, hoffers, -⟩ := hbefore.2.2.1.offers
  exact hoffers.givenUp hc

/-- A block of two payments is taken in; the store is closed before and after, which fails at
first, and a transaction is looked up. -/
def hops : List Move :=
  let a := Hash.repeated 1
  let b := Hash.repeated 2
  [.task (.start (.string "bitcoin") 7), .failClose,
    .task (.take (.holding [.hop a ⟨.null, 0⟩ 5 "first", .hop b ⟨a, 0⟩ 4 "second"]) 7), .close,
    .failClose, .task (.call (.insertTransactions [])), .task (.call .transactionCount),
    .task (.complete 7)]

theorem hops_named : ∀ m ∈ hops, m.Named := by
  simp [hops, Move.Named, Task.Named, TableStore.Call.Named]

/-- Both transactions are counted, and the close that fails finds a connection. -/
theorem follow_tasks_hops :
    let t : TableStore := { location := .file ⟨"", ["archive.db"]⟩ }
    let d : Desk (Station TableStore) := ⟨⟨.idle .sentinel 0 (.whole 0), t, ⟨.whole 0, []⟩⟩, []⟩
    (t.Reachable ⟨"", ["archive.db"]⟩ ∧ ∀ m ∈ hops, m.Named) ∧
      outcomes hops d = outcomes (tasks hops) d ∧
      (TableStore.transactionCount.perform (follow hops d).state.store).1.toOption = some 2 ∧
      ∃ c, (follow (hops.take 1) d).state.store.GivenUp c := by
  intro t d
  have ht : t.Reachable ⟨"", ["archive.db"]⟩ := ⟨rfl, rfl, rfl, _, _, rfl⟩
  obtain ⟨houtcomes, -, -, -, -, hgiven⟩ := follow_tasks (d := d) ht hops_named
  exact ⟨⟨ht, hops_named⟩, houtcomes, by decide +kernel, _,
    hgiven (hops.take 1) (hops.drop 2) _ rfl rfl⟩

/-- The rows of transactions that a connection has committed, by number and hash. -/
def committedRows (d : Desk (Station TableStore)) : Option (List (Nat × Cell)) := do
  let c ← d.state.store.connection
  let table ← c.committed.transactions
  return table.rows.map fun row => (row.id, row.first)

/-- **Closing the store in between can be noticed.** The second hash of a batch is a text that
cannot be encoded: the batch fails, and the row of the first is left waiting. If the store is
closed, this row is gone; if it is not, the next batch commits it as well. -/
theorem follow_loses :
    let p : Path := ⟨"", ["archive.db"]⟩
    let t : TableStore := { location := .file p }
    let d : Desk (Station TableStore) := ⟨⟨.idle .sentinel 0 (.whole 0), t, ⟨.whole 0, []⟩⟩, []⟩
    let batch := fun rs => Move.task (.call (.insertTransactions rs))
    let moves := [batch [TableStore.bare (.string "aa"), TableStore.bare TableStore.half], .close,
      batch [TableStore.bare (.string "bb")]]
    t.Reachable p ∧
      committedRows (follow moves d) = some [(1, .text "bb")] ∧
      committedRows (follow (tasks moves) d) = some [(1, .text "aa"), (2, .text "bb")] :=
  ⟨⟨rfl, rfl, rfl, _, _, rfl⟩, by decide +kernel, by decide +kernel⟩

end Reopening

end BlockArchive
