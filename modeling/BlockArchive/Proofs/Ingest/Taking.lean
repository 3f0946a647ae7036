import BlockArchive.Ingest.Pipeline

/-!
# Around the work on a block

Taking in a block is the work on it, with a report of failures of the store and of the time that it
took around it. The reports write rows and take ticks; what the work comes to and which pipeline and
store it leaves is not theirs to change.

* `Act.timed_runAt` and `Pipeline.reporting_outcome`, `Pipeline.reporting_state` say so of either
  report;
* `Pipeline.take_outcome` and `Pipeline.take_state` of taking in a block;
* `Pipeline.take_rejected`: outside the phases in which blocks are taken nothing happens at all.
-/

namespace BlockArchive

variable {σ α : Type}

theorem Act.timed_runAt (clock : σ → Clock) (put : Clock → σ → σ) (category operation : String)
    (threshold : Option Quantity) (extra : List (String × Value)) (a : Act σ α) (d : Desk σ) :
    (timed clock put category operation threshold extra a).runAt d =
      let start := (clock d.state).tick
      let r := a.runAt ⟨put start.2 d.state, d.rows⟩
      let stop := (clock r.2.state).tick
      (r.1, ⟨put stop.2 r.2.state, r.2.rows ++
        [Clock.durationRow category operation threshold extra
          (Clock.milliseconds start.1 stop.1)]⟩) := by
  simp [timed, takeTick]

namespace Pipeline

theorem reporting_runAt_of_ok {height : Int} {a : Act (Station σ) Unit} {d : Desk (Station σ)}
    (h : (a.runAt d).1 = .ok ()) : (reporting height a).runAt d = a.runAt d := by
  simp only [reporting, Act.runAt_bind, Act.runAt_attempt, h, Act.runAt_pure]
  rw [← h]

theorem ok_of_reporting_ok {height : Int} {a : Act (Station σ) Unit} {d : Desk (Station σ)}
    (h : ((reporting height a).runAt d).1 = .ok ()) : (a.runAt d).1 = .ok () := by
  simp only [reporting, Act.runAt_bind, Act.runAt_attempt] at h
  cases houtcome : (a.runAt d).1 with
  | ok => rfl
  | error f =>
    rw [houtcome] at h
    cases f with
    | problem p =>
      dsimp only at h
      split at h
      · split at h <;> cases h
      · cases h
    | _ => cases h

/-- Reporting a failure leaves the state as the failure did. -/
theorem reporting_state (height : Int) (a : Act (Station σ) Unit) (d : Desk (Station σ)) :
    ((reporting height a).runAt d).2.state = (a.runAt d).2.state := by
  simp only [reporting, Act.runAt_bind, Act.runAt_attempt]
  split
  · rfl
  · split
    · split <;> rfl
    · rfl
  · rfl

/-- A failure is passed on as it is, where the height can be written. -/
theorem reporting_outcome {height : Int} (hheight : Document.isTooLong height = false)
    (a : Act (Station σ) Unit) (d : Desk (Station σ)) :
    ((reporting height a).runAt d).1 = (a.runAt d).1 := by
  simp only [reporting, Act.runAt_bind, Act.runAt_attempt, hheight, Bool.false_eq_true,
    ↓reduceIte]
  split
  · rename_i h
    exact h.symm
  · rename_i h
    rw [h]
    split <;> rfl
  · rename_i h
    rw [h]
    rfl

/-- A desk at which the work on a block begins. -/
def taken (d : Desk (Station σ)) : Desk (Station σ) :=
  ⟨{ d.state with
      pipeline := { d.state.pipeline with phase := .streaming }
      clock := d.state.clock.tick.2 }, d.rows⟩

variable [Store σ]

theorem take_runAt_of_accepts (b : Block) (height : Int) {d : Desk (Station σ)}
    (hp : d.state.pipeline.phase.accepts = true) :
    (take b height).runAt d =
      (Act.timed Station.clock (fun c s => { s with clock := c }) "pipeline" "ingest_block"
        (some (.whole d.state.pipeline.slowBlock))
        [("height", .int height), ("tx_count", .nat b.transactions.length)]
        (reporting height (ingest b height))).runAt
          ⟨{ d.state with pipeline := { d.state.pipeline with phase := .streaming } }, d.rows⟩ := by
  simp only [take, Act.runAt_bind, Act.runAt_state, hp, Bool.not_true, Bool.false_eq_true,
    ↓reduceIte, update, Act.runAt_update]

theorem take_outcome (b : Block) {height : Int} (hheight : Document.isTooLong height = false)
    {d : Desk (Station σ)} (hp : d.state.pipeline.phase.accepts = true) :
    ((take b height).runAt d).1 = ((ingest b height).runAt (taken d)).1 := by
  rw [take_runAt_of_accepts b height hp, Act.timed_runAt]
  exact reporting_outcome hheight _ _

theorem take_state (b : Block) (height : Int) {d : Desk (Station σ)}
    (hp : d.state.pipeline.phase.accepts = true) :
    ((take b height).runAt d).2.state =
      { ((ingest b height).runAt (taken d)).2.state with
        clock := ((ingest b height).runAt (taken d)).2.state.clock.tick.2 } := by
  rw [take_runAt_of_accepts b height hp, Act.timed_runAt]
  simp only [reporting_state]
  rfl

/-- Where no block is taken, none is: the call stops and changes nothing. -/
theorem take_rejected (b : Block) (height : Int) {d : Desk (Station σ)}
    (hp : d.state.pipeline.phase.accepts = false) :
    (take b height).runAt d =
      (.error (.problem (.notStreaming d.state.pipeline.phase height)), d) := by
  simp [take, hp]

/-- Blocks that are taken in come in a phase in which blocks are taken. -/
theorem accepts_of_take_ok {b : Block} {height : Int} {d : Desk (Station σ)}
    (h : ((take b height).runAt d).1 = .ok ()) : d.state.pipeline.phase.accepts = true := by
  cases hp : d.state.pipeline.phase.accepts with
  | true => rfl
  | false =>
    rw [take_rejected b height hp] at h
    cases h

end Pipeline

end BlockArchive
