import BlockArchive.Act
import BlockArchive.Number.Quantity

/-!
# Timing of work

A clock tells the time of day and hands out ticks. The ticks before and after a piece of work give
its duration, which is reported in milliseconds whether or not the work succeeded: as a detail, or
as a warning where it exceeds a threshold.

* `Clock` is the clock, `Clock.tick` takes a tick;
* `Act.timed` reports the duration of an act.
-/

namespace BlockArchive

/-- A quantity as a value. -/
def Quantity.value : Quantity → Value
  | .whole n => .int n
  | .real x => .real x

/-- The time of day and the ticks to come. -/
structure Clock where
  /-- Seconds since 1970. -/
  now : Quantity
  /-- The ticks to come, in seconds. -/
  ticks : List Quantity

namespace Clock

/-- The next tick and the clock behind it; a clock without ticks stands at zero. -/
def tick (c : Clock) : Quantity × Clock :=
  match c.ticks with
  | [] => (.real (.zero false), c)
  | t :: rest => (t, { c with ticks := rest })

/-- Milliseconds between two ticks. -/
def milliseconds (start stop : Quantity) : Quantity := (stop.sub start).mul (.whole 1000)

/-- The row that reports a duration. A threshold of zero is none. -/
def durationRow (category operation : String) (threshold : Option Quantity)
    (extra : List (String × Value)) (elapsed : Quantity) : Row :=
  let extra := Value.setField (Value.setField extra "operation" (.string operation)) "duration_ms"
    (elapsed.roundPlaces 2).value
  let report : Row :=
    ⟨.debug, some category, operation ++ " completed in " ++ elapsed.fixed 2 ++ "ms", extra⟩
  match threshold with
  | none => report
  | some limit =>
    if limit.isNonzero && limit.less elapsed then
      ⟨.warning, some category,
        operation ++ " took " ++ elapsed.fixed 2 ++ "ms (threshold: " ++ limit.text ++ "ms)", extra⟩
    else report

end Clock

namespace Act

variable {σ α : Type}

/-- Takes a tick of the clock in the state. -/
def takeTick (clock : σ → Clock) (put : Clock → σ → σ) : Act σ Quantity := do
  let t := (clock (← state)).tick
  update (put t.2)
  return t.1

/-- Performs an act and reports how long it took, also if it stops. -/
def timed (clock : σ → Clock) (put : Clock → σ → σ) (category operation : String)
    (threshold : Option Quantity) (extra : List (String × Value)) (a : Act σ α) : Act σ α := do
  let start ← takeTick clock put
  let outcome ← attempt a
  let stop ← takeTick clock put
  log (Clock.durationRow category operation threshold extra (Clock.milliseconds start stop))
  lift outcome

end Act

end BlockArchive
