import BlockArchive.Ingest.Tally
import BlockArchive.Json.Document
import BlockArchive.Log.Timing

/-!
# Totals of a run

What a run has taken in, from which height to which, and how long it took.

* `Totals` holds the counters;
* `Totals.fields` shows them by name, `Totals.summary` as a text of several lines.
-/

namespace BlockArchive

/-- The counters of a run. -/
structure Totals where
  /-- The height at which the run started. -/
  startHeight : Int := 0
  /-- The height of the last block. -/
  endHeight : Int := 0
  /-- Blocks taken in. -/
  blocks : Int := 0
  /-- Transactions taken in. -/
  transactions : Int := 0
  /-- Inputs of these transactions. -/
  inputs : Int := 0
  /-- Outputs of these transactions. -/
  outputs : Int := 0
  /-- Outputs without an address. -/
  unrecognised : Int := 0
  /-- How the inputs were resolved. -/
  tally : Tally := {}
  /-- When the run began. -/
  startedAt : Quantity
  /-- When the run was completed. -/
  finishedAt : Option Quantity := none
deriving DecidableEq

namespace Totals

/-- Seconds from the beginning to the end of the run, or to now; never less than zero. -/
def elapsed (t : Totals) (now : Quantity) : Quantity :=
  let zero : Quantity := .real (.zero false)
  let span := (t.finishedAt.getD now).sub t.startedAt
  if zero.less span then span else zero

/-- The counters under their names, without the time. -/
def counters (t : Totals) : List (String × Value) :=
  [("start_height", .int t.startHeight), ("end_height", .int t.endHeight),
    ("blocks", .int t.blocks), ("transactions", .int t.transactions), ("inputs", .int t.inputs),
    ("outputs", .int t.outputs), ("unrecognized_outputs", .int t.unrecognised)] ++ t.tally.fields

/-- The counters and the time taken under their names. -/
def fields (t : Totals) (now : Quantity) : List (String × Value) :=
  t.counters ++ [("elapsed_seconds", ((t.elapsed now).roundPlaces 3).value)]

/-- A counter in a column of nine characters. -/
def column (n : Int) : String := Text.alignRight 9 (Text.ofInt n)

/-- The summary of a run; it cannot be given where a number is too long to be written. -/
def summary (t : Totals) : Except Fault String :=
  if [t.blocks, t.startHeight, t.endHeight, t.transactions, t.inputs, t.outputs,
      t.tally.unresolved].any Document.isTooLong then .error .longInteger
  else .ok ("Done.\nDumped all " ++ Text.ofInt t.blocks ++ " blocks (" ++
    Text.ofInt t.startHeight ++ " - " ++ Text.ofInt t.endHeight ++ "):\n\t-> transactions: " ++
    column t.transactions ++ "\n\t-> inputs:       " ++ column t.inputs ++
    "\n\t-> outputs:      " ++ column t.outputs ++ "\n\t-> unresolved:   " ++
    column t.tally.unresolved)

end Totals

end BlockArchive
