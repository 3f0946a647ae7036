/-!
# Phases of a run

A run goes from idle to connected when it starts, to streaming with its first block, and to
finished when it completes.

* `Phase.accepts` holds in the phases in which blocks are taken and the run may complete.
-/

namespace BlockArchive

/-- A phase of a run. -/
inductive Phase where
  /-- Nothing has happened yet. -/
  | idle
  /-- The store has answered. -/
  | connected
  /-- A block has been taken up. -/
  | streaming
  /-- The run is complete. -/
  | finished
deriving DecidableEq, Repr

namespace Phase

/-- The name of a phase. -/
def name : Phase → String
  | .idle => "idle"
  | .connected => "connected"
  | .streaming => "streaming"
  | .finished => "finished"

/-- Blocks are taken and the run may complete. -/
def accepts : Phase → Bool
  | .connected | .streaming => true
  | .idle | .finished => false

end Phase

end BlockArchive
