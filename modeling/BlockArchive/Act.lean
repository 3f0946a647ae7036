import BlockArchive.Fault
import BlockArchive.Log.Row

/-!
# Acts

An act works on a state, writes log rows and may stop with a fault. What it did before it stopped
stays done: the state and the rows written are kept.

* `Act` is the type, `Desk` the state together with the rows written so far;
* `Act.log` writes a row, `Act.stop` stops, `Act.within` works on a part of the state;
* `Act.runAt` is the view of an act: the outcome at a desk and the desk that it leaves. Its lemmas
  say so for each way to make an act.
-/

namespace BlockArchive

/-- A state and the rows written so far. -/
structure Desk (σ : Type) where
  /-- The state. -/
  state : σ
  /-- The rows, in the order in which they were written. -/
  rows : List Row

/-- Work on a state that writes rows and may stop with a fault. -/
abbrev Act (σ α : Type) := ExceptT Fault (StateM (Desk σ)) α

namespace Act

variable {σ τ α β : Type}

/-- The outcome at a desk and the desk that is left. -/
def runAt (a : Act σ α) (d : Desk σ) : Except Fault α × Desk σ := a.run.run d

/-- The act with given outcomes. -/
def ofRun (f : Desk σ → Except Fault α × Desk σ) : Act σ α := ExceptT.mk f

/-- Runs an act on a state, starting without rows. -/
def perform (a : Act σ α) (s : σ) : Except Fault α × Desk σ := a.runAt ⟨s, []⟩

/-- Stops with a fault. -/
def stop (f : Fault) : Act σ α := throw f

/-- The outcome of a computation without state. -/
def lift (r : Except Fault α) : Act σ α :=
  match r with
  | .ok a => pure a
  | .error f => throw f

/-- The state. -/
def state : Act σ σ := return (← getThe (Desk σ)).state

/-- Changes the state. -/
def update (f : σ → σ) : Act σ Unit := modifyThe (Desk σ) fun d => ⟨f d.state, d.rows⟩

/-- Writes a row. -/
def log (r : Row) : Act σ Unit := modifyThe (Desk σ) fun d => ⟨d.state, d.rows ++ [r]⟩

/-- Works on the part of the state that `part` picks and `put` puts back. -/
def within (part : τ → σ) (put : σ → τ → τ) (a : Act σ α) : Act τ α :=
  ofRun fun d =>
    let r := a.runAt ⟨part d.state, d.rows⟩
    (r.1, ⟨put r.2.state d.state, r.2.rows⟩)

/-- The outcome of an act, which itself does not stop. -/
def attempt (a : Act σ α) : Act σ (Except Fault α) :=
  ofRun fun d =>
    let r := a.runAt d
    (.ok r.1, r.2)

/-! ### Outcomes at a desk -/

@[simp] theorem runAt_ofRun (f : Desk σ → Except Fault α × Desk σ) (d : Desk σ) :
    (ofRun f).runAt d = f d := rfl

/-- Acts with the same runs are the same. -/
theorem ext_runAt {a b : Act σ α} (h : ∀ d, a.runAt d = b.runAt d) : a = b := funext h

@[simp] theorem runAt_pure (a : α) (d : Desk σ) : runAt (pure a) d = (.ok a, d) := rfl

@[simp] theorem runAt_stop (f : Fault) (d : Desk σ) :
    (stop f : Act σ α).runAt d = (.error f, d) := rfl

@[simp] theorem runAt_lift (r : Except Fault α) (d : Desk σ) : (lift r).runAt d = (r, d) := by
  cases r <;> rfl

@[simp] theorem runAt_state (d : Desk σ) : runAt state d = (.ok d.state, d) := rfl

@[simp] theorem runAt_update (f : σ → σ) (d : Desk σ) :
    (update f).runAt d = (.ok (), ⟨f d.state, d.rows⟩) := rfl

@[simp] theorem runAt_log (r : Row) (d : Desk σ) :
    (log r).runAt d = (.ok (), ⟨d.state, d.rows ++ [r]⟩) := rfl

@[simp] theorem runAt_within (part : τ → σ) (put : σ → τ → τ) (a : Act σ α) (d : Desk τ) :
    (within part put a).runAt d =
      ((a.runAt ⟨part d.state, d.rows⟩).1,
        ⟨put (a.runAt ⟨part d.state, d.rows⟩).2.state d.state,
          (a.runAt ⟨part d.state, d.rows⟩).2.rows⟩) := rfl

@[simp] theorem runAt_attempt (a : Act σ α) (d : Desk σ) :
    (attempt a).runAt d = (.ok (a.runAt d).1, (a.runAt d).2) := rfl

/-- Two acts in a row: the second runs at the desk that the first leaves, unless that stopped. -/
@[simp] theorem runAt_bind (a : Act σ α) (f : α → Act σ β) (d : Desk σ) :
    (a >>= f).runAt d =
      match (a.runAt d).1 with
      | .ok x => (f x).runAt (a.runAt d).2
      | .error e => (.error e, (a.runAt d).2) := by
  show (ExceptT.bindCont f (a.runAt d).1).run (a.runAt d).2 = _
  cases (a.runAt d).1 <;> rfl

/-- Where two acts in a row come to an outcome, the first did. -/
theorem runAt_bind_ok {a : Act σ α} {f : α → Act σ β} {d : Desk σ} {y : β}
    (h : ((a >>= f).runAt d).1 = .ok y) :
    ∃ x, (a.runAt d).1 = .ok x ∧ ((f x).runAt (a.runAt d).2).1 = .ok y := by
  rw [runAt_bind] at h
  cases ha : (a.runAt d).1 with
  | ok x =>
    rw [ha] at h
    exact ⟨x, rfl, h⟩
  | error e =>
    rw [ha] at h
    cases h

@[simp] theorem runAt_map (f : α → β) (a : Act σ α) (d : Desk σ) :
    (f <$> a).runAt d = ((a.runAt d).1.map f, (a.runAt d).2) := by
  rw [← bind_pure_comp, runAt_bind]
  cases h : (a.runAt d).1 <;> rfl

end Act

end BlockArchive
