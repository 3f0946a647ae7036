import BlockArchive.Proofs.Act.Outcome
import BlockArchive.Proofs.Ingest.Cache
import BlockArchive.Proofs.Json.Digits

/-!
# Rows about outputs and inputs

The assembly of records tells of each output without an address, the resolver of each input whose
output is found nowhere. The rows show a pattern and an index, which may hold a number of too many
digits to be written. Then no row is written, and the work on the block stops.

* `EvaluatedOutput.Reportable` says that the row about an output can be written, if there is to be
  one, and `Transaction.Showable` that any row about a transaction can;
* `Transaction.keepOutputs_runAt` is what keeping the outputs of a transaction comes to where it
  can, and `Transaction.reportable_of_keepOutputs_ok` says that it does not come about elsewhere.
-/

namespace BlockArchive

theorem Value.shown_of_short {v : Value} (h : v.Short) : v.shown = .ok v.text := by
  rw [shown, h, if_neg Bool.false_ne_true]

theorem Value.shown_of_long {v : Value} (h : ¬ v.Short) : v.shown = .error .longInteger := by
  rw [shown, if_pos (Bool.not_eq_false _ ▸ h)]

theorem Fault.ofProblem_of_short {p : Problem} (h : ∀ v ∈ p.shown, v.Short) :
    ofProblem p = .problem p := by
  have hnone : ¬ p.shown.any Document.hasLongInteger = true := by
    rw [List.any_eq_true]
    rintro ⟨v, hv, hlong⟩
    exact Bool.false_ne_true ((h v hv).symm.trans hlong)
  rw [ofProblem, if_neg hnone]

theorem Fault.ofProblem_of_long {p : Problem} {v : Value} (hv : v ∈ p.shown) (h : ¬ v.Short) :
    ofProblem p = .longInteger := by
  have hsome : p.shown.any Document.hasLongInteger = true :=
    List.any_eq_true.2 ⟨v, hv, Bool.not_eq_false _ ▸ h⟩
  rw [ofProblem, if_pos hsome]

/-- The outcome is that a number has too many digits to be written. -/
def isLongInteger {α : Type} : Except Fault α → Bool
  | .error .longInteger => true
  | _ => false

theorem eq_of_isLongInteger {α : Type} {r : Except Fault α} (h : isLongInteger r = true) :
    r = .error .longInteger := by
  unfold isLongInteger at h
  split at h
  · rfl
  · cases h

/-! ### Inputs -/

namespace Resolution

/-- The row about an input whose output is found nowhere, where it can be written. -/
def lossRow (txHash : String) (index : Nat) (source : OutPoint) : Row :=
  warning txHash index source (OutputKey.ofOutPoint source).line

theorem unresolvedRow_of_short (txHash : String) (index : Nat) {source : OutPoint}
    (h : Document.isTooLong source.index = false) :
    unresolvedRow txHash index source = .ok (lossRow txHash index source) := by
  have htext : (OutputKey.ofOutPoint source).text = .ok (OutputKey.ofOutPoint source).line := by
    rw [OutputKey.text, OutputKey.ofOutPoint, h, if_neg Bool.false_ne_true]
  rw [unresolvedRow, htext]
  rfl

theorem unresolvedRow_of_long (txHash : String) (index : Nat) {source : OutPoint}
    (h : Document.isTooLong source.index = true) :
    unresolvedRow txHash index source = .error .longInteger := by
  have htext : (OutputKey.ofOutPoint source).text = .error .longInteger := by
    rw [OutputKey.text, OutputKey.ofOutPoint, h, if_pos rfl]
  rw [unresolvedRow, htext]
  rfl

theorem unresolvedRow_meets (txHash : String) (index : Nat) {source : OutPoint}
    {F : Fault → Prop} (h : Document.isTooLong source.index = false ∨ F .longInteger) :
    Act.Meets (fun _ => True) F (unresolvedRow txHash index source) := by
  cases hlong : Document.isTooLong source.index with
  | false =>
    rw [unresolvedRow_of_short txHash index hlong]
    trivial
  | true =>
    rw [unresolvedRow_of_long txHash index hlong]
    exact h.resolve_left (by simp [hlong])

end Resolution

/-! ### Outputs -/

namespace Evaluation

/-- The row about an output without an address, where it can be written. -/
def gapRow (e : Evaluation) (txHash : String) (index : Nat) : Row :=
  e.notice txHash index e.pattern.text

theorem unrecognisedRow_of_short {e : Evaluation} (h : e.pattern.Short) (txHash : String)
    (index : Nat) : e.unrecognisedRow txHash index = .ok (e.gapRow txHash index) := by
  rw [unrecognisedRow, Value.shown_of_short h]
  rfl

theorem unrecognisedRow_of_long {e : Evaluation} (h : ¬ e.pattern.Short) (txHash : String)
    (index : Nat) : e.unrecognisedRow txHash index = .error .longInteger := by
  rw [unrecognisedRow, Value.shown_of_long h]
  rfl

theorem short_of_unrecognisedRow_ok {e : Evaluation} {txHash : String} {index : Nat} {row : Row}
    (h : e.unrecognisedRow txHash index = .ok row) : e.pattern.Short := by
  by_contra hlong
  rw [unrecognisedRow_of_long hlong] at h
  cases h

theorem unrecognisedRow_meets {e : Evaluation} (txHash : String) (index : Nat) {F : Fault → Prop}
    (h : e.pattern.Short ∨ F .longInteger) :
    Act.Meets (fun _ => True) F (e.unrecognisedRow txHash index) := by
  by_cases hshort : e.pattern.Short
  · rw [unrecognisedRow_of_short hshort]
    trivial
  · rw [unrecognisedRow_of_long hshort]
    exact h.resolve_left hshort

end Evaluation

/-- If the output has no address, its pattern can be shown. -/
def EvaluatedOutput.Reportable (o : EvaluatedOutput) : Prop :=
  o.evaluation.address.isTruthy = false → o.evaluation.pattern.Short

/-- The rows about an output: one if it has no address. -/
def EvaluatedOutput.rows (txHash : String) (index : Nat) (o : EvaluatedOutput) : List Row :=
  if o.evaluation.address.isTruthy then [] else [o.evaluation.gapRow txHash index]

/-- Whatever there is to report of a transaction, its numbers can be written. -/
structure Transaction.Showable (t : Transaction) : Prop where
  inputs : ∀ i ∈ t.inputs, Document.isTooLong i.source.index = false
  outputs : ∀ o ∈ t.outputs, o.evaluation.pattern.Short

/-- A list worked through with a running index is worked through with indexes that are shifted. -/
theorem mapIdx_cons_add {α β : Type} (f : Nat → α → β) (n : Nat) (x : α) (xs : List α) :
    (x :: xs).mapIdx (fun j y => f (n + j) y) = f n x :: xs.mapIdx fun j y => f (n + 1 + j) y := by
  rw [List.mapIdx_cons]
  simp only [Nat.add_zero, Nat.add_comm 1, Nat.add_assoc]

namespace Transaction

variable {σ : Type}

theorem keepFrom_runAt (txHash : String) (index : Nat) {outputs : List EvaluatedOutput}
    (h : ∀ o ∈ outputs, o.Reportable) (d : Desk σ) :
    (keepFrom txHash index outputs : Act σ _).runAt d =
      (.ok (outputs.mapIdx fun j o => .ofOutput txHash (index + j) o),
        ⟨d.state, d.rows ++ (outputs.mapIdx fun j o => o.rows txHash (index + j)).flatten⟩) := by
  induction outputs generalizing index d with
  | nil => simp [keepFrom]
  | cons o rest ih =>
    obtain ⟨ho, hrest⟩ := List.forall_mem_cons.1 h
    -- records and rows are counted from the index on, so both lists are shifted by one
    rw [mapIdx_cons_add (fun j o => KeptOutput.ofOutput txHash j o),
      mapIdx_cons_add (fun j (o : EvaluatedOutput) => o.rows txHash j)]
    cases haddress : o.evaluation.address.isTruthy with
    | true => simp [keepFrom, EvaluatedOutput.rows, haddress, ih _ hrest, Except.map]
    | false =>
      have hrow := Evaluation.unrecognisedRow_of_short (ho haddress) txHash index
      simp [keepFrom, EvaluatedOutput.rows, haddress, hrow, ih _ hrest, Except.map]

theorem keepOutputs_runAt {t : Transaction} (h : ∀ o ∈ t.outputs, o.Reportable) (d : Desk σ) :
    (t.keepOutputs : Act σ _).runAt d =
      (.ok t.kept, ⟨d.state, d.rows ++
        (t.outputs.mapIdx fun j o => o.rows t.hash.display j).flatten⟩) := by
  have hrun := keepFrom_runAt t.hash.display 0 h d
  simp only [Nat.zero_add] at hrun
  exact hrun

theorem reportable_of_keepFrom_ok {txHash : String} {index : Nat} {outputs : List EvaluatedOutput}
    {d : Desk σ} {kept : List KeptOutput}
    (hok : ((keepFrom txHash index outputs : Act σ _).runAt d).1 = .ok kept) :
    ∀ o ∈ outputs, o.Reportable := by
  induction outputs generalizing index d kept with
  | nil => exact List.forall_mem_nil _
  | cons o rest ih =>
    unfold keepFrom at hok
    cases haddress : o.evaluation.address.isTruthy with
    | true =>
      rw [haddress, Bool.not_true, if_neg Bool.false_ne_true] at hok
      obtain ⟨others, hrest, -⟩ := Act.runAt_bind_ok hok
      refine List.forall_mem_cons.2 ⟨fun hnone => ?_, ih hrest⟩
      rw [haddress] at hnone
      cases hnone
    | false =>
      rw [haddress, Bool.not_false, if_pos rfl] at hok
      obtain ⟨row, hrow, hok⟩ := Act.runAt_bind_ok hok
      obtain ⟨⟨⟩, -, hok⟩ := Act.runAt_bind_ok hok
      obtain ⟨others, hrest, -⟩ := Act.runAt_bind_ok hok
      rw [Act.runAt_lift] at hrow
      exact List.forall_mem_cons.2
        ⟨fun _ => Evaluation.short_of_unrecognisedRow_ok hrow, ih hrest⟩

theorem reportable_of_keepOutputs_ok {t : Transaction} {d : Desk σ} {kept : List KeptOutput}
    (hok : ((t.keepOutputs : Act σ _).runAt d).1 = .ok kept) : ∀ o ∈ t.outputs, o.Reportable :=
  reportable_of_keepFrom_ok hok

/-- What is kept is the records of the outputs, whenever it comes about. -/
theorem kept_of_keepOutputs_ok {t : Transaction} {d : Desk σ} {kept : List KeptOutput}
    (hok : ((t.keepOutputs : Act σ _).runAt d).1 = .ok kept) : kept = t.kept := by
  rw [keepOutputs_runAt (reportable_of_keepOutputs_ok hok)] at hok
  exact (Except.ok.inj hok).symm

variable {I : σ → Prop} {F : Fault → Prop}

theorem keepFrom_yields (txHash : String) (index : Nat) {outputs : List EvaluatedOutput}
    (h : (∀ o ∈ outputs, o.evaluation.pattern.Short) ∨ F .longInteger) :
    Act.Yields I (fun _ => True) F (keepFrom txHash index outputs : Act σ _) := by
  induction outputs generalizing index with
  | nil => exact .pure trivial
  | cons o rest ih =>
    have ho : o.evaluation.pattern.Short ∨ F .longInteger :=
      h.imp_left fun h => h o List.mem_cons_self
    have hothers := ih (index + 1) (h.imp_left fun h o ho => h o (List.mem_cons_of_mem _ ho))
    have hrest := hothers.bind fun others _ =>
      Act.Yields.pure (I := I) (F := F) (x := KeptOutput.ofOutput txHash index o :: others)
        (Q := fun _ => True) trivial
    simp only [keepFrom]
    split
    · have hrow := Evaluation.unrecognisedRow_meets txHash index ho
      exact (Act.Yields.lift hrow).bind fun row _ => (Act.Yields.log row).bind fun _ _ => hrest
    · exact hrest

theorem keepOutputs_yields {t : Transaction} (h : t.Showable ∨ F .longInteger) :
    Act.Yields I (· = t.kept) F (t.keepOutputs : Act σ _) := by
  intro d hd
  obtain ⟨hI, hmeets⟩ :=
    keepFrom_yields (I := I) t.hash.display 0 (h.imp_left Showable.outputs) d hd
  refine ⟨hI, ?_⟩
  cases hx : ((t.keepOutputs : Act σ _).runAt d).1 with
  | ok kept => exact kept_of_keepOutputs_ok hx
  | error f =>
    rw [keepOutputs] at hx
    rwa [hx] at hmeets

end Transaction

end BlockArchive
