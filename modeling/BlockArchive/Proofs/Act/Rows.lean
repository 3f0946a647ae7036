import BlockArchive.Act

/-!
# Which rows an act writes

Rows are only ever added to those written so far, so what an act reports is told by the rows that it
adds. Of these often only some matter, such as those of one reporter.

* `Desk.Adds p d e added`: the desk `e` has come from `d` by writing rows, of which those that
  satisfy `p` are the ones given. It adds up along acts in a row (`Desk.Adds.trans`);
* `Act.Quiet p a`: the act `a` writes no row that satisfies `p`, whatever it comes to. Its rules
  follow the ways to make an act.
-/

namespace BlockArchive

variable {σ τ υ α β : Type} {p q : Row → Bool}

/-- The desk `e` has come from `d` by writing rows, those among them that satisfy `p` as given. -/
def Desk.Adds (p : Row → Bool) (d : Desk σ) (e : Desk τ) (added : List Row) : Prop :=
  ∃ rows, e.rows = d.rows ++ rows ∧ rows.filter p = added

namespace Desk.Adds

variable {d : Desk σ} {e : Desk τ} {f : Desk υ} {xs ys : List Row}

theorem of_rows_eq (h : e.rows = d.rows) : d.Adds p e [] :=
  ⟨[], by rw [h, List.append_nil], rfl⟩

theorem refl (d : Desk σ) : d.Adds p d [] := of_rows_eq rfl

theorem trans (h : d.Adds p e xs) (h' : e.Adds p f ys) : d.Adds p f (xs ++ ys) := by
  obtain ⟨rows, he, hxs⟩ := h
  obtain ⟨rows', hf, hys⟩ := h'
  refine ⟨rows ++ rows', ?_, ?_⟩
  · rw [hf, he, List.append_assoc]
  · rw [List.filter_append, hxs, hys]

theorem nil_of_imp (hpq : ∀ r, q r = true → p r = true) (h : d.Adds p e []) : d.Adds q e [] := by
  obtain ⟨rows, he, hnone⟩ := h
  refine ⟨rows, he, List.filter_eq_nil_iff.2 fun r hr hq => ?_⟩
  exact List.filter_eq_nil_iff.1 hnone r hr (hpq r hq)

end Desk.Adds

namespace Act

/-- The act writes no row that satisfies `p`, whatever it comes to. -/
def Quiet (p : Row → Bool) (a : Act σ α) : Prop := ∀ d : Desk σ, d.Adds p (a.runAt d).2 []

namespace Quiet

theorem pure (x : α) : Quiet p (Pure.pure x : Act σ α) := fun d => .refl d

theorem stop (f : Fault) : Quiet p (Act.stop f : Act σ α) := fun d => .refl d

theorem update (f : σ → σ) : Quiet p (Act.update f) := fun _ => .of_rows_eq rfl

theorem lift (r : Except Fault α) : Quiet p (Act.lift r : Act σ α) := by
  intro d
  rw [runAt_lift]
  exact .refl d

theorem log {r : Row} (h : p r = false) : Quiet p (Act.log r : Act σ Unit) :=
  fun _ => ⟨[r], rfl, List.filter_cons_of_neg (by simp [h])⟩

theorem bind {a : Act σ α} {f : α → Act σ β} (ha : Quiet p a) (hf : ∀ x, Quiet p (f x)) :
    Quiet p (a >>= f) := by
  intro d
  rw [runAt_bind]
  cases hx : (a.runAt d).1 with
  | ok x => exact (ha d).trans (hf x _)
  | error e => exact ha d

theorem state_bind {f : σ → Act σ α} (h : ∀ s, Quiet p (f s)) : Quiet p (Act.state >>= f) := by
  intro d
  simpa using h d.state d

theorem guard {c : Prop} [Decidable c] (f : Fault) {k : Unit → Act σ α} (h : Quiet p (k ())) :
    Quiet p (if c then Act.stop f >>= k else k ()) := by
  split
  · exact fun d => .refl d
  · exact h

theorem within {part : τ → σ} {put : σ → τ → τ} {a : Act σ α} (h : Quiet p a) :
    Quiet p (Act.within part put a) := fun d => h ⟨part d.state, d.rows⟩

theorem attempt {a : Act σ α} (h : Quiet p a) : Quiet p (Act.attempt a) := h

end Quiet

end Act

end BlockArchive
