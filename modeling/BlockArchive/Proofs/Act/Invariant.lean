import BlockArchive.Act

/-!
# What an act keeps and gives

An act is judged by the states that it leaves and by what it gives when it does not stop.

* `Act.Ensures I Q a`: from any state in which the invariant `I` holds, the act `a` leaves one in
  which it holds, and whatever it gives satisfies `Q`. Its rules follow the ways to make an act.
-/

namespace BlockArchive

namespace Act

variable {σ τ α β : Type} {I : σ → Prop}

/-- The act keeps the invariant, and what it gives satisfies `Q`. -/
def Ensures (I : σ → Prop) (Q : α → Prop) (a : Act σ α) : Prop :=
  ∀ d, I d.state → I (a.runAt d).2.state ∧ ∀ x, (a.runAt d).1 = .ok x → Q x

namespace Ensures

variable {Q : α → Prop} {P : β → Prop}

theorem pure {x : α} (h : Q x) : Ensures I Q (Pure.pure x) := by
  rintro d hd
  refine ⟨hd, ?_⟩
  rintro _ ⟨⟩
  exact h

theorem lift {r : Except Fault α} (h : ∀ x, r = .ok x → Q x) : Ensures I Q (Act.lift r) := by
  intro d hd
  rw [runAt_lift]
  exact ⟨hd, h⟩

theorem log (r : Row) : Ensures I (fun _ => True) (Act.log r) :=
  fun _ hd => ⟨hd, fun _ _ => trivial⟩

theorem update {f : σ → σ} (hf : ∀ s, I s → I (f s)) : Ensures I (fun _ => True) (Act.update f) :=
  fun d hd => ⟨hf d.state hd, fun _ _ => trivial⟩

/-- Two acts in a row, where the second may count on what the first gives. -/
theorem bind {a : Act σ α} {f : α → Act σ β} (ha : Ensures I Q a)
    (hf : ∀ x, Q x → Ensures I P (f x)) : Ensures I P (a >>= f) := by
  intro d hd
  obtain ⟨hI, hQ⟩ := ha d hd
  rw [runAt_bind]
  cases hx : (a.runAt d).1 with
  | ok x => exact hf x (hQ x hx) _ hI
  | error e => exact ⟨hI, fun _ h => nomatch h⟩

theorem state_bind {f : σ → Act σ α} (h : ∀ s, I s → Ensures I Q (f s)) :
    Ensures I Q (Act.state >>= f) := by
  intro d hd
  simpa using h d.state hd d hd

theorem within {J : τ → Prop} {part : τ → σ} {put : σ → τ → τ} {a : Act σ α}
    (hpart : ∀ s, J s → I (part s)) (hput : ∀ s u, J s → I u → J (put u s)) (h : Ensures I Q a) :
    Ensures J Q (Act.within part put a) := by
  intro d hd
  obtain ⟨hI, hQ⟩ := h ⟨part d.state, d.rows⟩ (hpart _ hd)
  exact ⟨hput _ _ hd hI, hQ⟩

end Ensures

end Act

end BlockArchive
