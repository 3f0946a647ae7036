import BlockArchive.Log.Timing

/-!
# Acts side by side

An act on one kind of state is compared with an act on another by running both at related states.

* `Act.Refines R S a b`: from states related by `R`, the act `a` either does as `b` does, with the
  same outcome and related states left behind, or stops with a fault in a state in which `S` holds;
* `Act.Matches R a b`: `a` always does as `b` does.

Rows are not compared. Both relations are kept by every way to make an act; only `attempt`, which
turns a stop into an outcome, needs `Matches`.
-/

namespace BlockArchive

namespace Act

variable {σ τ σ' τ' α β : Type} {R : σ → τ → Prop} {S : σ → Fault → Prop}

/-- From related states `a` does as `b` does, or stops where `S` holds. -/
def Refines (R : σ → τ → Prop) (S : σ → Fault → Prop) (a : Act σ α) (b : Act τ α) : Prop :=
  ∀ d e, R d.state e.state →
    (a.runAt d).1 = (b.runAt e).1 ∧ R (a.runAt d).2.state (b.runAt e).2.state ∨
      ∃ f, (a.runAt d).1 = .error f ∧ S (a.runAt d).2.state f

/-- From related states `a` does as `b` does. -/
abbrev Matches (R : σ → τ → Prop) (a : Act σ α) (b : Act τ α) : Prop :=
  Refines R (fun _ _ => False) a b

theorem matches_iff {a : Act σ α} {b : Act τ α} :
    Matches R a b ↔ ∀ d e, R d.state e.state →
      (a.runAt d).1 = (b.runAt e).1 ∧ R (a.runAt d).2.state (b.runAt e).2.state := by
  simp [Matches, Refines]

namespace Refines

theorem pure (x : α) : Refines R S (Pure.pure x) (Pure.pure x) :=
  fun _ _ h => .inl ⟨rfl, h⟩

theorem stop (f : Fault) : Refines R S (Act.stop f : Act σ α) (Act.stop f) :=
  fun _ _ h => .inl ⟨rfl, h⟩

theorem lift (r : Except Fault α) : Refines R S (Act.lift r) (Act.lift r) := by
  intro d e h
  simpa using .inl h

theorem log (r r' : Row) : Refines R S (Act.log r) (Act.log r') :=
  fun _ _ h => .inl ⟨rfl, h⟩

theorem update {f : σ → σ} {g : τ → τ} (h : ∀ s t, R s t → R (f s) (g t)) :
    Refines R S (Act.update f) (Act.update g) :=
  fun d e hde => .inl ⟨rfl, h d.state e.state hde⟩

/-- Two acts in a row, where the second need only be compared on the outcomes of the first that
can come about. -/
theorem bind_of {a : Act σ α} {b : Act τ α} {f : α → Act σ β} {g : α → Act τ β}
    (h : Refines R S a b)
    (hfg : ∀ x, (∃ (d : Desk σ) (e : Desk τ), R d.state e.state ∧ (b.runAt e).1 = .ok x) →
      Refines R S (f x) (g x)) :
    Refines R S (a >>= f) (b >>= g) := by
  intro d e hde
  simp only [runAt_bind]
  obtain ⟨ho, hs⟩ | ⟨x, hx, hS⟩ := h d e hde
  -- the first acts went alike, or the first one stopped
  · rw [ho]
    cases hb : (b.runAt e).1 with
    | ok x => exact hfg x ⟨d, e, hde, hb⟩ _ _ hs
    | error x => exact .inl ⟨rfl, hs⟩
  · rw [hx]
    exact .inr ⟨x, rfl, hS⟩

theorem bind {a : Act σ α} {b : Act τ α} {f : α → Act σ β} {g : α → Act τ β}
    (h : Refines R S a b) (hfg : ∀ x, Refines R S (f x) (g x)) :
    Refines R S (a >>= f) (b >>= g) :=
  h.bind_of fun x _ => hfg x

theorem guard {p : Prop} [Decidable p] (f : Fault) {k : Unit → Act σ α} {l : Unit → Act τ α}
    (h : Refines R S (k ()) (l ())) :
    Refines R S (if p then Act.stop f >>= k else k ()) (if p then Act.stop f >>= l else l ()) := by
  split
  · exact fun _ _ hde => .inl ⟨rfl, hde⟩
  · exact h

theorem state_bind {f : σ → Act σ α} {g : τ → Act τ α}
    (h : ∀ s t, R s t → Refines R S (f s) (g t)) :
    Refines R S (Act.state >>= f) (Act.state >>= g) := by
  intro d e hde
  simpa using h d.state e.state hde d e hde

theorem within {part : σ' → σ} {put : σ → σ' → σ'} {part' : τ' → τ} {put' : τ → τ' → τ'}
    {R' : σ' → τ' → Prop} {S' : σ' → Fault → Prop} {a : Act σ α} {b : Act τ α}
    (hpart : ∀ s t, R' s t → R (part s) (part' t))
    (hput : ∀ s t u v, R' s t → R u v → R' (put u s) (put' v t))
    (hS : ∀ s t u f, R' s t → S u f → S' (put u s) f) (h : Refines R S a b) :
    Refines R' S' (Act.within part put a) (Act.within part' put' b) := by
  intro d e hde
  simp only [runAt_within]
  obtain ⟨ho, hs⟩ | ⟨f, hf, hSf⟩ := h ⟨part d.state, d.rows⟩ ⟨part' e.state, e.rows⟩
    (hpart _ _ hde)
  · exact .inl ⟨ho, hput _ _ _ _ hde hs⟩
  · exact .inr ⟨f, hf, hS _ _ _ _ hde hSf⟩

end Refines

namespace Matches

/-- An act that always matches does so when it is attempted. -/
theorem attempt {a : Act σ α} {b : Act τ α} (h : Matches R a b) :
    Matches R (Act.attempt a) (Act.attempt b) := by
  rw [matches_iff] at h ⊢
  intro d e hde
  obtain ⟨ho, hs⟩ := h d e hde
  simpa [ho] using hs

theorem takeTick {clock : σ → Clock} {put : Clock → σ → σ} {clock' : τ → Clock}
    {put' : Clock → τ → τ} (hclock : ∀ s t, R s t → clock s = clock' t)
    (hput : ∀ s t c, R s t → R (put c s) (put' c t)) :
    Matches R (Act.takeTick clock put) (Act.takeTick clock' put') := by
  refine Refines.state_bind fun s t h => ?_
  rw [hclock s t h]
  exact (Refines.update fun s t hst => hput s t _ hst).bind fun _ => Refines.pure _

theorem timed {clock : σ → Clock} {put : Clock → σ → σ} {clock' : τ → Clock}
    {put' : Clock → τ → τ} {a : Act σ α} {b : Act τ α} (category operation : String)
    (threshold : Option Quantity) (extra : List (String × Value))
    (hclock : ∀ s t, R s t → clock s = clock' t)
    (hput : ∀ s t c, R s t → R (put c s) (put' c t)) (h : Matches R a b) :
    Matches R (Act.timed clock put category operation threshold extra a)
      (Act.timed clock' put' category operation threshold extra b) := by
  refine (takeTick hclock hput).bind fun start => ?_
  refine h.attempt.bind fun outcome => ?_
  refine (takeTick hclock hput).bind fun stop => ?_
  exact (Refines.log _ _).bind fun _ => Refines.lift outcome

end Matches

end Act

end BlockArchive
