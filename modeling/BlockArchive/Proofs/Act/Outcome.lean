import BlockArchive.Proofs.Act.Invariant

/-!
# What an act keeps, gives and stops with

An act is judged by the states that it leaves, by what it gives and by the faults with which it
stops.

* `Act.Yields I Q F a`: from any state in which the invariant `I` holds, the act `a` leaves one in
  which it holds, and either gives what satisfies `Q` or stops with a fault that satisfies `F`. Its
  rules follow the ways to make an act;
* `Act.Ends I Q E a`: the invariant need not outlive a stop. The act keeps it and gives what
  satisfies `Q`, or it stops with a fault and in a state of which `E` holds.
-/

namespace BlockArchive

namespace Act

variable {σ τ α β : Type} {I : σ → Prop}

/-- The outcome satisfies `Q` or, as a fault, `F`. -/
def Meets (Q : α → Prop) (F : Fault → Prop) : Except Fault α → Prop
  | .ok x => Q x
  | .error f => F f

theorem Meets.imp {Q Q' : α → Prop} {F F' : Fault → Prop} {r : Except Fault α} (h : Meets Q F r)
    (hQ : ∀ x, Q x → Q' x) (hF : ∀ f, F f → F' f) : Meets Q' F' r := by
  cases r with
  | ok x => exact hQ x h
  | error f => exact hF f h

/-- The act keeps the invariant, gives what satisfies `Q` and stops with faults that satisfy
`F`. -/
def Yields (I : σ → Prop) (Q : α → Prop) (F : Fault → Prop) (a : Act σ α) : Prop :=
  ∀ d, I d.state → I (a.runAt d).2.state ∧ Meets Q F (a.runAt d).1

namespace Yields

variable {Q Q' : α → Prop} {P : β → Prop} {F F' : Fault → Prop}

theorem pure {x : α} (h : Q x) : Yields I Q F (Pure.pure x) := fun _ hd => ⟨hd, h⟩

theorem stop {f : Fault} (h : F f) : Yields I Q F (Act.stop f : Act σ α) := fun _ hd => ⟨hd, h⟩

theorem lift {r : Except Fault α} (h : Meets Q F r) : Yields I Q F (Act.lift r) := by
  intro d hd
  rw [runAt_lift]
  exact ⟨hd, h⟩

theorem log (r : Row) : Yields I (fun _ => True) F (Act.log r) := fun _ hd => ⟨hd, trivial⟩

theorem update {f : σ → σ} (hf : ∀ s, I s → I (f s)) :
    Yields I (fun _ => True) F (Act.update f) :=
  fun d hd => ⟨hf d.state hd, trivial⟩

/-- Two acts in a row, where the second may count on what the first gives. -/
theorem bind {a : Act σ α} {f : α → Act σ β} (ha : Yields I Q F a)
    (hf : ∀ x, Q x → Yields I P F (f x)) : Yields I P F (a >>= f) := by
  intro d hd
  obtain ⟨hI, hmeets⟩ := ha d hd
  rw [runAt_bind]
  cases hx : (a.runAt d).1 with
  | ok x =>
    rw [hx] at hmeets
    exact hf x hmeets _ hI
  | error e =>
    rw [hx] at hmeets
    exact ⟨hI, hmeets⟩

theorem state_bind {f : σ → Act σ α} (h : ∀ s, I s → Yields I Q F (f s)) :
    Yields I Q F (Act.state >>= f) := by
  intro d hd
  simpa using h d.state hd d hd

theorem imp {a : Act σ α} (h : Yields I Q F a) (hQ : ∀ x, Q x → Q' x) (hF : ∀ f, F f → F' f) :
    Yields I Q' F' a :=
  fun d hd => ⟨(h d hd).1, (h d hd).2.imp hQ hF⟩

theorem ensures {a : Act σ α} (h : Yields I Q F a) : Ensures I Q a := by
  intro d hd
  obtain ⟨hI, hmeets⟩ := h d hd
  refine ⟨hI, fun x hx => ?_⟩
  rwa [hx] at hmeets

end Yields

/-- The act keeps the invariant and gives what satisfies `Q`, or stops so that `E` holds of the
state and the fault. -/
def Ends (I : σ → Prop) (Q : α → Prop) (E : σ → Fault → Prop) (a : Act σ α) : Prop :=
  ∀ d, I d.state → (∃ x, (a.runAt d).1 = .ok x ∧ I (a.runAt d).2.state ∧ Q x) ∨
    ∃ f, (a.runAt d).1 = .error f ∧ E (a.runAt d).2.state f

theorem Yields.ends {Q : α → Prop} {F : Fault → Prop} {E : σ → Fault → Prop} {a : Act σ α}
    (h : Yields I Q F a) (hE : ∀ s f, I s → F f → E s f) : Ends I Q E a := by
  intro d hd
  obtain ⟨hI, hmeets⟩ := h d hd
  cases hx : (a.runAt d).1 with
  | ok x =>
    rw [hx] at hmeets
    exact .inl ⟨x, rfl, hI, hmeets⟩
  | error f =>
    rw [hx] at hmeets
    exact .inr ⟨f, rfl, hE _ _ hI hmeets⟩

namespace Ends

variable {Q : α → Prop} {P : β → Prop} {F : Fault → Prop} {E : σ → Fault → Prop}

theorem yields {a : Act σ α} (h : Ends I Q (fun s f => I s ∧ F f) a) : Yields I Q F a := by
  intro d hd
  obtain ⟨x, hx, hI, hQ⟩ | ⟨f, hf, hI, hF⟩ := h d hd
  · exact ⟨hI, hx ▸ hQ⟩
  · exact ⟨hI, hf ▸ hF⟩

/-- Two acts in a row, where the second may count on what the first gives. -/
theorem bind {a : Act σ α} {f : α → Act σ β} (ha : Ends I Q E a)
    (hf : ∀ x, Q x → Ends I P E (f x)) : Ends I P E (a >>= f) := by
  intro d hd
  rw [runAt_bind]
  obtain ⟨x, hx, hI, hQ⟩ | ⟨e, he, hE⟩ := ha d hd
  · rw [hx]
    exact hf x hQ _ hI
  · rw [he]
    exact .inr ⟨e, rfl, hE⟩

theorem within {J : τ → Prop} {G : τ → Fault → Prop} {part : τ → σ} {put : σ → τ → τ} {a : Act σ α}
    (hpart : ∀ s, J s → I (part s)) (hput : ∀ s u, J s → I u → J (put u s))
    (hstop : ∀ s u f, J s → E u f → G (put u s) f) (h : Ends I Q E a) :
    Ends J Q G (Act.within part put a) := by
  intro d hd
  obtain ⟨x, hx, hI, hQ⟩ | ⟨f, hf, hE⟩ := h ⟨part d.state, d.rows⟩ (hpart _ hd)
  · exact .inl ⟨x, hx, hput _ _ hd hI, hQ⟩
  · exact .inr ⟨f, hf, hstop _ _ _ hd hE⟩

end Ends

end Act

end BlockArchive
