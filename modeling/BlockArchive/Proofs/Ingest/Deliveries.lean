import BlockArchive.Ingest.Source
import Mathlib.Data.List.Induction

/-!
# What a source hands to a receiver

A source announces its start, hands over its blocks one by one and announces its end. Whatever the
receiver does with its own state, it hears a beginning of this sequence: all of it, or up to and
with the first call that it refuses.

* `Delivery` is a call of a receiver, `Source.deliveries` the sequence that is due;
* `Receiver.noting` notes each call before it is made, `Receiver.Takes` says that calls in a row
  are all taken;
* `Receiver.Hears` compares an act with the one that notes, for the calls due in between; its rules
  follow the ways in which a run is put together;
* `Source.drive_deliveries` says which calls a run makes and how it ends.
-/

namespace BlockArchive

variable {σ α β γ : Type}

/-! ### Calls -/

/-- A call of a receiver. -/
inductive Delivery where
  /-- The start is announced. -/
  | start (coin : Coin) (height : Int)
  /-- A block is handed over at its height. -/
  | block (b : Block) (height : Int)
  /-- The end is announced. -/
  | complete (height : Int)

/-- The block that a call hands over, and its height. -/
def Delivery.block? : Delivery → Option (Block × Int)
  | .block b height => some (b, height)
  | _ => none

namespace Source

/-- The calls that hand over blocks, the first at the given height. -/
def blocksFrom (height : Int) (bs : List Block) : List Delivery :=
  bs.mapIdx fun i b => .block b (height + i)

/-- The calls before the end: the start, then each block at its height. -/
def stream (s : Source) : List Delivery :=
  .start s.coin s.startHeight :: blocksFrom s.startHeight s.blocks

/-- The calls that a source makes of a receiver that takes them all. -/
def deliveries (s : Source) : List Delivery :=
  s.stream ++ [.complete (s.startHeight + max ((s.blocks.length : Int) - 1) 0)]

theorem blocksFrom_cons (height : Int) (b : Block) (rest : List Block) :
    blocksFrom height (b :: rest) = .block b height :: blocksFrom (height + 1) rest := by
  have hshift : (fun (i : Nat) b => Delivery.block b (height + (i + 1 : Nat))) =
      fun (i : Nat) b => Delivery.block b (height + 1 + i) := by
    funext i b
    congr 1
    omega
  simp only [blocksFrom, List.mapIdx_cons, hshift]
  simp

theorem endHeight_eq (s : Source) :
    s.endHeight = s.startHeight + max ((s.blocks.length : Int) - 1) 0 := by
  unfold endHeight
  omega

theorem filterMap_blocksFrom (height : Int) (bs : List Block) :
    (blocksFrom height bs).filterMap Delivery.block? =
      bs.mapIdx fun i b => (b, (height + i : Int)) := by
  have hsome : Delivery.block? ∘ (fun x : Block × Nat => Delivery.block x.1 (height + x.2)) =
      some ∘ fun x : Block × Nat => (x.1, (height + x.2 : Int)) := rfl
  rw [blocksFrom, List.mapIdx_eq_zipIdx_map, List.mapIdx_eq_zipIdx_map, List.filterMap_map, hsome,
    List.filterMap_eq_map]

theorem filterMap_deliveries (s : Source) :
    s.deliveries.filterMap Delivery.block? =
      s.blocks.mapIdx fun i b => (b, (s.startHeight + i : Int)) := by
  rw [deliveries, stream, List.filterMap_append, List.filterMap_cons_none rfl,
    filterMap_blocksFrom]
  simp [Delivery.block?]

/-- The end is announced at the height of the last block, or of the start if there is none. -/
theorem endHeight_eq_last (s : Source) :
    s.endHeight = ((s.deliveries.filterMap Delivery.block?).getLast?.map Prod.snd).getD
      s.startHeight := by
  rw [filterMap_deliveries]
  obtain ⟨coin, height, bs⟩ := s
  cases bs using List.reverseRecOn with
  | nil => simp [endHeight]
  | append_singleton rest b => simp [endHeight, List.mapIdx_append]

end Source

/-! ### Receivers -/

namespace Receiver

/-- What a receiver does at a call; only the end gives a value. -/
def answer (r : Receiver σ α) : Delivery → Act σ (Option α)
  | .start coin height => (fun _ => none) <$> r.onStart coin height
  | .block b height => (fun _ => none) <$> r.onBlock b height
  | .complete height => some <$> r.onComplete height

/-- Notes a call, then makes it. -/
def note (c : Delivery) (a : Act σ β) : Act (σ × List Delivery) β := do
  Act.update fun s => (s.1, s.2 ++ [c])
  Act.within Prod.fst (fun x s => (x, s.2)) a

/-- The receiver that notes each call before it is made. -/
def noting (r : Receiver σ α) : Receiver (σ × List Delivery) α where
  onStart coin height := note (.start coin height) (r.onStart coin height)
  onBlock b height := note (.block b height) (r.onBlock b height)
  onComplete height := note (.complete height) (r.onComplete height)

@[simp] theorem runAt_note (c : Delivery) (a : Act σ β) (x : σ) (cs : List Delivery)
    (rows : List Row) :
    (note c a).runAt ⟨(x, cs), rows⟩ =
      ((a.runAt ⟨x, rows⟩).1,
        ⟨((a.runAt ⟨x, rows⟩).2.state, cs ++ [c]), (a.runAt ⟨x, rows⟩).2.rows⟩) := by
  simp [note]

/-- Calls in a row are all taken, and lead from one desk to another. -/
inductive Takes (r : Receiver σ α) : Desk σ → List Delivery → Desk σ → Prop
  /-- Without calls the desk stays. -/
  | nil (d : Desk σ) : Takes r d [] d
  /-- The first call is taken, and the others at the desk that it leaves. -/
  | cons {c : Delivery} {v : Option α} {d e f : Desk σ} {rest : List Delivery}
    (first : (r.answer c).runAt d = (.ok v, e)) (others : Takes r e rest f) :
    Takes r d (c :: rest) f

theorem Takes.append {r : Receiver σ α} {d e f : Desk σ} {cs cs' : List Delivery}
    (h : Takes r d cs e) (h' : Takes r e cs' f) : Takes r d (cs ++ cs') f := by
  induction h with
  | nil => exact h'
  | cons first _ ih => exact .cons first (ih h')

/-- Calls were made one after the other from a desk: all that were due, and all were taken; or up
to and with the first that was refused, whose fault ended the act. -/
def Made (r : Receiver σ α) (d : Desk σ) (due made : List Delivery)
    (ending : Except Fault β × Desk σ) : Prop :=
  match ending.1 with
  | .ok _ => made = due ∧ r.Takes d due ending.2
  | .error f => ∃ before c after e, due = before ++ c :: after ∧ made = before ++ [c] ∧
      r.Takes d before e ∧ (r.answer c).runAt e = (.error f, ending.2)

/-- The act `b` does what `a` does, and besides notes the calls that are made, of those due. -/
def Hears (r : Receiver σ α) (due : List Delivery) (a : Act σ β)
    (b : Act (σ × List Delivery) β) : Prop :=
  ∀ x cs rows, ∃ made, b.runAt ⟨(x, cs), rows⟩ =
      ((a.runAt ⟨x, rows⟩).1,
        ⟨((a.runAt ⟨x, rows⟩).2.state, cs ++ made), (a.runAt ⟨x, rows⟩).2.rows⟩) ∧
    r.Made ⟨x, rows⟩ due made (a.runAt ⟨x, rows⟩)

namespace Hears

variable {r : Receiver σ α} {due due' : List Delivery}

theorem pure (x : β) : Hears r [] (Pure.pure x) (Pure.pure x) := by
  intro y cs rows
  exact ⟨[], by simp, rfl, .nil _⟩

theorem call {c : Delivery} {a : Act σ β} {f : β → Option α} (h : r.answer c = f <$> a) :
    Hears r [c] a (note c a) := by
  intro x cs rows
  refine ⟨[c], runAt_note c a x cs rows, ?_⟩
  have hanswer : (r.answer c).runAt ⟨x, rows⟩ =
      ((a.runAt ⟨x, rows⟩).1.map f, (a.runAt ⟨x, rows⟩).2) := by
    rw [h, Act.runAt_map]
  unfold Made
  split
  · rename_i v hv
    rw [hv] at hanswer
    exact ⟨rfl, .cons hanswer (.nil _)⟩
  · rename_i fault hv
    rw [hv] at hanswer
    exact ⟨[], c, [], _, rfl, rfl, .nil _, hanswer⟩

/-- Two acts in a row: the calls due to the second follow those due to the first. -/
theorem bind {a : Act σ β} {b : Act (σ × List Delivery) β} {f : β → Act σ γ}
    {g : β → Act (σ × List Delivery) γ} (h : Hears r due a b)
    (h' : ∀ y, Hears r due' (f y) (g y)) : Hears r (due ++ due') (a >>= f) (b >>= g) := by
  intro x cs rows
  obtain ⟨made, hb, hmade⟩ := h x cs rows
  rw [Act.runAt_bind, Act.runAt_bind, hb]
  unfold Made at hmade
  cases ha : (a.runAt ⟨x, rows⟩).1 with
  | error fault =>
    rw [ha] at hmade
    obtain ⟨before, c, after, e, rfl, rfl, htaken, hrefused⟩ := hmade
    exact ⟨before ++ [c], rfl, before, c, after ++ due', e, by simp, rfl, htaken, hrefused⟩
  | ok y =>
    rw [ha] at hmade
    obtain ⟨rfl, htaken⟩ := hmade
    obtain ⟨made', hg, hmade'⟩ := h' y (a.runAt ⟨x, rows⟩).2.state (cs ++ made)
      (a.runAt ⟨x, rows⟩).2.rows
    refine ⟨made ++ made', by simpa using hg, ?_⟩
    -- what the second act comes to, with the calls of the first before its own
    unfold Made at hmade' ⊢
    split at hmade'
    · rename_i z hz
      simp only [hz]
      exact ⟨by rw [hmade'.1], htaken.append hmade'.2⟩
    · rename_i fault hz
      simp only [hz]
      obtain ⟨before, c, after, e, rfl, rfl, htaken', hrefused⟩ := hmade'
      exact ⟨made ++ before, c, after, e, by simp, by simp, htaken.append htaken', hrefused⟩

end Hears

end Receiver

/-! ### Runs -/

namespace Source

open Receiver

theorem handOver_hears (r : Receiver σ α) (height : Int) (bs : List Block) :
    Hears r (blocksFrom height bs) (handOver r height bs) (handOver r.noting height bs) := by
  induction bs generalizing height with
  | nil => exact .pure ()
  | cons b rest ih =>
    rw [blocksFrom_cons]
    exact (Hears.call rfl : Hears r [.block b height] _ _).bind fun _ => ih (height + 1)

/-- The part of a run before the end. -/
def announce (s : Source) (r : Receiver σ α) : Act σ Unit := do
  r.onStart s.coin s.startHeight
  handOver r s.startHeight s.blocks

theorem drive_eq (s : Source) (r : Receiver σ α) :
    s.drive r = s.announce r >>= fun _ => r.onComplete s.endHeight := by
  simp only [drive, announce, bind_assoc]

theorem announce_hears (s : Source) (r : Receiver σ α) :
    Hears r s.stream (s.announce r) (s.announce r.noting) :=
  (Hears.call rfl : Hears r [.start s.coin s.startHeight] _ _).bind fun _ =>
    handOver_hears r s.startHeight s.blocks

theorem deliveries_eq (s : Source) : s.deliveries = s.stream ++ [.complete s.endHeight] := by
  rw [deliveries, endHeight_eq]

theorem length_deliveries (s : Source) : s.deliveries.length = s.blocks.length + 2 := by
  simp [deliveries, stream, blocksFrom]

/-- How a run goes from a desk, with the calls that the receiver hears and the end that it comes
to. -/
inductive Course (s : Source) (r : Receiver σ α) (d : Desk σ) :
    List Delivery → Except Fault α × Desk σ → Prop
  /-- All calls are taken, and the run gives what the last of them gives. -/
  | completed {e e' : Desk σ} {a : α} (taken : r.Takes d s.stream e)
      (ended : (r.onComplete s.endHeight).runAt e = (.ok a, e')) :
      Course s r d s.deliveries (.ok a, e')
  /-- A call is refused: it is the last, and its fault is that of the run. -/
  | refused {before after : List Delivery} {c : Delivery} {e e' : Desk σ} {f : Fault}
      (due : s.deliveries = before ++ c :: after) (taken : r.Takes d before e)
      (stopped : (r.answer c).runAt e = (.error f, e')) :
      Course s r d (before ++ [c]) (.error f, e')

theorem Course.isPrefix {s : Source} {r : Receiver σ α} {d : Desk σ} {heard : List Delivery}
    {ending : Except Fault α × Desk σ} (h : Course s r d heard ending) :
    heard <+: s.deliveries := by
  cases h with
  | completed => exact List.prefix_rfl
  | @refused before after c _ _ _ due => exact ⟨after, by simp [due]⟩

theorem drive_course (s : Source) (r : Receiver σ α) (x : σ) (rows : List Row) :
    ∃ heard, (s.drive r.noting).runAt ⟨(x, []), rows⟩ =
        (((s.drive r).runAt ⟨x, rows⟩).1,
          ⟨(((s.drive r).runAt ⟨x, rows⟩).2.state, heard),
            ((s.drive r).runAt ⟨x, rows⟩).2.rows⟩) ∧
      s.Course r ⟨x, rows⟩ heard ((s.drive r).runAt ⟨x, rows⟩) := by
  obtain ⟨made, hnoted, hmade⟩ := s.announce_hears r x [] rows
  rw [drive_eq, drive_eq, Act.runAt_bind, Act.runAt_bind, hnoted]
  generalize (s.announce r).runAt ⟨x, rows⟩ = opened at hmade
  obtain ⟨outcome, e⟩ := opened
  cases outcome with
  | error f =>
    obtain ⟨before, c, after, e', hdue, rfl, htaken, hstopped⟩ := hmade
    have hfull : s.deliveries = before ++ c :: (after ++ [.complete s.endHeight]) := by
      rw [deliveries_eq, hdue, List.append_assoc, List.cons_append]
    exact ⟨before ++ [c], rfl, .refused hfull htaken hstopped⟩
  | ok _ =>
    obtain ⟨rfl, htaken⟩ := hmade
    refine ⟨s.deliveries, ?_, ?_⟩
    · simp [noting, deliveries_eq]
    · cases hend : (r.onComplete s.endHeight).runAt e with
      | mk outcome e' =>
        cases outcome with
        | ok a =>
          simpa [hend] using Course.completed htaken hend
        | error f =>
          -- the end itself is refused: it is the last call that is due
          rw [deliveries_eq]
          refine .refused s.deliveries_eq htaken ?_
          simp [answer, hend, Except.map]

/-- **A source makes the calls that are due, in order, up to and with the first that is refused.**
A receiver that refuses none hears all of them, each block once and at consecutive heights, and the
run gives what the end gives; a fault of the receiver is passed on as it is. Noting the calls
changes nothing of the run. -/
theorem drive_deliveries (s : Source) (r : Receiver σ α) (x : σ) (rows : List Row) :
    (∃ heard, (s.drive r.noting).runAt ⟨(x, []), rows⟩ =
        (((s.drive r).runAt ⟨x, rows⟩).1,
          ⟨(((s.drive r).runAt ⟨x, rows⟩).2.state, heard),
            ((s.drive r).runAt ⟨x, rows⟩).2.rows⟩) ∧
      heard <+: s.deliveries ∧ s.Course r ⟨x, rows⟩ heard ((s.drive r).runAt ⟨x, rows⟩)) ∧
    s.deliveries.length = s.blocks.length + 2 ∧
    (s.deliveries.filterMap Delivery.block? =
      s.blocks.mapIdx fun i b => (b, (s.startHeight + i : Int))) ∧
    s.endHeight = ((s.deliveries.filterMap Delivery.block?).getLast?.map Prod.snd).getD
      s.startHeight := by
  obtain ⟨heard, hnoted, hcourse⟩ := s.drive_course r x rows
  exact ⟨⟨heard, hnoted, hcourse.isPrefix, hcourse⟩, s.length_deliveries, s.filterMap_deliveries,
    s.endHeight_eq_last⟩

end Source

end BlockArchive
