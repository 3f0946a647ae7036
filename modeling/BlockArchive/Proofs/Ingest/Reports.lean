import BlockArchive.Proofs.Act.Rows
import BlockArchive.Proofs.Ingest.Cut

/-!
# What the resolver reports

An input that is not resolved leaves a row in the log, which names the transaction, the position of
the input and the output that it spends, and nothing else is reported by the resolver. So the log of
a run tells which inputs were not resolved.

* `Settled.missed` are the rows of a settled transaction, and `Settled.filter_rows` finds them among
  all its rows;
* `Desk.Wrote` says which rows of the resolver were written between two desks, and `Act.Silent` that
  an act writes none, for which the rules of `Act.Quiet` serve (`Act.silent_iff`);
* `Transaction.Misses`: the rows report an input.
-/

namespace BlockArchive

/-! ### The row of an input -/

/-- The rows report that the input of a transaction at a position is not resolved. -/
def Transaction.Misses (rows : List Row) (t : Transaction) (j : Nat) (i : TxInput) : Prop :=
  Resolution.lossRow t.hash.display j i.source ∈ rows

theorem Resolution.lossRow_inj {hash hash' : String} {j j' : Nat} {source source' : OutPoint}
    (h : lossRow hash j source = lossRow hash' j' source') : hash = hash' ∧ j = j' := by
  have hextra := congrArg Row.extra h
  simp only [lossRow, warning, Value.nat, List.cons.injEq, Prod.mk.injEq, Value.string.injEq,
    Value.int.injEq, true_and] at hextra
  obtain ⟨hhash, hindex, -⟩ := hextra
  exact ⟨hhash, Int.ofNat.inj hindex⟩

/-! ### The rows of a transaction -/

theorem Clock.category_durationRow (category operation : String) (threshold : Option Quantity)
    (extra : List (String × Value)) (elapsed : Quantity) :
    (durationRow category operation threshold extra elapsed).category = some category := by
  unfold durationRow
  cases threshold with
  | none => rfl
  | some limit =>
    dsimp only
    split <;> rfl

/-- The row is one of the resolver. -/
def Row.isResolver (r : Row) : Bool := r.category == some "resolver"

namespace Settlement

/-- The input is not resolved. -/
def isUnresolved : Settlement → Bool
  | .unresolved => true
  | _ => false

/-- An input is not resolved where it spends an output and none is found. -/
theorem isUnresolved_of (paid : OutPoint → Option Payment) (c : Cache) (source : OutPoint) :
    (Settlement.of paid c source).isUnresolved =
      (!source.isNull && (found paid c source).isNone) := by
  unfold Settlement.of found
  cases source.isNull with
  | true => rfl
  | false =>
    cases c.get? (.ofOutPoint source) with
    | some p => rfl
    | none => cases paid source <;> rfl

theorem isUnresolved_iff {w : Settlement} : w.isUnresolved = true ↔ w = .unresolved := by
  cases w <;> simp [isUnresolved]

theorem rows_eq (w : Settlement) (txHash : String) (index : Nat) (source : OutPoint) :
    w.rows txHash index source =
      if w.isUnresolved then [Resolution.lossRow txHash index source] else [] := by
  cases w <;> rfl

end Settlement

namespace Settled

/-- The rows that report the inputs that are not resolved. -/
def missed (s : Settled) : List Row :=
  (s.transaction.inputs.mapIdx fun j i =>
    (s.settle i.source).rows s.transaction.hash.display j i.source).flatten

theorem mem_missed {s : Settled} {row : Row} :
    row ∈ s.missed ↔ ∃ j i, s.transaction.inputs[j]? = some i ∧
      (s.settle i.source).isUnresolved = true ∧
      row = Resolution.lossRow s.transaction.hash.display j i.source := by
  simp only [missed, List.mem_flatten, List.mem_mapIdx, List.getElem?_eq_some_iff,
    Settlement.rows_eq]
  constructor
  · rintro ⟨_, ⟨j, hj, rfl⟩, hrow⟩
    split at hrow
    · rename_i hw
      exact ⟨j, _, ⟨hj, rfl⟩, hw, List.mem_singleton.1 hrow⟩
    · cases hrow
  · rintro ⟨j, _, ⟨hj, rfl⟩, hw, hrow⟩
    refine ⟨_, ⟨j, hj, rfl⟩, ?_⟩
    rw [if_pos hw]
    exact List.mem_singleton.2 hrow

theorem missed_of_agree (t : Transaction) {paid paid' : OutPoint → Option Payment} {c c' : Cache}
    (h : Agree paid c paid' c') : missed ⟨t, .of paid c⟩ = missed ⟨t, .of paid' c'⟩ := by
  simp only [missed, Settlement.rows_eq, Settlement.isUnresolved_of, h _]

theorem reportable_congr (t : Transaction) {paid paid' : OutPoint → Option Payment} {c c' : Cache}
    (h : Agree paid c paid' c') : Reportable ⟨t, .of paid c⟩ ↔ Reportable ⟨t, .of paid' c'⟩ := by
  have hsettled (source : OutPoint) : Settlement.of paid c source = .unresolved ↔
      Settlement.of paid' c' source = .unresolved := by
    rw [← Settlement.isUnresolved_iff, ← Settlement.isUnresolved_iff, Settlement.isUnresolved_of,
      Settlement.isUnresolved_of, h]
  exact ⟨fun hs => ⟨hs.outputs, fun i hi hw => hs.inputs i hi ((hsettled _).2 hw)⟩,
    fun hs => ⟨hs.outputs, fun i hi hw => hs.inputs i hi ((hsettled _).1 hw)⟩⟩

/-- Of the rows of a transaction these are the ones of the resolver. -/
theorem filter_rows (s : Settled) : s.rows.filter Row.isResolver = s.missed := by
  have hmissed : s.missed.filter Row.isResolver = s.missed := by
    refine List.filter_eq_self.2 fun row hrow => ?_
    obtain ⟨j, i, -, -, rfl⟩ := mem_missed.1 hrow
    rfl
  have hkept : ∀ (j : Nat) (o : EvaluatedOutput),
      (o.rows s.transaction.hash.display j).filter Row.isResolver = [] := by
    intro j o
    unfold EvaluatedOutput.rows
    split <;> rfl
  rw [rows, List.filter_append, ← missed, hmissed, List.filter_flatten,
    List.append_left_eq_self, List.flatten_eq_nil_iff]
  intro rows hrows
  obtain ⟨_, hmem, rfl⟩ := List.mem_map.1 hrows
  obtain ⟨j, hj, rfl⟩ := List.mem_mapIdx.1 hmem
  exact hkept j _

end Settled

/-! ### The rows of a run -/

/-- The desk `e` has come from `d` by writing rows, those of the resolver among them as given. -/
def Desk.Wrote {σ : Type} (d e : Desk σ) (reported : List Row) : Prop :=
  ∃ rows, e.rows = d.rows ++ rows ∧ rows.filter Row.isResolver = reported

theorem Desk.Wrote.refl {σ : Type} (d : Desk σ) : d.Wrote d [] := Desk.Adds.refl d

theorem Desk.Wrote.trans {σ : Type} {d e f : Desk σ} {xs ys : List Row} (h : d.Wrote e xs)
    (h' : e.Wrote f ys) : d.Wrote f (xs ++ ys) :=
  Desk.Adds.trans h h'

/-- The act writes no rows of the resolver, whatever it comes to. -/
def Act.Silent {σ α : Type} (a : Act σ α) : Prop := ∀ d : Desk σ, d.Wrote (a.runAt d).2 []

theorem Act.silent_iff {σ α : Type} {a : Act σ α} : a.Silent ↔ a.Quiet Row.isResolver := Iff.rfl

namespace Pipeline

theorem start_silent (coinName : Value) (height : Int) :
    Act.Silent (start coinName height : Act (Station MemoryStore) Unit) := by
  have hprobe : Act.Quiet Row.isResolver (Store.probe : Act MemoryStore Unit) := by
    refine Act.Quiet.state_bind fun m => ?_
    split
    · exact .stop _
    · exact .pure _
  refine Act.silent_iff.2 (Act.Quiet.state_bind fun s => ?_)
  refine Act.Quiet.guard _ ?_
  refine (Act.Quiet.lift _).bind fun coin => ?_
  refine Act.Quiet.bind (.update _) fun _ => ?_
  refine Act.Quiet.bind (.log rfl) fun _ => ?_
  refine hprobe.within.bind fun _ => ?_
  refine Act.Quiet.bind (.log rfl) fun _ => ?_
  exact Act.Quiet.bind (.update _) fun _ => .update _

theorem complete_silent (height : Int) :
    Act.Silent (complete height : Act (Station MemoryStore) Totals) := by
  refine Act.silent_iff.2 (Act.Quiet.state_bind fun s => ?_)
  refine Act.Quiet.guard _ ?_
  refine Act.Quiet.bind (.update _) fun _ => ?_
  refine Act.Quiet.bind (.update _) fun _ => ?_
  refine Act.Quiet.state_bind fun s => ?_
  refine (Act.Quiet.lift _).bind fun text => ?_
  exact Act.Quiet.bind (.log rfl) fun _ => .pure _

end Pipeline

end BlockArchive
