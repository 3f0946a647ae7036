import BlockArchive.Ingest.Pipeline
import Mathlib.Data.List.Induction

/-!
# What the cache of a block holds

The cache of a block is filled transaction by transaction. What it holds under the key of an output
is the payment of that output in the last transaction so far that has the key's hash and an output
at the key's position: a later transaction of the same hash with fewer outputs hides only as many.

* `Transaction.kept` are the records of the outputs of a transaction;
* `Cache.enter` enters the outputs of a transaction, `Cache.after` those of several;
* `produced?` finds an output among transactions without a cache, and `Cache.get?_after` says that
  the cache gives the same.
-/

namespace BlockArchive

/-- Value and address of an output as they are kept. -/
def EvaluatedOutput.payment (o : EvaluatedOutput) : Payment :=
  ⟨o.output.value, o.evaluation.keptAddress⟩

/-- The records of the outputs of a transaction. -/
def Transaction.kept (t : Transaction) : List KeptOutput :=
  t.outputs.mapIdx (KeptOutput.ofOutput t.hash.display)

@[simp] theorem Value.toAmount_nat (n : UInt64) : (Value.nat n.toNat).toAmount = .ok n := by
  simp [Value.nat, Value.toAmount, n.toNat_lt_size]

@[simp] theorem KeptOutput.payment_ofOutput (txHash : String) (index : Nat) (o : EvaluatedOutput) :
    (ofOutput txHash index o).payment = .ok o.payment := by
  simp only [payment, ofOutput, Value.toAmount_nat]
  rfl

namespace Cache

/-- The cache with outputs of a transaction entered, the first at the given position. -/
def enterFrom (hash : Hash) : Nat → Cache → List EvaluatedOutput → Cache
  | _, c, [] => c
  | index, c, o :: rest => enterFrom hash (index + 1) (c.put ⟨hash, index⟩ o.payment) rest

/-- The cache with the outputs of a transaction entered. -/
def enter (c : Cache) (t : Transaction) : Cache := enterFrom t.hash 0 c t.outputs

/-- The cache with the outputs of transactions entered one after the other. -/
def after (c : Cache) (ts : List Transaction) : Cache := ts.foldl enter c

@[simp] theorem after_nil (c : Cache) : c.after [] = c := rfl

@[simp] theorem after_cons (c : Cache) (t : Transaction) (ts : List Transaction) :
    c.after (t :: ts) = (c.enter t).after ts := rfl

@[simp] theorem after_append (c : Cache) (ts us : List Transaction) :
    c.after (ts ++ us) = (c.after ts).after us := List.foldl_append

theorem cacheOutputs_ofOutput (hash : Hash) (txHash : String) (index : Nat) (c : Cache)
    (outputs : List EvaluatedOutput) :
    Pipeline.cacheOutputs hash index c
        (outputs.mapIdx fun j o => KeptOutput.ofOutput txHash (index + j) o) =
      .ok (enterFrom hash index c outputs) := by
  induction outputs generalizing index c with
  | nil => rfl
  | cons o rest ih =>
    have hshift : (fun j o => KeptOutput.ofOutput txHash (index + (j + 1)) o) =
        fun j o => KeptOutput.ofOutput txHash (index + 1 + j) o := by
      funext j o
      rw [Nat.add_right_comm, Nat.add_assoc]
    rw [List.mapIdx_cons, hshift]
    simp only [Pipeline.cacheOutputs, KeptOutput.payment_ofOutput, enterFrom]
    exact ih (index + 1) _

theorem cacheOutputs_kept (c : Cache) (t : Transaction) :
    Pipeline.cacheOutputs t.hash 0 c t.kept = .ok (c.enter t) := by
  have h := cacheOutputs_ofOutput t.hash t.hash.display 0 c t.outputs
  simp only [Nat.zero_add] at h
  exact h

theorem get?_enterFrom (hash : Hash) (index : Nat) (c : Cache) (outputs : List EvaluatedOutput)
    (key : OutputKey) :
    (enterFrom hash index c outputs).get? key =
      if key.hash = hash ∧ index ≤ key.index then
        ((outputs[key.index - index]?).map EvaluatedOutput.payment).or (c.get? key)
      else c.get? key := by
  induction outputs generalizing index c with
  | nil => simp [enterFrom]
  | cons o rest ih =>
    obtain ⟨h, i⟩ := key
    rw [enterFrom, ih, get?_put]
    by_cases hh : h = hash
    · subst hh
      -- the key lies before the output entered now, is its key, or lies behind
      obtain hi | rfl | hi := Nat.lt_trichotomy i index
      · have h1 : ¬ index + 1 ≤ i := by omega
        have h2 : ¬ index ≤ i := by omega
        have h3 : index ≠ i := by omega
        simp [h1, h2, h3]
      · have h1 : ¬ i + 1 ≤ i := by omega
        simp [h1]
      · have h1 : index + 1 ≤ i := hi
        have h2 : index ≤ i := by omega
        have h3 : index ≠ i := by omega
        have h4 : i - index = i - (index + 1) + 1 := by omega
        simp [h1, h2, h3, h4]
    · simp [hh, Ne.symm hh]

theorem get?_enter (c : Cache) (t : Transaction) (key : OutputKey) :
    (c.enter t).get? key =
      if key.hash = t.hash then
        ((t.outputs[key.index]?).map EvaluatedOutput.payment).or (c.get? key)
      else c.get? key := by
  simp [enter, get?_enterFrom]

end Cache

/-! ### Outputs among transactions -/

/-- The transaction has the output that is referred to. -/
def Transaction.produces (source : OutPoint) (t : Transaction) : Bool :=
  t.hash == source.hash && decide (source.index < t.outputs.length)

/-- The payment of the output referred to, in the last transaction that has it. -/
def produced? (ts : List Transaction) (source : OutPoint) : Option Payment := do
  let t ← ts.findRev? (Transaction.produces source)
  let o ← t.outputs[source.index]?
  return o.payment

theorem Transaction.produces_iff {source : OutPoint} {t : Transaction} :
    t.produces source = true ↔ t.hash = source.hash ∧ source.index < t.outputs.length := by
  simp [produces]

@[simp] theorem produced?_nil (source : OutPoint) : produced? [] source = none := rfl

theorem produced?_concat (ts : List Transaction) (t : Transaction) (source : OutPoint) :
    produced? (ts ++ [t]) source =
      if t.produces source then (t.outputs[source.index]?).map EvaluatedOutput.payment
      else produced? ts source := by
  simp only [produced?, List.findRev?_eq_find?_reverse, List.reverse_concat, List.find?_cons]
  cases t.produces source with
  | true =>
    cases houtput : t.outputs[source.index]? <;> simp [houtput]
  | false => rfl

/-- **The cache holds what the block has produced so far.** -/
theorem Cache.get?_after (ts : List Transaction) (source : OutPoint) :
    (Cache.empty.after ts).get? (.ofOutPoint source) = produced? ts source := by
  -- from the end: the last transaction hides those before it, but only as far as it has outputs
  induction ts using List.reverseRecOn with
  | nil => rfl
  | append_singleton ts t ih =>
    rw [after_append, after_cons, after_nil, get?_enter, produced?_concat, ih]
    simp only [OutputKey.ofOutPoint]
    by_cases hh : source.hash = t.hash
    · by_cases hi : source.index < t.outputs.length
      · simp [Transaction.produces, hh, hi]
      · simp [Transaction.produces, hh, hi]
    · simp [Transaction.produces, hh, Ne.symm hh]

end BlockArchive
