import BlockArchive.Proofs.Ingest.Cut

/-!
# Neighbours that do not spend each other

Two transactions that stand side by side in a block and do not spend each other may change places.
While one of them is worked on the cache is another one than before, but not under the keys that the
inputs refer to; behind both it has the same again, so everything later in the block is as it was.

* `Transaction.Apart` says that two transactions differ in their hashes and that no input of either
  refers to an output that the other has;
* `Cache.enter_comm`: the outputs of two such transactions can be entered in either order;
* `Settled.Local` is the condition on what is read off a settled transaction: it looks at its inputs
  only. `map_settleFrom_swapped` is about everything of this kind;
* `Pipeline.take_swapped`: the two blocks leave the same but for the order of the two records.
-/

namespace BlockArchive

/-- Neither transaction spends an output of the other. -/
structure Transaction.Apart (t u : Transaction) : Prop where
  /-- The hashes differ. -/
  distinct : t.hash ≠ u.hash
  /-- No input of the first refers to an output of the second. -/
  forth : ∀ i ∈ t.inputs, ¬ u.produces i.source = true
  /-- No input of the second refers to an output of the first. -/
  back : ∀ i ∈ u.inputs, ¬ t.produces i.source = true

theorem Transaction.Apart.symm {t u : Transaction} (h : t.Apart u) : u.Apart t :=
  ⟨h.distinct.symm, h.back, h.forth⟩

/-! ### Caches that have the same -/

namespace Cache

/-- Entering a transaction is seen only under the keys of the outputs that it has. -/
theorem get?_enter_of_not_produces {t : Transaction} {source : OutPoint}
    (h : ¬ t.produces source = true) (c : Cache) :
    (c.enter t).get? (.ofOutPoint source) = c.get? (.ofOutPoint source) := by
  rw [get?_enter]
  split
  · rename_i hhash
    have hindex : ¬ source.index < t.outputs.length := fun hi =>
      h (Transaction.produces_iff.2 ⟨hhash.symm, hi⟩)
    simp [OutputKey.ofOutPoint, List.getElem?_eq_none (Nat.le_of_not_lt hindex)]
  · rfl

theorem enter_congr {c c' : Cache} (h : c.get? = c'.get?) (t : Transaction) :
    (c.enter t).get? = (c'.enter t).get? := by
  funext key
  rw [get?_enter, get?_enter, h]

/-- Transactions with different hashes can be entered in either order. -/
theorem enter_comm {t u : Transaction} (h : t.hash ≠ u.hash) (c : Cache) :
    ((c.enter t).enter u).get? = ((c.enter u).enter t).get? := by
  funext key
  simp only [get?_enter]
  by_cases ht : key.hash = t.hash
  · simp [ht, h]
  · simp [ht]

end Cache

theorem Settlement.of_congr {paid : OutPoint → Option Payment} {c c' : Cache} {source : OutPoint}
    (h : c.get? (.ofOutPoint source) = c'.get? (.ofOutPoint source)) :
    of paid c source = of paid c' source := by
  unfold of
  rw [h]

/-- Caches that have the same settle all transactions that follow in the same way. -/
theorem settleFrom_congr (paid : OutPoint → Option Payment) {c c' : Cache} (h : c.get? = c'.get?)
    (ts : List Transaction) : settleFrom paid c ts = settleFrom paid c' ts := by
  induction ts generalizing c c' with
  | nil => rfl
  | cons t rest ih =>
    have ht := Cache.enter_congr h t
    have hof : Settlement.of paid (c.enter t) = Settlement.of paid (c'.enter t) :=
      funext fun source => Settlement.of_congr (congrFun ht _)
    simp only [settleFrom, hof, ih ht]

/-! ### What is read off the inputs -/

namespace Settled

/-- What is read off a settled transaction takes notice of the settlements of its inputs only. -/
def Local {γ : Type} (f : Settled → γ) : Prop :=
  ∀ (t : Transaction) (settle settle' : OutPoint → Settlement),
    (∀ i ∈ t.inputs, settle i.source = settle' i.source) → f ⟨t, settle⟩ = f ⟨t, settle'⟩

theorem local_record (policy : CoinbasePolicy) (blockHash : String) :
    Local (record policy blockHash) := by
  intro t settle settle' h
  have hinputs : inputs policy ⟨t, settle⟩ = inputs policy ⟨t, settle'⟩ := by
    refine List.ext_getElem? fun j => ?_
    rw [getElem?_inputs, getElem?_inputs]
    refine Option.map_congr fun i hi => ?_
    exact congrArg (fun s => Resolution.record _ _ _ (s.payment policy))
      (h i (List.mem_of_getElem? hi))
  simp only [record, hinputs]

theorem local_tally : Local tally := by
  intro t settle settle' h
  simp only [tally]
  rw [List.map_congr_left fun i hi => by rw [h i hi]]

theorem local_asked : Local asked := by
  intro t settle settle' h
  simp only [asked]
  rw [List.map_congr_left fun i hi => by rw [h i hi]]

end Settled

/-- A transaction is settled in the same way behind one that it does not spend. -/
theorem Settled.Local.enter {γ : Type} {f : Settled → γ} (hf : Settled.Local f) {t u : Transaction}
    (h : t.Apart u) (paid : OutPoint → Option Payment) (c : Cache) :
    f ⟨t, .of paid ((c.enter u).enter t)⟩ = f ⟨t, .of paid (c.enter t)⟩ := by
  refine hf t _ _ fun i hi => Settlement.of_congr ?_
  rw [← Cache.enter_comm h.distinct, Cache.get?_enter_of_not_produces (h.forth i hi)]

/-- Two transactions that are apart are settled alike in either order, and so are all the others. -/
theorem map_settleFrom_swapped {γ : Type} {f : Settled → γ} (hf : Settled.Local f)
    {t u : Transaction} (h : t.Apart u) (paid : OutPoint → Option Payment) (c : Cache)
    (before after : List Transaction) :
    ∃ (xs : List γ) (r s : Settled) (ys : List γ), r.transaction = t ∧ s.transaction = u ∧
      (settleFrom paid c (before ++ t :: u :: after)).map f = xs ++ f r :: f s :: ys ∧
      (settleFrom paid c (before ++ u :: t :: after)).map f = xs ++ f s :: f r :: ys ∧
      xs.length = before.length ∧ ys.length = after.length := by
  let c₁ := c.after before
  refine ⟨(settleFrom paid c before).map f, ⟨t, .of paid (c₁.enter t)⟩,
    ⟨u, .of paid (c₁.enter u)⟩, (settleFrom paid ((c₁.enter t).enter u) after).map f,
    rfl, rfl, ?_, ?_, by simp, by simp⟩
  · simp only [settleFrom_append, settleFrom, List.map_append, List.map_cons]
    rw [hf.enter h.symm]
  · -- behind both of them the caches have the same
    simp only [settleFrom_append, settleFrom, List.map_append, List.map_cons]
    rw [hf.enter h, settleFrom_congr paid (Cache.enter_comm h.distinct c₁)]

/-- Of two items side by side at most one is looked for, so either order finds the same. -/
theorem findRev?_swapped {α : Type} (p : α → Bool) {x y : α} (h : ¬ (p x = true ∧ p y = true))
    (xs ys : List α) :
    (xs ++ x :: y :: ys).findRev? p = (xs ++ y :: x :: ys).findRev? p := by
  simp only [List.findRev?_eq_find?_reverse, List.reverse_append, List.reverse_cons,
    List.find?_append, List.append_assoc]
  cases hx : p x <;> cases hy : p y <;> simp_all

/-- No look-up notices that two records of different hashes that stand side by side have changed
places. -/
theorem MemoryStore.lookup?_swapped {m m' : MemoryStore} {xs ys : List TransactionRecord}
    {r s : TransactionRecord} (h : m.transactions = xs ++ r :: s :: ys)
    (h' : m'.transactions = xs ++ s :: r :: ys) (hne : r.hash ≠ s.hash) (hash : String) :
    m.lookup? hash = m'.lookup? hash := by
  have hbears : ¬ (bears hash r = true ∧ bears hash s = true) := by
    rintro ⟨hr, hs⟩
    exact hne ((bears_iff.1 hr).trans (bears_iff.1 hs).symm)
  rw [lookup?_eq, lookup?_eq, h, h', findRev?_swapped _ hbears]

/-- Batches of one length are written alike but for the records themselves. -/
theorem MemoryStore.write_of_length_eq (m : MemoryStore) (r : BlockRecord)
    {rs rs' : List TransactionRecord} (h : rs.length = rs'.length) :
    m.write r rs' = (m.write r rs).withTransactions (m.transactions ++ rs') := by
  have hempty : rs.isEmpty = rs'.isEmpty := by
    rw [Bool.eq_iff_iff, List.isEmpty_iff_length_eq_zero, List.isEmpty_iff_length_eq_zero, h]
  simp only [write, withTransactions, hempty]

theorem Pipeline.count_perm {b b' : Block} {rs rs' : List TransactionRecord}
    (hb : b.transactions.length = b'.transactions.length) (h : rs.Perm rs') (height : Int)
    (tally : Tally) (t : Totals) : count b height rs tally t = count b' height rs' tally t := by
  have hi := h.flatMap_right TransactionRecord.inputs
  have ho := h.flatMap_right TransactionRecord.outputs
  simp only [count, hb, hi.length_eq, ho.length_eq, unrecognisedCount, ho.countP_eq]

/-! ### Two blocks -/

section Blocks

variable {b : Block} {before after : List Transaction} {t u : Transaction}
  (hb : b.transactions = before ++ t :: u :: after) (h : t.Apart u)
  (paid : OutPoint → Option Payment)
include hb h

/-- What is read off the settled transactions of the two blocks is the same in another order. -/
theorem Block.perm_settled_swapped {γ : Type} {f : Settled → γ} (hf : Settled.Local f) :
    ((b.settled paid).map f).Perm
      ((Block.settled paid { b with transactions := before ++ u :: t :: after }).map f) := by
  obtain ⟨xs, r, s, ys, -, -, hr, hs, -, -⟩ := map_settleFrom_swapped hf h paid .empty before after
  simp only [settled, hb]
  rw [hr, hs]
  exact (List.Perm.swap _ _ ys).append_left xs

/-- The batches of the two blocks are the same but for the order of the two records. -/
theorem Block.records_swapped (policy : CoinbasePolicy) :
    ∃ xs r s ys, xs.length = before.length ∧ ys.length = after.length ∧
      r.hash = .string t.hash.display ∧ s.hash = .string u.hash.display ∧
      b.records policy paid = xs ++ r :: s :: ys ∧
      Block.records policy paid { b with transactions := before ++ u :: t :: after } =
        xs ++ s :: r :: ys := by
  obtain ⟨xs, r, s, ys, rfl, rfl, hstraight, hswapped, hxs, hys⟩ :=
    map_settleFrom_swapped (Settled.local_record policy b.header.hash.display) h paid .empty
      before after
  refine ⟨xs, r.record policy b.header.hash.display, s.record policy b.header.hash.display, ys,
    hxs, hys, rfl, rfl, ?_, hswapped⟩
  rw [records, settled, hb, hstraight]

end Blocks

namespace Pipeline

/-- **Neighbours that do not spend each other may change places.** A block whose numbers can be
written is taken in over a sound store, and so is the block in which two transactions that stand
side by side and are apart have changed places. The same records are written, the two in the other
order; pipeline, blocks, clock and the counts of look-ups and batches are the same; and look-ups
find the same under every hash. -/
theorem take_swapped {d : Desk (Station MemoryStore)} (hstore : d.state.store.Sound)
    (hp : d.state.pipeline.phase.accepts = true) {b : Block} {before after : List Transaction}
    {t u : Transaction} (hb : b.transactions = before ++ t :: u :: after) (h : t.Apart u)
    (hshow : ∀ v ∈ b.transactions, v.Showable) (height : Int) :
    let straight := (take b height).runAt d
    let swapped := (take { b with transactions := before ++ u :: t :: after } height).runAt d
    straight.1 = .ok () ∧ swapped.1 = .ok () ∧
    (∃ xs r s ys, xs.length = before.length ∧ ys.length = after.length ∧
      r.hash = .string t.hash.display ∧ s.hash = .string u.hash.display ∧
      straight.2.state.store.transactions = d.state.store.transactions ++ (xs ++ r :: s :: ys) ∧
      swapped.2.state =
        { straight.2.state with
          store := straight.2.state.store.withTransactions
            (d.state.store.transactions ++ (xs ++ s :: r :: ys)) }) ∧
    ∀ hash : String,
      straight.2.state.store.lookup? hash = swapped.2.state.store.lookup? hash := by
  obtain ⟨⟨p, m, c⟩, rows⟩ := d
  let b' : Block := { b with transactions := before ++ u :: t :: after }
  obtain ⟨xs, r, s, ys, hxs, hys, hr, hs, hrecords, hrecords'⟩ :=
    Block.records_swapped hb h m.paid? p.policy
  have hperm : (b.records p.policy m.paid?).Perm (b'.records p.policy m.paid?) :=
    Block.perm_settled_swapped hb h m.paid? (Settled.local_record _ _)
  have htally : b'.tally m.paid? = b.tally m.paid? :=
    (Block.perm_settled_swapped hb h m.paid? Settled.local_tally).sum_eq.symm
  have hasked : b'.asked m.paid? = b.asked m.paid? :=
    (Block.perm_settled_swapped hb h m.paid? Settled.local_asked).sum_eq.symm
  have hlength : b.transactions.length = b'.transactions.length := by
    simp only [hb, b', List.length_append, List.length_cons]
  have hblock : BlockRecord.ofBlock b' (.int height) = .ofBlock b (.int height) := by
    simp only [BlockRecord.ofBlock, ← hlength]
    rfl
  have hshow' : ∀ v ∈ b'.transactions, v.Showable := by
    intro v hv
    refine hshow v ?_
    rw [hb]
    exact ((List.Perm.swap t u after).append_left before).subset hv
  intro straight swapped
  have hleft : straight = _ :=
    take_runAt hstore (Block.reportable_of_showable hshow _) height p hp c rows
  have hright : swapped = _ :=
    take_runAt hstore (Block.reportable_of_showable hshow' _) height p hp c rows
  have hstate : straight.2.state.store.transactions = m.transactions ++ (xs ++ r :: s :: ys) := by
    rw [hleft, ← hrecords]
    rfl
  have hstate' : swapped.2.state =
      { straight.2.state with
        store := straight.2.state.store.withTransactions
          (m.transactions ++ (xs ++ s :: r :: ys)) } := by
    rw [hleft, hright, ← hrecords']
    simp only [htally, hasked, hblock, ← count_perm hlength hperm,
      MemoryStore.write_of_length_eq _ _ hperm.length_eq]
    rfl
  refine ⟨by rw [hleft], by rw [hright], ⟨xs, r, s, ys, hxs, hys, hr, hs, hstate, hstate'⟩, ?_⟩
  have hne : r.hash ≠ s.hash := by
    rw [hr, hs]
    exact fun heq => h.distinct (Hash.display_inj.1 (Value.string.inj heq))
  rw [← List.append_assoc] at hstate
  refine MemoryStore.lookup?_swapped hstate ?_ hne
  rw [hstate', List.append_assoc]
  rfl

/-- Two payments from the archive stand side by side, and the second may come first. -/
theorem take_swapped_hops :
    let a := Hash.repeated 1
    let t := Transaction.hop (.repeated 2) ⟨a, 0⟩ 4 "second"
    let u := Transaction.hop (.repeated 3) ⟨.repeated 2, 1⟩ 3 "third"
    let d := ready [minted a 5 "first"]
    ((take (.holding [t, u]) 7).runAt d).2.state.pipeline =
      ((take (.holding [u, t]) 7).runAt d).2.state.pipeline := by
  intro a t u d
  have hapart : t.Apart u := by
    refine ⟨by decide, ?_, ?_⟩
    all_goals
      intro i hi
      obtain rfl := List.mem_singleton.1 hi
      decide
  have hb : (Block.holding [t, u]).transactions = [] ++ t :: u :: [] := rfl
  have hshow : ∀ v ∈ (Block.holding [t, u]).transactions, v.Showable := by
    intro v hv
    simp only [Block.holding, List.mem_cons, List.not_mem_nil, or_false] at hv
    obtain rfl | rfl := hv <;> exact Transaction.showable_hop (by decide +kernel)
  obtain ⟨-, -, ⟨xs, r, s, ys, -, -, -, -, -, hstate⟩, -⟩ :=
    take_swapped (d := d) (sound_minted a 5 "first") rfl hb hapart hshow 7
  have hother : ({ Block.holding [t, u] with transactions := [] ++ u :: t :: [] } : Block) =
      .holding [u, t] := rfl
  rw [hother] at hstate
  rw [hstate]

end Pipeline

end BlockArchive
