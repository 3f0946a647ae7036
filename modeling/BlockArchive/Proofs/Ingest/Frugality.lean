import BlockArchive.Ingest.Resolver
import BlockArchive.Proofs.Ingest.Batch
import BlockArchive.Proofs.Ingest.Phases

/-!
# What resolving inputs costs

Over a store that keeps amounts, the inputs of a transaction are resolved in order. The store is
asked once for each input that spends an output which the cache has not, and for no other, and every
input is counted in one way. A look-up that fails ends the resolution there.

* `OutPoint.asks` says that the store must be asked, `Resolution.lookups` are the calls that are
  made of it, and `Resolution.growth` is what the inputs are counted as;
* `Resolution.Moves` relates a resolution before and after with the calls and the counters in
  between, and `Resolution.Course` is what the resolution of inputs can come to;
* `Resolution.payment_moves` is the step from one input to the next, and
  `Resolution.resolveFrom_course` the way through all of them;
* `Resolver.resolveInputs_frugal` says what comes of it for a resolver and its counters.
-/

namespace BlockArchive

variable {σ : Type}

/-- The contents in memory. -/
def Contents.memory (k : Contents) : MemoryStore :=
  { blocks := k.blocks, transactions := k.transactions }

theorem Contents.lookup?_memory (k : Contents) (hash : String) :
    k.memory.lookup? hash = k.lookup? hash :=
  k.memory.lookup?_eq hash

/-- The store must be asked for the output: there is one, and the cache has it not. -/
def OutPoint.asks (c : Cache) (source : OutPoint) : Bool :=
  !source.isNull && !c.contains (.ofOutPoint source)

theorem OutPoint.asks_iff {c : Cache} {source : OutPoint} :
    source.asks c = true ↔ source.isNull = false ∧ c.get? (.ofOutPoint source) = none := by
  simp [asks, c.contains_eq_isSome]

/-! ### What is counted -/

theorem Settlement.of_eq_coinbase_iff (paid : OutPoint → Option Payment) (c : Cache)
    (source : OutPoint) : of paid c source = .coinbase ↔ source.isNull = true := by
  unfold of
  split_ifs with hnull
  · exact iff_of_true rfl hnull
  · split
    · exact iff_of_false nofun hnull
    · split <;> exact iff_of_false nofun hnull

/-- A question is counted for an input exactly if the store must be asked. -/
theorem Settlement.storeQueries_of (paid : OutPoint → Option Payment) (c : Cache)
    (source : OutPoint) :
    (of paid c source).tally.storeQueries = if source.asks c = true then 1 else 0 := by
  simp only [OutPoint.asks_iff]
  unfold of
  by_cases hnull : source.isNull = true
  · simp [hnull, tally]
  · cases hc : c.get? (.ofOutPoint source) with
    | some p => simp [hnull, tally]
    | none => cases paid source <;> simp [hnull, tally]

namespace Resolution

/-- The look-ups that are made for inputs, where none fails. -/
def lookups (c : Cache) (inputs : List TxInput) : List (StoreCall × Option Fault) :=
  (inputs.filter fun i => i.source.asks c).map fun i => (.find i.source.hash.display, none)

/-- What inputs are counted as. -/
def growth (paid : OutPoint → Option Payment) (c : Cache) (inputs : List TxInput) : Tally :=
  (inputs.map fun i => (Settlement.of paid c i.source).tally).sum

theorem lookups_cons (c : Cache) (i : TxInput) (rest : List TxInput) :
    lookups c (i :: rest) = lookups c [i] ++ lookups c rest := by
  rw [lookups, ← List.singleton_append, List.filter_append, List.map_append]
  rfl

theorem growth_singleton (paid : OutPoint → Option Payment) (c : Cache) (i : TxInput) :
    growth paid c [i] = (Settlement.of paid c i.source).tally := by
  simp [growth]

theorem growth_cons (paid : OutPoint → Option Payment) (c : Cache) (i : TxInput)
    (rest : List TxInput) : growth paid c (i :: rest) = growth paid c [i] + growth paid c rest := by
  simp [growth]

theorem growth_accounts (paid : OutPoint → Option Payment) (c : Cache) (inputs : List TxInput) :
    (growth paid c inputs).Accounts (inputs.map TxInput.source) := by
  induction inputs with
  | nil => exact .nil
  | cons i rest ih =>
    rw [growth_cons, growth_singleton]
    exact (Settlement.tally_accounts (Settlement.of_eq_coinbase_iff paid c i.source)).add ih

theorem storeQueries_growth (paid : OutPoint → Option Payment) (c : Cache)
    (inputs : List TxInput) : (growth paid c inputs).storeQueries = (lookups c inputs).length := by
  induction inputs with
  | nil => rfl
  | cons i rest ih =>
    have hfirst : (growth paid c [i]).storeQueries = (lookups c [i]).length := by
      rw [growth_singleton, Settlement.storeQueries_of]
      by_cases hasks : i.source.asks c = true <;> simp [lookups, hasks]
    rw [growth_cons, lookups_cons, Tally.storeQueries_add, List.length_append, hfirst, ih]
    push_cast
    rfl

theorem answered_of_mem_lookups {c : Cache} {inputs : List TxInput}
    {q : StoreCall × Option Fault} (h : q ∈ lookups c inputs) : q.2 = none := by
  obtain ⟨i, -, rfl⟩ := List.mem_map.1 h
  rfl

/-! ### From one resolution to another -/

/-- Between two states of a resolution calls were made and counted, and the store keeps what it
kept. -/
structure Moves [Store σ] [AllOrNothing σ] (r q : Resolution (Called σ))
    (calls : List (StoreCall × Option Fault)) (grown : Tally) : Prop where
  contents : AllOrNothing.contents q.store.store = AllOrNothing.contents r.store.store
  calls : q.store.calls = r.store.calls ++ calls
  tally : q.tally = r.tally + grown

variable [Store σ] [AllOrNothing σ]

theorem Moves.refl (r : Resolution (Called σ)) : Moves r r [] 0 :=
  ⟨rfl, (List.append_nil _).symm, (add_zero _).symm⟩

theorem Moves.trans {r q p : Resolution (Called σ)} {xs ys : List (StoreCall × Option Fault)}
    {t u : Tally} (h : Moves r q xs t) (h' : Moves q p ys u) : Moves r p (xs ++ ys) (t + u) := by
  refine ⟨h'.contents.trans h.contents, ?_, ?_⟩
  · rw [h'.calls, h.calls, List.append_assoc]
  · rw [h'.tally, h.tally, add_assoc]

/-! ### One input -/

/-- A look-up that misses the cache asks the store once. It gives what the store keeps, unless the
question stops it. -/
theorem lookup_moves {k : Contents} (hk : k.memory.Sound) {c : Cache} {source : OutPoint}
    (hc : c.get? (.ofOutPoint source) = none) {d : Desk (Resolution (Called σ))}
    (hd : AllOrNothing.contents d.state.store.store = k) :
    let run := (lookup c source).runAt d
    (run.1 = .ok (k.memory.paid? source) ∧
      Moves d.state run.2.state [(.find source.hash.display, none)]
        { storeQueries := 1, storeHits := if (k.memory.paid? source).isSome then 1 else 0 }) ∨
    ∃ f, run.1 = .error f ∧
      Moves d.state run.2.state [(.find source.hash.display, some f)] { storeQueries := 1 } := by
  intro run
  have hcontents := AllOrNothing.find_contents source.hash.display
    (⟨d.state.store.store, d.rows⟩ : Desk σ)
  simp only [run, lookup, hc, tick, onStore, Act.runAt_bind, Act.runAt_update, Act.runAt_within,
    Store.find, Called.call_runAt]
  cases hfind : ((Store.find source.hash.display : Act σ _).runAt
      ⟨d.state.store.store, d.rows⟩).1 with
  | error f => exact .inr ⟨f, rfl, hcontents, rfl, by simp [Tally.add_mk]⟩
  | ok answer =>
    left
    have hanswer := AllOrNothing.find_answer _ _ hfind
    rw [hd, ← k.lookup?_memory] at hanswer
    cases answer with
    | none =>
      rw [MemoryStore.paid?_of_not_found hanswer.symm]
      exact ⟨rfl, hcontents, rfl, by simp [Tally.add_mk]⟩
    | some stored =>
      simp only [Act.runAt_bind, Act.runAt_lift, hk.output_paid? hanswer.symm]
      cases k.memory.paid? source with
      | none => exact ⟨rfl, hcontents, rfl, by simp [Tally.add_mk]⟩
      | some p => exact ⟨rfl, hcontents, rfl, by simp [Tally.add_mk]⟩

/-- What the resolution of inputs from one state to another can come to, over a store that keeps
`k`: all are resolved, or the store fails at one of them. -/
inductive Course (k : Contents) (policy : CoinbasePolicy) (c : Cache) (txHash : String)
    (index : Nat) (inputs : List TxInput) (r q : Resolution (Called σ)) :
    Except Fault (List ResolvedInput) → Prop
  /-- No look-up failed. -/
  | done (h : Moves r q (lookups c inputs) (growth k.memory.paid? c inputs)) :
      Course k policy c txHash index inputs r q
        (.ok (inputs.mapIdx fun j i =>
          record txHash (index + j) i ((Settlement.of k.memory.paid? c i.source).payment policy)))
  /-- The look-up for an input failed. -/
  | stopped {before after : List TxInput} {i : TxInput} {f : Fault}
      (hinputs : inputs = before ++ i :: after) (hasks : i.source.asks c = true)
      (h : Moves r q (lookups c before ++ [(.find i.source.hash.display, some f)])
        (growth k.memory.paid? c before + { storeQueries := 1 })) :
      Course k policy c txHash index inputs r q (.error f)

/-- **One input.** It gets its payment, the store being asked only if it must be, or the question
fails. -/
theorem payment_moves {k : Contents} (hk : k.memory.Sound) (policy : CoinbasePolicy) (c : Cache)
    (txHash : String) (index : Nat) {i : TxInput}
    (hi : Document.isTooLong i.source.index = false) (d : Desk (Resolution (Called σ)))
    (hd : AllOrNothing.contents d.state.store.store = k) :
    let run := (payment policy c txHash index i.source).runAt d
    (run.1 = .ok ((Settlement.of k.memory.paid? c i.source).payment policy) ∧
      Moves d.state run.2.state (lookups c [i]) (growth k.memory.paid? c [i])) ∨
    ∃ f, run.1 = .error f ∧ i.source.asks c = true ∧
      Moves d.state run.2.state [(.find i.source.hash.display, some f)] { storeQueries := 1 } := by
  intro run
  rw [growth_singleton]
  unfold Settlement.of
  by_cases hnull : i.source.isNull = true
  · have hlookups : lookups c [i] = [] := by simp [lookups, OutPoint.asks_iff, hnull]
    rw [hlookups, if_pos hnull]
    left
    simp only [run, payment, hnull, if_true, tick, Act.runAt_bind, Act.runAt_update, Act.runAt_pure]
    exact ⟨rfl, rfl, (List.append_nil _).symm, by simp [Settlement.tally, Tally.add_mk]⟩
  rw [if_neg hnull]
  simp only [run, payment, hnull, Bool.false_eq_true, ↓reduceIte, Act.runAt_bind]
  cases hc : c.get? (.ofOutPoint i.source) with
  | some p =>
    have hlookups : lookups c [i] = [] := by simp [lookups, OutPoint.asks_iff, hc]
    rw [hlookups]
    left
    simp only [lookup, hc, tick, Act.runAt_bind, Act.runAt_update, Act.runAt_pure]
    exact ⟨rfl, rfl, (List.append_nil _).symm, by simp [Settlement.tally, Tally.add_mk]⟩
  | none =>
    have hasks : i.source.asks c = true := OutPoint.asks_iff.2 ⟨by simpa using hnull, hc⟩
    have hlookups : lookups c [i] = [(.find i.source.hash.display, none)] := by
      simp [lookups, hasks]
    rw [hlookups]
    obtain ⟨hrun, hmoves⟩ | ⟨f, hrun, hmoves⟩ := lookup_moves hk hc hd
    · rw [hrun]
      left
      cases hpaid : k.memory.paid? i.source with
      | some p =>
        rw [hpaid] at hmoves
        exact ⟨rfl, hmoves⟩
      | none =>
        rw [hpaid] at hmoves
        obtain ⟨hcontents, hcalls, htally⟩ := hmoves
        simp only [unresolvedRow_of_short txHash index hi, Act.runAt_bind, Act.runAt_lift]
        exact ⟨rfl, hcontents, hcalls, by simp [tick, htally, Settlement.tally, Tally.add_mk]⟩
    · rw [hrun]
      exact .inr ⟨f, rfl, hasks, hmoves⟩

/-- **All inputs, one after the other.** -/
theorem resolveFrom_course {k : Contents} (hk : k.memory.Sound) (policy : CoinbasePolicy)
    (c : Cache) (txHash : String) (index : Nat) {inputs : List TxInput}
    (hshort : ∀ i ∈ inputs, Document.isTooLong i.source.index = false)
    (d : Desk (Resolution (Called σ))) (hd : AllOrNothing.contents d.state.store.store = k) :
    Course k policy c txHash index inputs d.state
      ((resolveFrom policy c txHash index inputs).runAt d).2.state
      ((resolveFrom policy c txHash index inputs).runAt d).1 := by
  induction inputs generalizing index d with
  | nil => exact .done (.refl _)
  | cons i rest ih =>
    obtain ⟨hi, hothers⟩ := List.forall_mem_cons.1 hshort
    obtain ⟨hfirst, hmoves⟩ | ⟨f, hfirst, hasks, hmoves⟩ :=
      payment_moves hk policy c txHash index hi d hd
    · have hrest := ih (index + 1) hothers ((payment policy c txHash index i.source).runAt d).2
        (hmoves.contents.trans hd)
      simp only [resolveFrom, resolve, Act.runAt_bind, Act.runAt_pure, hfirst]
      generalize hothers : ((resolveFrom policy c txHash (index + 1) rest).runAt
        ((payment policy c txHash index i.source).runAt d).2).1 = others at hrest ⊢
      cases hrest with
      | done h =>
        have hwhole := hmoves.trans h
        rw [← lookups_cons, ← growth_cons] at hwhole
        have hdone : Course k policy c txHash index (i :: rest) d.state _ (.ok _) := .done hwhole
        -- the records of the rest are counted from the next index on
        rw [mapIdx_cons_add fun j i =>
          record txHash j i ((Settlement.of k.memory.paid? c i.source).payment policy)] at hdone
        exact hdone
      | @stopped before after i' f hinputs hasks h =>
        have hwhole := hmoves.trans h
        rw [← List.append_assoc, ← lookups_cons, ← add_assoc, ← growth_cons] at hwhole
        exact .stopped (by rw [hinputs]; rfl) hasks hwhole
    · -- the store fails at the first input
      simp only [resolveFrom, resolve, Act.runAt_bind, hfirst]
      have hgrowth : growth k.memory.paid? c [] + { storeQueries := 1 } = { storeQueries := 1 } :=
        zero_add _
      rw [← hgrowth] at hmoves
      exact .stopped (List.nil_append _).symm hasks hmoves

end Resolution

/-! ### A resolver -/

/-- The record is that of the input at a position of a transaction, and it is paid. -/
structure TxInput.Resolved (spender : Hash) (j : Nat) (i : TxInput) (p : Payment)
    (r : ResolvedInput) : Prop where
  txHash : r.txHash = .string spender.display
  index : r.index = .nat j
  previousHash : r.previousHash = .string i.source.hash.display
  previousIndex : r.previousIndex = .nat i.source.index
  script : r.script = .string (Hex.encode i.script)
  sequence : r.sequence = .int i.sequence
  value : r.value = .nat p.value.toNat
  address : r.address = p.address

namespace Resolver

section Put

variable (counter : Counter) (q : Resolution σ) (r : Resolver σ)

@[simp] theorem put_store : (put counter q r).store = q.store := by cases counter <;> rfl

@[simp] theorem put_policy : (put counter q r).policy = r.policy := by cases counter <;> rfl

@[simp] theorem tally_put : (put counter q r).tally counter = q.tally := by cases counter <;> rfl

theorem tally_put_of_ne {other : Counter} (h : other ≠ counter) :
    (put counter q r).tally other = r.tally other := by
  cases counter <;> cases other <;> first | rfl | exact absurd rfl h

end Put

variable [Store σ] [AllOrNothing σ]

/-- **All inputs are resolved, the store is asked no more than it must be, and nothing else
changes.** Whichever counters are chosen, over a store that keeps amounts, and where the indexes
that inputs name can be told: If no question to the store fails, there is a record for each input,
in order, with the spender, the position and what the input says of itself, and the calls made of
the store are one look-up for each input that needs one, in order. Every input is counted in one
way, and a question for each call. If the store fails at a question, its fault is the outcome, no
call follows, and what was counted are the inputs before and the question. In both cases the store
keeps what it kept, and the counters that were not chosen stay. -/
theorem resolveInputs_frugal (counter : Counter) (c : Cache) (t : Transaction)
    (hshort : ∀ i ∈ t.inputs, Document.isTooLong i.source.index = false)
    (d : Desk (Resolver (Called σ)))
    (hsound : (AllOrNothing.contents d.state.store.store).memory.Sound) :
    let k := AllOrNothing.contents d.state.store.store
    let run := (resolveInputs counter c t).runAt d
    AllOrNothing.contents run.2.state.store.store = k ∧ run.2.state.policy = d.state.policy ∧
    (∀ other, other ≠ counter → run.2.state.tally other = d.state.tally other) ∧
    ∃ calls grown, run.2.state.store.calls = d.state.store.calls ++ calls ∧
      run.2.state.tally counter = d.state.tally counter + grown ∧
      grown.storeQueries = calls.length ∧
      ((∀ q ∈ calls, q.2 = none) →
        (∃ resolved, run.1 = .ok resolved ∧ resolved.length = t.inputs.length ∧
          ∀ (j : Nat) i r, t.inputs[j]? = some i → resolved[j]? = some r →
            i.Resolved t.hash j ((Settlement.of k.memory.paid? c i.source).payment d.state.policy)
              r) ∧
        calls = Resolution.lookups c t.inputs ∧
        grown.cacheHits + grown.storeHits + grown.unresolved + grown.coinbase = t.inputs.length ∧
        grown.storeQueries = grown.storeHits + grown.unresolved) ∧
      ∀ q f, (q, some f) ∈ calls →
        run.1 = .error f ∧ ∃ before i after, t.inputs = before ++ i :: after ∧
          i.source.asks c = true ∧ q = .find i.source.hash.display ∧
          calls = Resolution.lookups c before ++ [(q, some f)] ∧
          grown.cacheHits + grown.storeHits + grown.unresolved + grown.coinbase = before.length ∧
          grown.storeQueries = grown.storeHits + grown.unresolved + 1 := by
  intro k run
  let start : Desk (Resolution (Called σ)) := ⟨⟨d.state.store, d.state.tally counter⟩, d.rows⟩
  let inner := (Resolution.resolveFrom d.state.policy c t.hash.display 0 t.inputs).runAt start
  have hrun : run = (inner.1, ⟨put counter inner.2.state d.state, inner.2.rows⟩) := rfl
  have hcourse : Resolution.Course k d.state.policy c t.hash.display 0 t.inputs start.state
      inner.2.state inner.1 :=
    Resolution.resolveFrom_course hsound _ _ _ _ hshort start rfl
  have hother : ∀ other, other ≠ counter → run.2.state.tally other = d.state.tally other :=
    fun other h => tally_put_of_ne _ _ _ h
  rw [hrun] at hother ⊢
  simp only [put_store, put_policy, tally_put]
  have hquestions := Resolution.storeQueries_growth k.memory.paid? c
  have haccounts := Resolution.growth_accounts k.memory.paid? c
  generalize inner.1 = outcome at hcourse ⊢
  cases hcourse with
  | done h =>
    obtain ⟨hcontents, hcalls, htally⟩ := h
    have hgrown := haccounts t.inputs
    refine ⟨hcontents, trivial, hother, _, _, hcalls, htally, hquestions _,
      fun _ => ⟨⟨_, rfl, List.length_mapIdx, fun j i r hi hr => ?_⟩, rfl, ?_, ?_⟩,
      fun q f hq => ?_⟩
    · rw [List.getElem?_mapIdx, hi, Option.map_some, Nat.zero_add] at hr
      obtain rfl := Option.some.inj hr
      exact ⟨rfl, rfl, rfl, rfl, rfl, rfl, rfl, rfl⟩
    · simpa using hgrown.inputs
    · exact hgrown.queries
    · cases Resolution.answered_of_mem_lookups hq
  | @stopped before after i f hinputs hasks h =>
    obtain ⟨hcontents, hcalls, htally⟩ := h
    have hgrown := haccounts before
    refine ⟨hcontents, trivial, hother, _, _, hcalls, htally, ?_, fun hall => ?_, fun q g hq => ?_⟩
    · rw [Tally.storeQueries_add, hquestions, List.length_append]
      rfl
    · cases hall _ (List.mem_append_right _ List.mem_cons_self)
    · rcases List.mem_append.1 hq with hq | hq
      · cases Resolution.answered_of_mem_lookups hq
      · obtain ⟨rfl, hf⟩ := Prod.mk.inj (List.mem_singleton.1 hq)
        obtain rfl := Option.some.inj hf
        refine ⟨rfl, before, i, after, hinputs, hasks, rfl, rfl, ?_, ?_⟩
        · simpa using hgrown.inputs
        · simpa using hgrown.queries

/-- Four inputs, counted apart: the first spends nothing, the second is in the store, and the store
fails at the third. The fourth is not looked up any more. -/
theorem resolveInputs_frugal_gone :
    let a := Hash.repeated 1
    let b := Hash.repeated 2
    let input (source : Hash) : TxInput := ⟨⟨source, 0⟩, [], 0⟩
    let t : Transaction :=
      ⟨.repeated 3, 1, 0, [input .null, input a, input b, input a], []⟩
    let store : Flaky MemoryStore :=
      ⟨{ transactions := [Pipeline.minted a 5 "first"] }, [none, some (.value "gone")]⟩
    let d : Desk (Resolver (Called (Flaky MemoryStore))) := ⟨{ store := { store := store } }, []⟩
    let run := (resolveInputs .lent .empty t).runAt d
    ((∀ i ∈ t.inputs, Document.isTooLong i.source.index = false) ∧
        (AllOrNothing.contents store).memory.Sound) ∧
      run.1 = .error (.value "gone") ∧
      run.2.state.store.calls = [(.find a.display, none), (.find b.display, some (.value "gone"))] ∧
      run.2.state.tally .lent = { storeQueries := 2, storeHits := 1, coinbase := 1 } ∧
      run.2.state.tally .own = d.state.tally .own := by
  intro a b input t store d run
  have hshort : ∀ i ∈ t.inputs, Document.isTooLong i.source.index = false := by decide +kernel
  have hsound : (AllOrNothing.contents store).memory.Sound :=
    Pipeline.sound_minted a 5 "first"
  have hmade : run.2.state.store.calls =
      [(.find a.display, none), (.find b.display, some (.value "gone"))] := rfl
  obtain ⟨-, -, hother, calls, grown, hcalls, -, -, -, hfails⟩ :=
    resolveInputs_frugal .lent .empty t hshort d hsound
  obtain rfl : _ = calls := hmade.symm.trans hcalls
  obtain ⟨hrun, -⟩ := hfails _ _ (List.mem_cons_of_mem _ List.mem_cons_self)
  exact ⟨⟨hshort, hsound⟩, hrun, hmade, by decide +kernel, hother .own (by decide)⟩

end Resolver

end BlockArchive
