import BlockArchive.Proofs.Ingest.Batch

/-!
# The totals are a ledger of what was written

Whatever is asked of a pipeline in whatever order, and whichever calls of the store fail on the way,
its totals tell exactly what it has written: how many blocks were taken in, and of the transactions
written how many there are, how many inputs and outputs they have, and how many of these have no
address or spend nothing. The ways in which inputs were resolved add up to all inputs.

* `Signal` is what can be asked of a pipeline, `Signal.follow` follows signals one after the other,
  whatever each comes to, and `Signal.taken` counts the blocks taken in on the way;
* `Totals.Ledger` says that totals tell what was written, and `Totals.Ledger.count` that they go on
  to do so when a block is counted;
* `Signal.act_balanced` and `Signal.follow_balanced` carry this through one signal and through
  all;
* `Signal.follow_ledger` says so of a pipeline that is new.
-/

namespace BlockArchive

variable {σ : Type}

/-! ### What totals tell -/

/-- The output is kept with an empty address. -/
def KeptOutput.isUnaddressed (o : KeptOutput) : Bool :=
  match o.address with
  | .string s => s == ""
  | _ => false

/-- The hash of the output spent is shown as 64 zeros. -/
def ResolvedInput.spendsNothing (i : ResolvedInput) : Bool :=
  match i.previousHash with
  | .string s => s == String.ofList (List.replicate 64 '0')
  | _ => false

/-- The totals tell how many blocks were taken in and what was written of them. -/
structure Totals.Ledger (t : Totals) (taken : Nat) (written : List TransactionRecord) : Prop where
  blocks : t.blocks = taken
  transactions : t.transactions = written.length
  inputs : t.inputs = (written.flatMap TransactionRecord.inputs).length
  outputs : t.outputs = (written.flatMap TransactionRecord.outputs).length
  unrecognised :
    t.unrecognised = (written.flatMap TransactionRecord.outputs).countP KeptOutput.isUnaddressed
  coinbase :
    t.tally.coinbase = (written.flatMap TransactionRecord.inputs).countP ResolvedInput.spendsNothing
  resolved :
    t.inputs = t.tally.cacheHits + t.tally.storeHits + t.tally.unresolved + t.tally.coinbase
  queries : t.tally.storeQueries = t.tally.storeHits + t.tally.unresolved
  bounds : 0 ≤ t.tally.unresolved ∧ t.tally.unresolved ≤ t.inputs

theorem Hash.display_null : Hash.null.display = String.ofList (List.replicate 64 '0') := by
  decide

/-- The outpoints of a record are those of its transaction, as they are shown. -/
theorem Transaction.Recorded.previousHashes {blockHash : String} {t : Transaction}
    {r : TransactionRecord} (h : t.Recorded blockHash r) :
    r.inputs.map ResolvedInput.previousHash = t.sources.map fun o => .string o.hash.display := by
  refine List.ext_getElem? fun j => ?_
  rw [List.getElem?_map, sources, List.map_map, List.getElem?_map]
  cases hi : t.inputs[j]? with
  | some i =>
    obtain ⟨p, hp⟩ := h.inputs j i hi
    rw [hp]
    rfl
  | none =>
    have hj : r.inputs[j]? = none := by
      rw [List.getElem?_eq_none_iff, h.inputCount, ← List.getElem?_eq_none_iff, hi]
    rw [hj]
    rfl

theorem Transaction.Recorded.countP_spendsNothing {blockHash : String} {t : Transaction}
    {r : TransactionRecord} (h : t.Recorded blockHash r) :
    r.inputs.countP ResolvedInput.spendsNothing = t.sources.countP OutPoint.isNull := by
  -- both are read off the hashes of what is spent
  let zeros : Value → Bool := fun v => match v with
    | .string s => s == String.ofList (List.replicate 64 '0')
    | _ => false
  have hleft : r.inputs.countP ResolvedInput.spendsNothing =
      (r.inputs.map ResolvedInput.previousHash).countP zeros := by
    rw [List.countP_map]
    rfl
  rw [hleft, h.previousHashes, List.countP_map]
  refine List.countP_congr fun o _ => ?_
  simp only [zeros, Function.comp_apply, OutPoint.isNull, beq_iff_eq, ← Hash.display_null,
    Hash.display_inj]

theorem Transaction.Recorded.countP_isUnaddressed {blockHash : String} {t : Transaction}
    {r : TransactionRecord} (h : t.Recorded blockHash r) :
    r.outputs.countP KeptOutput.isUnaddressed = unrecognisedCount r.outputs := by
  rw [h.outputs, unrecognisedCount]
  refine List.countP_congr fun o ho => ?_
  obtain ⟨i, hi, rfl⟩ := List.mem_mapIdx.1 ho
  simp only [KeptOutput.isUnaddressed, KeptOutput.ofOutput, Evaluation.keptAddress]
  cases htruthy : (t.outputs[i]).evaluation.address.isTruthy with
  | true =>
    simp only [↓reduceIte, htruthy, Bool.not_true, Bool.false_eq_true, iff_false]
    intro hempty
    split at hempty
    · rename_i s hs
      rw [hs] at htruthy
      simp_all [Value.isTruthy]
    · cases hempty
  | false => simp [Value.isTruthy]

theorem Transaction.countP_recorded {blockHash : String} {ts : List Transaction}
    {rs : List TransactionRecord} (h : List.Forall₂ (Transaction.Recorded blockHash) ts rs) :
    rs.length = ts.length ∧
      (rs.flatMap TransactionRecord.inputs).length = (ts.flatMap Transaction.sources).length ∧
      (rs.flatMap TransactionRecord.inputs).countP ResolvedInput.spendsNothing =
        (ts.flatMap Transaction.sources).countP OutPoint.isNull ∧
      (rs.flatMap TransactionRecord.outputs).countP KeptOutput.isUnaddressed =
        unrecognisedCount (rs.flatMap TransactionRecord.outputs) := by
  induction h with
  | nil => exact ⟨rfl, rfl, rfl, rfl⟩
  | @cons t r ts rs hr _ ih =>
    obtain ⟨hlength, hinputs, hnull, hunrecognised⟩ := ih
    have hcount : r.inputs.length = t.sources.length := by
      rw [hr.inputCount, Transaction.sources, List.length_map]
    refine ⟨congrArg (· + 1) hlength, ?_, ?_, ?_⟩
    · rw [List.flatMap_cons, List.flatMap_cons, List.length_append, List.length_append, hcount,
        hinputs]
    · rw [List.flatMap_cons, List.flatMap_cons, List.countP_append, List.countP_append,
        hr.countP_spendsNothing, hnull]
    · rw [List.flatMap_cons, List.countP_append, hr.countP_isUnaddressed, hunrecognised,
        unrecognisedCount, unrecognisedCount, unrecognisedCount, List.countP_append]

namespace Totals.Ledger

variable {t : Totals} {taken : Nat} {written : List TransactionRecord}

theorem new (now : Quantity) : Ledger { startedAt := now } 0 [] :=
  ⟨rfl, rfl, rfl, rfl, rfl, rfl, rfl, rfl, Int.le_refl _, Int.le_refl _⟩

theorem mark (h : t.Ledger taken written) (start stop : Int) (finished : Option Quantity) :
    { t with startHeight := start, endHeight := stop, finishedAt := finished }.Ledger
      taken written :=
  ⟨h.blocks, h.transactions, h.inputs, h.outputs, h.unrecognised, h.coinbase, h.resolved,
    h.queries, h.bounds⟩

/-- A block that is counted is one more, and its batch what is written of it. -/
theorem count (h : t.Ledger taken written) {b : Block} (height : Int)
    {x : List TransactionRecord × Tally}
    (hrecorded : List.Forall₂ (Transaction.Recorded b.header.hash.display) b.transactions x.1)
    (haccounts : x.2.Accounts (b.transactions.flatMap Transaction.sources)) :
    (Pipeline.count b height x.1 x.2 t).Ledger (taken + 1) (written ++ x.1) := by
  obtain ⟨hlength, hinputs, hnull, hunrecognised⟩ := Transaction.countP_recorded hrecorded
  obtain ⟨haccounted, hcoinbase, hqueries, hbounds⟩ := haccounts
  have hmore : (Pipeline.count b height x.1 x.2 t).tally = t.tally + x.2 := rfl
  refine ⟨?_, ?_, ?_, ?_, ?_, ?_, ?_, ?_, ?_⟩
  · simp only [Pipeline.count, h.blocks, Nat.cast_add, Nat.cast_one]
  · simp only [Pipeline.count, h.transactions, List.length_append, hlength, Nat.cast_add]
  · simp only [Pipeline.count, h.inputs, List.flatMap_append, List.length_append, Nat.cast_add]
  · simp only [Pipeline.count, h.outputs, List.flatMap_append, List.length_append, Nat.cast_add]
  · simp only [Pipeline.count, h.unrecognised, List.flatMap_append, List.countP_append,
      hunrecognised, Nat.cast_add]
  · rw [hmore, Tally.coinbase_add, h.coinbase, hcoinbase, List.flatMap_append, List.countP_append,
      hnull, Nat.cast_add]
  · have hbefore := h.resolved
    simp only [Pipeline.count, Tally.add_eq, Tally.cacheHits_add, Tally.storeHits_add,
      Tally.unresolved_add, Tally.coinbase_add, hinputs]
    omega
  · rw [hmore, Tally.storeQueries_add, Tally.storeHits_add, Tally.unresolved_add, h.queries,
      hqueries]
    omega
  · have hbefore := h.bounds
    simp only [Pipeline.count, Tally.add_eq, Tally.unresolved_add, hinputs]
    omega

end Totals.Ledger

/-- A store that is not changed by being probed is not if that may fail, either. -/
theorem Flaky.probe_contents [Store σ] [AllOrNothing σ]
    (h : ∀ e : Desk σ, AllOrNothing.contents ((Store.probe : Act σ Unit).runAt e).2.state =
      AllOrNothing.contents e.state) (d : Desk (Flaky σ)) :
    AllOrNothing.contents ((Store.probe : Act (Flaky σ) Unit).runAt d).2.state =
      AllOrNothing.contents d.state := by
  simp only [Store.probe, call_runAt]
  split
  · rfl
  · exact h _

/-! ### Signals -/

/-- What can be asked of a pipeline. -/
inductive Signal where
  /-- To start the run. -/
  | start (coin : Value) (height : Int)
  /-- To take in a block. -/
  | take (b : Block) (height : Int)
  /-- To complete the run. -/
  | complete (height : Int)

namespace Signal

section Follow

variable [Store σ]

/-- What the pipeline does. -/
def act : Signal → Act (Station σ) Unit
  | start coin height => Pipeline.start coin height
  | take b height => Pipeline.take b height
  | complete height => do let _ ← Pipeline.complete height

/-- The number of blocks that the signal gets taken in, which is none or one. -/
def takes (d : Desk (Station σ)) : Signal → Nat
  | take b height => match ((Pipeline.take b height).runAt d).1 with
    | .ok _ => 1
    | .error _ => 0
  | _ => 0

/-- The desk after some signals. One that stops does not keep the others from being given. -/
def follow : List Signal → Desk (Station σ) → Desk (Station σ)
  | [], d => d
  | s :: rest, d => follow rest (s.act.runAt d).2

/-- The number of blocks that signals get taken in. -/
def taken : List Signal → Desk (Station σ) → Nat
  | [], _ => 0
  | s :: rest, d => s.takes d + taken rest (s.act.runAt d).2

end Follow

variable [Store σ] [AllOrNothing σ]

/-- The totals tell what the store has gained since it held some transactions. -/
def Balanced (before : List TransactionRecord) (taken : Nat) (s : Station σ) : Prop :=
  ∃ written, (AllOrNothing.contents s.store).transactions = before ++ written ∧
    s.pipeline.totals.Ledger taken written

variable {before : List TransactionRecord} {n : Nat} {d : Desk (Station σ)}

theorem take_balanced (b : Block) (height : Int) (h : Balanced before n d.state) :
    Balanced before (n + takes d (take b height))
      ((Pipeline.take b height).runAt d).2.state := by
  by_cases hp : d.state.pipeline.phase.accepts = true
  · obtain ⟨written, hstore, hledger⟩ := h
    have hcontents := Pipeline.deposit_contents d.state.pipeline.policy b height
      ⟨d.state.store, d.rows⟩
    rw [Balanced, Pipeline.take_store_deposit b height hp,
      Pipeline.take_pipeline_deposit b height hp, takes, Pipeline.take_outcome_deposit b height hp]
    cases hdeposit : ((Pipeline.deposit d.state.pipeline.policy b height).runAt
        ⟨d.state.store, d.rows⟩).1 with
    | ok x =>
      obtain ⟨hrecorded, haccounts⟩ := Pipeline.deposit_recorded hdeposit
      rw [hdeposit] at hcontents
      refine ⟨written ++ x.1, ?_, hledger.count height hrecorded haccounts⟩
      simp only [hcontents, Contents.addTransactions, Contents.addBlock, hstore,
        List.append_assoc]
    | error f =>
      -- neither the store nor the totals have changed
      rw [hdeposit] at hcontents
      exact ⟨written, hcontents.trans hstore, hledger⟩
  · rw [takes, Pipeline.take_rejected b height (Bool.eq_false_iff.2 hp)]
    exact h

variable (hprobe : ∀ e : Desk σ,
  AllOrNothing.contents ((Store.probe : Act σ Unit).runAt e).2.state =
    AllOrNothing.contents e.state)
include hprobe

/-- **Every signal keeps the balance**, over a store that is not changed by being probed. -/
theorem act_balanced (s : Signal) (h : Balanced before n d.state) :
    Balanced before (n + s.takes d) (s.act.runAt d).2.state := by
  cases s with
  | start coin height =>
    rcases Pipeline.start_cases coin height d with ⟨f, hrun⟩ | ⟨-, c, rows, -, -, hstate⟩
    · rw [act, hrun]
      exact h
    · obtain ⟨written, hstore, hledger⟩ := h
      rw [act, hstate]
      refine ⟨written, (congrArg Contents.transactions (hprobe _)).trans hstore, ?_⟩
      -- at most the heights are set
      dsimp only
      split
      · exact hledger.mark height height _
      · exact hledger
  | take b height => exact take_balanced b height h
  | complete height =>
    have hact : (act (complete height) : Act (Station σ) Unit).runAt d =
        (((Pipeline.complete height).runAt d).1.map fun _ => (),
          ((Pipeline.complete height).runAt d).2) := by
      simp only [act, Act.runAt_bind]
      cases ((Pipeline.complete height).runAt d).1 <;> rfl
    rw [hact]
    by_cases hp : d.state.pipeline.phase.accepts = true
    · obtain ⟨written, hstore, hledger⟩ := h
      dsimp only
      rw [Pipeline.complete_state height hp]
      exact ⟨written, hstore, hledger.mark _ height _⟩
    · rw [Pipeline.complete_rejected height (Bool.eq_false_iff.2 hp)]
      exact h

theorem follow_balanced (signals : List Signal) (h : Balanced before n d.state) :
    Balanced before (n + taken signals d) (follow signals d).state := by
  induction signals generalizing d n with
  | nil => exact h
  | cons s rest ih =>
    have hrest := ih (act_balanced hprobe s h)
    rw [Nat.add_assoc] at hrest
    exact hrest

omit hprobe

/-- **The totals tell exactly what was written.** A new pipeline follows any signals over a memory
of any contents, whose calls fail as a script has it: then its totals tell how many blocks were
taken in, and all that the transactions hold that the store has gained. -/
theorem follow_ledger (m : MemoryStore) (script : List (Option Fault)) (policy : CoinbasePolicy)
    (w : Setting) (signals : List Signal) :
    let d : Desk (Station (Flaky MemoryStore)) := w.desk policy ⟨m, script⟩
    let s := (follow signals d).state
    ∃ written, s.store.store.transactions = m.transactions ++ written ∧
      s.pipeline.totals.Ledger (taken signals d) written := by
  intro d s
  have hprobe : ∀ e : Desk (Flaky MemoryStore),
      AllOrNothing.contents ((Store.probe : Act (Flaky MemoryStore) Unit).runAt e).2.state =
        AllOrNothing.contents e.state := by
    refine fun e => Flaky.probe_contents (fun e => ?_) e
    simp only [Store.probe, Act.runAt_bind, Act.runAt_state]
    split <;> rfl
  have hnew : Balanced m.transactions 0 d.state := ⟨[], (List.append_nil _).symm, .new w.now⟩
  obtain ⟨written, hstore, hledger⟩ := follow_balanced hprobe signals hnew
  rw [Nat.zero_add] at hledger
  exact ⟨written, hstore, hledger⟩

end Signal

end BlockArchive
