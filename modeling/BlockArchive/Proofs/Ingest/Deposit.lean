import BlockArchive.Proofs.Ingest.Refinement
import BlockArchive.Proofs.Ingest.Taking

/-!
# What a block does to the store

The work on a block reaches the store in one order: look-ups while its inputs are resolved, then the
block itself, then its batch. Policy and store alone decide what comes of it; phase, totals and
clock stand beside it, and change by a rule of their own once it is known.

* `Setting` is what surrounds a new pipeline, `Pipeline.deposit` the work on a block as far as the
  store is concerned;
* `Pipeline.take_outcome_deposit`, `Pipeline.take_store_deposit` and
  `Pipeline.take_pipeline_deposit` say what taking in a block makes of it, at any height;
* `Pipeline.deposit_matches`: over stores whose calls match deposits match;
* `Pipeline.start_cases` and `Pipeline.complete_state`, `Pipeline.complete_outcome` say as much of
  the first and the last step of a run.
-/

namespace BlockArchive

variable {σ τ : Type}

/-- What a pipeline finds when it is made, besides its policy and its store. -/
structure Setting where
  /-- Milliseconds above which taking in a block is reported as slow. -/
  slowBlock : Int
  /-- The time. -/
  now : Quantity
  /-- The clock. -/
  clock : Clock
  /-- The rows written so far. -/
  rows : List Row

/-- A new pipeline over a store. -/
def Setting.desk (w : Setting) (policy : CoinbasePolicy) (store : σ) : Desk (Station σ) :=
  ⟨⟨.idle policy w.slowBlock w.now, store, w.clock⟩, w.rows⟩

namespace Pipeline

section Deposit

variable [Store σ]

/-- The batch of a block and its tally, over a store by itself. -/
def resolveOver (policy : CoinbasePolicy) (b : Block) : Act σ (List TransactionRecord × Tally) :=
  Act.within (fun s => (⟨s, {}⟩ : Resolution σ)) (fun r _ => r.store) do
    let records ← batch policy b
    return (records, (← Act.state).tally)

/-- The work on a block as far as the store is concerned: its inputs are resolved, and the block is
written, and its batch. -/
def deposit (policy : CoinbasePolicy) (b : Block) (height : Int) :
    Act σ (List TransactionRecord × Tally) := do
  let x ← resolveOver policy b
  Store.insertBlock (.ofBlock b (.int height))
  if !x.1.isEmpty then Store.insertTransactions x.1
  return x

/-- The pipeline once the work on a block came to an outcome: only what is written is counted. -/
def counted (b : Block) (height : Int) (p : Pipeline) :
    Except Fault (List TransactionRecord × Tally) → Pipeline
  | .ok x => { p with totals := count b height x.1 x.2 p.totals }
  | .error _ => p

@[simp] theorem counted_policy (b : Block) (height : Int) (p : Pipeline)
    (o : Except Fault (List TransactionRecord × Tally)) :
    (counted b height p o).policy = p.policy := by
  cases o <;> rfl

@[simp] theorem counted_phase (b : Block) (height : Int) (p : Pipeline)
    (o : Except Fault (List TransactionRecord × Tally)) :
    (counted b height p o).phase = p.phase := by
  cases o <;> rfl

theorem resolveBlock_runAt_resolveOver (b : Block) (d : Desk (Station σ)) :
    (resolveBlock b).runAt d = (onStore (resolveOver d.state.pipeline.policy b)).runAt d := by
  simp only [resolveBlock, resolveOver, onStore, Act.runAt_bind, Act.runAt_state, Act.runAt_within]

/-- The work on a block is its deposit, which is then counted and noted. -/
theorem ingest_runAt_deposit (b : Block) (height : Int) (d : Desk (Station σ)) :
    (ingest b height).runAt d = (do
      let x ← onStore (deposit d.state.pipeline.policy b height)
      updateTotals (count b height x.1 x.2)
      log .debug "Inserted block into db"
        [("height", .int height), ("hash", .string b.header.hash.display),
          ("tx_count", .nat x.1.length)]).runAt d := by
  simp only [ingest, deposit, Act.runAt_bind, resolveBlock_runAt_resolveOver, onStore,
    Act.runAt_within]
  cases (resolveOver d.state.pipeline.policy b).runAt ⟨d.state.store, d.rows⟩ with
  | mk o e =>
    cases o with
    | error f => rfl
    | ok x =>
      dsimp only
      cases (Store.insertBlock (.ofBlock b (.int height))).runAt e with
      | mk o e =>
        cases o with
        | error f => rfl
        | ok _ =>
          -- the batch is not written if there is none
          cases hempty : x.1.isEmpty with
          | true => rfl
          | false =>
            simp only [Bool.not_false, ↓reduceIte, Act.runAt_bind, Act.runAt_within]
            cases (Store.insertTransactions x.1).runAt e with
            | mk o e => cases o <;> rfl

/-- The work on a block comes to what its deposit does, and is counted if that comes about. -/
theorem ingest_deposit (b : Block) (height : Int) (d : Desk (Station σ)) :
    let r := (deposit d.state.pipeline.policy b height).runAt ⟨d.state.store, d.rows⟩
    ((ingest b height).runAt d).1 = r.1.map (fun _ => ()) ∧
      ((ingest b height).runAt d).2.state =
        { d.state with pipeline := counted b height d.state.pipeline r.1, store := r.2.state } := by
  rw [ingest_runAt_deposit, Act.runAt_bind, onStore, Act.runAt_within]
  cases (deposit d.state.pipeline.policy b height).runAt ⟨d.state.store, d.rows⟩ with
  | mk o e => cases o <;> exact ⟨rfl, rfl⟩

end Deposit

section Matches

variable [Store σ] [Store τ] {R : σ → τ → Prop}
  (hfind : ∀ hash, Act.Matches R (Store.find hash : Act σ _) (Store.find hash : Act τ _))
include hfind

theorem resolveOver_matches (policy : CoinbasePolicy) (b : Block) :
    Act.Matches R (resolveOver policy b : Act σ _) (resolveOver policy b) := by
  -- both resolutions begin with empty counters
  refine Act.Refines.within (R := Resolution.Related R) (S := fun _ _ => False)
    (fun s t h => ⟨h, rfl⟩) (fun _ _ _ _ _ h => h.1) (fun _ _ _ _ _ h => h) ?_
  refine (batchFrom_refines hfind _ _ _ _).bind fun records => Act.Refines.state_bind ?_
  rintro r q ⟨-, htally⟩
  rw [htally]
  exact .pure _

theorem deposit_matches (policy : CoinbasePolicy) (b : Block) (height : Int)
    (hblock : ∀ r,
      Act.Matches R (Store.insertBlock r : Act σ Unit) (Store.insertBlock r : Act τ Unit))
    (hbatch : ∀ rs, Act.Matches R (Store.insertTransactions rs : Act σ Unit)
      (Store.insertTransactions rs : Act τ Unit)) :
    Act.Matches R (deposit policy b height : Act σ _) (deposit policy b height) := by
  refine (resolveOver_matches hfind policy b).bind fun x => (hblock _).bind fun _ => ?_
  dsimp only
  split
  · exact (hbatch _).bind fun _ => .pure x
  · exact .pure x

end Matches

/-! ### Taking in a block -/

/-- The fault that is passed on: where a failure of the store cannot be reported, since the height
cannot be written, it is that. -/
def relayed (height : Int) : Fault → Fault
  | .problem p =>
    if p.category.isStorage && Document.isTooLong height then .longInteger else .problem p
  | f => f

theorem reporting_outcome_relayed (height : Int) (a : Act (Station σ) Unit) (d : Desk (Station σ)) :
    ((reporting height a).runAt d).1 = (a.runAt d).1.mapError (relayed height) := by
  simp only [reporting, Act.runAt_bind, Act.runAt_attempt]
  cases (a.runAt d).1 with
  | ok u => rfl
  | error f =>
    cases f with
    | problem p =>
      change _ = Except.error (relayed height (.problem p))
      by_cases hstorage : p.category.isStorage = true
      · by_cases hlong : Document.isTooLong height = true
        · simp [hstorage, hlong, relayed]
        · simp [hstorage, hlong, relayed, log]
      · simp [hstorage, relayed]
    | _ => rfl

section Taking

variable [Store σ] (b : Block) (height : Int) {d : Desk (Station σ)}
  (hp : d.state.pipeline.phase.accepts = true)
include hp

theorem take_outcome_deposit :
    ((take b height).runAt d).1 =
      (((deposit d.state.pipeline.policy b height).runAt ⟨d.state.store, d.rows⟩).1.map
        fun _ => ()).mapError (relayed height) := by
  rw [take_runAt_of_accepts b height hp, Act.timed_runAt]
  dsimp only
  rw [reporting_outcome_relayed, (ingest_deposit b height _).1]

theorem take_store_deposit :
    ((take b height).runAt d).2.state.store =
      ((deposit d.state.pipeline.policy b height).runAt ⟨d.state.store, d.rows⟩).2.state := by
  rw [take_state b height hp, (ingest_deposit b height (taken d)).2]
  rfl

theorem take_pipeline_deposit :
    ((take b height).runAt d).2.state.pipeline =
      counted b height { d.state.pipeline with phase := .streaming }
        ((deposit d.state.pipeline.policy b height).runAt ⟨d.state.store, d.rows⟩).1 := by
  rw [take_state b height hp, (ingest_deposit b height (taken d)).2]
  rfl

theorem take_ok_iff :
    ((take b height).runAt d).1 = .ok () ↔
      ∃ x,
        ((deposit d.state.pipeline.policy b height).runAt ⟨d.state.store, d.rows⟩).1 = .ok x := by
  rw [take_outcome_deposit b height hp]
  cases ((deposit d.state.pipeline.policy b height).runAt ⟨d.state.store, d.rows⟩).1 with
  | ok x => exact ⟨fun _ => ⟨x, rfl⟩, fun _ => rfl⟩
  | error f =>
    constructor
    · intro h
      cases h
    · rintro ⟨x, h⟩
      cases h

end Taking

/-! ### The first and the last step -/

/-- The pipeline once its run has been started. -/
def started (coin : Coin) (height : Int) (p : Pipeline) : Pipeline :=
  { p with
    phase := .connected
    coin := some coin
    totals := { p.totals with startHeight := height, endHeight := height } }

/-- The pipeline once its run is complete. -/
def completed (height : Int) (now : Quantity) (p : Pipeline) : Pipeline :=
  { p with
    phase := .finished
    totals := { p.totals with endHeight := height, finishedAt := some now } }

/-- The fate of a run that starts with a coin is that of the question whether the store answers. -/
theorem start_named [Store σ] {coinName : Value} {coin : Coin} (height : Int)
    {d : Desk (Station σ)} (hidle : d.state.pipeline.phase = .idle)
    (hcoin : Coin.choose coinName = .ok coin) :
    ∃ rows,
      let r := (Store.probe : Act σ Unit).runAt ⟨d.state.store, rows⟩
      ((start coinName height).runAt d).1 = r.1 ∧
        ((start coinName height).runAt d).2.state =
          { d.state with
            store := r.2.state
            pipeline := match r.1 with
              | .ok _ => started coin height d.state.pipeline
              | .error _ => { d.state.pipeline with coin := some coin } } := by
  refine ⟨d.rows ++ [⟨.info, some "pipeline", "Using \x60chainingest\x60 pipeline",
    [("coin", .string coin.name), ("start_height", .int height)]⟩], ?_⟩
  simp only [start, hidle, hcoin, Act.runAt_bind, Act.runAt_state, ne_eq, not_true_eq_false,
    ↓reduceIte, Act.runAt_lift, update, Act.runAt_update, log, Act.runAt_log, onStore,
    Act.runAt_within]
  cases (Store.probe : Act σ Unit).runAt _ with
  | mk o e => cases o <;> exact ⟨rfl, rfl⟩

/-- A run is not started at all, or its fate is that of the question whether the store answers. -/
theorem start_cases [Store σ] (coinName : Value) (height : Int) (d : Desk (Station σ)) :
    (∃ f, (start coinName height).runAt d = (.error f, d)) ∨
      d.state.pipeline.phase = .idle ∧ ∃ coin rows, Coin.choose coinName = .ok coin ∧
        let r := (Store.probe : Act σ Unit).runAt ⟨d.state.store, rows⟩
        ((start coinName height).runAt d).1 = r.1 ∧
          ((start coinName height).runAt d).2.state =
            { d.state with
              store := r.2.state
              pipeline := match r.1 with
                | .ok _ => started coin height d.state.pipeline
                | .error _ => { d.state.pipeline with coin := some coin } } := by
  by_cases hidle : d.state.pipeline.phase = .idle
  · cases hcoin : Coin.choose coinName with
    | error f => exact .inl ⟨f, by simp [start, hidle, hcoin]⟩
    | ok coin =>
      obtain ⟨rows, hrun⟩ := start_named height hidle hcoin
      exact .inr ⟨hidle, coin, rows, rfl, hrun⟩
  · exact .inl ⟨_, by simp [start, hidle]; rfl⟩

variable (height : Int) {d : Desk (Station σ)}

theorem complete_state (hp : d.state.pipeline.phase.accepts = true) :
    ((complete height).runAt d).2.state =
      { d.state with pipeline := completed height d.state.clock.now d.state.pipeline } := by
  simp only [complete, Act.runAt_bind, Act.runAt_state, hp, Bool.not_true, Bool.false_eq_true,
    ↓reduceIte, updateTotals, update, Act.runAt_update, Act.runAt_lift]
  split <;> rfl

/-- A run that can be completed is, if its summary can be written. -/
theorem complete_outcome (hp : d.state.pipeline.phase.accepts = true) :
    ((complete height).runAt d).1 =
      (completed height d.state.clock.now d.state.pipeline).totals.summary.map
        fun _ => (completed height d.state.clock.now d.state.pipeline).totals := by
  simp only [complete, Act.runAt_bind, Act.runAt_state, hp, Bool.not_true, Bool.false_eq_true,
    ↓reduceIte, updateTotals, update, Act.runAt_update, Act.runAt_lift]
  simp only [completed]
  generalize Totals.summary _ = summary
  cases summary <;> rfl

theorem complete_rejected (hp : d.state.pipeline.phase.accepts = false) :
    (complete height).runAt d = (.error (.problem (.notStarted d.state.pipeline.phase)), d) := by
  simp [complete, hp]

end Pipeline

end BlockArchive
