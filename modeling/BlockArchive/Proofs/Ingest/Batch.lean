import BlockArchive.Proofs.Ingest.Deposit
import BlockArchive.Proofs.Ingest.Typed
import BlockArchive.Proofs.Store.AllOrNothing

/-!
# What a batch holds

Whatever store answers the look-ups, a batch that comes about has one record for each transaction of
its block, in order, made of the transaction itself but for the payments of its inputs; and each
input has been counted once, as one of four things. A batch that does not come about leaves the
store with what it had.

* `Transaction.Recorded` is what a record of a transaction must be, `Tally.Accounts` what a tally of
  inputs must add up to;
* `Resolution.Counts` says that an act adds such a tally and gives such results, with a rule for
  each way to make one;
* `Pipeline.deposit_recorded` and `Pipeline.deposit_contents` are the two facts about the work on a
  block.
-/

namespace BlockArchive

variable {σ α β : Type}

/-! ### Records and tallies -/

/-- The record is that of a transaction in a block; only what its inputs are paid is left open. -/
structure Transaction.Recorded (blockHash : String) (t : Transaction) (r : TransactionRecord) :
    Prop where
  hash : r.hash = .string t.hash.display
  blockHash : r.blockHash = .string blockHash
  version : r.version = .int t.version
  lockTime : r.lockTime = .int t.locktime
  inputCount : r.inputs.length = t.inputs.length
  inputs : ∀ (j : Nat) i, t.inputs[j]? = some i →
    ∃ p, r.inputs[j]? = some (Resolution.record t.hash.display j i p)
  outputs : r.outputs = t.kept

/-- The outpoints that the inputs of a transaction spend. -/
def Transaction.sources (t : Transaction) : List OutPoint := t.inputs.map TxInput.source

/-- The tally counts each of some inputs once, and a question to the store for each that needed
one. -/
structure Tally.Accounts (t : Tally) (sources : List OutPoint) : Prop where
  inputs : t.cacheHits + t.storeHits + t.unresolved + t.coinbase = sources.length
  coinbase : t.coinbase = sources.countP OutPoint.isNull
  queries : t.storeQueries = t.storeHits + t.unresolved
  bounds : 0 ≤ t.unresolved ∧ t.unresolved ≤ sources.length

theorem Tally.Accounts.nil : Accounts 0 [] := ⟨rfl, rfl, rfl, Int.le_refl _, Int.le_refl _⟩

theorem Tally.Accounts.add {t u : Tally} {xs ys : List OutPoint} (ht : t.Accounts xs)
    (hu : u.Accounts ys) : (t + u).Accounts (xs ++ ys) := by
  obtain ⟨hi, hc, hq, hb⟩ := ht
  obtain ⟨hi', hc', hq', hb'⟩ := hu
  refine ⟨?_, ?_, ?_, ?_⟩
  · simp only [cacheHits_add, storeHits_add, unresolved_add, coinbase_add, List.length_append]
    omega
  · simp only [coinbase_add, List.countP_append]
    omega
  · simp only [storeQueries_add, storeHits_add, unresolved_add]
    omega
  · simp only [unresolved_add, List.length_append]
    omega

theorem Settlement.tally_accounts {w : Settlement} {source : OutPoint}
    (h : w = .coinbase ↔ source.isNull = true) : w.tally.Accounts [source] := by
  have hcount : [source].countP OutPoint.isNull = if source.isNull = true then 1 else 0 := by
    simp [List.countP_cons]
  have hbounds : 0 ≤ w.tally.unresolved ∧ w.tally.unresolved ≤ [source].length := by
    cases w <;> simp [tally]
  cases w with
  | coinbase =>
    have hnull : source.isNull = true := h.1 rfl
    exact ⟨rfl, by rw [hcount, if_pos hnull]; rfl, rfl, hbounds⟩
  | cached | stored | unresolved =>
    have hnull : ¬ source.isNull = true := mt h.2 (by simp)
    exact ⟨rfl, by rw [hcount, if_neg hnull]; rfl, rfl, hbounds⟩

theorem Transaction.hash_of_recorded {blockHash : String} {ts : List Transaction}
    {rs : List TransactionRecord} (h : List.Forall₂ (Transaction.Recorded blockHash) ts rs) :
    ∀ r ∈ rs, ∃ s, r.hash = .string s := by
  induction h with
  | nil => exact nofun
  | cons hr _ ih => exact List.forall_mem_cons.2 ⟨⟨_, hr.hash⟩, ih⟩

/-! ### Counting -/

namespace Resolution

/-- What the act gives satisfies `Q`, and what it has added to the tally accounts for inputs that
spend the sources. -/
def Counts (sources : List OutPoint) (Q : α → Prop) (a : Act (Resolution σ) α) : Prop :=
  ∀ d x, (a.runAt d).1 = .ok x →
    Q x ∧ ∃ t : Tally, (a.runAt d).2.state.tally = d.state.tally + t ∧ t.Accounts sources

variable {Q : α → Prop} {P : β → Prop} {xs ys : List OutPoint}

theorem Counts.pure {x : α} (h : Q x) : Counts [] Q (Pure.pure x : Act (Resolution σ) α) := by
  intro d y hy
  obtain rfl := Except.ok.inj hy
  exact ⟨h, 0, (add_zero _).symm, .nil⟩

theorem Counts.bind {a : Act (Resolution σ) α} {f : α → Act (Resolution σ) β} (ha : Counts xs Q a)
    (hf : ∀ x, Q x → Counts ys P (f x)) : Counts (xs ++ ys) P (a >>= f) := by
  intro d y hy
  obtain ⟨x, hx, hy'⟩ := Act.runAt_bind_ok hy
  obtain ⟨hQ, t, ht, hxs⟩ := ha d x hx
  obtain ⟨hP, u, hu, hys⟩ := hf x hQ _ y hy'
  have hrun : ((a >>= f).runAt d).2 = ((f x).runAt (a.runAt d).2).2 := by
    rw [Act.runAt_bind, hx]
  exact ⟨hP, t + u, by rw [hrun, hu, ht, add_assoc], hxs.add hys⟩

theorem keepOutputs_counts (t : Transaction) :
    Counts [] (· = t.kept) (t.keepOutputs : Act (Resolution σ) _) := by
  intro d x hx
  rw [Transaction.keepOutputs_runAt (Transaction.reportable_of_keepOutputs_ok hx)]
  exact ⟨Transaction.kept_of_keepOutputs_ok hx, 0, (add_zero _).symm, .nil⟩

/-- What a look-up counts: a hit where it has found a payment, else a question in vain. -/
def LookedUp (d e : Desk (Resolution σ)) : Option Payment → Prop
  | some _ => ∃ w : Settlement, w ≠ .coinbase ∧ e.state.tally = d.state.tally + w.tally
  | none => e.state.tally = d.state.tally + { storeQueries := 1 }

variable [Store σ]

/-- A look-up that comes about is a hit in the cache, a hit in the store or a question in vain. -/
theorem lookup_settled {c : Cache} {source : OutPoint} {d : Desk (Resolution σ)}
    {found : Option Payment} (h : ((lookup c source).runAt d).1 = .ok found) :
    LookedUp d ((lookup c source).runAt d).2 found := by
  unfold lookup at h ⊢
  cases hc : c.get? (.ofOutPoint source) with
  | some p =>
    simp only [hc, tick, Act.runAt_bind, Act.runAt_update, Act.runAt_pure] at h ⊢
    obtain rfl := Except.ok.inj h
    exact ⟨.cached p, by simp, by simp [Settlement.tally, Tally.add_mk]⟩
  | none =>
    simp only [hc, tick, onStore, Act.runAt_bind, Act.runAt_update, Act.runAt_within] at h ⊢
    generalize (Store.find source.hash.display).runAt ⟨d.state.store, d.rows⟩ = r at h ⊢
    obtain ⟨o, e⟩ := r
    cases o with
    | error f => cases h
    | ok stored =>
      cases stored with
      | none =>
        obtain rfl := Except.ok.inj h
        simp [LookedUp, Tally.add_mk]
      | some stored =>
        simp only [Act.runAt_bind, Act.runAt_lift] at h ⊢
        cases houtput : stored.output source.index with
        | error f => simp [houtput] at h
        | ok output =>
          rw [houtput] at h
          cases output with
          | none =>
            obtain rfl := Except.ok.inj h
            simp [LookedUp, Tally.add_mk]
          | some p =>
            obtain rfl := Except.ok.inj h
            exact ⟨.stored p, by simp, by simp [Settlement.tally, Tally.add_mk]⟩

/-- An input is settled in one of the four ways, whatever the store answers. -/
theorem payment_settled (policy : CoinbasePolicy) (c : Cache) (txHash : String) (index : Nat)
    (source : OutPoint) {d : Desk (Resolution σ)} {p : Payment}
    (h : ((payment policy c txHash index source).runAt d).1 = .ok p) :
    ∃ w : Settlement, (w = .coinbase ↔ source.isNull = true) ∧
      ((payment policy c txHash index source).runAt d).2.state.tally =
        d.state.tally + w.tally := by
  unfold payment at h ⊢
  by_cases hnull : source.isNull = true
  · refine ⟨.coinbase, by simp [hnull], ?_⟩
    simp [hnull, tick, Settlement.tally, Tally.add_mk]
  simp only [hnull, Bool.false_eq_true, ↓reduceIte, Act.runAt_bind, iff_false] at h ⊢
  cases hlookup : ((lookup c source).runAt d).1 with
  | error f => simp [hlookup] at h
  | ok found =>
    have htally := lookup_settled hlookup
    cases found with
    | some q => simpa [LookedUp] using htally
    | none =>
      rw [LookedUp] at htally
      rw [hlookup] at h
      obtain ⟨⟨⟩, -, h⟩ := Act.runAt_bind_ok h
      obtain ⟨row, hrow, -⟩ := Act.runAt_bind_ok h
      rw [Act.runAt_lift] at hrow
      refine ⟨.unresolved, by simp, ?_⟩
      simp [tick, htally, hrow, Settlement.tally, Tally.add_mk]

theorem payment_counts (policy : CoinbasePolicy) (c : Cache) (txHash : String) (index : Nat)
    (source : OutPoint) :
    Counts [source] (fun _ => True)
      (payment policy c txHash index source : Act (Resolution σ) _) := by
  intro d p h
  obtain ⟨w, hw, htally⟩ := payment_settled policy c txHash index source h
  exact ⟨trivial, w.tally, htally, Settlement.tally_accounts hw⟩

theorem resolveFrom_counts (policy : CoinbasePolicy) (c : Cache) (txHash : String) (index : Nat)
    (inputs : List TxInput) :
    Counts (inputs.map TxInput.source)
      (fun resolved => resolved.length = inputs.length ∧ ∀ (j : Nat) i, inputs[j]? = some i →
        ∃ p, resolved[j]? = some (record txHash (index + j) i p))
      (resolveFrom policy c txHash index inputs : Act (Resolution σ) _) := by
  induction inputs generalizing index with
  | nil => exact .pure ⟨rfl, nofun⟩
  | cons input rest ih =>
    have hfirst : Counts [input.source] (∃ p, · = record txHash index input p)
        (resolve policy c txHash index input : Act (Resolution σ) _) := by
      refine (payment_counts policy c txHash index input.source).bind fun p _ => ?_
      exact .pure ⟨p, rfl⟩
    refine hfirst.bind fun first ⟨p, hp⟩ => ?_
    rw [← List.append_nil (rest.map TxInput.source)]
    refine (ih (index + 1)).bind fun others ⟨hlength, hothers⟩ => .pure ⟨by simp [hlength], ?_⟩
    intro j i hi
    cases j with
    | zero =>
      obtain rfl : input = i := Option.some.inj hi
      exact ⟨p, congrArg some hp⟩
    | succ j =>
      obtain ⟨q, hq⟩ := hothers j i hi
      refine ⟨q, ?_⟩
      rw [List.getElem?_cons_succ, hq, Nat.add_right_comm, Nat.add_assoc]

end Resolution

namespace Pipeline

variable [Store σ]

theorem batchFrom_counts (policy : CoinbasePolicy) (blockHash : String) (c : Cache)
    (ts : List Transaction) :
    Resolution.Counts (ts.flatMap Transaction.sources)
      (List.Forall₂ (Transaction.Recorded blockHash) ts)
      (batchFrom policy blockHash c ts : Act (Resolution σ) _) := by
  induction ts generalizing c with
  | nil => exact .pure .nil
  | cons t rest ih =>
    rw [batchFrom_cons, List.flatMap_cons, ← List.nil_append (t.sources ++ _)]
    refine (Resolution.keepOutputs_counts t).bind fun _ _ => ?_
    refine (Resolution.resolveFrom_counts policy _ t.hash.display 0 t.inputs).bind
      fun inputs ⟨hlength, hinputs⟩ => ?_
    rw [← List.append_nil (rest.flatMap _)]
    refine (ih (c.enter t)).bind fun others hothers => .pure (.cons ?_ hothers)
    refine ⟨rfl, rfl, rfl, rfl, hlength, ?_, rfl⟩
    simp only [Nat.zero_add] at hinputs
    exact hinputs

/-- The batch of a block has a record for each of its transactions, and its tally accounts for their
inputs. -/
theorem resolveOver_recorded {policy : CoinbasePolicy} {b : Block} {d : Desk σ}
    {x : List TransactionRecord × Tally} (h : ((resolveOver policy b).runAt d).1 = .ok x) :
    List.Forall₂ (Transaction.Recorded b.header.hash.display) b.transactions x.1 ∧
      x.2.Accounts (b.transactions.flatMap Transaction.sources) := by
  simp only [resolveOver, Act.runAt_within, Act.runAt_bind] at h
  cases hbatch : ((batch policy b).runAt ⟨⟨d.state, {}⟩, d.rows⟩).1 with
  | error f => simp [hbatch] at h
  | ok records =>
    obtain ⟨hrecorded, t, ht, haccounts⟩ := batchFrom_counts _ _ _ _ _ _ hbatch
    simp only [hbatch, Act.runAt_state, Act.runAt_pure, Except.ok.injEq] at h
    subst h
    -- the tally began empty
    have ht' : ((batch policy b).runAt ⟨⟨d.state, {}⟩, d.rows⟩).2.state.tally = t := by
      rw [batch, ht, Tally.empty_add]
    exact ⟨hrecorded, ht' ▸ haccounts⟩

theorem deposit_recorded {policy : CoinbasePolicy} {b : Block} {height : Int} {d : Desk σ}
    {x : List TransactionRecord × Tally} (h : ((deposit policy b height).runAt d).1 = .ok x) :
    List.Forall₂ (Transaction.Recorded b.header.hash.display) b.transactions x.1 ∧
      x.2.Accounts (b.transactions.flatMap Transaction.sources) := by
  obtain ⟨y, hy, h⟩ := Act.runAt_bind_ok h
  obtain ⟨_, -, h⟩ := Act.runAt_bind_ok h
  -- what is written afterwards is what is given
  have hxy : x = y := by
    dsimp only at h
    split at h
    · obtain ⟨_, -, h⟩ := Act.runAt_bind_ok h
      exact (Except.ok.inj h).symm
    · exact (Except.ok.inj h).symm
  exact hxy ▸ resolveOver_recorded hy

end Pipeline

/-! ### What is kept -/

section Kept

variable [Store σ] [AllOrNothing σ]

/-- Up to the first failure, look-ups answer as those of a memory with the same transactions. -/
theorem AllOrNothing.find_refines (c : Contents) (hash : String) :
    Act.Refines (fun (s : σ) (m : MemoryStore) => contents s = c ∧ m.transactions = c.transactions)
      (fun s _ => contents s = c) (Store.find hash : Act σ _)
      (Store.find hash : Act MemoryStore _) := by
  rintro d e ⟨hkept, hsame⟩
  have hcontents := (find_contents hash d).trans hkept
  rw [MemoryStore.find_runAt]
  cases houtcome : ((Store.find hash).runAt d).1 with
  | ok answer =>
    refine .inl ⟨?_, hcontents, hsame⟩
    rw [find_answer hash d houtcome, hkept, Contents.lookup?, ← hsame, ← MemoryStore.lookup?_eq]
  | error f => exact .inr ⟨f, rfl, hcontents⟩

namespace Pipeline

theorem resolveOver_contents (policy : CoinbasePolicy) (b : Block) (d : Desk σ) :
    AllOrNothing.contents ((resolveOver policy b).runAt d).2.state =
      AllOrNothing.contents d.state := by
  have hbatch := batchFrom_refines
    (AllOrNothing.find_refines (σ := σ) (AllOrNothing.contents d.state)) policy
    b.header.hash.display .empty b.transactions ⟨⟨d.state, {}⟩, d.rows⟩
    ⟨⟨.holding (AllOrNothing.contents d.state).transactions, {}⟩, []⟩
    ⟨⟨rfl, rfl⟩, rfl⟩
  have hstate : ((resolveOver policy b).runAt d).2.state =
      ((batch policy b).runAt ⟨⟨d.state, {}⟩, d.rows⟩).2.state.store := by
    simp only [resolveOver, Act.runAt_within, Act.runAt_bind]
    cases ((batch policy b).runAt ⟨⟨d.state, {}⟩, d.rows⟩).1 <;> rfl
  rw [hstate, batch]
  obtain ⟨-, ⟨hkept, -⟩, -⟩ | ⟨-, -, hkept⟩ := hbatch
  · exact hkept
  · exact hkept

/-- A block whose deposit comes about is kept with its batch; one whose deposit does not leaves no
transaction behind. -/
theorem deposit_contents (policy : CoinbasePolicy) (b : Block) (height : Int) (d : Desk σ) :
    match ((deposit policy b height).runAt d).1 with
    | .ok x => AllOrNothing.contents ((deposit policy b height).runAt d).2.state =
        ((AllOrNothing.contents d.state).addBlock (.ofBlock b (.int height))).addTransactions x.1
    | .error _ => (AllOrNothing.contents ((deposit policy b height).runAt d).2.state).transactions =
        (AllOrNothing.contents d.state).transactions := by
  have hresolve := resolveOver_contents policy b d
  simp only [deposit, Act.runAt_bind]
  cases hx : ((resolveOver policy b).runAt d).1 with
  | error f => exact congrArg Contents.transactions hresolve
  | ok x =>
    have hblock := AllOrNothing.insertBlock_contents (.ofBlock b (.int height))
      ((resolveOver policy b).runAt d).2
    rw [hresolve] at hblock
    dsimp only
    generalize (Store.insertBlock _).runAt ((resolveOver policy b).runAt d).2 = r at hblock ⊢
    obtain ⟨o, e⟩ := r
    cases o with
    | error f => exact congrArg Contents.transactions hblock
    | ok _ =>
      replace hblock : AllOrNothing.contents e.state =
          (AllOrNothing.contents d.state).addBlock (.ofBlock b (.int height)) := hblock
      cases hempty : x.1.isEmpty with
      | true =>
        simpa [List.isEmpty_iff.1 hempty] using hblock
      | false =>
        -- the hashes in the batch are texts, so that it is written as a whole or not at all
        have hbatch := AllOrNothing.insertTransactions_contents x.1 e
          (Transaction.hash_of_recorded (resolveOver_recorded hx).1)
        simp only [Bool.not_false, ↓reduceIte, Act.runAt_bind]
        generalize (Store.insertTransactions x.1).runAt e = r at hbatch ⊢
        obtain ⟨o, e'⟩ := r
        cases o with
        | ok _ => exact hbatch.trans (congrArg (·.addTransactions x.1) hblock)
        | error f =>
          have hkept : AllOrNothing.contents e'.state = AllOrNothing.contents e.state := hbatch
          dsimp only
          rw [hkept, hblock]
          rfl

end Pipeline

end Kept

end BlockArchive
