import BlockArchive.Proofs.Ingest.History

/-!
# Where a block is cut

An output is found in the cache as long as its block is being worked on and in the store afterwards.
If the transactions of a block are new to the store and distinct, it makes no difference: cutting a
block in two leaves each input with what it was resolved to.

* `MemoryStore.paid?_write`: what is found in a store after a block has been written;
* `found` is what cache and store together have. What a settlement comes to depends on nothing
  else, up to the question which of the two had it (`Tally.outcome`);
* `Agree` says that two caches over two stores have the same, and every transaction keeps it so;
* `Pipeline.take_cut`: two runs that cut the same transactions into blocks in two ways.
-/

namespace BlockArchive

/-! ### A store after a block -/

theorem StoredTransaction.select?_kept {hash blockHash : Value} (t : Transaction) (index : Nat) :
    (⟨hash, blockHash, t.kept⟩ : StoredTransaction).select? index = t.kept[index]? := by
  -- outputs are kept in order, so each bears its own position
  have hbears : ∀ (j : Nat) (o : KeptOutput), t.kept[j]? = some o → o.index = .nat j := by
    intro j o ho
    obtain ⟨e, -, rfl⟩ : ∃ e, t.outputs[j]? = some e ∧ KeptOutput.ofOutput t.hash.display j e = o :=
      by simpa [Transaction.kept] using ho
    rfl
  cases ho : t.kept[index]? with
  | some o => simp [select?, ho, Option.filter, hbears index o ho, Value.nat, Value.equalsInt]
  | none =>
    have hnone : t.kept.find? (fun o => o.index.equalsInt index) = none := by
      refine List.find?_eq_none.2 fun o hmem hindex => ?_
      obtain ⟨j, hj⟩ := List.mem_iff_getElem?.1 hmem
      rw [hbears j o hj] at hindex
      have hj' : j = index := by
        simp only [Value.nat, Value.equalsInt, beq_iff_eq] at hindex
        exact Int.ofNat.inj hindex
      subst hj'
      rw [ho] at hj
      cases hj
    simp [select?, ho, hnone]

@[simp] theorem map_transaction_settleFrom (paid : OutPoint → Option Payment) (c : Cache)
    (ts : List Transaction) : (settleFrom paid c ts).map Settled.transaction = ts := by
  induction ts generalizing c with
  | nil => rfl
  | cons t rest ih => simp [settleFrom, ih]

/-- The records of a block found by a hash are of the transactions found by it. -/
theorem Block.findRev?_records (policy : CoinbasePolicy) (paid : OutPoint → Option Payment)
    (b : Block) (hash : Hash) :
    ((b.records policy paid).findRev? (MemoryStore.bears hash.display)).map
        TransactionRecord.outputs =
      (b.transactions.findRev? fun t => t.hash = hash).map Transaction.kept := by
  have hts : b.transactions = (b.settled paid).map Settled.transaction :=
    (map_transaction_settleFrom ..).symm
  have hbears : MemoryStore.bears hash.display ∘ Settled.record policy b.header.hash.display =
      (fun t => decide (t.hash = hash)) ∘ Settled.transaction := by
    funext s
    simp [MemoryStore.bears, Settled.record, Transaction.record, Bool.beq_eq_decide_eq]
  rw [hts]
  simp only [records, List.findRev?_eq_find?_reverse, ← List.map_reverse, List.find?_map, hbears,
    Option.map_map]
  rfl

/-- What is found in a store after a block: the last transaction of the block that has the hash,
or else what the store had before. -/
theorem MemoryStore.paid?_write (m : MemoryStore) (r : BlockRecord) (policy : CoinbasePolicy)
    (paid : OutPoint → Option Payment) (b : Block) (source : OutPoint) :
    (m.write r (b.records policy paid)).paid? source =
      match b.transactions.findRev? fun t => t.hash = source.hash with
      | some t => (t.outputs[source.index]?).map EvaluatedOutput.payment
      | none => m.paid? source := by
  have hfind := b.findRev?_records policy paid source.hash
  unfold paid?
  rw [lookup?_write]
  cases ht : b.transactions.findRev? fun t => t.hash = source.hash with
  | none =>
    rw [ht, Option.map_none, Option.map_eq_none_iff] at hfind
    rw [hfind, Option.map_none, Option.none_or]
  | some t =>
    rw [ht, Option.map_some] at hfind
    obtain ⟨s, hs, hkept⟩ := Option.map_eq_some_iff.1 hfind
    have houtput : (StoredTransaction.ofRecord s).select? source.index = t.kept[source.index]? := by
      rw [StoredTransaction.ofRecord, hkept]
      exact StoredTransaction.select?_kept t source.index
    rw [hs, Option.map_some, Option.some_or]
    simp only [Option.bind_eq_bind, Option.bind_some, houtput, Transaction.kept,
      List.getElem?_mapIdx]
    cases t.outputs[source.index]? with
    | none => rfl
    | some o => simp [Except.toOption]

/-! ### Cache and store together -/

/-- The payment that the cache has, or else the store. -/
def found (paid : OutPoint → Option Payment) (c : Cache) (source : OutPoint) : Option Payment :=
  (c.get? (.ofOutPoint source)).or (paid source)

/-- The counters in which cache and store are not told apart: inputs found, not found, and without
an output to find. -/
def Tally.outcome : Tally →+ Int × Int × Int where
  toFun t := (t.cacheHits + t.storeHits, t.unresolved, t.coinbase)
  map_zero' := rfl
  map_add' a b := by
    simp only [cacheHits_add, storeHits_add, unresolved_add, coinbase_add, Prod.mk_add_mk,
      Prod.mk.injEq, and_true]
    omega

namespace Settlement

theorem payment_of (policy : CoinbasePolicy) (paid : OutPoint → Option Payment) (c : Cache)
    (source : OutPoint) :
    (Settlement.of paid c source).payment policy =
      if source.isNull then ⟨0, .string policy.address⟩
      else (found paid c source).getD ⟨0, .string ""⟩ := by
  unfold Settlement.of found
  split
  · rfl
  · cases c.get? (.ofOutPoint source) with
    | some p => rfl
    | none => cases paid source <;> rfl

theorem outcome_of (paid : OutPoint → Option Payment) (c : Cache) (source : OutPoint) :
    Tally.outcome (Settlement.of paid c source).tally =
      if source.isNull then (0, 0, 1)
      else if (found paid c source).isSome then (1, 0, 0) else (0, 1, 0) := by
  unfold Settlement.of found
  split
  · rfl
  · cases c.get? (.ofOutPoint source) with
    | some p => rfl
    | none => cases paid source <;> rfl

end Settlement

/-- Caches over stores that have the same together. -/
def Agree (paid : OutPoint → Option Payment) (c : Cache) (paid' : OutPoint → Option Payment)
    (c' : Cache) : Prop :=
  ∀ source, found paid c source = found paid' c' source

section Agree

variable {paid paid' : OutPoint → Option Payment} {c c' : Cache}

theorem found_enter (t : Transaction) (source : OutPoint) :
    found paid (c.enter t) source =
      if source.hash = t.hash then
        ((t.outputs[source.index]?).map EvaluatedOutput.payment).or (found paid c source)
      else found paid c source := by
  simp only [found, Cache.get?_enter, OutputKey.ofOutPoint]
  split
  · rw [Option.or_assoc]
  · rfl

/-- Entering a transaction into both caches keeps them in agreement. -/
theorem Agree.enter (h : Agree paid c paid' c') (t : Transaction) :
    Agree paid (c.enter t) paid' (c'.enter t) := by
  intro source
  rw [found_enter, found_enter, h source]

/-- What caches in agreement settle alike is alike throughout a list of transactions. -/
theorem Agree.map_settleFrom {γ : Type} (f : Settled → γ)
    (hf : ∀ (t : Transaction) (c c' : Cache), Agree paid c paid' c' →
      f ⟨t, .of paid c⟩ = f ⟨t, .of paid' c'⟩)
    (h : Agree paid c paid' c') (ts : List Transaction) :
    (settleFrom paid c ts).map f = (settleFrom paid' c' ts).map f := by
  induction ts generalizing c c' with
  | nil => rfl
  | cons t rest ih =>
    have ht := h.enter t
    simp only [settleFrom, List.map_cons, hf t _ _ ht, ih ht]

theorem Agree.inputs (h : Agree paid c paid' c') (policy : CoinbasePolicy) (t : Transaction) :
    Settled.inputs policy ⟨t, .of paid c⟩ = Settled.inputs policy ⟨t, .of paid' c'⟩ := by
  simp only [Settled.inputs, Settlement.payment_of, h _]

theorem Agree.outcome (h : Agree paid c paid' c') (t : Transaction) :
    Tally.outcome (Settled.tally ⟨t, .of paid c⟩) =
      Tally.outcome (Settled.tally ⟨t, .of paid' c'⟩) := by
  simp only [Settled.tally, map_list_sum, List.map_map, Function.comp_def, Settlement.outcome_of,
    h _]

end Agree

/-! ### Distinct transactions -/

/-- A transaction that is the only one with its hash decides what is produced under it. -/
theorem produced?_of_unique {ts : List Transaction} {source : OutPoint} {t : Transaction}
    (ht : t ∈ ts) (hhash : t.hash = source.hash)
    (hunique : ∀ u ∈ ts, u.hash = source.hash → u = t) :
    produced? ts source = (t.outputs[source.index]?).map EvaluatedOutput.payment := by
  unfold produced?
  cases hp : ts.findRev? (Transaction.produces source) with
  | none =>
    rw [List.findRev?_eq_find?_reverse, List.find?_eq_none] at hp
    have hindex : ¬ source.index < t.outputs.length := fun hi =>
      hp t (List.mem_reverse.2 ht) (Transaction.produces_iff.2 ⟨hhash, hi⟩)
    simp [List.getElem?_eq_none (Nat.le_of_not_lt hindex)]
  | some t' =>
    rw [List.findRev?_eq_find?_reverse] at hp
    have hmem : t' ∈ ts := List.mem_reverse.1 (List.mem_of_find?_eq_some hp)
    have hhash' : t'.hash = source.hash := (Transaction.produces_iff.1 (List.find?_some hp)).1
    obtain rfl : t' = t := hunique t' hmem hhash'
    simp [Option.map_eq_bind]

/-- Among distinct transactions the one that has the hash decides what is produced. -/
theorem produced?_of_nodup {ts : List Transaction} (hts : (ts.map Transaction.hash).Nodup)
    {source : OutPoint} {t : Transaction} (ht : t ∈ ts) (hhash : t.hash = source.hash) :
    produced? ts source = (t.outputs[source.index]?).map EvaluatedOutput.payment :=
  produced?_of_unique ht hhash fun _ hu hhash' =>
    List.inj_on_of_nodup_map hts hu ht (hhash'.trans hhash.symm)

theorem produced?_eq_none {ts : List Transaction} {source : OutPoint}
    (h : ∀ t ∈ ts, t.hash ≠ source.hash) : produced? ts source = none := by
  have hp : ts.findRev? (Transaction.produces source) = none := by
    rw [List.findRev?_eq_find?_reverse, List.find?_eq_none]
    intro t ht hproduces
    exact h t (List.mem_reverse.1 ht) (Transaction.produces_iff.1 hproduces).1
  rw [produced?, hp]
  rfl

theorem MemoryStore.paid?_eq_none {m : MemoryStore} {source : OutPoint}
    (h : ∀ r ∈ m.transactions, r.hash ≠ .string source.hash.display) : m.paid? source = none := by
  have hr : m.transactions.findRev? (bears source.hash.display) = none := by
    rw [List.findRev?_eq_find?_reverse, List.find?_eq_none]
    intro r hr hbears
    exact h r (List.mem_reverse.1 hr) (bears_iff.1 hbears)
  rw [paid?, lookup?_eq, hr]
  rfl

/-- The transactions of a block are distinct and new to a store. -/
structure Block.FreshIn (b : Block) (m : MemoryStore) : Prop where
  /-- No two transactions have the same hash. -/
  distinct : (b.transactions.map Transaction.hash).Nodup
  /-- No transaction is in the store. -/
  unknown : ∀ t ∈ b.transactions, ∀ r ∈ m.transactions, r.hash ≠ .string t.hash.display

/-- After a fresh block the store alone has what the cache of the block and the store had. -/
theorem Block.FreshIn.agree {b : Block} {m : MemoryStore} (h : b.FreshIn m) (r : BlockRecord)
    (policy : CoinbasePolicy) (paid : OutPoint → Option Payment) (n : Nat) :
    Agree m.paid? (Cache.empty.after b.transactions)
      ((m.ask n).write r (b.records policy paid)).paid? .empty := by
  intro source
  simp only [found, Cache.get?_after, Cache.get?_empty, Option.none_or, MemoryStore.paid?_write,
    MemoryStore.paid?_ask]
  split
  · rename_i t hfind
    rw [List.findRev?_eq_find?_reverse] at hfind
    have ht : t ∈ b.transactions := List.mem_reverse.1 (List.mem_of_find?_eq_some hfind)
    have hhash : t.hash = source.hash := by simpa using List.find?_some hfind
    -- the block has the transaction, so the store had not
    have hpaid : m.paid? source = none :=
      MemoryStore.paid?_eq_none fun r hr => hhash ▸ h.unknown t ht r hr
    rw [produced?_of_nodup h.distinct ht hhash, hpaid, Option.or_none]
  · rename_i hfind
    rw [List.findRev?_eq_find?_reverse, List.find?_eq_none] at hfind
    -- the block has no such transaction, and the store is asked as before
    have hother : ∀ t ∈ b.transactions, t.hash ≠ source.hash := fun t ht hhash =>
      hfind t (List.mem_reverse.2 ht) (decide_eq_true hhash)
    rw [produced?_eq_none hother, Option.none_or]

/-! ### Two ways to cut -/

section Cut

variable {m : MemoryStore} {whole first second : Block}
  (hcut : whole.transactions = first.transactions ++ second.transactions)
  (hfresh : first.FreshIn m) (policy : CoinbasePolicy) (r : BlockRecord) (n : Nat)
include hcut hfresh

/-- Whatever caches in agreement settle alike is the same in the whole block and in its parts, the
second of which is settled over the store with the first. -/
theorem map_settled_cut {γ : Type} (f : Settled → γ)
    (hf : ∀ (paid paid' : OutPoint → Option Payment) (t : Transaction) (c c' : Cache),
      Agree paid c paid' c' → f ⟨t, .of paid c⟩ = f ⟨t, .of paid' c'⟩) :
    (whole.settled m.paid?).map f =
      (first.settled m.paid?).map f ++
        (second.settled
          ((m.ask n).write r (first.records policy m.paid?)).paid?).map f := by
  simp only [Block.settled, hcut, settleFrom_append, List.map_append]
  rw [(hfresh.agree r policy m.paid? n).map_settleFrom f (hf _ _)]

theorem map_records_cut {γ : Type} (g : TransactionRecord → γ)
    (hg : ∀ (s : TransactionRecord) (blockHash : Value), g { s with blockHash } = g s) :
    (whole.records policy m.paid?).map g =
      (first.records policy m.paid? ++
        second.records policy
          ((m.ask n).write r (first.records policy m.paid?)).paid?).map g := by
  -- what does not look at the hash of the block may take it to be empty
  have hany : ∀ hash : String, g ∘ Settled.record policy hash = g ∘ Settled.record policy "" :=
    fun hash => funext fun s => hg (s.record policy "") (.string hash)
  simp only [Block.records, List.map_append, List.map_map, hany _]
  refine map_settled_cut hcut hfresh policy r n _ ?_
  intro paid paid' t c c' h
  simp [Settled.record, h.inputs]

theorem outcome_cut :
    Tally.outcome (whole.tally m.paid?) =
      Tally.outcome (first.tally m.paid?) +
        Tally.outcome (second.tally
          ((m.ask n).write r (first.records policy m.paid?)).paid?) := by
  simp only [Block.tally, map_list_sum, List.map_map, ← List.sum_append]
  rw [map_settled_cut hcut hfresh policy r n]
  intro paid paid' t c c' h
  exact h.outcome t

end Cut

namespace MemoryStore

theorem Sound.write {m : MemoryStore} (hm : m.Sound) (r : BlockRecord) (policy : CoinbasePolicy)
    (paid : OutPoint → Option Payment) (b : Block) (n : Nat) :
    ((m.ask n).write r (b.records policy paid)).Sound := by
  intro s hs o ho
  rcases List.mem_append.1 hs with hs | hs
  · exact hm s hs o ho
  · obtain ⟨t, -, rfl⟩ := List.mem_map.1 hs
    obtain ⟨j, e, -, rfl⟩ : ∃ j e, t.transaction.outputs[j]? = some e ∧
        KeptOutput.ofOutput t.transaction.hash.display j e = o := by
      obtain ⟨j, hj⟩ := List.mem_iff_getElem?.1 ho
      refine ⟨j, ?_⟩
      simpa [Settled.record, Transaction.record, Transaction.kept] using hj
    exact ⟨e.output.value, rfl⟩

end MemoryStore

/-- Totals that agree in what was taken in and in how inputs came out, but for the question whether
an output was found in the cache or in the store. -/
structure Totals.Alike (a b : Totals) : Prop where
  /-- The numbers of transactions. -/
  transactions : a.transactions = b.transactions
  /-- The numbers of inputs. -/
  inputs : a.inputs = b.inputs
  /-- The numbers of outputs. -/
  outputs : a.outputs = b.outputs
  /-- The numbers of outputs without an address. -/
  unrecognised : a.unrecognised = b.unrecognised
  /-- The numbers of inputs that spend no output. -/
  coinbase : a.tally.coinbase = b.tally.coinbase
  /-- The numbers of inputs whose output was not found. -/
  unresolved : a.tally.unresolved = b.tally.unresolved
  /-- The numbers of inputs whose output was found. -/
  found : a.tally.cacheHits + a.tally.storeHits = b.tally.cacheHits + b.tally.storeHits

namespace Pipeline

/-- Counting a block at once comes to the same as counting it in two parts. -/
theorem count_alike {whole first second : Block} {ws fs gs : List TransactionRecord}
    {w f g : Tally} (htransactions : whole.transactions = first.transactions ++ second.transactions)
    (hinputs : ws.map TransactionRecord.inputs = (fs ++ gs).map TransactionRecord.inputs)
    (houtputs : ws.map TransactionRecord.outputs = (fs ++ gs).map TransactionRecord.outputs)
    (htally : Tally.outcome w = Tally.outcome f + Tally.outcome g) (n n₁ n₂ : Int) (t : Totals) :
    (count whole n ws w t).Alike (count second n₂ gs g (count first n₁ fs f t)) := by
  have hi : ws.flatMap TransactionRecord.inputs = (fs ++ gs).flatMap TransactionRecord.inputs := by
    rw [List.flatMap_def, hinputs, ← List.flatMap_def]
  have ho : ws.flatMap TransactionRecord.outputs =
      (fs ++ gs).flatMap TransactionRecord.outputs := by
    rw [List.flatMap_def, houtputs, ← List.flatMap_def]
  obtain ⟨hfound, hunresolved, hcoinbase⟩ :
      w.cacheHits + w.storeHits = f.cacheHits + f.storeHits + (g.cacheHits + g.storeHits) ∧
        w.unresolved = f.unresolved + g.unresolved ∧ w.coinbase = f.coinbase + g.coinbase := by
    simpa [Tally.outcome] using htally
  refine ⟨?_, ?_, ?_, ?_, ?_, ?_, ?_⟩
  · simp only [count, htransactions, List.length_append]
    omega
  · simp only [count, hi, List.flatMap_append, List.length_append]
    omega
  · simp only [count, ho, List.flatMap_append, List.length_append]
    omega
  · simp only [count, ho, unrecognisedCount, List.flatMap_append, List.countP_append]
    omega
  · simp only [count, Tally.add_eq, Tally.coinbase_add]
    omega
  · simp only [count, Tally.add_eq, Tally.unresolved_add]
    omega
  · simp only [count, Tally.add_eq, Tally.cacheHits_add, Tally.storeHits_add]
    omega

/-- **It makes no difference where a block is cut.** A block whose first transactions are distinct
and new to the store, and whose numbers can be written, is taken in at once, or in two blocks, the
second with the remaining transactions. Either way the same inputs and outputs are written,
transaction by transaction, and the totals grow alike, except that an output may be found in the
store instead of in the cache. -/
theorem take_cut {d : Desk (Station MemoryStore)} (hstore : d.state.store.Sound)
    (hp : d.state.pipeline.phase.accepts = true) {whole first second : Block}
    (hcut : whole.transactions = first.transactions ++ second.transactions)
    (hfresh : first.FreshIn d.state.store) (hshow : ∀ t ∈ whole.transactions, t.Showable)
    (n n₁ n₂ : Int) :
    let once := (take whole n).runAt d
    let begun := (take first n₁).runAt d
    let twice := (take second n₂).runAt begun.2
    (once.1 = .ok () ∧ begun.1 = .ok () ∧ twice.1 = .ok ()) ∧
    (∃ ws us, once.2.state.store.transactions = d.state.store.transactions ++ ws ∧
      twice.2.state.store.transactions = d.state.store.transactions ++ us ∧
      ws.length = whole.transactions.length ∧
      ws.map TransactionRecord.hash = us.map TransactionRecord.hash ∧
      ws.map TransactionRecord.inputs = us.map TransactionRecord.inputs ∧
      ws.map TransactionRecord.outputs = us.map TransactionRecord.outputs) ∧
    once.2.state.pipeline.totals.Alike twice.2.state.pipeline.totals := by
  obtain ⟨⟨p, m, c⟩, rows⟩ := d
  -- the second part is settled over the store with the first part in it
  let r := BlockRecord.ofBlock first (.int n₁)
  let k := first.asked m.paid?
  have hbegun := hstore.write r p.policy m.paid? first k
  have hrecords := fun {γ : Type} (g : TransactionRecord → γ) hg =>
    map_records_cut hcut hfresh p.policy r k g hg
  have hshow' : ∀ t ∈ first.transactions ++ second.transactions, t.Showable := hcut ▸ hshow
  have hone : first.Reportable m.paid? :=
    Block.reportable_of_showable (fun t ht => hshow' t (List.mem_append_left _ ht)) _
  have htwo := Block.reportable_of_showable fun t ht => hshow' t (List.mem_append_right _ ht)
  intro once begun twice
  have honce : once = _ := take_runAt hstore (Block.reportable_of_showable hshow _) n p hp c rows
  have htwice : twice = (take second n₂).runAt ((take first n₁).runAt ⟨⟨p, m, c⟩, rows⟩).2 := rfl
  rw [take_runAt hstore hone n₁ p hp c rows, take_runAt hbegun (htwo _) n₂ _ rfl] at htwice
  rw [honce, htwice]
  refine ⟨⟨rfl, ?_, rfl⟩, ⟨whole.records p.policy m.paid?, _, rfl, List.append_assoc .., ?_⟩, ?_⟩
  · exact congrArg Prod.fst (take_runAt hstore hone n₁ p hp c rows)
  · exact ⟨whole.length_records .., hrecords _ fun _ _ => rfl, hrecords _ fun _ _ => rfl,
      hrecords _ fun _ _ => rfl⟩
  · exact count_alike hcut (hrecords _ fun _ _ => rfl) (hrecords _ fun _ _ => rfl)
      (outcome_cut hcut hfresh p.policy r k) n n₁ n₂ p.totals

/-- A payment across the cut: the output that the second block spends is in the cache if both are
one block, and in the store if they are two. -/
theorem take_cut_hops :
    let a := Hash.repeated 1
    let b := Hash.repeated 2
    let c := Hash.repeated 3
    let d := ready [minted a 5 "first"]
    let first := Transaction.hop b ⟨a, 0⟩ 4 "second"
    let second := Transaction.hop c ⟨b, 0⟩ 3 "third"
    ((take (.holding [first, second]) 7).runAt d).2.state.pipeline.totals.Alike
      ((take (.holding [second]) 8).runAt
        ((take (.holding [first]) 7).runAt d).2).2.state.pipeline.totals := by
  intro a b c d first second
  have hfresh : (Block.holding [first]).FreshIn d.state.store := by
    refine ⟨List.nodup_singleton _, ?_⟩
    intro t ht r hr
    obtain rfl := List.mem_singleton.1 ht
    obtain rfl := List.mem_singleton.1 hr
    have hab : a ≠ b := by decide
    simpa [minted, Transaction.record, first, Transaction.hop] using hab
  have hcut : (Block.holding [first, second]).transactions =
      (Block.holding [first]).transactions ++ (Block.holding [second]).transactions := rfl
  have hshow : ∀ t ∈ (Block.holding [first, second]).transactions, t.Showable := by
    intro t ht
    simp only [Block.holding, List.mem_cons, List.not_mem_nil, or_false] at ht
    obtain rfl | rfl := ht <;> exact Transaction.showable_hop (by decide +kernel)
  obtain ⟨-, -, htotals⟩ :=
    take_cut (d := d) (sound_minted a 5 "first") rfl hcut hfresh hshow 7 7 8
  exact htotals

end Pipeline

end BlockArchive
