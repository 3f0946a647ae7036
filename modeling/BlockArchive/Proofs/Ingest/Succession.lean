import BlockArchive.Proofs.Ingest.Replay
import BlockArchive.Proofs.Ingest.Reports

/-!
# Blocks one after the other

While blocks are taken in one after the other, an output is found in the cache of its block or in
the store, which may hold several records of one transaction. As long as transactions that share a
hash are the same, none of this matters: what is found is what all transactions before, and the
spending one itself, produce.

* `Transaction.Consistent` are transactions of which copies may occur, and `produced?_congr` says
  that copies produce nothing else;
* `MemoryStore.Pays` says of which transactions the outputs are found in a store;
* `settleAfter` settles transactions by what all before them and they themselves produce, whatever
  blocks they are cut into;
* `Pipeline.Settles` is what taking in blocks does between two desks: `Pipeline.take_settles` is one
  block, `Source.handOver_settles` all of them, and `Source.run_ends` a whole run;
* `Transaction.misses_iff`: which inputs are reported as not resolved.
-/

namespace BlockArchive

/-! ### What transactions produce, whatever their order -/

/-- Transactions that share a hash are the same. -/
def Transaction.Consistent (ts : List Transaction) : Prop :=
  Set.InjOn Transaction.hash {t | t ∈ ts}

theorem Transaction.Consistent.of_nodup {ts : List Transaction}
    (h : (ts.map Transaction.hash).Nodup) : Consistent ts := List.inj_on_of_nodup_map h

theorem Transaction.Consistent.mono {ts us : List Transaction} (h : Consistent us)
    (hsubset : ts ⊆ us) : Consistent ts := Set.InjOn.mono hsubset h

theorem produced?_append (pre ts : List Transaction) (source : OutPoint) :
    produced? (pre ++ ts) source = (produced? ts source).or (produced? pre source) := by
  induction ts using List.reverseRecOn with
  | nil => rw [List.append_nil, produced?_nil, Option.none_or]
  | append_singleton ts t ih =>
    rw [← List.append_assoc, produced?_concat, produced?_concat, ih]
    split
    · rename_i h
      rw [List.getElem?_eq_getElem (Transaction.produces_iff.1 h).2]
      rfl
    · rfl

/-- Among consistent transactions any that has the output has what is produced. -/
theorem produced?_eq_some_iff {ts : List Transaction} (h : Transaction.Consistent ts)
    {source : OutPoint} {p : Payment} :
    produced? ts source = some p ↔ ∃ t ∈ ts, t.hash = source.hash ∧
      (t.outputs[source.index]?).map EvaluatedOutput.payment = some p := by
  constructor
  · intro hp
    cases hfind : ts.findRev? (Transaction.produces source) with
    | none =>
      rw [produced?, hfind] at hp
      cases hp
    | some t =>
      rw [List.findRev?_eq_find?_reverse] at hfind
      have ht : t ∈ ts := List.mem_reverse.1 (List.mem_of_find?_eq_some hfind)
      have hhash := (Transaction.produces_iff.1 (List.find?_some hfind)).1
      refine ⟨t, ht, hhash, ?_⟩
      rw [← produced?_of_unique ht hhash fun u hu hu' => h hu ht (hu'.trans hhash.symm), hp]
  · rintro ⟨t, ht, hhash, hp⟩
    rw [produced?_of_unique ht hhash fun u hu hu' => h hu ht (hu'.trans hhash.symm), hp]

/-- Copies of transactions produce nothing else. -/
theorem produced?_congr {ts us : List Transaction} (hts : Transaction.Consistent ts)
    (hus : us ⊆ ts) (hts' : ts ⊆ us) : produced? us = produced? ts := by
  funext source
  refine Option.ext fun p => ?_
  rw [produced?_eq_some_iff hts, produced?_eq_some_iff (hts.mono hus)]
  exact ⟨fun ⟨t, ht, hp⟩ => ⟨t, hus ht, hp⟩, fun ⟨t, ht, hp⟩ => ⟨t, hts' ht, hp⟩⟩

theorem produced?_mono {ts us : List Transaction} (hts : Transaction.Consistent ts) (hus : us ⊆ ts)
    {source : OutPoint} {p : Payment} (h : produced? us source = some p) :
    produced? ts source = some p := by
  obtain ⟨t, ht, hp⟩ := (produced?_eq_some_iff (hts.mono hus)).1 h
  exact (produced?_eq_some_iff hts).2 ⟨t, hus ht, hp⟩

theorem produced?_eq_none_iff {ts : List Transaction} {source : OutPoint} :
    produced? ts source = none ↔ ∀ t ∈ ts, ¬ t.produces source = true := by
  induction ts using List.reverseRecOn with
  | nil => simp
  | append_singleton ts t ih =>
    rw [produced?_concat, List.forall_mem_append, List.forall_mem_singleton]
    by_cases h : t.produces source = true
    · simp [h, (Transaction.produces_iff.1 h).2]
    · simp [h, ih]

/-- What is found in the store are the outputs of some transactions, and all values are amounts. -/
structure MemoryStore.Pays (m : MemoryStore) (ts : List Transaction) : Prop where
  sound : m.Sound
  paid : m.paid? = produced? ts

theorem MemoryStore.Pays.empty {m : MemoryStore} (h : m.transactions = []) : m.Pays [] := by
  refine ⟨fun r hr => by simp [h] at hr, funext fun source => ?_⟩
  exact MemoryStore.paid?_eq_none fun r hr => by simp [h] at hr

/-- After a block the store pays what its transactions produce, too, which may have been in the
store before. -/
theorem MemoryStore.Pays.write {m : MemoryStore} {pre : List Transaction} (h : m.Pays pre)
    {b : Block} (hb : Transaction.Consistent (pre ++ b.transactions)) (r : BlockRecord)
    (policy : CoinbasePolicy) (n : Nat) :
    ((m.ask n).write r (b.records policy m.paid?)).Pays (pre ++ b.transactions) := by
  refine ⟨h.sound.write r policy _ b n, funext fun source => ?_⟩
  rw [paid?_write, paid?_ask]
  cases hfind : b.transactions.findRev? fun t => t.hash = source.hash with
  | some t =>
    rw [List.findRev?_eq_find?_reverse] at hfind
    have ht := List.mem_append_right pre (List.mem_reverse.1 (List.mem_of_find?_eq_some hfind))
    have hhash : t.hash = source.hash := by simpa using List.find?_some hfind
    rw [produced?_of_unique ht hhash fun u hu hu' => hb hu ht (hu'.trans hhash.symm)]
  | none =>
    rw [List.findRev?_eq_find?_reverse, List.find?_eq_none] at hfind
    have hother : ∀ t ∈ b.transactions, t.hash ≠ source.hash := fun t ht hhash =>
      hfind t (List.mem_reverse.2 ht) (decide_eq_true hhash)
    rw [h.paid, produced?_append, produced?_eq_none hother, Option.none_or]

/-! ### Transactions of many blocks -/

/-- The transactions of the block, each with the block. -/
def Block.own (b : Block) : List (Block × Transaction) := b.transactions.map fun t => (b, t)

@[simp] theorem Block.map_snd_own (b : Block) : b.own.map Prod.snd = b.transactions := by
  simp only [own, List.map_map, Function.comp_def, List.map_id']

@[simp] theorem Block.map_snd_flatMap_own (bs : List Block) :
    (bs.flatMap own).map Prod.snd = bs.flatMap Block.transactions := by
  simp only [List.map_flatMap, map_snd_own]

/-- Transactions settled one after the other, each by what all before it and it itself produce. -/
def settleAfter : List Transaction → List (Block × Transaction) → List (Block × Settled)
  | _, [] => []
  | pre, x :: rest =>
    (x.1, ⟨x.2, .of (produced? (pre ++ [x.2])) .empty⟩) :: settleAfter (pre ++ [x.2]) rest

theorem settleAfter_append (pre : List Transaction) (xs ys : List (Block × Transaction)) :
    settleAfter pre (xs ++ ys) =
      settleAfter pre xs ++ settleAfter (pre ++ xs.map Prod.snd) ys := by
  induction xs generalizing pre with
  | nil => rw [List.nil_append, List.map_nil, List.append_nil]; rfl
  | cons x rest ih => simp [settleAfter, ih]

theorem getElem?_settleAfter (pre : List Transaction) (xs : List (Block × Transaction)) (k : Nat) :
    (settleAfter pre xs)[k]? = (xs[k]?).map fun x =>
      (x.1, ⟨x.2, .of (produced? (pre ++ (xs.map Prod.snd).take (k + 1))) .empty⟩) := by
  induction xs generalizing pre k with
  | nil => rfl
  | cons x rest ih =>
    cases k with
    | zero => simp [settleAfter]
    | succ k => simp [settleAfter, ih]

/-- The cache of a block and what was produced before it have what all produce together. -/
theorem agree_produced (pre ts : List Transaction) :
    Agree (produced? pre) (Cache.empty.after ts) (produced? (pre ++ ts)) .empty := by
  intro source
  simp only [found, Cache.get?_after, Cache.get?_empty, Option.none_or, produced?_append]

/-- What settlements in agreement make alike is the same within a block and over all blocks. -/
theorem Block.map_settled_own {γ : Type} (f : Block → Settled → γ)
    (hf : ∀ (b : Block) (t : Transaction) {paid paid' : OutPoint → Option Payment} {c c' : Cache},
      Agree paid c paid' c' → f b ⟨t, .of paid c⟩ = f b ⟨t, .of paid' c'⟩)
    (pre : List Transaction) (b : Block) :
    (b.settled (produced? pre)).map (f b) =
      (settleAfter pre b.own).map fun x => f x.1 x.2 := by
  refine List.ext_getElem? fun k => ?_
  rw [List.getElem?_map, List.getElem?_map, settled, getElem?_settleFrom, getElem?_settleAfter,
    map_snd_own, own, List.getElem?_map]
  cases b.transactions[k]? with
  | none => rfl
  | some t => exact congrArg some (hf b t (agree_produced pre _))

/-- The rows about a block can be written if those about its transactions can, each settled by what
all before it and it itself produce. -/
theorem Block.reportable_iff (pre : List Transaction) (b : Block) :
    b.Reportable (produced? pre) ↔ ∀ x ∈ settleAfter pre b.own, x.2.Reportable := by
  have hmap := Block.map_settled_own (fun _ => Settled.Reportable)
    (fun b t _ _ _ _ h => propext (Settled.reportable_congr t h)) pre b
  have hall := congrArg (fun ps : List Prop => ∀ p ∈ ps, p) hmap
  simpa only [List.forall_mem_map, Block.Reportable] using iff_of_eq hall

/-- The records of settled transactions. -/
def settledRecords (policy : CoinbasePolicy) (xs : List (Block × Settled)) :
    List TransactionRecord :=
  xs.map fun x => x.2.record policy x.1.header.hash.display

/-- The rows that report the inputs of settled transactions that are not resolved. -/
def settledRows (xs : List (Block × Settled)) : List Row := xs.flatMap fun x => x.2.missed

/-! ### A run over memory -/

namespace Pipeline

/-- Between the desks `d` and `e` transactions of blocks are settled, over a store that pays what
others produce. -/
structure Settles (pre : List Transaction) (xs : List (Block × Transaction))
    (d e : Desk (Station MemoryStore)) : Prop where
  pays : e.state.store.Pays (pre ++ xs.map Prod.snd)
  available : e.state.store.available = d.state.store.available
  policy : e.state.pipeline.policy = d.state.pipeline.policy
  accepts : e.state.pipeline.phase.accepts = true
  transactions : e.state.store.transactions = d.state.store.transactions ++
    settledRecords d.state.pipeline.policy (settleAfter pre xs)
  wrote : d.Wrote e (settledRows (settleAfter pre xs))

theorem Settles.refl {pre : List Transaction} {d : Desk (Station MemoryStore)}
    (hpays : d.state.store.Pays pre) (hp : d.state.pipeline.phase.accepts = true) :
    Settles pre [] d d := by
  refine ⟨?_, rfl, rfl, hp, (List.append_nil _).symm, .refl d⟩
  rw [List.map_nil, List.append_nil]
  exact hpays

theorem Settles.trans {pre : List Transaction} {xs ys : List (Block × Transaction)}
    {d e f : Desk (Station MemoryStore)} (h : Settles pre xs d e)
    (h' : Settles (pre ++ xs.map Prod.snd) ys e f) : Settles pre (xs ++ ys) d f where
  pays := by
    rw [List.map_append, ← List.append_assoc]
    exact h'.pays
  available := h'.available.trans h.available
  policy := h'.policy.trans h.policy
  accepts := h'.accepts
  transactions := by
    rw [h'.transactions, h.transactions, h.policy, settleAfter_append, settledRecords,
      settledRecords, settledRecords, List.map_append, List.append_assoc]
  wrote := by
    rw [settleAfter_append, settledRows, List.flatMap_append]
    exact h.wrote.trans h'.wrote

/-- A block is taken in, and its transactions are settled, if the rows about them can be written. -/
theorem take_settles {pre : List Transaction} {d : Desk (Station MemoryStore)}
    (hpays : d.state.store.Pays pre) (hp : d.state.pipeline.phase.accepts = true) {b : Block}
    (hb : Transaction.Consistent (pre ++ b.transactions))
    (hrows : ∀ x ∈ settleAfter pre b.own, x.2.Reportable) (height : Int) :
    ((take b height).runAt d).1 = .ok () ∧
      Settles pre b.own d ((take b height).runAt d).2 := by
  obtain ⟨⟨p, m, c⟩, rows⟩ := d
  have hreportable : b.Reportable m.paid? := by
    rw [hpays.paid]
    exact (b.reportable_iff pre).2 hrows
  have hrecords : b.records p.policy m.paid? =
      settledRecords p.policy (settleAfter pre b.own) := by
    rw [Block.records, hpays.paid]
    refine Block.map_settled_own (fun b => Settled.record p.policy b.header.hash.display) ?_ _ _
    intro b t paid paid' c c' h
    simp only [Settled.record, h.inputs]
  have hmissed : ((b.settled m.paid?).flatMap Settled.rows).filter Row.isResolver =
      settledRows (settleAfter pre b.own) := by
    rw [hpays.paid, List.filter_flatMap, settledRows, List.flatMap_def, List.flatMap_def]
    simp only [Settled.filter_rows]
    exact congrArg List.flatten (Block.map_settled_own (fun _ => Settled.missed)
      (fun b t _ _ _ _ h => Settled.missed_of_agree t h) _ _)
  have hothers : [b.writtenRow height, b.durationRow height p.slowBlock c].filter Row.isResolver =
      [] := by
    have hduration : (b.durationRow height p.slowBlock c).isResolver = false := by
      rw [Row.isResolver, Block.durationRow, Clock.category_durationRow]
      rfl
    simp only [List.filter_cons, hduration]
    rfl
  rw [take_runAt hpays.sound hreportable height p hp c rows]
  refine ⟨rfl, ?_, rfl, rfl, rfl, congrArg _ hrecords, ?_⟩
  · rw [Block.map_snd_own]
    exact hpays.write hb _ _ _
  · refine ⟨(b.settled m.paid?).flatMap Settled.rows ++
      [b.writtenRow height, b.durationRow height p.slowBlock c], List.append_assoc _ _ _, ?_⟩
    rw [List.filter_append, hmissed, hothers, List.append_nil]

theorem reportable_of_take {pre : List Transaction} {d : Desk (Station MemoryStore)}
    (hpays : d.state.store.Pays pre) {b : Block} {height : Int}
    (hok : ((take b height).runAt d).1 = .ok ()) :
    ∀ x ∈ settleAfter pre b.own, x.2.Reportable := by
  obtain ⟨⟨p, m, c⟩, rows⟩ := d
  have hreportable := reportable_of_take_ok hpays.sound hok
  rw [hpays.paid] at hreportable
  exact (b.reportable_iff pre).1 hreportable

end Pipeline

namespace Source

/-- Blocks are handed over, and their transactions are settled, if the rows about them can be
written. -/
theorem handOver_settles {bs : List Block} (height : Int) {pre : List Transaction}
    {d : Desk (Station MemoryStore)} (hpays : d.state.store.Pays pre)
    (hp : d.state.pipeline.phase.accepts = true)
    (hbs : Transaction.Consistent (pre ++ bs.flatMap Block.transactions))
    (hrows : ∀ x ∈ settleAfter pre (bs.flatMap Block.own), x.2.Reportable) :
    ((handOver pipelineReceiver height bs).runAt d).1 = .ok () ∧
      Pipeline.Settles pre (bs.flatMap Block.own) d
        ((handOver pipelineReceiver height bs).runAt d).2 := by
  induction bs generalizing height pre d with
  | nil => exact ⟨rfl, .refl hpays hp⟩
  | cons b rest ih =>
    rw [List.flatMap_cons, ← List.append_assoc] at hbs
    rw [List.flatMap_cons, settleAfter_append, List.forall_mem_append, Block.map_snd_own] at hrows
    obtain ⟨htake, hfirst⟩ := Pipeline.take_settles hpays hp
      (hbs.mono (List.subset_append_left _ _)) hrows.1 height
    have hpays' := hfirst.pays
    rw [Block.map_snd_own] at hpays'
    obtain ⟨hrest, hothers⟩ := ih (height + 1) hpays' hfirst.accepts hbs hrows.2
    rw [handOver_cons_runAt rest htake]
    refine ⟨hrest, hfirst.trans ?_⟩
    rw [Block.map_snd_own]
    exact hothers

theorem reportable_of_handOver {bs : List Block} {height : Int} {pre : List Transaction}
    {d : Desk (Station MemoryStore)} (hpays : d.state.store.Pays pre)
    (hbs : Transaction.Consistent (pre ++ bs.flatMap Block.transactions))
    (hok : ((handOver pipelineReceiver height bs).runAt d).1 = .ok ()) :
    ∀ x ∈ settleAfter pre (bs.flatMap Block.own), x.2.Reportable := by
  induction bs generalizing height pre d with
  | nil => exact List.forall_mem_nil _
  | cons b rest ih =>
    obtain ⟨⟨⟩, htake, hrest⟩ := Act.runAt_bind_ok hok
    rw [List.flatMap_cons, ← List.append_assoc] at hbs
    have hfirst := Pipeline.reportable_of_take hpays htake
    have hsettles := Pipeline.take_settles hpays (Pipeline.accepts_of_take_ok htake)
      (hbs.mono (List.subset_append_left _ _)) hfirst height
    have hpays' := hsettles.2.pays
    rw [Block.map_snd_own] at hpays'
    rw [List.flatMap_cons, settleAfter_append, List.forall_mem_append, Block.map_snd_own]
    exact ⟨hfirst, ih hpays' hbs hrest⟩

/-- How a run of a source ends that began at a desk over a memory that pays what some transactions
produce: it comes about if its summary can be written, and its blocks and their transactions have
been added to the store. -/
structure Ends (s : Source) (pre : List Transaction) (d : Desk (Station MemoryStore))
    (r : Except Fault Totals × Desk (Station MemoryStore)) : Prop where
  outcome : r.1 = r.2.state.pipeline.totals.summary.map fun _ => r.2.state.pipeline.totals
  startHeight : r.2.state.pipeline.totals.startHeight = s.startHeight
  endHeight : r.2.state.pipeline.totals.endHeight = s.endHeight
  available : r.2.state.store.available = true
  pays : r.2.state.store.Pays (pre ++ s.blocks.flatMap Block.transactions)
  blocks : r.2.state.store.blocks = d.state.store.blocks ++
    s.blocks.mapIdx fun i b => .ofBlock b (.int (s.startHeight + i))
  transactions : r.2.state.store.transactions = d.state.store.transactions ++
    settledRecords d.state.pipeline.policy (settleAfter pre (s.blocks.flatMap Block.own))
  recorded : Block.Recorded s.blocks
    (settledRecords d.state.pipeline.policy (settleAfter pre (s.blocks.flatMap Block.own)))
  ledger : r.2.state.pipeline.totals.Ledger s.blocks.length
    (settledRecords d.state.pipeline.policy (settleAfter pre (s.blocks.flatMap Block.own)))
  wrote : d.Wrote r.2 (settledRows (settleAfter pre (s.blocks.flatMap Block.own)))

theorem run_ends (s : Source) {pre : List Transaction} {m : MemoryStore}
    (havailable : m.available = true) (hpays : m.Pays pre)
    (hconsistent : Transaction.Consistent (pre ++ s.blocks.flatMap Block.transactions))
    (hrows : ∀ x ∈ settleAfter pre (s.blocks.flatMap Block.own), x.2.Reportable)
    (policy : CoinbasePolicy) (w : Setting) :
    s.Ends pre (w.desk policy m) (s.run.runAt (w.desk policy m)) := by
  obtain ⟨hstart, hkept, haccepts, hledger⟩ := opened_over_memory s havailable policy w
  have hopened : (s.opened (w.desk policy m)).state.store.Pays pre := by rwa [hkept]
  obtain ⟨hhand, hsettles⟩ := handOver_settles s.startHeight hopened haccepts hconsistent hrows
  have hunderway : s.Underway s.blocks (w.desk policy m) := ⟨hstart, hhand⟩
  obtain ⟨rs, hrecorded, htold, hblocks, htransactions⟩ :=
    handOver_recorded haccepts hhand hledger
  rw [Nat.zero_add, List.nil_append] at htold
  obtain ⟨hpolicy, hstartHeight, -, -, -⟩ := hunderway.of_new
  have hpolicy' : (s.opened (w.desk policy m)).state.pipeline.policy = policy :=
    hsettles.policy.symm.trans hpolicy
  have hsettled := hsettles.transactions
  rw [hpolicy'] at hsettled
  -- what was recorded is what was settled
  obtain rfl := List.append_cancel_left (htransactions.symm.trans hsettled)
  have haccepts' := hunderway.advanced.accepts
  have houtcome := Pipeline.complete_outcome s.endHeight haccepts'
  have hstate := Pipeline.complete_state s.endHeight haccepts'
  have hwrote : (w.desk policy m).Wrote (s.run.runAt (w.desk policy m)).2
      (settledRows (settleAfter pre (s.blocks.flatMap Block.own))) := by
    have hopen := Pipeline.start_silent (.string s.coin.name) s.startHeight (w.desk policy m)
    have hclose := Pipeline.complete_silent s.endHeight (s.handed s.blocks (w.desk policy m))
    have hall := (hopen.trans hsettles.wrote).trans hclose
    rw [List.nil_append, List.append_nil, ← hunderway.run] at hall
    exact hall
  rw [← hunderway.run] at houtcome hstate
  refine ⟨?_, ?_, ?_, ?_, ?_, ?_, ?_, hrecorded, ?_, hwrote⟩ <;> rw [hstate]
  · exact houtcome
  · exact hstartHeight
  · rfl
  · refine hsettles.available.trans ?_
    rw [hkept, havailable]
  · have hpays' := hsettles.pays
    rw [Block.map_snd_flatMap_own] at hpays'
    exact hpays'
  · rw [hkept] at hblocks
    exact hblocks
  · rw [hkept] at hsettled
    exact hsettled
  · exact htold.mark _ _ _

end Source

/-- The rows of settled transactions, one for each input of any that is not resolved. -/
theorem mem_settledRows {pre : List Transaction} {xs : List (Block × Transaction)} {row : Row} :
    row ∈ settledRows (settleAfter pre xs) ↔
      ∃ (n : Nat) (t : Transaction) (j : Nat) (i : TxInput),
        (xs.map Prod.snd)[n]? = some t ∧ t.inputs[j]? = some i ∧
        (Settlement.of (produced? (pre ++ (xs.map Prod.snd).take (n + 1))) .empty
          i.source).isUnresolved = true ∧
        row = Resolution.lossRow t.hash.display j i.source := by
  simp only [settledRows, List.mem_flatMap, List.mem_iff_getElem? (l := settleAfter pre xs),
    getElem?_settleAfter, List.getElem?_map, Option.map_eq_some_iff, Settled.mem_missed]
  constructor
  · rintro ⟨_, ⟨n, x, hx, rfl⟩, j, i, hi, hunresolved, hrow⟩
    exact ⟨n, x.2, j, i, ⟨x, hx, rfl⟩, hi, hunresolved, hrow⟩
  · rintro ⟨n, _, j, i, ⟨x, hx, rfl⟩, hi, hunresolved, hrow⟩
    exact ⟨_, ⟨n, x, hx, rfl⟩, j, i, hi, hunresolved, hrow⟩

/-- Which inputs of distinct transactions are reported: those that spend an output which no
transaction so far produces. -/
theorem Transaction.misses_iff {pre : List Transaction} {xs : List (Block × Transaction)}
    {ts : List Transaction} (hmembers : xs.map Prod.snd = ts)
    (hdistinct : (ts.map Transaction.hash).Nodup) {rows : List Row}
    (hrows : rows.filter Row.isResolver = settledRows (settleAfter pre xs)) {k : Nat}
    {t : Transaction} (ht : ts[k]? = some t) {j : Nat} {i : TxInput} (hi : t.inputs[j]? = some i) :
    t.Misses rows j i ↔
      i.source.isNull = false ∧ produced? (pre ++ ts.take (k + 1)) i.source = none := by
  have hunresolved : ∀ (us : List Transaction) (source : OutPoint),
      (Settlement.of (produced? us) .empty source).isUnresolved = true ↔
        source.isNull = false ∧ produced? us source = none := by
    intro us source
    rw [Settlement.isUnresolved_of, found, Cache.get?_empty, Option.none_or]
    simp
  have hreported : t.Misses rows j i ↔
      Resolution.lossRow t.hash.display j i.source ∈ settledRows (settleAfter pre xs) := by
    rw [← hrows, List.mem_filter, Misses]
    exact (and_iff_left rfl).symm
  rw [hreported, ← hunresolved, mem_settledRows, hmembers]
  constructor
  · rintro ⟨n, u, j', i', hu, hi', hmissed, hrow⟩
    obtain ⟨hhash, rfl⟩ := Resolution.lossRow_inj hrow
    -- the transactions are distinct, so it is the same one at the same position
    have hsame : (ts.map Transaction.hash)[n]? = (ts.map Transaction.hash)[k]? := by
      rw [List.getElem?_map, List.getElem?_map, hu, ht, Option.map_some, Option.map_some,
        Hash.display_inj.1 hhash]
    have hlt : n < (ts.map Transaction.hash).length := by
      rw [List.length_map]
      exact (List.getElem?_eq_some_iff.1 hu).1
    obtain rfl := (List.getElem?_inj hlt hdistinct).1 hsame
    obtain rfl := Option.some.inj (hu.symm.trans ht)
    obtain rfl := Option.some.inj (hi'.symm.trans hi)
    exact hmissed
  · intro hmissed
    exact ⟨k, t, j, i, ht, hi, hmissed, rfl⟩

end BlockArchive
