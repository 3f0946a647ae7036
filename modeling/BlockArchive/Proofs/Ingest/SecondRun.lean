import BlockArchive.Proofs.Ingest.Lossless
import BlockArchive.Proofs.Ingest.Succession

/-!
# A source that is run again

Nothing keeps a source from being run twice into one store, which then holds everything twice. While
the second run is underway a look-up may find the record of either run. If the transactions are
distinct this makes no difference, and all of them can be found from the start, also those that the
first run had not come to yet when their outputs were spent.

* `Transaction.Again` compares the two records of a transaction, input by input;
* `Transaction.again_of_settled` compares two settlements of one transaction, and
  `Transaction.again_of_settleAfter` those of all;
* `Source.Ends.ok_of_ok`: where one run comes to its end, so does the other;
* `Source.run_again` says that the second of two runs loses nothing and finds all that there is.
-/

namespace BlockArchive

/-! ### A transaction that is recorded again -/

/-- A transaction is recorded a second time. By the first run, which wrote some rows, `r` was
recorded of it, by the second `r'`, among the transactions `ts` of both; the transactions up to it
are `before`. -/
structure Transaction.Again (ts before : List Transaction) (rows rows' : List Row) (t : Transaction)
    (r r' : TransactionRecord) : Prop where
  /-- But for payments of inputs the records are the same. -/
  unpaid : r'.unpaid = r.unpaid
  /-- An input that was resolved is, and as it was. -/
  kept : ∀ (j : Nat) i, t.inputs[j]? = some i → ¬ t.Misses rows j i →
    ¬ t.Misses rows' j i ∧ r'.inputs[j]? = r.inputs[j]?
  /-- One that was not is where there is a transaction that has the output. -/
  found : ∀ (j : Nat) i, t.inputs[j]? = some i → t.Misses rows j i →
    (¬ t.Misses rows' j i ↔ ∃ u ∈ ts, u.hash = i.source.hash ∧ i.source.index < u.outputs.length)
  /-- Such a transaction comes later. -/
  later : ∀ (j : Nat) i, t.inputs[j]? = some i → t.Misses rows j i →
    ∀ u ∈ before, u.hash = i.source.hash → u.outputs.length ≤ i.source.index
  /-- The input gets value and address of the output. -/
  paid : ∀ (j : Nat) i, t.inputs[j]? = some i → t.Misses rows j i →
    ∀ u ∈ ts, u.hash = i.source.hash → ∀ o, u.outputs[i.source.index]? = some o →
      ∃ q, r'.inputs[j]? = some q ∧ q.value = .nat o.output.value.toNat ∧
        q.address = o.evaluation.keptAddress

theorem Settled.unpaid_record (policy : CoinbasePolicy) (blockHash : String) (t : Transaction)
    (w w' : OutPoint → Settlement) :
    (record policy blockHash ⟨t, w⟩).unpaid = (record policy blockHash ⟨t, w'⟩).unpaid := by
  have hinputs : (inputs policy ⟨t, w⟩).map ResolvedInput.unpaid =
      (inputs policy ⟨t, w'⟩).map ResolvedInput.unpaid := by
    refine List.ext_getElem? fun j => ?_
    rw [List.getElem?_map, List.getElem?_map, getElem?_inputs, getElem?_inputs]
    cases t.inputs[j]? <;> rfl
  simp only [record, Transaction.record, TransactionRecord.unpaid, hinputs]

/-- The input at a position of a transaction that is settled by what others produce. -/
theorem Settled.getElem?_produced (policy : CoinbasePolicy) (blockHash : String) {t : Transaction}
    (ts : List Transaction) {j : Nat} {i : TxInput} (hi : t.inputs[j]? = some i) :
    (record policy blockHash ⟨t, .of (produced? ts) .empty⟩).inputs[j]? =
      some (Resolution.record t.hash.display j i
        (if i.source.isNull then ⟨0, .string policy.address⟩
          else (produced? ts i.source).getD ⟨0, .string ""⟩)) := by
  refine (getElem?_inputs policy ⟨t, .of (produced? ts) .empty⟩ j).trans ?_
  rw [hi, Option.map_some, Settlement.payment_of, found, Cache.get?_empty, Option.none_or]

/-- A transaction that is settled by what those up to it produce, and again by what all produce. -/
theorem Transaction.again_of_settled {ts before : List Transaction}
    (hts : Transaction.Consistent ts) (hbefore : before ⊆ ts) {rows rows' : List Row}
    {t : Transaction}
    (hmisses : ∀ (j : Nat) i, t.inputs[j]? = some i →
      (t.Misses rows j i ↔ i.source.isNull = false ∧ produced? before i.source = none))
    (hmisses' : ∀ (j : Nat) i, t.inputs[j]? = some i →
      (t.Misses rows' j i ↔ i.source.isNull = false ∧ produced? ts i.source = none))
    (policy : CoinbasePolicy) (blockHash : String) :
    t.Again ts before rows rows'
      (Settled.record policy blockHash ⟨t, .of (produced? before) .empty⟩)
      (Settled.record policy blockHash ⟨t, .of (produced? ts) .empty⟩) := by
  refine ⟨Settled.unpaid_record .., ?_, ?_, ?_, ?_⟩
  · intro j i hi hresolved
    rw [hmisses j i hi] at hresolved
    rw [hmisses' j i hi, Settled.getElem?_produced policy blockHash ts hi,
      Settled.getElem?_produced policy blockHash before hi]
    cases hnull : i.source.isNull with
    | true => simp
    | false =>
      cases hp : produced? before i.source with
      | none => exact absurd ⟨hnull, hp⟩ hresolved
      | some p => simp [produced?_mono hts hbefore hp]
  · intro j i hi hmissed
    rw [hmisses j i hi] at hmissed
    rw [hmisses' j i hi, produced?_eq_none_iff]
    simp only [hmissed.1, true_and, not_forall, not_not, Transaction.produces_iff, exists_prop]
  · intro j i hi hmissed u hu hhash
    rw [hmisses j i hi, produced?_eq_none_iff] at hmissed
    refine Nat.le_of_not_lt fun hindex => hmissed.2 u hu ?_
    exact Transaction.produces_iff.2 ⟨hhash, hindex⟩
  · intro j i hi hmissed u hu hhash o ho
    rw [hmisses j i hi] at hmissed
    have hp : produced? ts i.source = some o.payment :=
      (produced?_eq_some_iff hts).2 ⟨u, hu, hhash, by rw [ho]; rfl⟩
    refine ⟨_, Settled.getElem?_produced policy blockHash ts hi, ?_, ?_⟩
    · rw [hmissed.1, hp]
      rfl
    · rw [hmissed.1, hp]
      rfl

/-- Transactions that are settled first by themselves and then again behind themselves. -/
theorem Transaction.again_of_settleAfter {xs : List (Block × Transaction)} {ts : List Transaction}
    (hmembers : xs.map Prod.snd = ts) (hdistinct : (ts.map Transaction.hash).Nodup)
    {rows rows' : List Row} (hrows : rows.filter Row.isResolver = settledRows (settleAfter [] xs))
    (hrows' : rows'.filter Row.isResolver = settledRows (settleAfter ts xs))
    {policy : CoinbasePolicy} {k : Nat} {t : Transaction} {r r' : TransactionRecord}
    (ht : ts[k]? = some t) (hr : (settledRecords policy (settleAfter [] xs))[k]? = some r)
    (hr' : (settledRecords policy (settleAfter ts xs))[k]? = some r') :
    t.Again ts (ts.take (k + 1)) rows rows' r r' := by
  have hts : Consistent ts := .of_nodup hdistinct
  have hbefore : ts.take (k + 1) ⊆ ts := List.take_subset _ _
  -- what is there twice produces nothing else
  have hcopies : produced? (ts ++ ts.take (k + 1)) = produced? ts :=
    produced?_congr hts (List.append_subset.2 ⟨List.Subset.refl _, hbefore⟩)
      (List.subset_append_left _ _)
  have hmisses : ∀ (j : Nat) i, t.inputs[j]? = some i →
      (t.Misses rows j i ↔
        i.source.isNull = false ∧ produced? (ts.take (k + 1)) i.source = none) :=
    fun j i hi => misses_iff hmembers hdistinct hrows ht hi
  have hmisses' : ∀ (j : Nat) i, t.inputs[j]? = some i →
      (t.Misses rows' j i ↔ i.source.isNull = false ∧ produced? ts i.source = none) := by
    intro j i hi
    rw [misses_iff hmembers hdistinct hrows' ht hi, hcopies]
  rw [← hmembers, List.getElem?_map] at ht
  obtain ⟨x, hx, rfl⟩ := Option.map_eq_some_iff.1 ht
  rw [settledRecords, List.getElem?_map, getElem?_settleAfter, hmembers, hx, Option.map_some,
    Option.map_some, Option.some.injEq] at hr hr'
  rw [hcopies] at hr'
  subst hr hr'
  exact again_of_settled hts hbefore hmisses hmisses' policy x.1.header.hash.display

/-- What could be told of the first settlements can be told of the second: no input is left
unresolved that was resolved. -/
theorem reportable_of_settleAfter {xs : List (Block × Transaction)}
    (h : ∀ x ∈ settleAfter [] xs, x.2.Reportable) (pre : List Transaction) :
    ∀ x ∈ settleAfter pre xs, x.2.Reportable := by
  intro y hy
  obtain ⟨k, hk⟩ := List.mem_iff_getElem?.1 hy
  rw [getElem?_settleAfter] at hk
  obtain ⟨x, hx, rfl⟩ := Option.map_eq_some_iff.1 hk
  have hfirst := h _ (List.mem_of_getElem? (i := k) (by rw [getElem?_settleAfter, hx]; rfl))
  refine ⟨hfirst.outputs, fun i hi hw => hfirst.inputs i hi ?_⟩
  rw [← Settlement.isUnresolved_iff, Settlement.isUnresolved_of, found, Cache.get?_empty,
    Option.none_or, Bool.and_eq_true, Option.isNone_iff_eq_none, produced?_eq_none_iff] at hw ⊢
  exact ⟨hw.1, fun t ht => hw.2 t (List.mem_append_right pre ht)⟩

/-! ### The second run -/

theorem Totals.short_of_summary_ok {t : Totals} {text : String} (h : t.summary = .ok text) :
    ∀ n ∈ [t.blocks, t.startHeight, t.endHeight, t.transactions, t.inputs, t.outputs,
      t.tally.unresolved], Document.isTooLong n = false := by
  rw [summary] at h
  split at h
  · cases h
  · rename_i hall
    intro n hn
    exact Bool.eq_false_iff.2 (List.any_eq_false.1 (Bool.eq_false_iff.2 hall) n hn)

/-- Two runs over the same blocks from the same height have summaries that can be written, if one
has: they differ only in how many inputs are not resolved. -/
theorem Totals.Ledger.summary_ok {bs : List Block} {t t' : Totals}
    {rs rs' : List TransactionRecord} (h : t.Ledger bs.length rs) (hrs : Block.Recorded bs rs)
    (h' : t'.Ledger bs.length rs') (hrs' : Block.Recorded bs rs')
    (hstart : t'.startHeight = t.startHeight) (hend : t'.endHeight = t.endHeight) {text : String}
    (htext : t.summary = .ok text) : ∃ text', t'.summary = .ok text' := by
  obtain ⟨hlength, hinputs, houtputs⟩ := hrs.counts
  obtain ⟨hlength', hinputs', houtputs'⟩ := hrs'.counts
  have hshort := Totals.short_of_summary_ok htext
  obtain ⟨unresolved, hunresolved⟩ := Int.eq_ofNat_of_zero_le h'.bounds.1
  have hle := h'.bounds.2
  refine Totals.summary_ok ?_
  rw [h'.inputs, hinputs'] at hle
  rw [h.blocks, h.transactions, h.inputs, h.outputs, hlength, hinputs, houtputs] at hshort
  rw [hunresolved] at hle ⊢
  rw [h'.blocks, hstart, hend, h'.transactions, h'.inputs, h'.outputs, hlength', hinputs',
    houtputs']
  simp only [List.forall_mem_cons] at hshort ⊢
  obtain ⟨hblocks, hfirst, hlast, htransactions, hin, hout, -, -⟩ := hshort
  exact ⟨hblocks, hfirst, hlast, htransactions, hin, hout,
    Document.isTooLong_of_le hin (Int.ofNat_le.1 hle), nofun⟩

namespace Source

theorem available_of_start {coinName : Value} {height : Int} {d : Desk (Station MemoryStore)}
    (h : ((Pipeline.start coinName height).runAt d).1 = .ok ()) :
    d.state.store.available = true := by
  obtain ⟨_, rows, -, hprobe, -⟩ := Pipeline.start_ok h
  cases havailable : d.state.store.available with
  | true => rfl
  | false => simp [Store.probe, havailable] at hprobe

/-- Where one run of a source comes to its end, so does any other. -/
theorem Ends.ok_of_ok {s : Source} {pre pre' : List Transaction}
    {d d' : Desk (Station MemoryStore)} {r r' : Except Fault Totals × Desk (Station MemoryStore)}
    (h : s.Ends pre d r) (h' : s.Ends pre' d' r') {t : Totals} (hok : r.1 = .ok t) :
    ∃ t', r'.1 = .ok t' := by
  have houtcome := h.outcome
  rw [hok] at houtcome
  cases hsummary : r.2.state.pipeline.totals.summary with
  | error f =>
    rw [hsummary] at houtcome
    cases houtcome
  | ok text =>
    obtain ⟨text', hsummary'⟩ := h.ledger.summary_ok h.recorded h'.ledger h'.recorded
      (h'.startHeight.trans h.startHeight.symm) (h'.endHeight.trans h.endHeight.symm) hsummary
    refine ⟨r'.2.state.pipeline.totals, ?_⟩
    rw [h'.outcome, hsummary']
    rfl

/-- **A second run loses nothing and finds all that there is.** Let the transactions of a source be
distinct, and let it be run to its end over an empty memory, and again by another pipeline of the
same policy over the store that is left. Then the second run comes to its end, too, and adds the
same blocks once more, and of each transaction a record that differs at most in what those of its
inputs are paid that were not resolved at first. Such an input is resolved now exactly if some
transaction of the source has the output that it spends, and gets what this one pays. -/
theorem run_again {s : Source}
    (hdistinct : ((s.blocks.flatMap Block.transactions).map Transaction.hash).Nodup)
    {m : MemoryStore} (hempty : AllOrNothing.contents m = ⟨[], []⟩) (policy : CoinbasePolicy)
    (w w' : Setting) {totals : Totals}
    (hfirst : (s.run.runAt (w.desk policy m)).1 = .ok totals) :
    let ts := s.blocks.flatMap Block.transactions
    let bs := s.blocks.mapIdx fun i b => BlockRecord.ofBlock b (.int (s.startHeight + i))
    let first := (s.run.runAt (w.desk policy m)).2
    let second := s.run.runAt (w'.desk policy first.state.store)
    ∃ totals' rs rs' rows rows',
      second.1 = .ok totals' ∧
      AllOrNothing.contents first.state.store = ⟨bs, rs⟩ ∧
      AllOrNothing.contents second.2.state.store = ⟨bs ++ bs, rs ++ rs'⟩ ∧
      first.rows = w.rows ++ rows ∧ second.2.rows = w'.rows ++ rows' ∧
      Block.Recorded s.blocks rs ∧ Block.Recorded s.blocks rs' ∧
      ∀ (k : Nat) t r r', ts[k]? = some t → rs[k]? = some r → rs'[k]? = some r' →
        t.Again ts (ts.take (k + 1)) rows rows' r r' := by
  intro ts bs first second
  have hconsistent : Transaction.Consistent ts := .of_nodup hdistinct
  obtain ⟨hblocks, htransactions⟩ := Contents.mk.inj hempty
  have hrun := run_ok hfirst
  have havailable : m.available = true := available_of_start hrun.start
  obtain ⟨-, hkept, -, -⟩ := opened_over_memory s havailable policy w
  have hopened : (s.opened (w.desk policy m)).state.store.Pays [] := by
    rw [hkept]
    exact .empty htransactions
  have htold := reportable_of_handOver hopened (by rwa [List.nil_append]) hrun.handOver
  have hends :=
    s.run_ends havailable (.empty htransactions) (by rwa [List.nil_append]) htold policy w
  have hpays := hends.pays
  rw [List.nil_append] at hpays
  have htwice : ts ++ ts ⊆ ts := List.append_subset.2 ⟨List.Subset.refl _, List.Subset.refl _⟩
  have hends' := s.run_ends hends.available hpays (hconsistent.mono htwice)
    (reportable_of_settleAfter htold ts) policy w'
  obtain ⟨rows, hrows, hreported⟩ := hends.wrote
  obtain ⟨rows', hrows', hreported'⟩ := hends'.wrote
  obtain ⟨totals', hsecond⟩ := hends.ok_of_ok hends' hfirst
  have hbs : first.state.store.blocks = bs := by
    rw [hends.blocks]
    exact congrArg (· ++ bs) hblocks
  have hrs : first.state.store.transactions =
      settledRecords policy (settleAfter [] (s.blocks.flatMap Block.own)) := by
    rw [hends.transactions]
    exact congrArg (· ++ _) htransactions
  refine ⟨totals', _, _, rows, rows', hsecond, congrArg₂ Contents.mk hbs hrs, ?_, hrows, hrows',
    hends.recorded, hends'.recorded, ?_⟩
  · refine congrArg₂ Contents.mk (hends'.blocks.trans ?_) (hends'.transactions.trans ?_)
    · exact congrArg (· ++ bs) hbs
    · exact congrArg (· ++ _) hrs
  · intro k t r r' ht hr hr'
    exact Transaction.again_of_settleAfter (Block.map_snd_flatMap_own s.blocks) hdistinct hreported
      hreported' ht hr hr'

/-- Two blocks, the first of which spends what only the second pays. -/
def reversed : Source :=
  let a := Hash.repeated 1
  ⟨.bitcoin, 7, [.holding [.hop (.repeated 2) ⟨a, 0⟩ 4 "second"],
    .holding [.hop a ⟨.null, 0⟩ 5 "first"]]⟩

/-- The second run finds the payment that the first could not know of. -/
theorem run_again_reversed :
    let w : Setting := ⟨0, .whole 0, ⟨.whole 0, []⟩, []⟩
    let m : MemoryStore := {}
    let ts := reversed.blocks.flatMap Block.transactions
    let first := reversed.run.runAt (w.desk .sentinel m)
    let second := reversed.run.runAt (w.desk .sentinel first.2.state.store)
    ((ts.map Transaction.hash).Nodup ∧ AllOrNothing.contents m = ⟨[], []⟩ ∧
        first.1 = .ok first.2.state.pipeline.totals) ∧
      (∃ totals', second.1 = .ok totals') ∧
      (∃ r₁ r₂ r₁' r₂', second.2.state.store.transactions = [r₁, r₂, r₁', r₂'] ∧
        r₁'.unpaid = r₁.unpaid ∧ r₂'.unpaid = r₂.unpaid) ∧
      ((second.2.state.store.transactions.flatMap TransactionRecord.inputs).map fun i =>
        i.value.equalsInt 5) = [false, false, true, false] := by
  intro w m
  dsimp only
  have hdistinct : ((reversed.blocks.flatMap Block.transactions).map Transaction.hash).Nodup := by
    decide +kernel
  have hprintable : reversed.Printable :=
    ⟨by decide +kernel, by decide +kernel, by decide +kernel, by decide +kernel⟩
  have hshow : ∀ b ∈ reversed.blocks, ∀ t ∈ b.transactions, t.Showable := by
    simp only [reversed, Block.holding, List.forall_mem_cons]
    exact ⟨⟨Transaction.showable_hop (by decide +kernel), List.forall_mem_nil _⟩,
      ⟨Transaction.showable_hop (by decide +kernel), List.forall_mem_nil _⟩, List.forall_mem_nil _⟩
  have hfinished := run_over_memory hprintable hshow (m := m) rfl .empty .sentinel w
  dsimp only at hfinished
  have hfirst := hfinished.outcome
  obtain ⟨totals', rs, rs', rows, rows', hsecond, -, hcontents, -, -, hrecorded, hrecorded',
    hagain⟩ := run_again hdistinct (m := m) rfl .sentinel w w hfirst
  obtain ⟨r₁, r₂, rfl⟩ := List.length_eq_two.1 hrecorded.counts.1
  obtain ⟨r₁', r₂', rfl⟩ := List.length_eq_two.1 hrecorded'.counts.1
  refine ⟨⟨hdistinct, rfl, hfirst⟩, ⟨totals', hsecond⟩, ⟨r₁, r₂, r₁', r₂', ?_, ?_, ?_⟩, ?_⟩
  · exact (Contents.mk.inj hcontents).2
  · exact (hagain 0 _ r₁ r₁' rfl rfl rfl).unpaid
  · exact (hagain 1 _ r₂ r₂' rfl rfl rfl).unpaid
  · decide +kernel

end Source

end BlockArchive
