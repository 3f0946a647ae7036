import BlockArchive.Proofs.Ingest.Settlement

/-!
# Inputs against the history

What an input is owed can be read off the history, without cache, keys or counters: look through
the block backwards from the spending transaction, then through the archive backwards from its last
record. Taking in a block writes exactly that into its inputs.

* `owed` reads the history;
* `Settlement.owed_of` is its agreement with how a block settles an input, for which the cache after
  a part of a block must hold what that part produced (`Cache.get?_after`);
* `Pipeline.take_inputs_owed` says so of every input that is written.
-/

namespace BlockArchive

@[simp] theorem Evaluation.keptAddress_null (pattern : Value) :
    (⟨.null, pattern⟩ : Evaluation).keptAddress = .string "" := rfl

@[simp] theorem Evaluation.keptAddress_string (s : String) (pattern : Value) :
    (⟨.string s, pattern⟩ : Evaluation).keptAddress = .string s := by
  by_cases h : s = "" <;> simp [keptAddress, Value.isTruthy, h]

/-! ### Reading the history -/

/-- The payment in the archive of the output referred to: the last record of the transaction counts,
even if it has no such output. -/
def archived? (records : List TransactionRecord) (source : OutPoint) :
    Except Fault (Option Payment) :=
  match records.findRev? (MemoryStore.bears source.hash.display) with
  | some r => (StoredTransaction.ofRecord r).output source.index
  | none => .ok none

/-- What an input is owed by the archive and by the transactions of its block up to its own. -/
def owed (policy : CoinbasePolicy) (archive : List TransactionRecord) (block : List Transaction)
    (source : OutPoint) : Except Fault Payment :=
  if source.hash = Hash.null then .ok ⟨0, .string policy.address⟩
  else match produced? block source with
    | some p => .ok p
    | none => return (← archived? archive source).getD ⟨0, .string ""⟩

/-! ### Agreement -/

theorem MemoryStore.Sound.archived?_eq {m : MemoryStore} (hm : m.Sound) (source : OutPoint) :
    archived? m.transactions source = .ok (m.paid? source) := by
  unfold archived?
  cases hr : m.transactions.findRev? (bears source.hash.display) with
  | none =>
    have hlookup : m.lookup? source.hash.display = none := by simp only [lookup?_eq, hr]; rfl
    rw [paid?_of_not_found hlookup]
  | some r =>
    have hlookup : m.lookup? source.hash.display = some (.ofRecord r) := by
      simp only [lookup?_eq, hr]; rfl
    exact hm.output_paid? hlookup

/-- An input is settled with what it is owed. -/
theorem Settlement.owed_of {m : MemoryStore} (hm : m.Sound) (policy : CoinbasePolicy)
    (block : List Transaction) (source : OutPoint) :
    owed policy m.transactions block source =
      .ok ((Settlement.of m.paid? (Cache.empty.after block) source).payment policy) := by
  by_cases hnull : source.hash = Hash.null
  · simp [owed, Settlement.of, OutPoint.isNull, hnull, Settlement.payment]
  · simp only [owed, Settlement.of, OutPoint.isNull, beq_iff_eq, hnull, ↓reduceIte,
      Cache.get?_after, hm.archived?_eq]
    cases produced? block source with
    | some p => rfl
    | none => cases m.paid? source <;> rfl

namespace Settled

theorem length_inputs (policy : CoinbasePolicy) (s : Settled) :
    (s.inputs policy).length = s.transaction.inputs.length := by
  simp [inputs]

theorem getElem?_inputs (policy : CoinbasePolicy) (s : Settled) (j : Nat) :
    (s.inputs policy)[j]? = (s.transaction.inputs[j]?).map fun i =>
      Resolution.record s.transaction.hash.display j i ((s.settle i.source).payment policy) := by
  simp [inputs]

end Settled

/-- Each record of a block is of the transaction at its position, settled by the cache after the
transactions up to it. -/
theorem Block.getElem?_records (policy : CoinbasePolicy) (paid : OutPoint → Option Payment)
    (b : Block) (k : Nat) :
    (b.records policy paid)[k]? = (b.transactions[k]?).map fun t =>
      Settled.record policy b.header.hash.display
        ⟨t, .of paid (Cache.empty.after (b.transactions.take (k + 1)))⟩ := by
  simp [records, settled, getElem?_settleFrom, Function.comp_def]

namespace Pipeline

/-- Over a sound store no block fails that comes in time and whose rows can be written. -/
theorem take_ok {d : Desk (Station MemoryStore)} (hstore : d.state.store.Sound)
    (hp : d.state.pipeline.phase.accepts = true) {b : Block}
    (hb : b.Reportable d.state.store.paid?) (height : Int) :
    ((take b height).runAt d).1 = .ok () := by
  obtain ⟨⟨p, m, c⟩, rows⟩ := d
  rw [take_runAt hstore hb height p hp c rows]

/-- **Every input that is written has what it is owed.** The records that a block adds to a sound
store are those of its transactions in order, and each input has value and address of what the
history owes it: the archive as it was before the block, and the block up to the transaction of the
input. -/
theorem take_inputs_owed {d : Desk (Station MemoryStore)} (hstore : d.state.store.Sound)
    {b : Block} {height : Int} (hok : ((take b height).runAt d).1 = .ok ()) :
    ∃ written,
      ((take b height).runAt d).2.state.store.transactions =
        d.state.store.transactions ++ written ∧
      written.length = b.transactions.length ∧
      ∀ (k : Nat) t r, b.transactions[k]? = some t → written[k]? = some r →
        r.hash = .string t.hash.display ∧
        r.inputs.length = t.inputs.length ∧
        ∀ (j : Nat) i q, t.inputs[j]? = some i → r.inputs[j]? = some q →
          ∃ p, owed d.state.pipeline.policy d.state.store.transactions
              (b.transactions.take (k + 1)) i.source = .ok p ∧
            q.value = .nat p.value.toNat ∧ q.address = p.address := by
  obtain ⟨⟨p, m, c⟩, rows⟩ := d
  have hphase : p.phase.accepts = true := accepts_of_take_ok hok
  have hb := reportable_of_take_ok hstore hok
  refine ⟨b.records p.policy m.paid?, ?_, b.length_records .., ?_⟩
  · rw [take_runAt hstore hb height p hphase c rows]
    rfl
  · intro k t r ht hr
    rw [b.getElem?_records, ht] at hr
    obtain rfl := Option.some.inj hr
    refine ⟨rfl, Settled.length_inputs .., ?_⟩
    intro j i q hi hq
    -- settled by the cache after the transactions up to this one, which is what they produced
    have hq' := Settled.getElem?_inputs p.policy
      ⟨t, .of m.paid? (Cache.empty.after (b.transactions.take (k + 1)))⟩ j
    simp only [hi, Option.map_some] at hq'
    obtain rfl := Option.some.inj (hq.symm.trans hq')
    exact ⟨_, Settlement.owed_of hstore p.policy _ i.source, rfl, rfl⟩

end Pipeline

/-! ### A chain of payments -/

/-- The hash of 32 equal bytes. -/
def Hash.repeated (b : UInt8) : Hash := ⟨List.replicate hashSize b, by simp⟩

/-- A transaction that spends one output and has one. -/
def Transaction.hop (hash : Hash) (source : OutPoint) (value : UInt64) (address : String) :
    Transaction where
  hash := hash
  version := 1
  locktime := 0
  inputs := [⟨source, [], 0⟩]
  outputs := [⟨⟨value, []⟩, ⟨.string address, .null⟩⟩]

theorem Transaction.showable_hop {hash : Hash} {source : OutPoint} {value : UInt64}
    {address : String} (h : Document.isTooLong source.index = false) :
    (hop hash source value address).Showable := by
  refine ⟨fun i hi => ?_, fun o ho => ?_⟩
  · obtain rfl := List.mem_singleton.1 hi
    exact h
  · obtain rfl := List.mem_singleton.1 ho
    rfl

/-- A block of transactions. -/
def Block.holding (ts : List Transaction) : Block where
  header := ⟨.repeated 9, 1, .repeated 8, .repeated 7, 0, 0, 0⟩
  size := 0
  transactions := ts

namespace Pipeline

/-- A desk at which blocks are taken, over a store of transactions. -/
def ready (records : List TransactionRecord) : Desk (Station MemoryStore) where
  state := {
    pipeline := { idle .sentinel 0 (.whole 0) with phase := .connected }
    store := .holding records
    clock := ⟨.whole 0, []⟩ }
  rows := []

/-- The record of a transaction that spends no output. -/
def minted (hash : Hash) (value : UInt64) (address : String) : TransactionRecord :=
  let t := Transaction.hop hash ⟨.null, 0⟩ value address
  t.record "" [] t.kept

theorem sound_minted (hash : Hash) (value : UInt64) (address : String) :
    (ready [minted hash value address]).state.store.Sound := by
  intro r hr o ho
  obtain rfl := List.mem_singleton.1 hr
  obtain rfl := List.mem_singleton.1 ho
  exact ⟨value, rfl⟩

/-- A payment that is archived reaches the input that spends it, and the next input of the block
gets what that transaction pays. -/
theorem take_inputs_owed_hops :
    let a := Hash.repeated 1
    let b := Hash.repeated 2
    let c := Hash.repeated 3
    let block := Block.holding [.hop b ⟨a, 0⟩ 4 "second", .hop c ⟨b, 0⟩ 3 "third"]
    ∃ r s, ((take block 7).runAt (ready [minted a 5 "first"])).2.state.store.transactions =
        [minted a 5 "first", r, s] ∧
      (∃ q, r.inputs = [q] ∧ q.value = .nat 5 ∧ q.address = .string "first") ∧
      ∃ q, s.inputs = [q] ∧ q.value = .nat 4 ∧ q.address = .string "second" := by
  intro a b c block
  have hsound := sound_minted a 5 "first"
  have hshow : ∀ t ∈ block.transactions, t.Showable := by
    intro t ht
    simp only [block, Block.holding, List.mem_cons, List.not_mem_nil, or_false] at ht
    obtain rfl | rfl := ht <;> exact Transaction.showable_hop (by decide +kernel)
  have hok := take_ok hsound rfl (Block.reportable_of_showable hshow _) 7
  obtain ⟨written, hstore, hlength, howed⟩ := take_inputs_owed hsound hok
  obtain ⟨r, s, rfl⟩ := List.length_eq_two.1 hlength
  refine ⟨r, s, hstore, ?_, ?_⟩
  · obtain ⟨-, hinputs, hr⟩ := howed 0 _ r rfl rfl
    obtain ⟨q, hq⟩ := List.length_eq_one_iff.1 hinputs
    obtain ⟨p, hp, hvalue, haddress⟩ := hr 0 _ q rfl (by rw [hq]; rfl)
    have hfirst : owed .sentinel [minted a 5 "first"] [.hop b ⟨a, 0⟩ 4 "second"] ⟨a, 0⟩ =
        .ok ⟨5, .string "first"⟩ := rfl
    obtain rfl := Except.ok.inj (hp.symm.trans hfirst)
    exact ⟨q, hq, hvalue, haddress⟩
  · obtain ⟨-, hinputs, hs⟩ := howed 1 _ s rfl rfl
    obtain ⟨q, hq⟩ := List.length_eq_one_iff.1 hinputs
    obtain ⟨p, hp, hvalue, haddress⟩ := hs 0 _ q rfl (by rw [hq]; rfl)
    have hsecond : owed .sentinel [minted a 5 "first"] block.transactions ⟨b, 0⟩ =
        .ok ⟨4, .string "second"⟩ := rfl
    obtain rfl := Except.ok.inj (hp.symm.trans hsecond)
    exact ⟨q, hq, hvalue, haddress⟩

end Pipeline

end BlockArchive
