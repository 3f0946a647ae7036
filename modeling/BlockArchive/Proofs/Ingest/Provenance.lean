import BlockArchive.Proofs.Chain.Reading
import BlockArchive.Proofs.Ingest.Cut
import BlockArchive.Proofs.Ingest.Handover
import BlockArchive.Proofs.Ingest.History
import BlockArchive.Proofs.Ingest.Lookups
import BlockArchive.Proofs.Store.Answering

/-!
# Where payments come from

Over any store that answers from what it keeps, an input that is resolved gets what the history owes
it: the archive as it was before the block, and the block up to the transaction of the input. Calls
may fail on the way; then no record comes of the block.

* `Transaction.Paid` says that the inputs of a record have what they are owed;
* `Resolution.payment_owed` is about one input, `Pipeline.batchFrom_paid` follows the transactions
  of a block and `Pipeline.resolveOver_paid` says so of the whole block;
* `Pipeline.deposit_keeps`: which records a store keeps after a block, whatever comes of it;
* `TransactionRecord.Honours`: an input that spends an output in the archive has its value and
  address, and `Transaction.AllPaid.honours` that the inputs of a batch do, by `owed_of_last`;
* `Pipeline.deposit_resolved` puts both together for a block that is written.
-/

namespace BlockArchive

variable {σ : Type}

/-- The inputs of the record have what they are owed by the archive and by the transactions of the
block up to their own. -/
def Transaction.Paid (policy : CoinbasePolicy) (archive : List TransactionRecord)
    (block : List Transaction) (t : Transaction) (r : TransactionRecord) : Prop :=
  ∀ (j : Nat) i, t.inputs[j]? = some i → ∃ p, owed policy archive block i.source = .ok p ∧
    r.inputs[j]? = some (Resolution.record t.hash.display j i p)

/-- One after the other, the transactions of a batch have what they are owed. -/
def Transaction.AllPaid (policy : CoinbasePolicy) (archive : List TransactionRecord)
    (ts : List Transaction) (rs : List TransactionRecord) : Prop :=
  ∀ (n : Nat) t, ts[n]? = some t → ∃ r, rs[n]? = some r ∧
    t.Paid policy archive (ts.take (n + 1)) r

/-! ### Resolving -/

section Resolving

variable [Store σ] [Answering σ] {k : Contents}
  (hk : ∀ r ∈ k.transactions, Answering.Readable σ r)
include hk

namespace Resolution

theorem lookup_found (c : Cache) (source : OutPoint) :
    Act.Ensures (fun r : Resolution σ => Appending.Keeps r.store k)
      (fun found => (∀ p, c.get? (.ofOutPoint source) = some p → found = some p) ∧
        (c.get? (.ofOutPoint source) = none → archived? k.transactions source = .ok found))
      (lookup c source) := by
  unfold lookup
  cases c.get? (.ofOutPoint source) with
  | some p =>
    refine (tick_ensures (I := (Appending.Keeps · k)) _).bind fun _ _ => .pure ⟨?_, nofun⟩
    rintro _ ⟨⟩
    rfl
  | none =>
    refine (tick_ensures (I := (Appending.Keeps · k)) _).bind fun _ _ => ?_
    refine (onStore_ensures (I := (Appending.Keeps · k)) (Answering.find_ensures hk _)).bind
      fun found hfound => ?_
    subst hfound
    unfold Contents.lookup? archived?
    cases k.transactions.findRev? (MemoryStore.bears source.hash.display) with
    | none => exact .pure ⟨nofun, fun _ => rfl⟩
    | some r =>
      refine (Act.Ensures.lift fun _ h => h).bind fun output houtput => ?_
      cases output with
      | none => exact .pure ⟨nofun, fun _ => houtput⟩
      | some p =>
        exact (tick_ensures (I := (Appending.Keeps · k)) _).bind fun _ _ =>
          .pure ⟨nofun, fun _ => houtput⟩

/-- **An input gets what it is owed.** -/
theorem payment_owed (policy : CoinbasePolicy) (block : List Transaction) (txHash : String)
    (index : Nat) (source : OutPoint) :
    Act.Ensures (fun r : Resolution σ => Appending.Keeps r.store k)
      (fun p => owed policy k.transactions block source = .ok p)
      (payment policy (Cache.empty.after block) txHash index source) := by
  unfold payment owed
  by_cases hnull : source.hash = Hash.null
  · simp only [OutPoint.isNull, hnull, BEq.rfl, ↓reduceIte]
    exact (tick_ensures (I := (Appending.Keeps · k)) _).bind fun _ _ => .pure rfl
  · simp only [OutPoint.isNull, beq_iff_eq, hnull, ↓reduceIte]
    refine (lookup_found hk _ source).bind fun found ⟨hcached, harchived⟩ => ?_
    rw [Cache.get?_after] at hcached harchived
    cases hp : produced? block source with
    | some p =>
      obtain rfl := hcached p hp
      exact .pure rfl
    | none =>
      simp only [harchived hp]
      cases found with
      | some p => exact .pure rfl
      | none =>
        refine (tick_ensures (I := (Appending.Keeps · k)) _).bind fun _ _ => ?_
        refine (Act.Ensures.lift (Q := fun _ => True) fun _ _ => trivial).bind fun row _ => ?_
        exact (Act.Ensures.log row).bind fun _ _ => .pure rfl

theorem resolveFrom_owed (policy : CoinbasePolicy) (block : List Transaction) (txHash : String)
    (index : Nat) (inputs : List TxInput) :
    Act.Ensures (fun r : Resolution σ => Appending.Keeps r.store k)
      (fun resolved => ∀ (j : Nat) i, inputs[j]? = some i →
        ∃ p, owed policy k.transactions block i.source = .ok p ∧
          resolved[j]? = some (record txHash (index + j) i p))
      (resolveFrom policy (Cache.empty.after block) txHash index inputs) := by
  induction inputs generalizing index with
  | nil => exact .pure nofun
  | cons input rest ih =>
    have hpayment := payment_owed hk policy block txHash index input.source
    refine Act.Ensures.bind (Q := fun first => ∃ p,
      owed policy k.transactions block input.source = .ok p ∧ first = record txHash index input p)
      (hpayment.bind fun p hp => .pure ⟨p, hp, rfl⟩) fun first ⟨p, hp, hfirst⟩ => ?_
    refine (ih (index + 1)).bind fun others hothers => .pure fun j i hi => ?_
    cases j with
    | zero =>
      obtain rfl : input = i := Option.some.inj hi
      exact ⟨p, hp, congrArg some hfirst⟩
    | succ j =>
      obtain ⟨q, hq, hget⟩ := hothers j i hi
      refine ⟨q, hq, ?_⟩
      rw [List.getElem?_cons_succ, hget, Nat.add_right_comm, Nat.add_assoc]

end Resolution

namespace Pipeline

/-- The transactions behind some others of a block are paid one after the other. -/
theorem batchFrom_paid (policy : CoinbasePolicy) (blockHash : String)
    (before ts : List Transaction) :
    Act.Ensures (fun r : Resolution σ => Appending.Keeps r.store k)
      (fun rs => ∀ (n : Nat) t, ts[n]? = some t → ∃ r, rs[n]? = some r ∧
        t.Paid policy k.transactions (before ++ ts.take (n + 1)) r)
      (batchFrom policy blockHash (Cache.empty.after before) ts) := by
  induction ts generalizing before with
  | nil => exact .pure nofun
  | cons t rest ih =>
    have hcache : (Cache.empty.after before).enter t = Cache.empty.after (before ++ [t]) := by
      rw [Cache.after_append, Cache.after_cons, Cache.after_nil]
    rw [batchFrom_cons, hcache]
    refine (t.keepOutputs_ensures).bind fun _ _ => ?_
    have hinputs := Resolution.resolveFrom_owed hk policy (before ++ [t]) t.hash.display 0 t.inputs
    refine hinputs.bind fun inputs hinputs => ?_
    refine (ih (before ++ [t])).bind fun others hothers => .pure fun n u hu => ?_
    cases n with
    | zero =>
      obtain rfl : t = u := Option.some.inj hu
      refine ⟨_, rfl, fun j i hi => ?_⟩
      obtain ⟨p, hp, hget⟩ := hinputs j i hi
      rw [Nat.zero_add] at hget
      exact ⟨p, by simpa using hp, hget⟩
    | succ n =>
      obtain ⟨r, hr, hpaid⟩ := hothers n u hu
      rw [List.append_assoc] at hpaid
      exact ⟨r, hr, hpaid⟩

/-- **The inputs of a block get what they are owed**, if the block comes about. -/
theorem resolveOver_paid (policy : CoinbasePolicy) (b : Block) :
    Act.Ensures (Appending.Keeps · k)
      (fun x => Transaction.AllPaid policy k.transactions b.transactions x.1)
      (resolveOver policy b : Act σ _) := by
  refine Act.Ensures.within (I := fun r : Resolution σ => Appending.Keeps r.store k)
    (fun _ h => h) (fun _ _ _ h => h) ?_
  have hbatch := batchFrom_paid hk policy b.header.hash.display [] b.transactions
  exact hbatch.bind fun records hrecords => Act.Ensures.state_bind fun _ _ => .pure hrecords

end Pipeline

end Resolving

/-! ### What is kept of a block -/

namespace Pipeline

variable [Store σ] [Appending σ] {k : Contents}

theorem resolveOver_keeps (policy : CoinbasePolicy) (b : Block) {d : Desk σ}
    (hd : Appending.Keeps d.state k) :
    Appending.Keeps ((resolveOver policy b).runAt d).2.state k := by
  have hfind : ∀ hash, Act.Yields (Appending.Keeps · k)
      (∀ t ∈ ·, StoredTransaction.Faulty (fun _ => True) t) (fun _ => True)
      (Store.find hash : Act σ _) := by
    intro hash e he
    refine ⟨Appending.find_keeps hash he, ?_⟩
    cases ((Store.find hash : Act σ _).runAt e).1 with
    | ok found => exact fun _ _ _ _ => trivial
    | error f => trivial
  exact (resolveOver_yields hfind policy (.inr trivial) d hd).1

/-- **What is kept of a block.** A block whose deposit comes about is kept with its batch; of one
whose deposit does not, at most the block itself. -/
theorem deposit_keeps (policy : CoinbasePolicy) (b : Block) (height : Int) {d : Desk σ}
    (hd : Appending.Keeps d.state k) :
    let r := (deposit policy b height).runAt d
    match r.1 with
    | .ok x => Appending.Keeps r.2.state
        ((k.addBlock (.ofBlock b (.int height))).addTransactions x.1)
    | .error _ => Appending.Keeps r.2.state k ∨
        Appending.Keeps r.2.state (k.addBlock (.ofBlock b (.int height))) := by
  have hresolve := resolveOver_keeps policy b hd
  simp only [deposit, Act.runAt_bind]
  cases hx : ((resolveOver policy b).runAt d).1 with
  | error f => exact .inl hresolve
  | ok x =>
    have hnamed := resolveOver_named hx
    have hblock := Appending.insertBlock_keeps (r := .ofBlock b (.int height)) ⟨_, rfl⟩ hresolve
    dsimp only
    generalize (Store.insertBlock _).runAt ((resolveOver policy b).runAt d).2 = run at hblock ⊢
    obtain ⟨o, e⟩ := run
    cases o with
    | error f => exact .inl hblock
    | ok _ =>
      cases hempty : x.1.isEmpty with
      | true =>
        simpa [List.isEmpty_iff.1 hempty, Contents.when] using hblock
      | false =>
        have hbatch := Appending.insertTransactions_keeps hnamed (d := e) hblock
        simp only [Bool.not_false, ↓reduceIte, Act.runAt_bind]
        generalize (Store.insertTransactions x.1).runAt e = run at hbatch ⊢
        obtain ⟨o, e'⟩ := run
        cases o with
        | ok _ => exact hbatch
        | error f => exact .inr hbatch

end Pipeline

/-! ### The history as records -/

/-- Each input has value and address of the output that it refers to: the last record of that hash
among those before and its own is looked at, and must have the output at its place. -/
def TransactionRecord.Honours (before : List TransactionRecord) (r : TransactionRecord) : Prop :=
  ∀ q ∈ r.inputs, ∀ hash : String, q.previousHash = .string hash → hash ≠ Hash.null.display →
    ∀ s, (before ++ [r]).findRev? (MemoryStore.bears hash) = some s →
      ∀ (n : Nat) o, q.previousIndex = .nat n → s.outputs[n]? = some o → o.index = .nat n →
        q.value = o.value ∧ q.address = o.address

/-- Of some transactions written one after the other, each honours what was before it. -/
def TransactionRecord.HonoursAll (before rs : List TransactionRecord) : Prop :=
  ∀ (n : Nat) r, rs[n]? = some r → r.Honours (before ++ rs.take n)

theorem TransactionRecord.HonoursAll.append {before xs ys : List TransactionRecord}
    (hxs : HonoursAll before xs) (hys : HonoursAll (before ++ xs) ys) :
    HonoursAll before (xs ++ ys) := by
  intro n r hr
  by_cases hn : n < xs.length
  · rw [List.getElem?_append_left hn] at hr
    rw [List.take_append_of_le_length hn.le]
    exact hxs n r hr
  · have hle : xs.length ≤ n := Nat.le_of_not_lt hn
    rw [List.getElem?_append_right hle] at hr
    rw [List.take_append, List.take_of_length_le hle, ← List.append_assoc]
    exact hys _ r hr

/-- The first item that has a property is the first that has a narrower one, if it has that. -/
theorem find?_of_imp {α : Type} {p q : α → Bool} {xs : List α} {x : α}
    (hpq : ∀ y, q y = true → p y = true) (h : xs.find? p = some x) (hx : q x = true) :
    xs.find? q = some x := by
  obtain ⟨-, before, after, rfl, hbefore⟩ := List.find?_eq_some_iff_append.1 h
  refine List.find?_eq_some_iff_append.2 ⟨hx, before, after, rfl, fun y hy => ?_⟩
  have hp := hbefore y hy
  cases hq : q y with
  | false => rfl
  | true => rw [hpq y hq] at hp; exact hp

/-- The last transaction of a hash decides what is produced, if it has the output. -/
theorem produced?_of_last {ts : List Transaction} {source : OutPoint} {t : Transaction}
    {o : EvaluatedOutput} (ht : ts.findRev? (fun t => t.hash = source.hash) = some t)
    (ho : t.outputs[source.index]? = some o) : produced? ts source = some o.payment := by
  rw [List.findRev?_eq_find?_reverse] at ht
  have hhash : t.hash = source.hash := by simpa using List.find?_some ht
  have hproduces : t.produces source = true :=
    Transaction.produces_iff.2 ⟨hhash, (List.getElem?_eq_some_iff.1 ho).1⟩
  have hlast : ts.findRev? (Transaction.produces source) = some t := by
    rw [List.findRev?_eq_find?_reverse]
    refine find?_of_imp (fun u hu => ?_) ht hproduces
    exact decide_eq_true (Transaction.produces_iff.1 hu).1
  rw [produced?, hlast]
  simp [ho]

theorem produced?_of_no_last {ts : List Transaction} {source : OutPoint}
    (h : ts.findRev? (fun t => t.hash = source.hash) = none) : produced? ts source = none := by
  rw [List.findRev?_eq_find?_reverse, List.find?_eq_none] at h
  refine produced?_eq_none fun t ht hhash => ?_
  exact h t (List.mem_reverse.2 ht) (decide_eq_true hhash)

/-- The last record of a hash is that of the last transaction of the hash. -/
theorem Transaction.findRev?_recorded {blockHash : String} {ts : List Transaction}
    {rs : List TransactionRecord} (h : List.Forall₂ (Transaction.Recorded blockHash) ts rs)
    (hash : Hash) :
    Option.Rel (Transaction.Recorded blockHash) (ts.findRev? fun t => t.hash = hash)
      (rs.findRev? (MemoryStore.bears hash.display)) := by
  rw [List.findRev?_eq_find?_reverse, List.findRev?_eq_find?_reverse]
  refine Database.Holds.find?_rel (List.rel_reverse h) fun t r hr => ?_
  simp [MemoryStore.bears, hr.hash, Bool.beq_eq_decide_eq]

theorem Transaction.getElem?_kept {t : Transaction} {n : Nat} {o : KeptOutput}
    (h : t.kept[n]? = some o) :
    ∃ e, t.outputs[n]? = some e ∧ o = KeptOutput.ofOutput t.hash.display n e := by
  rw [kept, List.getElem?_mapIdx, Option.map_eq_some_iff] at h
  obtain ⟨e, he, rfl⟩ := h
  exact ⟨e, he, rfl⟩

/-- **What is owed is what the history has.** If the last record of a hash has an output in its
place, an input that refers to it is owed value and address of that output. -/
theorem owed_of_last {policy : CoinbasePolicy} {archive : List TransactionRecord}
    {blockHash : String} {ts : List Transaction} {rs : List TransactionRecord}
    (hrecorded : List.Forall₂ (Transaction.Recorded blockHash) ts rs) {source : OutPoint}
    (hnull : source.hash ≠ Hash.null) {s : TransactionRecord}
    (hlast : (archive ++ rs).findRev? (MemoryStore.bears source.hash.display) = some s)
    {o : KeptOutput} (ho : s.outputs[source.index]? = some o) (hindex : o.index = .nat source.index)
    {p : Payment} (hp : owed policy archive ts source = .ok p) :
    .nat p.value.toNat = o.value ∧ p.address = o.address := by
  have hmatch := Transaction.findRev?_recorded hrecorded source.hash
  rw [List.findRev?_eq_find?_reverse, List.reverse_append, List.find?_append,
    ← List.findRev?_eq_find?_reverse, ← List.findRev?_eq_find?_reverse] at hlast
  rw [owed, if_neg hnull] at hp
  generalize hthis : rs.findRev? (MemoryStore.bears source.hash.display) = this at hmatch hlast
  generalize hthat : (ts.findRev? fun t => t.hash = source.hash) = that at hmatch
  cases hmatch with
  | none =>
    -- the block has not had the hash so far, so the archive is asked
    rw [Option.none_or] at hlast
    have hselect : (StoredTransaction.ofRecord s).select? source.index = some o :=
      StoredTransaction.select?_placed ho hindex
    simp only [produced?_of_no_last hthat, archived?, hlast, StoredTransaction.output,
      hselect] at hp
    cases hpayment : o.payment with
    | error f =>
      rw [hpayment] at hp
      cases hp
    | ok q =>
      obtain ⟨hvalue, haddress⟩ := KeptOutput.eq_of_payment hpayment
      rw [hpayment] at hp
      obtain rfl := Except.ok.inj hp
      exact ⟨hvalue.symm, haddress.symm⟩
  | @some t r hr =>
    obtain rfl := Option.some.inj hlast
    rw [hr.outputs] at ho
    obtain ⟨e, he, rfl⟩ := Transaction.getElem?_kept ho
    rw [produced?_of_last hthat he] at hp
    obtain rfl := Except.ok.inj hp
    exact ⟨rfl, rfl⟩

/-- Each record of a batch is that of a transaction, and its inputs have what they are owed. -/
theorem Transaction.AllPaid.exists_recorded {policy : CoinbasePolicy}
    {archive : List TransactionRecord} {blockHash : String} {ts : List Transaction}
    {rs : List TransactionRecord} (h : AllPaid policy archive ts rs)
    (hrecorded : List.Forall₂ (Transaction.Recorded blockHash) ts rs) {n : Nat}
    {r : TransactionRecord} (hr : rs[n]? = some r) :
    ∃ t, ts[n]? = some t ∧ t.Recorded blockHash r ∧ t.Paid policy archive (ts.take (n + 1)) r := by
  obtain ⟨hn, hget⟩ := List.getElem?_eq_some_iff.1 hr
  have hn' : n < ts.length := hrecorded.length_eq ▸ hn
  have ht := List.getElem?_eq_getElem hn'
  have hrt := (List.forall₂_iff_get.1 hrecorded).2 n hn' hn
  rw [List.get_eq_getElem, List.get_eq_getElem, hget] at hrt
  obtain ⟨r', hr', hpaid⟩ := h n _ ht
  obtain rfl := Option.some.inj (hr.symm.trans hr')
  exact ⟨_, ht, hrt, hpaid⟩

/-- Each input in a record is one of the transaction's, with what it is owed. -/
theorem Transaction.Paid.exists_owed {policy : CoinbasePolicy} {archive : List TransactionRecord}
    {block : List Transaction} {blockHash : String} {t : Transaction} {r : TransactionRecord}
    (h : t.Paid policy archive block r) (hrecorded : t.Recorded blockHash r) {q : ResolvedInput}
    (hq : q ∈ r.inputs) : ∃ j i p, owed policy archive block i.source = .ok p ∧
      q = Resolution.record t.hash.display j i p := by
  obtain ⟨j, hj⟩ := List.mem_iff_getElem?.1 hq
  have hj' : j < t.inputs.length := hrecorded.inputCount ▸ (List.getElem?_eq_some_iff.1 hj).1
  obtain ⟨p, hp, hget⟩ := h j _ (List.getElem?_eq_getElem hj')
  exact ⟨j, _, p, hp, Option.some.inj (hj.symm.trans hget)⟩

/-- The records of a block whose inputs have what they are owed honour what was before them. -/
theorem Transaction.AllPaid.honours {policy : CoinbasePolicy} {archive : List TransactionRecord}
    {blockHash : String} {ts : List Transaction} {rs : List TransactionRecord}
    (h : AllPaid policy archive ts rs)
    (hrecorded : List.Forall₂ (Transaction.Recorded blockHash) ts rs) :
    TransactionRecord.HonoursAll archive rs := by
  intro n r hr q hq hash hhash hnull s hlast index o hindex ho hplace
  obtain ⟨t, -, hrt, hpaid⟩ := h.exists_recorded hrecorded hr
  obtain ⟨j, i, p, hp, rfl⟩ := hpaid.exists_owed hrt hq
  obtain rfl := Value.string.inj hhash
  obtain rfl : i.source.index = index := Int.ofNat.inj (Value.int.inj hindex)
  refine owed_of_last (List.forall₂_take (n + 1) hrecorded) (fun h => hnull (by rw [h])) ?_ ho
    hplace hp
  rw [List.take_add_one, hr, Option.toList_some, ← List.append_assoc]
  exact hlast

/-- A deposit gives the batch that the block was turned into. -/
theorem Pipeline.deposit_resolved [Store σ] {policy : CoinbasePolicy} {b : Block} {height : Int}
    {d : Desk σ} {x : List TransactionRecord × Tally}
    (h : ((deposit policy b height).runAt d).1 = .ok x) :
    ((resolveOver policy b).runAt d).1 = .ok x := by
  obtain ⟨y, hy, h⟩ := Act.runAt_bind_ok h
  obtain ⟨_, -, h⟩ := Act.runAt_bind_ok h
  dsimp only at h
  split at h
  · obtain ⟨_, -, h⟩ := Act.runAt_bind_ok h
    exact hy.trans h
  · exact hy.trans h

end BlockArchive
