import BlockArchive.Proofs.Act.Invariant
import BlockArchive.Proofs.Ingest.Settlement
import BlockArchive.Proofs.Record.Documents

/-!
# The records of a block have their declared types

Blocks are delivered with whole numbers of any size and with addresses of any kind. Where numbers
can be written and addresses are texts, so it is with all records made of a block, provided that the
store gives only texts as addresses: an input takes its address from the policy, from an output
before it in the block or from the store.

* `Transaction.Typed` and `Block.Typed` say what is asked of what is delivered;
* `BlockRecord.ofBlock_typed` and `Pipeline.resolveBlock_ensures`: the records of the block and of
  its transactions.
-/

namespace BlockArchive

/-! ### What is delivered -/

/-- The address is a text or nothing. -/
def Evaluation.Typed (e : Evaluation) : Prop := e.address = .null ∨ e.address.IsText

/-- The numbers of an input can be written. -/
structure TxInput.Typed (i : TxInput) : Prop where
  index : (Value.nat i.source.index).IsShort
  sequence : (Value.int i.sequence).IsShort

/-- The numbers of a transaction can be written, and its addresses are texts. -/
structure Transaction.Typed (t : Transaction) : Prop where
  version : (Value.int t.version).IsShort
  locktime : (Value.int t.locktime).IsShort
  inputs : ∀ i ∈ t.inputs, i.Typed
  inputCount : (Value.nat t.inputs.length).IsShort
  outputs : ∀ o ∈ t.outputs, o.evaluation.Typed
  outputCount : (Value.nat t.outputs.length).IsShort

/-- The numbers of a block can be written, and its addresses are texts. -/
structure Block.Typed (b : Block) : Prop where
  version : (Value.int b.header.version).IsShort
  timestamp : (Value.int b.header.timestamp).IsShort
  bits : (Value.int b.header.bits).IsShort
  nonce : (Value.int b.header.nonce).IsShort
  size : (Value.int b.size).IsShort
  transactions : ∀ t ∈ b.transactions, t.Typed
  transactionCount : (Value.nat b.transactions.length).IsShort

theorem BlockRecord.ofBlock_typed {b : Block} (hb : b.Typed) {height : Value}
    (hheight : height.IsShort) : (ofBlock b height).Typed where
  hash := ⟨_, rfl⟩
  height := hheight
  version := hb.version
  size := hb.size
  previousHash := ⟨_, rfl⟩
  merkleRootHash := ⟨_, rfl⟩
  timestamp := hb.timestamp
  bits := hb.bits
  transactionCount := hb.transactionCount
  nonce := hb.nonce

theorem Evaluation.Typed.keptAddress {e : Evaluation} (h : e.Typed) : e.keptAddress.IsText := by
  unfold Evaluation.keptAddress
  split
  · rename_i htruthy
    rcases h with h | h
    · rw [h] at htruthy
      cases htruthy
    · exact h
  · exact ⟨"", rfl⟩

theorem Transaction.Typed.kept {t : Transaction} (ht : t.Typed) : ∀ o ∈ t.kept, o.Typed := by
  intro o ho
  obtain ⟨i, hi, rfl⟩ := List.mem_mapIdx.1 ho
  exact ⟨⟨_, rfl⟩, ht.outputCount.of_le (Nat.le_of_lt hi), Value.isShort_amount _, ⟨_, rfl⟩,
    (ht.outputs _ (List.getElem_mem hi)).keptAddress⟩

/-- All addresses in a cache are texts. -/
def Cache.Textual (c : Cache) : Prop := ∀ key p, c.get? key = some p → p.address.IsText

theorem Cache.textual_empty : empty.Textual := by
  rintro key p ⟨⟩

theorem Cache.Textual.enter {c : Cache} (hc : c.Textual) {t : Transaction} (ht : t.Typed) :
    (c.enter t).Textual := by
  intro key p hp
  rw [get?_enter] at hp
  split at hp
  -- entered with this transaction, or there before
  · rcases Option.or_eq_some_iff.1 hp with hp | ⟨-, hp⟩
    · obtain ⟨o, ho, rfl⟩ := Option.map_eq_some_iff.1 hp
      exact (ht.outputs o (List.mem_of_getElem? ho)).keptAddress
    · exact hc key p hp
  · exact hc key p hp

/-! ### What is resolved -/

/-- All fields of the outputs of a stored transaction have their declared types. -/
def StoredTransaction.Typed (t : StoredTransaction) : Prop := ∀ o ∈ t.outputs, o.Typed

/-- All addresses in a stored transaction are texts. -/
def StoredTransaction.Textual (t : StoredTransaction) : Prop := ∀ o ∈ t.outputs, o.address.IsText

theorem StoredTransaction.Typed.textual {t : StoredTransaction} (h : t.Typed) : t.Textual :=
  fun o ho => (h o ho).address

theorem KeptOutput.address_of_payment {o : KeptOutput} {p : Payment} (h : o.payment = .ok p) :
    p.address = o.address := by
  unfold KeptOutput.payment at h
  cases hvalue : o.value.toAmount with
  | ok value =>
    rw [hvalue] at h
    cases h
    rfl
  | error e =>
    rw [hvalue] at h
    cases h

theorem StoredTransaction.Textual.output {t : StoredTransaction} (ht : t.Textual) {index : Int}
    {p : Payment} (h : t.output index = .ok (some p)) : p.address.IsText := by
  unfold StoredTransaction.output at h
  split at h
  · rename_i o ho
    cases hp : o.payment with
    | ok q =>
      rw [hp] at h
      cases h
      rw [KeptOutput.address_of_payment hp]
      exact ht o (mem_of_select? ho).1
    | error e =>
      rw [hp] at h
      cases h
  · cases h

section Ensures

variable {σ : Type} {I : σ → Prop}

theorem Transaction.keepOutputs_ensures (t : Transaction) :
    Act.Ensures I (· = t.kept) (t.keepOutputs : Act σ _) :=
  (keepOutputs_yields (F := fun _ => True) (.inr trivial)).ensures

theorem Resolution.tick_ensures (f : Tally → Tally) :
    Act.Ensures (fun r : Resolution σ => I r.store) (fun _ => True) (tick f) :=
  Act.Ensures.update fun _ h => h

theorem Resolution.onStore_ensures {α : Type} {Q : α → Prop} {a : Act σ α}
    (h : Act.Ensures I Q a) : Act.Ensures (fun r : Resolution σ => I r.store) Q (onStore a) :=
  h.within (fun _ h => h) fun _ _ _ h => h

variable [Store σ]
  (hfind : ∀ hash, Act.Ensures I (∀ t ∈ ·, StoredTransaction.Textual t) (Store.find hash : Act σ _))
include hfind

namespace Resolution

theorem lookup_ensures {c : Cache} (hc : c.Textual) (source : OutPoint) :
    Act.Ensures (fun r : Resolution σ => I r.store) (∀ p ∈ ·, p.address.IsText)
      (lookup c source) := by
  unfold lookup
  cases hget : c.get? (.ofOutPoint source) with
  | some p =>
    refine (tick_ensures _).bind fun _ _ => .pure ?_
    rintro _ ⟨⟩
    exact hc _ _ hget
  | none =>
    refine (tick_ensures _).bind fun _ _ => ?_
    refine (onStore_ensures (hfind _)).bind fun found hfound => ?_
    cases found with
    | none => exact .pure nofun
    | some stored =>
      refine (Act.Ensures.lift (Q := fun output => stored.output source.index = .ok output)
        fun _ h => h).bind fun output houtput => ?_
      cases output with
      | none => exact .pure nofun
      | some p =>
        refine (tick_ensures _).bind fun _ _ => .pure ?_
        rintro _ ⟨⟩
        exact (hfound stored rfl).output houtput

theorem payment_ensures (policy : CoinbasePolicy) {c : Cache} (hc : c.Textual) (txHash : String)
    (index : Nat) (source : OutPoint) :
    Act.Ensures (fun r : Resolution σ => I r.store) (fun p => p.address.IsText)
      (payment policy c txHash index source) := by
  unfold payment
  split
  · exact (tick_ensures _).bind fun _ _ => .pure ⟨_, rfl⟩
  · refine (lookup_ensures hfind hc source).bind fun found hfound => ?_
    cases found with
    | some p => exact .pure (hfound p rfl)
    | none =>
      refine (tick_ensures _).bind fun _ _ => ?_
      refine (Act.Ensures.lift (Q := fun _ => True) fun _ _ => trivial).bind fun row _ => ?_
      exact (Act.Ensures.log row).bind fun _ _ => .pure ⟨"", rfl⟩

/-- The records of the inputs behind a position, which is not beyond a number that can be
written. -/
theorem resolveFrom_ensures (policy : CoinbasePolicy) {c : Cache} (hc : c.Textual) (txHash : String)
    {inputs : List TxInput} (hinputs : ∀ i ∈ inputs, i.Typed) (index : Nat)
    (hindex : (Value.nat (index + inputs.length)).IsShort) :
    Act.Ensures (fun r : Resolution σ => I r.store)
      (fun resolved => (∀ i ∈ resolved, i.Typed) ∧ resolved.length = inputs.length)
      (resolveFrom policy c txHash index inputs) := by
  induction inputs generalizing index with
  | nil => exact .pure ⟨nofun, rfl⟩
  | cons input rest ih =>
    obtain ⟨hinput, hrest⟩ := List.forall_mem_cons.1 hinputs
    rw [List.length_cons, Nat.add_comm rest.length, ← Nat.add_assoc] at hindex
    refine Act.Ensures.bind (Q := ResolvedInput.Typed) ?_ fun first hfirst => ?_
    · refine (payment_ensures hfind policy hc txHash index input.source).bind fun p hp => .pure ?_
      -- the position is below the number of inputs, which can be written
      exact ⟨⟨_, rfl⟩, hindex.of_le (by omega), ⟨_, rfl⟩, hinput.index, ⟨_, rfl⟩, hinput.sequence,
        Value.isShort_amount _, hp⟩
    · refine (ih hrest (index + 1) hindex).bind fun others hothers => .pure ?_
      exact ⟨List.forall_mem_cons.2 ⟨hfirst, hothers.1⟩, congrArg (· + 1) hothers.2⟩

end Resolution

namespace Pipeline

theorem batchFrom_ensures (policy : CoinbasePolicy) (blockHash : String) {c : Cache}
    (hc : c.Textual) {ts : List Transaction} (hts : ∀ t ∈ ts, t.Typed) :
    Act.Ensures (fun r : Resolution σ => I r.store) (∀ r ∈ ·, TransactionRecord.Typed r)
      (batchFrom policy blockHash c ts) := by
  induction ts generalizing c with
  | nil => exact .pure nofun
  | cons t rest ih =>
    obtain ⟨ht, hrest⟩ := List.forall_mem_cons.1 hts
    rw [batchFrom_cons]
    refine (Transaction.keepOutputs_ensures t).bind fun _ _ => ?_
    have hc' : (c.enter t).Textual := hc.enter ht
    refine (Resolution.resolveFrom_ensures hfind policy hc' _ ht.inputs 0
      (by simpa using ht.inputCount)).bind fun inputs hinputs => ?_
    refine (ih hc' hrest).bind fun others hothers => .pure ?_
    refine List.forall_mem_cons.2 ⟨⟨⟨_, rfl⟩, ⟨_, rfl⟩, ht.version, ht.locktime, hinputs.1, ?_,
      ht.kept, ?_⟩, hothers⟩
    · simpa only [Transaction.record, hinputs.2] using ht.inputCount
    · simpa only [Transaction.record, Transaction.kept, List.length_mapIdx] using ht.outputCount

/-- **The batch of a typed block is typed.** -/
theorem resolveBlock_ensures {b : Block} (hb : b.Typed) :
    Act.Ensures (fun s : Station σ => I s.store) (fun r => ∀ x ∈ r.1, TransactionRecord.Typed x)
      (resolveBlock b) := by
  refine Act.Ensures.state_bind fun s hs => ?_
  refine Act.Ensures.within (I := fun r : Resolution σ => I r.store) (fun _ h => h)
    (fun _ _ _ h => h) ?_
  refine (batchFrom_ensures hfind _ _ Cache.textual_empty hb.transactions).bind
    fun records hrecords => ?_
  exact Act.Ensures.state_bind fun _ _ => .pure hrecords

end Pipeline

end Ensures

/-- A look-up in memory gives texts as addresses where the transactions have their declared
types. -/
theorem MemoryStore.find_ensures (hash : String) :
    Act.Ensures (fun m : MemoryStore => ∀ r ∈ m.transactions, r.Typed)
      (∀ t ∈ ·, StoredTransaction.Textual t) (Store.find hash) := by
  intro d hd
  rw [find_runAt]
  refine ⟨hd, ?_⟩
  rintro _ ⟨⟩ t ht o ho
  obtain ⟨r, hmem, -, rfl⟩ := exists_of_lookup? ht
  exact ((hd r hmem).outputs o ho).address

end BlockArchive
