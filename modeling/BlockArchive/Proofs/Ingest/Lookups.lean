import BlockArchive.Proofs.Act.Outcome
import BlockArchive.Proofs.Ingest.Batch
import BlockArchive.Proofs.Store.Appending

/-!
# Resolving a block only looks up

Whatever blocks hold, all that their resolution does with a store is to look transactions up. So it
keeps whatever looking up keeps, and stops only where a look-up does, where an output that was found
has a value that is no amount, or where a row cannot be written.

* `Pipeline.batchFrom_ends` follows the transactions of a block, and `Pipeline.resolveOver_ends`
  says so of the whole block, also where look-ups that stop leave other states than those that do
  not; `Pipeline.resolveOver_yields` is the case where they do not;
* `Pipeline.resolveOver_named`: the records that it gives bear texts as hashes.
-/

namespace BlockArchive

variable {σ : Type} {I : σ → Prop} {F : Fault → Prop}

theorem KeptOutput.payment_meets {o : KeptOutput} (h : F (.ofProblem (.outputValue o.value))) :
    Act.Meets (fun _ => True) F o.payment := by
  have hvalue : Act.Meets (fun _ => True) F o.value.toAmount := by
    unfold Value.toAmount
    split
    · split
      · trivial
      · exact h
    · exact h
  rw [payment]
  cases hamount : o.value.toAmount with
  | ok value => trivial
  | error f =>
    rw [hamount] at hvalue
    exact hvalue

/-- The faults of values among the outputs of a transaction satisfy `F`. -/
def StoredTransaction.Faulty (F : Fault → Prop) (t : StoredTransaction) : Prop :=
  ∀ o ∈ t.outputs, F (.ofProblem (.outputValue o.value))

theorem StoredTransaction.output_meets {t : StoredTransaction} (h : t.Faulty F) (index : Int) :
    Act.Meets (fun _ => True) F (t.output index) := by
  unfold output
  split
  · rename_i o ho
    have hpayment := KeptOutput.payment_meets (h o (mem_of_select? ho).1)
    cases hp : o.payment with
    | ok p => trivial
    | error f =>
      rw [hp] at hpayment
      exact hpayment
  · trivial

namespace Resolution

theorem tick_yields (f : Tally → Tally) :
    Act.Yields (fun r : Resolution σ => I r.store) (fun _ => True) F (tick f) :=
  Act.Yields.update fun _ h => h

theorem onStore_ends {α : Type} {Q : α → Prop} {E : σ → Fault → Prop} {a : Act σ α}
    (h : Act.Ends I Q E a) :
    Act.Ends (fun r : Resolution σ => I r.store) Q (fun r => E r.store) (onStore a) :=
  h.within (fun _ h => h) (fun _ _ _ h => h) fun _ _ _ _ h => h

end Resolution

section Ends

variable [Store σ] {E : σ → Fault → Prop} (hE : ∀ s f, I s → F f → E s f)
  (hfind : ∀ hash, Act.Ends I (∀ t ∈ ·, StoredTransaction.Faulty F t) E (Store.find hash : Act σ _))
include hE hfind

namespace Resolution

theorem lookup_ends (c : Cache) (source : OutPoint) :
    Act.Ends (fun r : Resolution σ => I r.store) (fun _ => True) (fun r => E r.store)
      (lookup c source) := by
  have hstop : ∀ (r : Resolution σ) f, I r.store → F f → E r.store f := fun r => hE r.store
  have hnone : Act.Yields (fun r : Resolution σ => I r.store) (fun _ => True) F
      (pure none : Act (Resolution σ) (Option Payment)) := .pure trivial
  have htick (f : Tally → Tally) (p : Payment) : Act.Yields (fun r : Resolution σ => I r.store)
      (fun _ => True) F (tick f >>= fun _ => pure (some p)) :=
    (tick_yields f).bind fun _ _ => .pure trivial
  unfold lookup
  split
  · exact (htick _ _).ends hstop
  · refine ((tick_yields _).ends hstop).bind fun _ _ => ?_
    refine (onStore_ends (hfind _)).bind fun found hfound => ?_
    split
    · exact hnone.ends hstop
    · rename_i stored
      have houtput := StoredTransaction.output_meets (hfound stored rfl) source.index
      refine Act.Yields.ends ((Act.Yields.lift houtput).bind fun output _ => ?_) hstop
      split
      · exact hnone
      · exact htick _ _

theorem payment_ends (policy : CoinbasePolicy) (c : Cache) (txHash : String) (index : Nat)
    {source : OutPoint} (hrow : Document.isTooLong source.index = false ∨ F .longInteger) :
    Act.Ends (fun r : Resolution σ => I r.store) (fun _ => True) (fun r => E r.store)
      (payment policy c txHash index source) := by
  have hstop : ∀ (r : Resolution σ) f, I r.store → F f → E r.store f := fun r => hE r.store
  unfold payment
  split
  · exact ((tick_yields _).bind fun _ _ => .pure trivial).ends hstop
  · refine (lookup_ends hE hfind c source).bind fun found _ => ?_
    split
    · exact (Act.Yields.pure trivial).ends hstop
    · refine Act.Yields.ends ((tick_yields _).bind fun _ _ => ?_) hstop
      refine (Act.Yields.lift (unresolvedRow_meets txHash index hrow)).bind fun row _ => ?_
      exact (Act.Yields.log row).bind fun _ _ => .pure trivial

theorem resolveFrom_ends (policy : CoinbasePolicy) (c : Cache) (txHash : String) (index : Nat)
    {inputs : List TxInput}
    (hrows : (∀ i ∈ inputs, Document.isTooLong i.source.index = false) ∨ F .longInteger) :
    Act.Ends (fun r : Resolution σ => I r.store) (fun _ => True) (fun r => E r.store)
      (resolveFrom policy c txHash index inputs) := by
  have hstop : ∀ (r : Resolution σ) f, I r.store → F f → E r.store f := fun r => hE r.store
  induction inputs generalizing index with
  | nil => exact (Act.Yields.pure trivial).ends hstop
  | cons input rest ih =>
    have hfirst := payment_ends hE hfind policy c txHash index
      (hrows.imp_left fun h => h input List.mem_cons_self)
    have hothers := ih (index + 1) (hrows.imp_left fun h i hi => h i (List.mem_cons_of_mem _ hi))
    refine Act.Ends.bind (Q := fun _ => True) ?_ fun first _ => ?_
    · exact hfirst.bind fun _ _ => (Act.Yields.pure trivial).ends hstop
    · exact hothers.bind fun _ _ => (Act.Yields.pure trivial).ends hstop

end Resolution

namespace Pipeline

theorem batchFrom_ends (policy : CoinbasePolicy) (blockHash : String) (c : Cache)
    {ts : List Transaction} (hrows : (∀ t ∈ ts, t.Showable) ∨ F .longInteger) :
    Act.Ends (fun r : Resolution σ => I r.store) (fun _ => True) (fun r => E r.store)
      (batchFrom policy blockHash c ts) := by
  have hstop : ∀ (r : Resolution σ) f, I r.store → F f → E r.store f := fun r => hE r.store
  induction ts generalizing c with
  | nil => exact (Act.Yields.pure trivial).ends hstop
  | cons t rest ih =>
    have hrow : t.Showable ∨ F .longInteger := hrows.imp_left fun h => h t List.mem_cons_self
    have hothers := ih (c.enter t) (hrows.imp_left fun h u hu => h u (List.mem_cons_of_mem _ hu))
    rw [batchFrom_cons]
    refine ((Transaction.keepOutputs_yields hrow).ends hstop).bind fun _ _ => ?_
    refine (Resolution.resolveFrom_ends hE hfind policy _ _ 0
      (hrow.imp_left Transaction.Showable.inputs)).bind fun _ _ => ?_
    exact hothers.bind fun _ _ => (Act.Yields.pure trivial).ends hstop

/-- **Resolving a block does to a store what look-ups do.** -/
theorem resolveOver_ends (policy : CoinbasePolicy) {b : Block}
    (hrows : (∀ t ∈ b.transactions, t.Showable) ∨ F .longInteger) :
    Act.Ends I (fun _ => True) E (resolveOver policy b : Act σ _) := by
  have hbatch := batchFrom_ends hE hfind policy b.header.hash.display .empty hrows
  refine Act.Ends.within (I := fun r : Resolution σ => I r.store) (fun _ h => h)
    (fun _ _ _ h => h) (fun _ _ _ _ h => h) ?_
  refine hbatch.bind fun records _ => ?_
  exact (Act.Yields.state_bind fun _ _ => .pure trivial).ends fun r => hE r.store

end Pipeline

end Ends

/-- So if its look-ups keep an invariant also where they stop, it does. -/
theorem Pipeline.resolveOver_yields [Store σ]
    (hfind : ∀ hash, Act.Yields I (∀ t ∈ ·, StoredTransaction.Faulty F t) F
      (Store.find hash : Act σ _)) (policy : CoinbasePolicy) {b : Block}
    (hrows : (∀ t ∈ b.transactions, t.Showable) ∨ F .longInteger) :
    Act.Yields I (fun _ => True) F (resolveOver policy b : Act σ _) :=
  (resolveOver_ends (fun _ _ hs hf => ⟨hs, hf⟩)
    (fun hash => (hfind hash).ends fun _ _ hs hf => ⟨hs, hf⟩) policy hrows).yields

theorem Transaction.blockHash_of_recorded {blockHash : String} {ts : List Transaction}
    {rs : List TransactionRecord} (h : List.Forall₂ (Transaction.Recorded blockHash) ts rs) :
    ∀ r ∈ rs, r.blockHash = .string blockHash := by
  induction h with
  | nil => exact nofun
  | cons hr _ ih => exact List.forall_mem_cons.2 ⟨hr.blockHash, ih⟩

/-- All hashes in the batch of a block are texts. -/
theorem Pipeline.resolveOver_named [Store σ] {policy : CoinbasePolicy} {b : Block} {d : Desk σ}
    {x : List TransactionRecord × Tally} (h : ((resolveOver policy b).runAt d).1 = .ok x) :
    ∀ r ∈ x.1, r.Named := by
  have hrecorded := (resolveOver_recorded h).1
  exact fun r hr => ⟨Transaction.hash_of_recorded hrecorded r hr,
    _, Transaction.blockHash_of_recorded hrecorded r hr⟩

theorem Pipeline.resolveBlock_named [Store σ] {b : Block} {d : Desk (Station σ)}
    {x : List TransactionRecord × Tally} (h : ((resolveBlock b).runAt d).1 = .ok x) :
    ∀ r ∈ x.1, r.Named := by
  rw [resolveBlock_runAt_resolveOver] at h
  exact resolveOver_named h

end BlockArchive
