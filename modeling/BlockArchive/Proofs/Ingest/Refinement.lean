import BlockArchive.Ingest.Pipeline
import BlockArchive.Proofs.Act.Refinement

/-!
# The pipeline over two stores

The pipeline asks nothing of a store but its four calls. So whatever relates two stores call by
call relates the pipelines over them, step by step.

* `Resolution.Related` and `Station.Related` carry a relation of stores over to resolutions and to
  stations;
* `Pipeline.resolveBlock_refines`: the resolution of a block over a store whose look-ups refine
  those of another refines the resolution over the other;
* `Pipeline.start_matches`, `Pipeline.take_matches` and `Pipeline.complete_matches`: the steps of a
  run match where the calls that they make do.
-/

namespace BlockArchive

variable {σ τ α : Type}

/-- Related stores and the same counters. -/
def Resolution.Related (R : σ → τ → Prop) (r : Resolution σ) (q : Resolution τ) : Prop :=
  R r.store q.store ∧ r.tally = q.tally

/-- Related stores beside the same pipeline and the same clock. -/
def Station.Related (R : σ → τ → Prop) (s : Station σ) (t : Station τ) : Prop :=
  s.pipeline = t.pipeline ∧ R s.store t.store ∧ s.clock = t.clock

variable {R : σ → τ → Prop} {S : σ → Fault → Prop}

/-! ### Resolution -/

namespace Resolution

theorem tick_refines {S : Resolution σ → Fault → Prop} (f : Tally → Tally) :
    Act.Refines (Related R) S (tick f : Act (Resolution σ) Unit) (tick f) :=
  Act.Refines.update fun _ _ h => ⟨h.1, congrArg f h.2⟩

theorem onStore_refines {a : Act σ α} {b : Act τ α} (h : Act.Refines R S a b) :
    Act.Refines (Related R) (fun r f => S r.store f) (onStore a) (onStore b) :=
  h.within (fun _ _ h => h.1) (fun _ _ _ _ h huv => ⟨huv, h.2⟩) fun _ _ _ _ _ hS => hS

variable [Store σ] [Store τ]
  (hfind : ∀ hash, Act.Refines R S (Store.find hash : Act σ _) (Store.find hash : Act τ _))
include hfind

theorem lookup_refines (cache : Cache) (source : OutPoint) :
    Act.Refines (Related R) (fun r f => S r.store f) (lookup cache source : Act (Resolution σ) _)
      (lookup cache source) := by
  unfold lookup
  -- caches are not compared: both sides have the same one
  cases cache.get? (.ofOutPoint source) with
  | some p => exact (tick_refines _).bind fun _ => .pure _
  | none =>
    refine (tick_refines _).bind fun _ => ?_
    refine (onStore_refines (hfind _)).bind fun found => ?_
    cases found with
    | none => exact .pure _
    | some stored =>
      refine (Act.Refines.lift _).bind fun output => ?_
      cases output with
      | none => exact .pure _
      | some p => exact (tick_refines _).bind fun _ => .pure _

theorem payment_refines (policy : CoinbasePolicy) (cache : Cache) (txHash : String) (index : Nat)
    (source : OutPoint) :
    Act.Refines (Related R) (fun r f => S r.store f)
      (payment policy cache txHash index source : Act (Resolution σ) _)
      (payment policy cache txHash index source) := by
  unfold payment
  split
  · exact (tick_refines _).bind fun _ => .pure _
  · refine (lookup_refines hfind cache source).bind fun found => ?_
    cases found with
    | some p => exact .pure _
    | none =>
      refine (tick_refines _).bind fun _ => ?_
      refine (Act.Refines.lift (unresolvedRow txHash index source)).bind fun row => ?_
      exact (Act.Refines.log row row).bind fun _ => .pure _

theorem resolveFrom_refines (policy : CoinbasePolicy) (cache : Cache) (txHash : String)
    (index : Nat) (inputs : List TxInput) :
    Act.Refines (Related R) (fun r f => S r.store f)
      (resolveFrom policy cache txHash index inputs : Act (Resolution σ) _)
      (resolveFrom policy cache txHash index inputs) := by
  induction inputs generalizing index with
  | nil => exact .pure _
  | cons input rest ih =>
    refine Act.Refines.bind ?_ fun first => (ih (index + 1)).bind fun others => .pure _
    exact (payment_refines hfind policy cache txHash index input.source).bind fun p => .pure _

end Resolution

/-! ### The batch of a block -/

theorem Transaction.keepFrom_refines (txHash : String) (index : Nat)
    (outputs : List EvaluatedOutput) :
    Act.Refines R S (keepFrom txHash index outputs : Act σ _) (keepFrom txHash index outputs) := by
  induction outputs generalizing index with
  | nil => exact .pure _
  | cons o rest ih =>
    simp only [keepFrom]
    split
    · refine (Act.Refines.lift (o.evaluation.unrecognisedRow txHash index)).bind fun row => ?_
      exact (Act.Refines.log row row).bind fun _ => (ih _).bind fun _ => .pure _
    · exact (ih _).bind fun _ => .pure _

namespace Pipeline

section Batch

variable [Store σ] [Store τ]
  (hfind : ∀ hash, Act.Refines R S (Store.find hash : Act σ _) (Store.find hash : Act τ _))
include hfind

theorem batchFrom_refines (policy : CoinbasePolicy) (blockHash : String) (cache : Cache)
    (ts : List Transaction) :
    Act.Refines (Resolution.Related R) (fun r f => S r.store f)
      (batchFrom policy blockHash cache ts : Act (Resolution σ) _)
      (batchFrom policy blockHash cache ts) := by
  induction ts generalizing cache with
  | nil => exact .pure _
  | cons t rest ih =>
    refine (Transaction.keepFrom_refines _ _ _).bind fun outputs => ?_
    refine (Act.Refines.lift _).bind fun cache' => ?_
    refine (Resolution.resolveFrom_refines hfind _ _ _ _ _).bind fun inputs => ?_
    exact (ih cache').bind fun others => .pure _

theorem resolveBlock_refines (b : Block) :
    Act.Refines (Station.Related R) (fun s f => S s.store f)
      (resolveBlock b : Act (Station σ) _) (resolveBlock b) := by
  refine Act.Refines.state_bind fun s t hst => ?_
  rw [hst.1]
  -- both resolutions begin with empty counters
  refine Act.Refines.within (R := Resolution.Related R) (S := fun r f => S r.store f)
    (fun s t h => ⟨h.2.1, rfl⟩) (fun s t r q h hrq => ⟨h.1, hrq.1, h.2.2⟩)
    (fun _ _ _ _ _ hS => hS) ?_
  refine (batchFrom_refines hfind _ _ _ _).bind fun records => ?_
  refine Act.Refines.state_bind fun r q hrq => ?_
  rw [hrq.2]
  exact .pure _

end Batch

/-! ### The steps of a run -/

theorem onStore_matches {a : Act σ α} {b : Act τ α} (h : Act.Matches R a b) :
    Act.Matches (Station.Related R) (onStore a) (onStore b) :=
  h.within (fun _ _ h => h.2.1) (fun _ _ _ _ h huv => ⟨h.1, huv, h.2.2⟩) fun _ _ _ _ _ => id

theorem update_matches (f : Pipeline → Pipeline) :
    Act.Matches (Station.Related R) (update f : Act (Station σ) Unit) (update f) :=
  Act.Refines.update fun _ _ h => ⟨congrArg f h.1, h.2⟩

theorem reporting_matches (height : Int) {a : Act (Station σ) Unit} {b : Act (Station τ) Unit}
    (h : Act.Matches (Station.Related R) a b) :
    Act.Matches (Station.Related R) (reporting height a) (reporting height b) := by
  refine (Act.Matches.attempt h).bind fun outcome => ?_
  split
  · exact .pure _
  · split
    · split
      · exact (Act.Refines.stop _).bind fun _ => (Act.Refines.log _ _).bind fun _ => .stop _
      · exact (Act.Refines.log _ _).bind fun _ => .stop _
    · exact .stop _
  · exact .stop _

section Steps

variable [Store σ] [Store τ]

theorem start_matches (hprobe : Act.Matches R (Store.probe : Act σ Unit) (Store.probe : Act τ Unit))
    (coin : Value) (height : Int) :
    Act.Matches (Station.Related R) (start coin height : Act (Station σ) Unit)
      (start coin height) := by
  refine Act.Refines.state_bind fun s t hst => ?_
  rw [hst.1]
  refine Act.Refines.guard _ ?_
  refine (Act.Refines.lift _).bind fun coin => ?_
  refine (update_matches _).bind fun _ => ?_
  refine (Act.Refines.log _ _).bind fun _ => ?_
  refine (onStore_matches hprobe).bind fun _ => ?_
  refine (Act.Refines.log _ _).bind fun _ => ?_
  exact (update_matches _).bind fun _ => update_matches _

/-- A block is taken in alike where its record and its batch are written alike. -/
theorem ingest_matches
    (hfind : ∀ hash, Act.Matches R (Store.find hash : Act σ _) (Store.find hash : Act τ _))
    (b : Block) (height : Int)
    (hblock : Act.Matches R
      (Store.insertBlock (.ofBlock b (.int height)) : Act σ Unit)
      (Store.insertBlock (.ofBlock b (.int height)) : Act τ Unit))
    (hbatch : ∀ r, (∃ (d : Desk (Station σ)) (e : Desk (Station τ)),
        Station.Related R d.state e.state ∧ ((resolveBlock b).runAt e).1 = .ok r) →
      Act.Matches R (Store.insertTransactions r.1 : Act σ Unit)
        (Store.insertTransactions r.1 : Act τ Unit)) :
    Act.Matches (Station.Related R) (ingest b height : Act (Station σ) Unit) (ingest b height) := by
  refine Act.Refines.bind_of (resolveBlock_refines hfind b) fun r hr => ?_
  refine (onStore_matches hblock).bind fun _ => ?_
  dsimp only
  split
  · refine (onStore_matches (hbatch r hr)).bind fun _ => ?_
    exact (update_matches _).bind fun _ => .log _ _
  · exact (update_matches _).bind fun _ => .log _ _

/-- Blocks are taken in alike where their work matches. -/
theorem take_matches (b : Block) (height : Int)
    (h : Act.Matches (Station.Related R) (ingest b height : Act (Station σ) Unit)
      (ingest b height)) :
    Act.Matches (Station.Related R) (take b height : Act (Station σ) Unit) (take b height) := by
  refine Act.Refines.state_bind fun s t hst => ?_
  rw [hst.1]
  refine Act.Refines.guard _ ?_
  refine (update_matches _).bind fun _ => ?_
  refine Act.Matches.timed _ _ _ _ (fun _ _ h => h.2.2) (fun _ _ _ h => ⟨h.1, h.2.1, rfl⟩) ?_
  exact reporting_matches height h

omit [Store σ] [Store τ] in
theorem complete_matches (height : Int) :
    Act.Matches (Station.Related R) (complete height : Act (Station σ) Totals)
      (complete height) := by
  refine Act.Refines.state_bind fun s t hst => ?_
  rw [hst.1, hst.2.2]
  refine Act.Refines.guard _ ?_
  refine (update_matches _).bind fun _ => ?_
  refine (update_matches _).bind fun _ => ?_
  refine Act.Refines.state_bind fun s t hst => ?_
  rw [hst.1]
  refine (Act.Refines.lift _).bind fun _ => ?_
  exact (Act.Refines.log _ _).bind fun _ => .pure _

end Steps

end Pipeline

end BlockArchive
