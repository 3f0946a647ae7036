import BlockArchive.Proofs.Ingest.Noninterference
import BlockArchive.Proofs.Ingest.Reports
import BlockArchive.Proofs.Ingest.Spelling
import BlockArchive.Proofs.Store.Reticent

/-!
# Diagnostics and counters

The resolver reports each input whose output it finds nowhere, and the assembly of records each
output without an address. Rows are written one by one while a block is worked on; the counters come
from the records and from the tally of the block once it is written. Both tell the same.

* `Loss` and `Gap` are what there is to report, and `Loss.NamedBy` and `Gap.NamedBy` say what a row
  about it names. `Block.losses` and `Block.gaps` read them off the history, in the order of the
  transactions of a block;
* `Desk.Tells` says that the rows written between two desks are those of given losses and gaps;
* `Resolution.Diagnoses` is the judgement for acts that resolve, which count losses while they
  report them. `Pipeline.batchFrom_diagnoses` follows the transactions of a block;
* `Pipeline.Diagnosed` says as much of the counters of a run: `Pipeline.take_diagnosed` is about one
  block, and `Pipeline.takeAll_diagnosed` about any number of them.
-/

namespace BlockArchive

variable {σ τ υ α β : Type}

/-! ### What there is to report -/

/-- The row is one of the assembly of records. -/
def Row.isAssembly (r : Row) : Bool := r.category == some "records"

/-- The output is found nowhere: neither among the transactions of a block up to the one that spends
it nor in the archive. Where no output is spent none is looked for. -/
def OutPoint.isLost (archive : List TransactionRecord) (block : List Transaction)
    (source : OutPoint) : Bool :=
  !source.isNull && (produced? block source).isNone && (archived? archive source matches .ok none)

theorem OutPoint.isLost_eq {archive : List TransactionRecord} {block : List Transaction}
    {source : OutPoint} {found : Option Payment} (hnull : source.isNull = false)
    (hproduced : ∀ p, produced? block source = some p → found = some p)
    (harchived : produced? block source = none → archived? archive source = .ok found) :
    source.isLost archive block = found.isNone := by
  rw [isLost, hnull]
  cases hp : produced? block source with
  | some p =>
    rw [hproduced p hp]
    rfl
  | none =>
    rw [harchived hp]
    cases found <;> rfl

/-- An input whose output is lost. -/
structure Loss where
  /-- The transaction of the input. -/
  spender : Hash
  /-- The position of the input. -/
  index : Nat
  /-- The output that it spends. -/
  source : OutPoint

namespace Loss

/-- The row is the warning of the resolver about the loss: it names the spender, the position, and
hash and index of the output that is lost. -/
structure NamedBy (l : Loss) (r : Row) : Prop where
  level : r.level = .warning
  category : r.category = some "resolver"
  extra : r.extra = [("txid", .string l.spender.display), ("index_in", .nat l.index),
    ("hash_prev_out", .string l.source.hash.display), ("index_prev_out", .nat l.source.index)]

theorem namedBy_of_ok {spender : Hash} {index : Nat} {source : OutPoint} {row : Row}
    (h : Resolution.unresolvedRow spender.display index source = .ok row) :
    NamedBy ⟨spender, index, source⟩ row := by
  obtain ⟨key, -, hrow⟩ := Except.bind_ok h
  obtain rfl := Except.ok.inj hrow
  exact ⟨rfl, rfl, rfl⟩

/-- The losses among the inputs of a transaction that stand at given positions. -/
def among (archive : List TransactionRecord) (block : List Transaction) (spender : Hash)
    (inputs : List (TxInput × Nat)) : List Loss :=
  (inputs.filter fun x => x.1.source.isLost archive block).map fun x => ⟨spender, x.2, x.1.source⟩

theorem among_cons (archive : List TransactionRecord) (block : List Transaction) (spender : Hash)
    (input : TxInput) (index : Nat) (rest : List (TxInput × Nat)) :
    among archive block spender ((input, index) :: rest) =
      (if input.source.isLost archive block then [⟨spender, index, input.source⟩] else []) ++
        among archive block spender rest := by
  cases h : input.source.isLost archive block <;> simp [among, h]

end Loss

/-- An output without an address. -/
structure Gap where
  /-- The transaction of the output. -/
  producer : Hash
  /-- The position of the output. -/
  index : Nat
  /-- What its script was evaluated to. -/
  evaluation : Evaluation

/-- The row is the note of the assembly of records about the gap: it names the transaction, the
position and the pattern. -/
structure Gap.NamedBy (g : Gap) (r : Row) : Prop where
  level : r.level = .debug
  category : r.category = some "records"
  extra : r.extra = [("txid", .string g.producer.display), ("index_out", .nat g.index),
    ("pattern", g.evaluation.pattern)]

/-- The inputs of a transaction whose outputs are lost, in order. -/
def Transaction.losses (archive : List TransactionRecord) (block : List Transaction)
    (t : Transaction) : List Loss :=
  Loss.among archive block t.hash t.inputs.zipIdx

/-- The outputs of a transaction without an address, in order. -/
def Transaction.gaps (t : Transaction) : List Gap :=
  (t.outputs.zipIdx.filter fun x => !x.1.evaluation.address.isTruthy).map fun x =>
    ⟨t.hash, x.2, x.1.evaluation⟩

/-- The losses of transactions that stand in their block behind some others. -/
def Transaction.lossesFrom (archive : List TransactionRecord) :
    List Transaction → List Transaction → List Loss
  | _, [] => []
  | before, t :: rest =>
    t.losses archive (before ++ [t]) ++ lossesFrom archive (before ++ [t]) rest

/-- The losses of a block over an archive, in order. -/
def Block.losses (archive : List TransactionRecord) (b : Block) : List Loss :=
  Transaction.lossesFrom archive [] b.transactions

/-- The outputs of a block without an address, in order. -/
def Block.gaps (b : Block) : List Gap := b.transactions.flatMap Transaction.gaps

/-- The losses of blocks one after the other, where the archive grows by what is written of each. -/
def Block.lossesOver (archive : List TransactionRecord) :
    List Block → List (BlockRecord × List TransactionRecord) → List Loss
  | b :: bs, w :: ws => b.losses archive ++ lossesOver (archive ++ w.2) bs ws
  | _, _ => []

/-- An evaluation whose address is a text or nothing has a gap if that is empty or nothing. -/
theorem Evaluation.Typed.isTruthy_eq_false_iff {e : Evaluation} (h : e.Typed) :
    e.address.isTruthy = false ↔ e.address = .null ∨ e.address = .string "" := by
  obtain h | ⟨s, h⟩ := h <;> simp [h, Value.isTruthy]

theorem Evaluation.isTruthy_keptAddress (e : Evaluation) :
    e.keptAddress.isTruthy = e.address.isTruthy := by
  unfold keptAddress
  cases h : e.address.isTruthy with
  | true => exact h
  | false => rfl

/-- The outputs in a record that have no address are the gaps of its transaction. -/
theorem Transaction.Recorded.unrecognisedCount_outputs {blockHash : String} {t : Transaction}
    {r : TransactionRecord} (h : t.Recorded blockHash r) :
    unrecognisedCount r.outputs = t.gaps.length := by
  rw [h.outputs, unrecognisedCount, kept, List.mapIdx_eq_zipIdx_map, List.countP_map, gaps,
    List.length_map, ← List.countP_eq_length_filter]
  refine List.countP_congr fun x _ => ?_
  simp [KeptOutput.ofOutput, Evaluation.isTruthy_keptAddress]

theorem Transaction.unrecognisedCount_recorded {blockHash : String} {ts : List Transaction}
    {rs : List TransactionRecord} (h : List.Forall₂ (Transaction.Recorded blockHash) ts rs) :
    unrecognisedCount (rs.flatMap TransactionRecord.outputs) =
      (ts.flatMap Transaction.gaps).length := by
  induction h with
  | nil => rfl
  | cons hr _ ih =>
    rw [List.flatMap_cons, List.flatMap_cons, List.length_append, ← ih,
      ← hr.unrecognisedCount_outputs]
    exact List.countP_append

/-! ### Rows about losses and gaps -/

/-- Between the desks the resolver has written about the losses, and the assembly about the gaps:
one row for each, in order, and no other. -/
structure Desk.Tells (d : Desk σ) (e : Desk τ) (losses : List Loss) (gaps : List Gap) : Prop where
  resolver : ∃ rows, d.Adds Row.isResolver e rows ∧ List.Forall₂ Loss.NamedBy losses rows
  assembly : ∃ rows, d.Adds Row.isAssembly e rows ∧ List.Forall₂ Gap.NamedBy gaps rows

namespace Desk.Tells

variable {d : Desk σ} {e : Desk τ} {f : Desk υ} {xs ys : List Loss} {gs gs' : List Gap}

theorem of_quiet (h : d.Adds Row.isDiagnosis e []) : d.Tells e [] [] := by
  refine ⟨⟨[], h.nil_of_imp fun r hr => ?_, .nil⟩, ⟨[], h.nil_of_imp fun r hr => ?_, .nil⟩⟩
  · rw [Row.isDiagnosis, Bool.or_eq_true]
    exact .inl hr
  · rw [Row.isDiagnosis, Bool.or_eq_true]
    exact .inr hr

theorem trans (h : d.Tells e xs gs) (h' : e.Tells f ys gs') :
    d.Tells f (xs ++ ys) (gs ++ gs') := by
  obtain ⟨⟨rows, hrows, hnamed⟩, ⟨notes, hnotes, hgaps⟩⟩ := h
  obtain ⟨⟨rows', hrows', hnamed'⟩, ⟨notes', hnotes', hgaps'⟩⟩ := h'
  exact ⟨⟨_, hrows.trans hrows', List.rel_append hnamed hnamed'⟩,
    ⟨_, hnotes.trans hnotes', List.rel_append hgaps hgaps'⟩⟩

theorem then_quiet (h : d.Tells e xs gs) (h' : e.Adds Row.isDiagnosis f []) : d.Tells f xs gs := by
  have htells := h.trans (of_quiet h')
  rwa [List.append_nil, List.append_nil] at htells

theorem of_loss {l : Loss} {row : Row} (hrow : l.NamedBy row) (h : e.rows = d.rows ++ [row]) :
    d.Tells e [l] [] := by
  have hresolver : [row].filter Row.isResolver = [row] := by
    simp [Row.isResolver, hrow.category]
  have hassembly : [row].filter Row.isAssembly = [] := by
    simp [Row.isAssembly, hrow.category]
  exact ⟨⟨_, ⟨_, h, hresolver⟩, .cons hrow .nil⟩, ⟨_, ⟨_, h, hassembly⟩, .nil⟩⟩

theorem of_gaps {rows : List Row} (hrows : List.Forall₂ Gap.NamedBy gs rows)
    (h : e.rows = d.rows ++ rows) : d.Tells e [] gs := by
  have hcategory : ∀ r ∈ rows, r.category = some "records" := by
    intro r hr
    obtain ⟨j, hj, rfl⟩ := List.getElem_of_mem hr
    exact (hrows.get (hrows.length_eq ▸ hj) hj).category
  have hresolver : rows.filter Row.isResolver = [] :=
    List.filter_eq_nil_iff.2 fun r hr => by simp [Row.isResolver, hcategory r hr]
  have hassembly : rows.filter Row.isAssembly = rows :=
    List.filter_eq_self.2 fun r hr => by simp [Row.isAssembly, hcategory r hr]
  exact ⟨⟨_, ⟨_, h, hresolver⟩, .nil⟩, ⟨_, ⟨_, h, hassembly⟩, hrows⟩⟩

end Desk.Tells

theorem Transaction.gaps_named (t : Transaction) : List.Forall₂ Gap.NamedBy t.gaps
    (t.outputs.mapIdx fun j o => o.rows t.hash.display j).flatten := by
  rw [gaps, List.mapIdx_eq_zipIdx_map]
  induction t.outputs.zipIdx with
  | nil => exact .nil
  | cons x rest ih =>
    rw [List.map_cons, List.flatten_cons]
    cases h : x.1.evaluation.address.isTruthy with
    | true => simpa [EvaluatedOutput.rows, h] using ih
    | false =>
      have hnamed : Gap.NamedBy ⟨t.hash, x.2, x.1.evaluation⟩
          (x.1.evaluation.gapRow t.hash.display x.2) := ⟨rfl, rfl, rfl⟩
      simpa [EvaluatedOutput.rows, h, hnamed] using ih

/-! ### Resolving -/

namespace Resolution

section Rules

variable [Store σ] [Appending σ] {k : Contents} {xs ys : List Loss} {gs gs' : List Gap}
  {Q : α → Prop} {P : β → Prop}

/-- Where the act comes to an outcome over a store that keeps some records, that satisfies `Q`, the
store keeps them still, the rows written are about the losses and gaps, and losses are counted. -/
def Diagnoses (k : Contents) (xs : List Loss) (gs : List Gap) (Q : α → Prop)
    (a : Act (Resolution σ) α) : Prop :=
  ∀ d x, Appending.Keeps d.state.store k → (a.runAt d).1 = .ok x →
    Q x ∧ Appending.Keeps (a.runAt d).2.state.store k ∧ d.Tells (a.runAt d).2 xs gs ∧
      (a.runAt d).2.state.tally.unresolved = d.state.tally.unresolved + xs.length

namespace Diagnoses

theorem pure {x : α} (h : Q x) : Diagnoses k [] [] Q (Pure.pure x : Act (Resolution σ) α) := by
  rintro d _ hd ⟨⟩
  exact ⟨h, hd, .of_quiet (.refl d), (Int.add_zero _).symm⟩

theorem lift {r : Except Fault α} (h : ∀ x, r = .ok x → Q x) :
    Diagnoses k [] [] Q (Act.lift r : Act (Resolution σ) α) := by
  intro d x hd hx
  rw [Act.runAt_lift] at hx ⊢
  exact ⟨h x hx, hd, .of_quiet (.refl d), (Int.add_zero _).symm⟩

/-- Two acts in a row, where the second may count on what the first gives. -/
theorem bind {a : Act (Resolution σ) α} {f : α → Act (Resolution σ) β} (ha : Diagnoses k xs gs Q a)
    (hf : ∀ x, Q x → Diagnoses k ys gs' P (f x)) :
    Diagnoses k (xs ++ ys) (gs ++ gs') P (a >>= f) := by
  intro d y hd hy
  obtain ⟨x, hx, hy'⟩ := Act.runAt_bind_ok hy
  obtain ⟨hQ, hkept, htells, hcount⟩ := ha d x hd hx
  obtain ⟨hP, hkept', htells', hcount'⟩ := hf x hQ _ y hkept hy'
  have hrun : ((a >>= f).runAt d).2 = ((f x).runAt (a.runAt d).2).2 := by
    rw [Act.runAt_bind, hx]
  rw [hrun]
  refine ⟨hP, hkept', htells.trans htells', ?_⟩
  rw [hcount', hcount, List.length_append, Nat.cast_add, Int.add_assoc]

theorem bind_of_first {a : Act (Resolution σ) α} {f : α → Act (Resolution σ) β}
    (ha : Diagnoses k [] [] Q a) (hf : ∀ x, Q x → Diagnoses k xs gs P (f x)) :
    Diagnoses k xs gs P (a >>= f) := ha.bind hf

theorem bind_of_last {a : Act (Resolution σ) α} {f : α → Act (Resolution σ) β}
    (ha : Diagnoses k xs gs Q a) (hf : ∀ x, Q x → Diagnoses k [] [] P (f x)) :
    Diagnoses k xs gs P (a >>= f) := by
  have h := ha.bind hf
  rwa [List.append_nil, List.append_nil] at h

theorem and_ensures {a : Act (Resolution σ) α} (h : Diagnoses k xs gs (fun _ => True) a)
    (ha : Act.Ensures (fun r : Resolution σ => Appending.Keeps r.store k) Q a) :
    Diagnoses k xs gs Q a :=
  fun d x hd hx => ⟨(ha d hd).2 x hx, (h d x hd hx).2⟩

theorem tick {f : Tally → Tally} (hf : ∀ t, (f t).unresolved = t.unresolved) :
    Diagnoses k [] [] (fun _ => True) (Resolution.tick f : Act (Resolution σ) Unit) := by
  intro d _ hd _
  refine ⟨trivial, hd, .of_quiet (.of_rows_eq rfl), ?_⟩
  exact (hf d.state.tally).trans (Int.add_zero _).symm

theorem find [Reticent σ] (hash : String) :
    Diagnoses k [] [] (fun _ => True) (onStore (Store.find hash) : Act (Resolution σ) _) := by
  intro d _ hd _
  refine ⟨trivial, Appending.find_keeps hash (d := ⟨d.state.store, d.rows⟩) hd, ?_,
    (Int.add_zero _).symm⟩
  exact .of_quiet (Reticent.find_quiet hash ⟨d.state.store, d.rows⟩)

theorem keepOutputs (t : Transaction) :
    Diagnoses k [] t.gaps (· = t.kept) (t.keepOutputs : Act (Resolution σ) _) := by
  intro d x hd hx
  have hkept := Transaction.kept_of_keepOutputs_ok hx
  rw [Transaction.keepOutputs_runAt (Transaction.reportable_of_keepOutputs_ok hx)]
  exact ⟨hkept, hd, .of_gaps t.gaps_named rfl, (Int.add_zero _).symm⟩

theorem report (spender : Hash) (index : Nat) (source : OutPoint) (p : Payment) :
    Diagnoses k [⟨spender, index, source⟩] [] (fun _ => True) (do
      Resolution.tick fun t => { t with unresolved := t.unresolved + 1 }
      Act.log (← Act.lift (unresolvedRow spender.display index source))
      return p : Act (Resolution σ) Payment) := by
  intro d x hd hx
  obtain ⟨⟨⟩, -, hx⟩ := Act.runAt_bind_ok hx
  obtain ⟨row, hrow, -⟩ := Act.runAt_bind_ok hx
  rw [Act.runAt_lift] at hrow
  have hnamed := Loss.namedBy_of_ok hrow
  simp only [Act.runAt_bind, Act.runAt_lift, hrow]
  exact ⟨trivial, hd, .of_loss hnamed rfl, rfl⟩

end Diagnoses

end Rules

variable [Store σ] [Answering σ] [Reticent σ] {k : Contents}
  (hk : ∀ r ∈ k.transactions, Answering.Readable σ r)
include hk

theorem lookup_diagnoses (c : Cache) (source : OutPoint) :
    Diagnoses k [] []
      (fun found => (∀ p, c.get? (.ofOutPoint source) = some p → found = some p) ∧
        (c.get? (.ofOutPoint source) = none → archived? k.transactions source = .ok found))
      (lookup c source : Act (Resolution σ) _) := by
  refine Diagnoses.and_ensures ?_ (lookup_found hk c source)
  unfold lookup
  cases c.get? (.ofOutPoint source) with
  | some p => exact .bind_of_first (.tick fun _ => rfl) fun _ _ => .pure trivial
  | none =>
    refine .bind_of_first (.tick fun _ => rfl) fun _ _ => ?_
    refine .bind_of_first (.find _) fun found _ => ?_
    cases found with
    | none => exact .pure trivial
    | some stored =>
      refine .bind_of_first (.lift fun _ _ => trivial) fun output _ => ?_
      cases output with
      | none => exact .pure trivial
      | some p => exact .bind_of_first (.tick fun _ => rfl) fun _ _ => .pure trivial

/-- **An input is reported and counted if its output is lost.** -/
theorem payment_diagnoses (policy : CoinbasePolicy) (block : List Transaction) (spender : Hash)
    (index : Nat) (source : OutPoint) :
    Diagnoses k
      (if source.isLost k.transactions block then [⟨spender, index, source⟩] else []) []
      (fun _ => True)
      (payment policy (Cache.empty.after block) spender.display index source :
        Act (Resolution σ) _) := by
  unfold payment
  cases hnull : source.isNull with
  | true =>
    have hlost : source.isLost k.transactions block = false := by simp [OutPoint.isLost, hnull]
    simp only [hlost, Bool.false_eq_true, ↓reduceIte]
    exact .bind_of_first (.tick fun _ => rfl) fun _ _ => .pure trivial
  | false =>
    simp only [Bool.false_eq_true, ↓reduceIte]
    refine .bind_of_first (lookup_diagnoses hk _ source) fun found ⟨hcached, harchived⟩ => ?_
    rw [Cache.get?_after] at hcached harchived
    rw [OutPoint.isLost_eq hnull hcached harchived]
    cases found with
    | some p => exact .pure trivial
    | none => exact .report spender index source _

theorem resolveFrom_diagnoses (policy : CoinbasePolicy) (block : List Transaction) (spender : Hash)
    (index : Nat) (inputs : List TxInput) :
    Diagnoses k (Loss.among k.transactions block spender (inputs.zipIdx index)) [] (fun _ => True)
      (resolveFrom policy (Cache.empty.after block) spender.display index inputs :
        Act (Resolution σ) _) := by
  induction inputs generalizing index with
  | nil => exact .pure trivial
  | cons input rest ih =>
    rw [List.zipIdx_cons, Loss.among_cons]
    have hfirst : Diagnoses k
        (if input.source.isLost k.transactions block then [⟨spender, index, input.source⟩] else [])
        [] (fun _ => True)
        (resolve policy (Cache.empty.after block) spender.display index input :
          Act (Resolution σ) _) :=
      (payment_diagnoses hk policy block spender index input.source).bind_of_last fun _ _ =>
        .pure trivial
    exact hfirst.bind fun _ _ => (ih (index + 1)).bind_of_last fun _ _ => .pure trivial

end Resolution

namespace Pipeline

section Blocks

variable [Store σ] [Answering σ] [Reticent σ] {k : Contents}
  (hk : ∀ r ∈ k.transactions, Answering.Readable σ r)
include hk

/-- The transactions behind some others of a block are diagnosed one after the other. -/
theorem batchFrom_diagnoses (policy : CoinbasePolicy) (blockHash : String)
    (before ts : List Transaction) :
    Resolution.Diagnoses k (Transaction.lossesFrom k.transactions before ts)
      (ts.flatMap Transaction.gaps) (fun _ => True)
      (batchFrom policy blockHash (Cache.empty.after before) ts : Act (Resolution σ) _) := by
  induction ts generalizing before with
  | nil => exact .pure trivial
  | cons t rest ih =>
    have hcache : (Cache.empty.after before).enter t = Cache.empty.after (before ++ [t]) := by
      rw [Cache.after_append, Cache.after_cons, Cache.after_nil]
    have hinputs := Resolution.resolveFrom_diagnoses hk policy (before ++ [t]) t.hash 0 t.inputs
    -- first the gaps of the transaction, then its losses
    rw [batchFrom_cons, hcache, Transaction.lossesFrom, List.flatMap_cons,
      ← List.nil_append (t.losses _ _ ++ _)]
    refine (Resolution.Diagnoses.keepOutputs t).bind fun _ _ => hinputs.bind fun _ _ => ?_
    exact (ih (before ++ [t])).bind_of_last fun _ _ => .pure trivial

theorem resolveOver_diagnosed {policy : CoinbasePolicy} {b : Block} {d : Desk σ}
    {x : List TransactionRecord × Tally} (hd : Appending.Keeps d.state k)
    (h : ((resolveOver policy b).runAt d).1 = .ok x) :
    d.Tells ((resolveOver policy b).runAt d).2 (b.losses k.transactions) b.gaps ∧
      x.2.unresolved = (b.losses k.transactions).length := by
  simp only [resolveOver, Act.runAt_within, Act.runAt_bind] at h ⊢
  cases hbatch : ((batch policy b).runAt ⟨⟨d.state, {}⟩, d.rows⟩).1 with
  | error f => simp [hbatch] at h
  | ok records =>
    obtain ⟨-, -, htells, hcount⟩ :=
      batchFrom_diagnoses hk policy b.header.hash.display [] b.transactions _ _ hd hbatch
    simp only [hbatch, Act.runAt_state, Act.runAt_pure, Except.ok.injEq] at h ⊢
    subst h
    exact ⟨⟨htells.resolver, htells.assembly⟩, hcount.trans (Int.zero_add _)⟩

theorem deposit_diagnosed {policy : CoinbasePolicy} {b : Block} {height : Int} {d : Desk σ}
    {x : List TransactionRecord × Tally} (hd : Appending.Keeps d.state k)
    (h : ((deposit policy b height).runAt d).1 = .ok x) :
    d.Tells ((deposit policy b height).runAt d).2 (b.losses k.transactions) b.gaps ∧
      x.2.unresolved = (b.losses k.transactions).length := by
  have hresolved := deposit_resolved h
  obtain ⟨htells, hcount⟩ := resolveOver_diagnosed hk hd hresolved
  have hwrites : Act.Quiet Row.isDiagnosis (do
      Store.insertBlock (.ofBlock b (.int height))
      if !x.1.isEmpty then Store.insertTransactions x.1
      return x : Act σ _) := by
    refine (Reticent.insertBlock_quiet _).bind fun _ => ?_
    split
    · exact (Reticent.insertTransactions_quiet _).bind fun _ => .pure x
    · exact .pure x
  refine ⟨?_, hcount⟩
  rw [deposit, Act.runAt_bind, hresolved]
  exact htells.then_quiet (hwrites _)

end Blocks

/-! ### Taking in blocks -/

section Taking

variable [Store σ]

/-- Once the deposit of a block has come about, the pipeline reports in its own name only. -/
theorem ingest_adds {b : Block} {height : Int} {d : Desk (Station σ)}
    {x : List TransactionRecord × Tally}
    (h : ((deposit d.state.pipeline.policy b height).runAt ⟨d.state.store, d.rows⟩).1 = .ok x) :
    ((deposit d.state.pipeline.policy b height).runAt ⟨d.state.store, d.rows⟩).2.Adds
      Row.isDiagnosis ((ingest b height).runAt d).2 [] := by
  rw [ingest_runAt_deposit, Act.runAt_bind, onStore, Act.runAt_within, h]
  exact ⟨[_], rfl, rfl⟩

theorem take_adds {b : Block} {height : Int} {d : Desk (Station σ)}
    (hok : ((take b height).runAt d).1 = .ok ()) :
    ((deposit d.state.pipeline.policy b height).runAt ⟨d.state.store, d.rows⟩).2.Adds
      Row.isDiagnosis ((take b height).runAt d).2 [] := by
  have hp := accepts_of_take_ok hok
  obtain ⟨x, hdeposit⟩ := (take_ok_iff b height hp).1 hok
  have hingest : ((ingest b height).runAt (taken d)).1 = .ok () :=
    (ingest_deposit b height (taken d)).1.trans (congrArg (Except.map fun _ => ()) hdeposit)
  have hrows : ((take b height).runAt d).2.rows = ((ingest b height).runAt (taken d)).2.rows ++
      [Clock.durationRow "pipeline" "ingest_block" (some (.whole d.state.pipeline.slowBlock))
        [("height", .int height), ("tx_count", .nat b.transactions.length)]
        (Clock.milliseconds d.state.clock.tick.1
          ((ingest b height).runAt (taken d)).2.state.clock.tick.1)] := by
    rw [take_runAt_of_accepts b height hp, Act.timed_runAt, ← reporting_runAt_of_ok hingest]
    rfl
  refine (ingest_adds (d := taken d) hdeposit).trans ⟨_, hrows, ?_⟩
  refine List.filter_cons_of_neg ?_
  simp [Row.isDiagnosis, Clock.category_durationRow]

end Taking

/-- What a run has reported and counted between two desks: the losses and the gaps. -/
structure Diagnosed (d e : Desk (Station σ)) (losses : List Loss) (gaps : List Gap) : Prop where
  rows : d.Tells e losses gaps
  unresolved : e.state.pipeline.totals.tally.unresolved =
    d.state.pipeline.totals.tally.unresolved + losses.length
  unrecognised : e.state.pipeline.totals.unrecognised =
    d.state.pipeline.totals.unrecognised + gaps.length

namespace Diagnosed

variable {d e f : Desk (Station σ)} {xs ys : List Loss} {gs gs' : List Gap}

theorem refl (d : Desk (Station σ)) : Diagnosed d d [] [] :=
  ⟨.of_quiet (.refl d), (Int.add_zero _).symm, (Int.add_zero _).symm⟩

theorem trans (h : Diagnosed d e xs gs) (h' : Diagnosed e f ys gs') :
    Diagnosed d f (xs ++ ys) (gs ++ gs') := by
  refine ⟨h.rows.trans h'.rows, ?_, ?_⟩
  · rw [h'.unresolved, h.unresolved, List.length_append, Nat.cast_add, Int.add_assoc]
  · rw [h'.unrecognised, h.unrecognised, List.length_append, Nat.cast_add, Int.add_assoc]

end Diagnosed

variable [Store σ] [Answering σ] [Reticent σ] {k : Contents}
  (hk : ∀ r ∈ k.transactions, Answering.Readable σ r)
include hk

/-- **A block that is taken in is diagnosed.** -/
theorem take_diagnosed {b : Block} {height : Int} {d : Desk (Station σ)}
    (hd : Appending.Keeps d.state.store k) (hok : ((take b height).runAt d).1 = .ok ()) :
    Diagnosed d ((take b height).runAt d).2 (b.losses k.transactions) b.gaps := by
  obtain ⟨x, hdeposit, hpipeline⟩ := take_ok_pipeline (accepts_of_take_ok hok) hok
  obtain ⟨htells, hcount⟩ := deposit_diagnosed hk (d := ⟨d.state.store, d.rows⟩) hd hdeposit
  have hrecorded := (deposit_recorded hdeposit).1
  refine ⟨?_, ?_, ?_⟩
  · exact Desk.Tells.then_quiet ⟨htells.resolver, htells.assembly⟩ (take_adds hok)
  · rw [hpipeline, count, Tally.add_eq, Tally.unresolved_add, hcount]
  · rw [hpipeline, count, Transaction.unrecognisedCount_recorded hrecorded, Block.gaps]

/-- **Diagnostics and counters tell the same.** Blocks are taken in one after the other over a store
that answers from what it keeps, and what it keeps can be given back. In the order of blocks,
transactions and positions, the resolver writes one row for each input whose output is lost, and the
assembly one for each output without an address: the rows of either are no others, and their numbers
are what the counters have grown by. Where addresses are texts or nothing, an output is without one
if it is nothing or empty. -/
theorem takeAll_diagnosed {blocks : List (Block × Int)} {d : Desk (Station σ)}
    (hblocks : (∀ r, Answering.Readable σ r) ∨ ∀ b ∈ blocks, b.1.Addressed)
    (hd : Appending.Keeps d.state.store k) (hok : ((takeAll blocks).runAt d).1 = .ok ()) :
    (∃ written, List.Forall₂ Block.Kept (blocks.map Prod.fst) written ∧
      Appending.Keeps ((takeAll blocks).runAt d).2.state.store (k.extend written) ∧
      Diagnosed d ((takeAll blocks).runAt d).2
        (Block.lossesOver k.transactions (blocks.map Prod.fst) written)
        ((blocks.map Prod.fst).flatMap Block.gaps)) ∧
      ∀ b ∈ blocks, b.1.Addressed → ∀ t ∈ b.1.transactions, ∀ o ∈ t.outputs,
        (o.evaluation.address.isTruthy = false ↔
          o.evaluation.address = .null ∨ o.evaluation.address = .string "") := by
  refine ⟨?_, fun b _ hb t ht o ho => (hb t ht o ho).isTruthy_eq_false_iff⟩
  induction blocks generalizing d k with
  | nil =>
    refine ⟨[], .nil, ?_, .refl d⟩
    rw [k.extend_nil]
    exact hd
  | cons x rest ih =>
    obtain ⟨b, height⟩ := x
    obtain ⟨⟨⟩, htake, hrest⟩ := Act.runAt_bind_ok hok
    obtain ⟨x, -, hblock, hkeeps, hback⟩ := take_kept hd htake
    have hk' : ∀ r ∈ ((k.addBlock (.ofBlock b (.int height))).addTransactions x.1).transactions,
        Answering.Readable σ r := by
      obtain hall | haddressed := hblocks
      · exact fun r _ => hall r
      · exact hback (haddressed _ List.mem_cons_self) hk
    have hblocks' := hblocks.imp_right fun h b hb => h b (List.mem_cons_of_mem _ hb)
    obtain ⟨written, hwritten, hkept, hdiagnosed⟩ := ih hk' hblocks' hkeeps hrest
    have hrun : (takeAll ((b, height) :: rest)).runAt d =
        (takeAll rest).runAt ((take b height).runAt d).2 := by
      rw [takeAll, Act.runAt_bind, htake]
    rw [hrun]
    refine ⟨(.ofBlock b (.int height), x.1) :: written, .cons hblock hwritten, ?_, ?_⟩
    · rw [k.extend_cons]
      exact hkept
    · exact (take_diagnosed hk hd htake).trans hdiagnosed

omit hk in
/-- Of two blocks over an empty memory the first has an output without an address, and an input
whose output is lost. The next input spends that output of the block, and the last spends none. -/
theorem takeAll_diagnosed_hops :
    let a := Hash.repeated 1
    let b := Hash.repeated 2
    let blocks := [(Block.holding [.hop b ⟨a, 3⟩ 5 "", .hop (.repeated 3) ⟨b, 0⟩ 4 "third"], 7),
      (.holding [.hop (.repeated 4) ⟨.null, 0⟩ 3 "fourth"], 8)]
    let e := ((takeAll blocks).runAt (ready [])).2
    ((takeAll blocks).runAt (ready [])).1 = .ok () ∧
      Diagnosed (ready []) e [⟨b, 0, ⟨a, 3⟩⟩] [⟨b, 0, ⟨.string "", .null⟩⟩] ∧
      e.state.pipeline.totals.tally.unresolved = 1 ∧ e.state.pipeline.totals.unrecognised = 1 := by
  intro a b blocks e
  have hok : ((takeAll blocks).runAt (ready [])).1 = .ok () := by
    have htaken : ((takeAll blocks).runAt (ready [])).1.isOk = true := by decide +kernel
    obtain ⟨⟨⟩, h⟩ := Act.exists_of_isOk htaken
    exact h
  obtain ⟨⟨written, hwritten, -, hdiagnosed⟩, -⟩ :=
    takeAll_diagnosed (k := ⟨[], []⟩) nofun (.inl fun _ => trivial) rfl hok
  obtain ⟨w, ws, -, hrest, rfl⟩ := List.forall₂_cons_left_iff.1 hwritten
  obtain ⟨w', ws', -, -, rfl⟩ := List.forall₂_cons_left_iff.1 hrest
  exact ⟨hok, hdiagnosed, hdiagnosed.unresolved, hdiagnosed.unrecognised⟩

end Pipeline

end BlockArchive
