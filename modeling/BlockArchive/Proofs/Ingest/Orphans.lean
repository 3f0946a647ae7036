import BlockArchive.Proofs.Ingest.History
import BlockArchive.Proofs.Ingest.Ledger
import BlockArchive.Proofs.Ingest.Lookups
import BlockArchive.Proofs.Store.Appending

/-!
# No transaction without its block

A block is written before its transactions, and states how many there are. So whatever pipelines do
to a store one after the other, and whichever calls fail on the way, after every single call there
are at most as many transactions of blocks with a hash as the blocks with that hash state. Between
blocks, those that are missing are the ones of the batches that could not be written.

* `Contents.kept` and `Contents.announced` count by the hash of a block, and `Contents.Covered` says
  that every transaction is accounted for by a block;
* `Watched` is a store that notes how it was left by each call, and the batches that were lost;
* `Watched.Sound` is what each signal keeps: what blocks announce is kept or lost
  (`Contents.Balanced`), and was covered after every call;
* `Turn.follow_sound` carries this through any signals to any pipelines, and
  `Turn.follow_covered` is the result.
-/

namespace BlockArchive

variable {σ α : Type}

/-! ### Counting by the hash of a block -/

/-- The transaction is one of a block with the hash. -/
def TransactionRecord.isOf (hash : String) (r : TransactionRecord) : Bool :=
  match r.blockHash with
  | .string s => s == hash
  | _ => false

/-- The block has the hash. -/
def BlockRecord.bears (hash : String) (b : BlockRecord) : Bool :=
  match b.hash with
  | .string s => s == hash
  | _ => false

/-- The number of transactions that the block states. -/
def BlockRecord.announced (b : BlockRecord) : Nat :=
  match b.transactionCount with
  | .int n => n.toNat
  | _ => 0

theorem TransactionRecord.isOf_iff {hash : String} {r : TransactionRecord} :
    r.isOf hash = true ↔ r.blockHash = .string hash := by
  unfold isOf
  split <;> simp_all

namespace Contents

/-- How many transactions are kept of blocks with the hash. -/
def kept (k : Contents) (hash : String) : Nat :=
  k.transactions.countP (TransactionRecord.isOf hash)

/-- How many transactions the blocks with the hash state together. -/
def announced (k : Contents) (hash : String) : Nat :=
  ((k.blocks.filter (BlockRecord.bears hash)).map BlockRecord.announced).sum

/-- No more transactions are kept than blocks state, and for each its block is there. -/
structure Covered (k : Contents) : Prop where
  counts : ∀ hash, k.kept hash ≤ k.announced hash
  blocks : ∀ r ∈ k.transactions, ∃ b ∈ k.blocks, b.hash = r.blockHash

/-- What the blocks announce is kept or was lost. -/
def Balanced (k : Contents) (lost : List (List TransactionRecord)) : Prop :=
  ∀ hash, k.announced hash = k.kept hash + lost.flatten.countP (TransactionRecord.isOf hash)

theorem Covered.empty : Covered ⟨[], []⟩ := ⟨fun _ => Nat.le_refl _, nofun⟩

/-- The number of transactions that a block adds to a hash. -/
def share (b : Block) (hash : String) : Nat :=
  if b.header.hash.display = hash then b.transactions.length else 0

theorem announced_addBlock (k : Contents) (b : Block) (height : Value) (hash : String) :
    (k.addBlock (.ofBlock b height)).announced hash = k.announced hash + share b hash := by
  have hbears : (BlockRecord.ofBlock b height).bears hash =
      decide (b.header.hash.display = hash) := Bool.beq_eq_decide_eq _ _
  simp only [announced, addBlock, List.filter_append, List.map_append, List.sum_append, share,
    List.filter_cons, hbears]
  by_cases h : b.header.hash.display = hash
  · simp [h, BlockRecord.announced, BlockRecord.ofBlock, Value.nat]
  · simp [h]

@[simp] theorem kept_addBlock (k : Contents) (r : BlockRecord) (hash : String) :
    (k.addBlock r).kept hash = k.kept hash := rfl

@[simp] theorem announced_addTransactions (k : Contents) (rs : List TransactionRecord)
    (hash : String) : (k.addTransactions rs).announced hash = k.announced hash := rfl

theorem kept_addTransactions (k : Contents) (rs : List TransactionRecord) (hash : String) :
    (k.addTransactions rs).kept hash = k.kept hash + rs.countP (TransactionRecord.isOf hash) := by
  simp [kept, addTransactions]

end Contents

namespace Contents

/-- The batch of a block has as many transactions as the block adds to its hash. -/
theorem countP_batch {b : Block} {ts : List Transaction} {rs : List TransactionRecord}
    (h : List.Forall₂ (Transaction.Recorded b.header.hash.display) ts rs) (hash : String) :
    rs.countP (TransactionRecord.isOf hash) =
      if b.header.hash.display = hash then ts.length else 0 := by
  induction h with
  | nil => simp
  | @cons t r _ _ hr _ ih =>
    have hof : r.isOf hash = decide (b.header.hash.display = hash) := by
      rw [TransactionRecord.isOf, hr.blockHash]
      exact Bool.beq_eq_decide_eq _ _
    rw [List.countP_cons, ih, hof]
    by_cases hhash : b.header.hash.display = hash <;> simp [hhash]

end Contents

/-! ### Watching a store -/

/-- A store that is watched. -/
structure Watched (σ : Type) where
  /-- The store. -/
  store : σ
  /-- How each call left the store, in order. -/
  passed : List σ := []
  /-- The batches that could not be written. -/
  lost : List (List TransactionRecord) := []

namespace Watched

/-- The batches that are lost once a call of an outcome was made. -/
def lose (lost batches : List (List TransactionRecord)) : Except Fault α →
    List (List TransactionRecord)
  | .ok _ => lost
  | .error _ => lost ++ batches

@[simp] theorem lose_nil (lost : List (List TransactionRecord)) (r : Except Fault α) :
    lose lost [] r = lost := by
  cases r with
  | ok x => rfl
  | error f => exact List.append_nil lost

/-- Makes a call, and notes how it leaves the store and which batches are lost if it fails. -/
def call (batches : List (List TransactionRecord)) (a : Act σ α) : Act (Watched σ) α := do
  let outcome ← Act.attempt (Act.within store (fun s w => { w with store := s }) a)
  Act.update fun w =>
    { w with passed := w.passed ++ [w.store], lost := lose w.lost batches outcome }
  Act.lift outcome

instance [Store σ] : Store (Watched σ) where
  probe := call [] Store.probe
  insertBlock r := call [] (Store.insertBlock r)
  insertTransactions rs := call [rs] (Store.insertTransactions rs)
  find hash := call [] (Store.find hash)

theorem call_runAt (batches : List (List TransactionRecord)) (a : Act σ α)
    (d : Desk (Watched σ)) :
    (call batches a).runAt d =
      let r := a.runAt ⟨d.state.store, d.rows⟩
      (r.1, ⟨⟨r.2.state, d.state.passed ++ [r.2.state], lose d.state.lost batches r.1⟩,
        r.2.rows⟩) := by
  simp only [call, Act.runAt_bind, Act.runAt_attempt, Act.runAt_within, Act.runAt_update,
    Act.runAt_lift]

variable [Store σ] [Appending σ]

/-- What blocks announce is kept or was lost, all that is kept is covered, and so it was after every
call. -/
structure Sound (w : Watched σ) : Prop where
  passed : ∀ s ∈ w.passed, ∃ k, Appending.Keeps s k ∧ k.Covered
  now : ∃ k, Appending.Keeps w.store k ∧ k.Covered ∧ k.Balanced w.lost

theorem covered_noted {passed : List σ}
    (hpassed : ∀ s ∈ passed, ∃ k, Appending.Keeps s k ∧ k.Covered) {s : σ} {k : Contents}
    (hkeeps : Appending.Keeps s k) (hcovered : k.Covered) :
    ∀ t ∈ passed ++ [s], ∃ k, Appending.Keeps t k ∧ k.Covered :=
  List.forall_mem_append.2 ⟨hpassed, List.forall_mem_singleton.2 ⟨k, hkeeps, hcovered⟩⟩

theorem Sound.noted {passed : List σ}
    (hpassed : ∀ s ∈ passed, ∃ k, Appending.Keeps s k ∧ k.Covered) {s : σ} {k : Contents}
    (hkeeps : Appending.Keeps s k) (hcovered : k.Covered)
    {lost : List (List TransactionRecord)} (hbalanced : k.Balanced lost) :
    Sound ⟨s, passed ++ [s], lost⟩ :=
  ⟨covered_noted hpassed hkeeps hcovered, k, hkeeps, hcovered, hbalanced⟩

theorem Sound.call {d : Desk (Watched σ)} (h : d.state.Sound) {a : Act σ α}
    (ha : ∀ {e : Desk σ} {k : Contents}, Appending.Keeps e.state k →
      Appending.Keeps (a.runAt e).2.state k) :
    ((call [] a).runAt d).2.state.Sound := by
  obtain ⟨hpassed, k, hkeeps, hcovered, hbalanced⟩ := h
  have hkeeps' := ha (e := ⟨d.state.store, d.rows⟩) hkeeps
  simp only [call_runAt, lose_nil]
  exact .noted hpassed hkeeps' hcovered hbalanced

theorem probe_yields :
    Act.Yields Sound (fun _ => True) (fun _ => True) (Store.probe : Act (Watched σ) Unit) := by
  intro d hd
  refine ⟨hd.call Appending.probe_keeps, ?_⟩
  cases ((Store.probe : Act (Watched σ) Unit).runAt d).1 <;> trivial

theorem find_yields (hash : String) :
    Act.Yields Sound (fun _ => True) (fun _ => True) (Store.find hash : Act (Watched σ) _) := by
  intro d hd
  refine ⟨hd.call (Appending.find_keeps hash), ?_⟩
  cases ((Store.find hash : Act (Watched σ) _).runAt d).1 <;> trivial

end Watched

/-! ### Taking in a block -/

namespace Contents

variable {k : Contents} {b : Block} {height : Value} {rs : List TransactionRecord}

theorem Covered.addBlock (h : k.Covered) : (k.addBlock (.ofBlock b height)).Covered := by
  refine ⟨fun hash => ?_, fun r hr => ?_⟩
  · rw [announced_addBlock, kept_addBlock]
    exact Nat.le_add_right_of_le (h.counts hash)
  · obtain ⟨c, hc, hhash⟩ := h.blocks r hr
    exact ⟨c, List.mem_append_left _ hc, hhash⟩

/-- What was covered before a block is still with the block and its batch. -/
theorem Covered.addBatch (h : k.Covered)
    (hrs : List.Forall₂ (Transaction.Recorded b.header.hash.display) b.transactions rs) :
    ((k.addBlock (.ofBlock b height)).addTransactions rs).Covered := by
  refine ⟨fun hash => ?_, fun r hr => ?_⟩
  · rw [kept_addTransactions, announced_addTransactions, announced_addBlock, countP_batch hrs]
    exact Nat.add_le_add_right (h.counts hash) _
  · rcases List.mem_append.1 hr with hr | hr
    · obtain ⟨c, hc, hhash⟩ := h.blocks r hr
      exact ⟨c, List.mem_append_left _ hc, hhash⟩
    · refine ⟨.ofBlock b height, List.mem_append_right _ (List.mem_singleton_self _), ?_⟩
      exact (Transaction.blockHash_of_recorded hrs r hr).symm

theorem Balanced.addBatch {lost : List (List TransactionRecord)} (h : k.Balanced lost)
    (hrs : List.Forall₂ (Transaction.Recorded b.header.hash.display) b.transactions rs) :
    ((k.addBlock (.ofBlock b height)).addTransactions rs).Balanced lost := by
  intro hash
  rw [kept_addTransactions, announced_addTransactions, announced_addBlock, kept_addBlock, h hash,
    countP_batch hrs, share, Nat.add_right_comm]

theorem Balanced.loseBatch {lost : List (List TransactionRecord)} (h : k.Balanced lost)
    (hrs : List.Forall₂ (Transaction.Recorded b.header.hash.display) b.transactions rs) :
    (k.addBlock (.ofBlock b height)).Balanced (lost ++ [rs]) := by
  intro hash
  rw [announced_addBlock, kept_addBlock, h hash, List.flatten_append, List.countP_append,
    List.flatten_singleton, countP_batch hrs, share, Nat.add_assoc]

end Contents

namespace Pipeline

variable [Store σ] [Appending σ]

/-- **Whatever comes of a block, what blocks announce is kept or lost**, and all that is kept was
covered after every call. -/
theorem deposit_sound (policy : CoinbasePolicy) (b : Block) (height : Int) {d : Desk (Watched σ)}
    (h : d.state.Sound) : ((deposit policy b height).runAt d).2.state.Sound := by
  have hfind : ∀ hash, Act.Yields Watched.Sound
      (∀ t ∈ ·, StoredTransaction.Faulty (fun _ => True) t) (fun _ => True)
      (Store.find hash : Act (Watched σ) _) :=
    fun hash => (Watched.find_yields hash).imp (fun _ _ _ _ _ _ => trivial) fun _ => id
  have hresolve := (resolveOver_yields hfind policy (b := b) (.inr trivial) d h).1
  rw [deposit, Act.runAt_bind]
  cases hx : ((resolveOver policy b).runAt d).1 with
  | error f => exact hresolve
  | ok x =>
    have hrecorded := (resolveOver_recorded hx).1
    have hnamed := resolveOver_named hx
    dsimp only
    generalize ((resolveOver policy b).runAt d).2 = e at hresolve ⊢
    obtain ⟨hpassed, k, hkeeps, hcovered, hbalanced⟩ := hresolve
    -- the block is written first
    have hblock := Appending.insertBlock_keeps (r := .ofBlock b (.int height))
      (d := ⟨e.state.store, e.rows⟩) ⟨_, rfl⟩ hkeeps
    rw [Act.runAt_bind]
    simp only [Store.insertBlock, Watched.call_runAt, Watched.lose_nil]
    generalize (Store.insertBlock (.ofBlock b (.int height))).runAt ⟨e.state.store, e.rows⟩ = run
      at hblock ⊢
    obtain ⟨outcome, e'⟩ := run
    cases outcome with
    | error f => exact .noted hpassed hblock hcovered hbalanced
    | ok _ =>
      have hcovered' : (k.addBlock (.ofBlock b (.int height))).Covered := hcovered.addBlock
      have hpassed' := Watched.covered_noted hpassed hblock hcovered'
      dsimp only
      cases hempty : x.1.isEmpty with
      | true =>
        have hbalanced' : ((k.addBlock (.ofBlock b (.int height))).addTransactions x.1).Balanced
            e.state.lost := hbalanced.addBatch hrecorded
        rw [List.isEmpty_iff.1 hempty, Contents.addTransactions_nil] at hbalanced'
        exact ⟨hpassed', _, hblock, hcovered', hbalanced'⟩
      | false =>
        have hbatch := Appending.insertTransactions_keeps hnamed (d := e') hblock
        simp only [Bool.not_false, ↓reduceIte, Act.runAt_bind, Store.insertTransactions,
          Watched.call_runAt]
        generalize (Store.insertTransactions x.1).runAt e' = run at hbatch ⊢
        obtain ⟨outcome, e''⟩ := run
        cases outcome with
        | ok _ =>
          exact .noted hpassed' hbatch (hcovered.addBatch hrecorded) (hbalanced.addBatch hrecorded)
        | error f => exact .noted hpassed' hbatch hcovered' (hbalanced.loseBatch hrecorded)

end Pipeline

/-! ### Any signals to any pipelines -/

/-- What can happen to a store: a signal is given to the pipeline over it, or another pipeline takes
the place of that one. -/
inductive Turn where
  /-- A signal is given. -/
  | signal (s : Signal)
  /-- A new pipeline takes over. -/
  | renew (policy : CoinbasePolicy) (slowBlock : Int) (now : Quantity)

namespace Turn

section Follow

variable [Store σ]

/-- What is done. -/
def act : Turn → Act (Station σ) Unit
  | signal s => s.act
  | renew policy slowBlock now => Pipeline.update fun _ => .idle policy slowBlock now

/-- The desk after some turns. One that stops does not keep the others from being taken. -/
def follow : List Turn → Desk (Station σ) → Desk (Station σ)
  | [], d => d
  | t :: rest, d => follow rest (t.act.runAt d).2

theorem complete_store (height : Int) (d : Desk (Station σ)) :
    (((Signal.complete height).act : Act (Station σ) Unit).runAt d).2.state.store =
      d.state.store := by
  have hdesk : (((Signal.complete height).act : Act (Station σ) Unit).runAt d).2 =
      ((Pipeline.complete height).runAt d).2 := by
    simp only [Signal.act, Act.runAt_bind]
    cases ((Pipeline.complete height).runAt d).1 <;> rfl
  rw [hdesk]
  cases hp : d.state.pipeline.phase.accepts with
  | true => rw [Pipeline.complete_state height hp]
  | false => rw [Pipeline.complete_rejected height hp]

end Follow

variable [Store σ] [Appending σ]

/-- **Every turn keeps what blocks announce kept or lost.** -/
theorem act_sound (t : Turn) {d : Desk (Station (Watched σ))} (h : d.state.store.Sound) :
    (t.act.runAt d).2.state.store.Sound := by
  cases t with
  | renew policy slowBlock now => exact h
  | signal s =>
    cases s with
    | start coin height =>
      rcases Pipeline.start_cases coin height d with ⟨f, hrun⟩ | ⟨-, c, rows, -, -, hstate⟩
      · rw [act, Signal.act, hrun]
        exact h
      · rw [act, Signal.act, hstate]
        exact (Watched.probe_yields ⟨d.state.store, rows⟩ h).1
    | take b height =>
      cases hp : d.state.pipeline.phase.accepts with
      | true =>
        rw [act, Signal.act, Pipeline.take_store_deposit b height hp]
        exact Pipeline.deposit_sound d.state.pipeline.policy b height h
      | false =>
        rw [act, Signal.act, Pipeline.take_rejected b height hp]
        exact h
    | complete height =>
      rw [act, complete_store height d]
      exact h

theorem follow_sound (turns : List Turn) {d : Desk (Station (Watched σ))}
    (h : d.state.store.Sound) : (follow turns d).state.store.Sound := by
  induction turns generalizing d with
  | nil => exact h
  | cons t rest ih => exact ih (act_sound t h)

/-- **No transaction without its block.** Any turns are taken over a store that is empty at first,
whichever of its calls fail. After every call, no more transactions are kept of blocks with a hash
than the blocks with that hash state, and the block of every transaction is there. After all turns
there are exactly as many if and only if no batch of a block with that hash was lost. -/
theorem follow_covered {store : σ} (hempty : Appending.Keeps store ⟨[], []⟩)
    (policy : CoinbasePolicy) (w : Setting) (turns : List Turn) :
    let s : Watched σ := (follow turns (w.desk policy { store := store })).state.store
    (∀ u ∈ s.passed, ∃ k, Appending.Keeps u k ∧ k.Covered) ∧
      ∃ k, Appending.Keeps s.store k ∧ k.Covered ∧
        ∀ hash, k.kept hash = k.announced hash ↔
          ∀ batch ∈ s.lost, ∀ r ∈ batch, r.blockHash ≠ .string hash := by
  intro s
  have hnew : Watched.Sound ({ store := store } : Watched σ) :=
    ⟨nofun, _, hempty, .empty, fun _ => rfl⟩
  obtain ⟨hpassed, k, hkeeps, hcovered, hbalanced⟩ : s.Sound := follow_sound turns hnew
  refine ⟨hpassed, k, hkeeps, hcovered, fun hash => ?_⟩
  have hlost : s.lost.flatten.countP (TransactionRecord.isOf hash) = 0 ↔
      ∀ batch ∈ s.lost, ∀ r ∈ batch, r.blockHash ≠ .string hash := by
    simp only [List.countP_eq_zero, List.mem_flatten, TransactionRecord.isOf_iff]
    exact ⟨fun h batch hb r hr => h r ⟨batch, hb, hr⟩, fun h r ⟨batch, hb, hr⟩ => h batch hb r hr⟩
  rw [← hlost, hbalanced hash]
  omega

/-- Three blocks of one hash over empty tables. The batch of the second cannot be written, and a new
pipeline takes the block in again: a transaction is missing. -/
theorem follow_covered_hops :
    let first := Block.holding [.hop (.repeated 1) ⟨.null, 0⟩ 5 "first"]
    let second := Block.holding [.hop (.repeated 2) ⟨.null, 0⟩ 4 "second"]
    let store : Flaky TableStore :=
      ⟨{ location := .memory }, [none, none, none, none, some (.value "full")]⟩
    let turns : List Turn :=
      [.signal (.start (.string "bitcoin") 7), .signal (.take first 7), .signal (.take second 8),
        .renew .empty 0 (.whole 1), .signal (.start (.string "bitcoin") 8),
        .signal (.take second 8), .signal (.complete 8)]
    let w : Setting := ⟨0, .whole 0, ⟨.whole 0, []⟩, []⟩
    let s : Watched (Flaky TableStore) :=
      (follow turns (w.desk .sentinel { store := store })).state.store
    Appending.Keeps store ⟨[], []⟩ ∧ s.passed.length = 8 ∧ s.lost.length = 1 ∧
      (∀ u ∈ s.passed, ∃ k, Appending.Keeps u k ∧ k.Covered) ∧
      ∃ k, Appending.Keeps s.store k ∧ k.Covered ∧
        k.kept (Hash.repeated 9).display ≠ k.announced (Hash.repeated 9).display := by
  intro first second store turns w s
  have hfresh : TableStore.Fresh { location := .memory } := ⟨rfl, rfl, _, _, rfl, rfl, rfl⟩
  have hempty : Appending.Keeps store ⟨[], []⟩ := hfresh.keeps
  obtain ⟨hpassed, k, hkeeps, hcovered, hequal⟩ := follow_covered hempty .sentinel w turns
  have hlength : s.passed.length = 8 ∧ s.lost.length = 1 := by decide +kernel
  have hlost : s.lost.flatten.any (TransactionRecord.isOf (Hash.repeated 9).display) = true := by
    decide +kernel
  simp only [s] at hlength hlost ⊢
  refine ⟨hempty, hlength.1, hlength.2, hpassed, k, hkeeps, hcovered, fun h => ?_⟩
  obtain ⟨r, hr, hof⟩ := List.any_eq_true.1 hlost
  obtain ⟨batch, hbatch, hmem⟩ := List.mem_flatten.1 hr
  exact (hequal _).1 h batch hbatch r hmem (TransactionRecord.isOf_iff.1 hof)

end Turn

end BlockArchive
