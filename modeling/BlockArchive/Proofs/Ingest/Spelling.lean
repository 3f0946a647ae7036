import BlockArchive.Proofs.Chain.Spelling
import BlockArchive.Proofs.Ingest.WellFormed

/-!
# What is kept of hex text

Hex text in a fixture may be written in many ways. What a store keeps of it is the normal form: of
each hash and script the text in that field of the fixture which it comes from. So fixtures that
differ in the spelling of hex text only have the same run, and an input finds the output that it
spends however either is spelled.

* `BlockRecord.Spelt`, `TransactionRecord.Spelt` and the like say which text each field is the
  normal form of, and `Block.Kept.spelt` that what is kept of a block that was read is so;
* `Source.handOver_kept` is about blocks that are handed over, and `Source.replay` reads a fixture
  and runs it;
* `Source.replay_normal` is the whole of it.
-/

namespace BlockArchive

variable {σ : Type}

/-! ### Which text a field comes from -/

/-- A hash that is shown as zeros only. -/
def zeros : String := String.ofList (List.replicate 64 '0')

/-- The input is kept with the texts of one in a fixture, and bears the hash of its transaction. -/
structure ResolvedInput.Spelt (v txHash : Value) (i : ResolvedInput) : Prop where
  txHash : i.txHash = txHash
  previousHash : v.Spells "prev_hash" i.previousHash
  script : v.SpellsOr "script_sig" "" i.script

/-- The output is kept with the texts of one in a fixture, and bears the hash of its transaction. -/
structure KeptOutput.Spelt (v txHash : Value) (o : KeptOutput) : Prop where
  txHash : o.txHash = txHash
  script : v.SpellsOr "script_pubkey" "" o.script

/-- The transaction is kept with the texts of one in a fixture, and so are its inputs and outputs.
-/
structure TransactionRecord.Spelt (v blockHash : Value) (r : TransactionRecord) : Prop where
  hash : v.Spells "hash" r.hash
  blockHash : r.blockHash = blockHash
  inputs : List.Forall₂ (fun w i => i.Spelt w r.hash) (v.itemsAt "inputs") r.inputs
  outputs : List.Forall₂ (fun w o => o.Spelt w r.hash) (v.itemsAt "outputs") r.outputs

/-- The block is kept with the texts of one in a fixture, and so are its transactions. -/
structure BlockRecord.Spelt (v : Value) (b : BlockRecord) (rs : List TransactionRecord) : Prop where
  hash : v.Spells "hash" b.hash
  previousHash : v.SpellsOr "prev_hash" zeros b.previousHash
  merkleRootHash : v.SpellsOr "merkle_root" zeros b.merkleRootHash
  transactions : List.Forall₂ (fun w r => r.Spelt w b.hash) (v.itemsAt "txs") rs

theorem display_null : Hash.null.display = zeros := Hash.display_null

/-- Lists that belong together item by item with one between them do so with each other. -/
theorem forall₂_trans {α β γ : Type} {R : α → β → Prop} {S : β → γ → Prop} {T : α → γ → Prop}
    (hT : ∀ x y z, R x y → S y z → T x z) {xs : List α} {ys : List β} {zs : List γ}
    (hxy : List.Forall₂ R xs ys) (hyz : List.Forall₂ S ys zs) : List.Forall₂ T xs zs := by
  induction hxy generalizing zs with
  | nil =>
    cases hyz
    exact .nil
  | cons hx _ ih =>
    cases hyz with
    | cons hy hrest => exact .cons (hT _ _ _ hx hy) (ih hrest)

/-! ### What is kept of what was read -/

/-- What a store keeps of a block: its record at some height, and one for each transaction. -/
structure Block.Kept (b : Block) (w : BlockRecord × List TransactionRecord) : Prop where
  record : ∃ height : Int, w.1 = .ofBlock b (.int height)
  transactions : List.Forall₂ (Transaction.Recorded b.header.hash.display) b.transactions w.2

theorem ResolvedInput.spelt_of_read {v : Value} {i : TxInput} (h : TxInput.read v = .ok i)
    (txHash : String) (index : Nat) (p : Payment) :
    (Resolution.record txHash index i p).Spelt v (.string txHash) := by
  obtain ⟨hhash, -, hscript, -⟩ := TxInput.read_ok_iff.1 h
  obtain ⟨u, hfield, hread⟩ := Except.bind_ok hhash
  exact ⟨rfl, Value.spells_of_require hfield hread, Value.optionalScript_spells hscript⟩

theorem KeptOutput.spelt_of_read {v : Value} {o : EvaluatedOutput}
    (h : EvaluatedOutput.read v = .ok o) (txHash : String) (index : Nat) :
    (KeptOutput.ofOutput txHash index o).Spelt v (.string txHash) := by
  obtain ⟨_, _, -, -, hscript, -⟩ := EvaluatedOutput.read_ok_iff.1 h
  exact ⟨rfl, Value.optionalScript_spells hscript⟩

theorem Transaction.Recorded.forall₂_inputs {blockHash : String} {t : Transaction}
    {r : TransactionRecord} (h : t.Recorded blockHash r) :
    List.Forall₂ (fun i q => ∃ j p, q = Resolution.record t.hash.display j i p) t.inputs
      r.inputs := by
  refine List.forall₂_iff_get.2 ⟨h.inputCount.symm, fun j hj hj' => ?_⟩
  obtain ⟨p, hp⟩ := h.inputs j _ (List.getElem?_eq_getElem hj)
  exact ⟨j, p, (List.getElem?_eq_some_iff.1 hp).2⟩

theorem Transaction.forall₂_kept (t : Transaction) :
    List.Forall₂ (fun e o => ∃ j, o = KeptOutput.ofOutput t.hash.display j e) t.outputs t.kept := by
  refine List.forall₂_iff_get.2 ⟨by simp [kept], fun j hj hj' => ?_⟩
  obtain ⟨e, he, ho⟩ := getElem?_kept (List.getElem?_eq_getElem hj')
  obtain ⟨_, rfl⟩ := List.getElem?_eq_some_iff.1 he
  exact ⟨j, ho⟩

/-- The record of a transaction that was read has the texts of the fixture. -/
theorem Transaction.Recorded.spelt {v : Value} {blockHash : String} {t : Transaction}
    {r : TransactionRecord} (hread : Transaction.read v = .ok t) (h : t.Recorded blockHash r) :
    r.Spelt v (.string blockHash) := by
  obtain ⟨hhash, -⟩ := Transaction.read_ok_iff.1 hread
  obtain ⟨u, hfield, hhash⟩ := Except.bind_ok hhash
  have hspells := Value.spells_of_require hfield hhash
  have hinputs := Transaction.forall₂_inputs_of_read hread
  have houtputs := Transaction.forall₂_outputs_of_read hread
  refine ⟨by rw [h.hash]; exact hspells, h.blockHash, ?_, ?_⟩
  · rw [h.hash]
    refine forall₂_trans (fun w i q hw hq => ?_) hinputs h.forall₂_inputs
    obtain ⟨j, p, rfl⟩ := hq
    exact ResolvedInput.spelt_of_read hw _ j p
  · rw [h.hash, h.outputs]
    refine forall₂_trans (fun w e o hw ho => ?_) houtputs t.forall₂_kept
    obtain ⟨j, rfl⟩ := ho
    exact KeptOutput.spelt_of_read hw _ j

/-- What is kept of a block that was read has the texts of the fixture. -/
theorem Block.Kept.spelt {v : Value} {b : Block} {w : BlockRecord × List TransactionRecord}
    (hread : Block.read v = .ok b) (h : b.Kept w) : w.1.Spelt v w.2 := by
  obtain ⟨hheader, -⟩ := Block.read_ok_iff.1 hread
  obtain ⟨hhash, -, hprevious, hroot, -⟩ := BlockHeader.read_ok_iff.1 hheader
  obtain ⟨u, hfield, hhash⟩ := Except.bind_ok hhash
  obtain ⟨height, hrecord⟩ := h.record
  have htransactions := Block.forall₂_transactions_of_read hread
  rw [hrecord]
  refine ⟨Value.spells_of_require hfield hhash, ?_, ?_, ?_⟩
  · rw [← display_null]
    exact Value.optionalHash_spells hprevious
  · rw [← display_null]
    exact Value.optionalHash_spells hroot
  · exact forall₂_trans (fun _ _ _ ht hr => hr.spelt ht) htransactions h.transactions

/-! ### Blocks handed over -/

/-- The contents with blocks and their transactions added to them. -/
def Contents.extend (k : Contents) (written : List (BlockRecord × List TransactionRecord)) :
    Contents :=
  ⟨k.blocks ++ written.map Prod.fst, k.transactions ++ written.flatMap Prod.snd⟩

theorem Contents.extend_nil (k : Contents) : k.extend [] = k := by
  simp [extend]

theorem Contents.extend_cons (k : Contents) (w : BlockRecord × List TransactionRecord)
    (ws : List (BlockRecord × List TransactionRecord)) :
    k.extend (w :: ws) = ((k.addBlock w.1).addTransactions w.2).extend ws := by
  simp [extend, addBlock, addTransactions]

/-- What is kept of a block that was taken in. It can be given back if what was there can and the
addresses in the block are texts. -/
theorem Pipeline.take_kept [Store σ] [Answering σ] {k : Contents} {b : Block} {height : Int}
    {d : Desk (Station σ)} (hd : Appending.Keeps d.state.store k)
    (hok : ((take b height).runAt d).1 = .ok ()) :
    ∃ x, ((deposit d.state.pipeline.policy b height).runAt ⟨d.state.store, d.rows⟩).1 = .ok x ∧
      b.Kept (.ofBlock b (.int height), x.1) ∧
      Appending.Keeps ((take b height).runAt d).2.state.store
        ((k.addBlock (.ofBlock b (.int height))).addTransactions x.1) ∧
      (b.Addressed → (∀ r ∈ k.transactions, Answering.Readable σ r) →
        ∀ r ∈ ((k.addBlock (.ofBlock b (.int height))).addTransactions x.1).transactions,
          Answering.Readable σ r) := by
  have hp := accepts_of_take_ok hok
  obtain ⟨x, hdeposit⟩ := (take_ok_iff b height hp).1 hok
  have hkeeps := deposit_keeps d.state.pipeline.policy b height (d := ⟨d.state.store, d.rows⟩) hd
  simp only [hdeposit, ← take_store_deposit b height hp] at hkeeps
  refine ⟨x, hdeposit, ⟨⟨height, rfl⟩, (deposit_recorded hdeposit).1⟩, hkeeps, fun hb hk => ?_⟩
  have hbatch := deposit_wellFormed hk hd hb hdeposit
  exact (((Contents.GrownBy.refl k).addBlock _).addTransactions hbatch).readable hkeeps hk

namespace Source

variable [Store σ]

/-- **What is kept of blocks that were handed over.** If all of it can be given back, each
transaction honours what was written before it; and it can if what was there can and the addresses
in the blocks are texts. -/
theorem handOver_kept [Answering σ] {k : Contents} {bs : List Block} {height : Int}
    {d : Desk (Station σ)} (hp : d.state.pipeline.phase.accepts = true)
    (hd : Appending.Keeps d.state.store k)
    (hok : ((handOver pipelineReceiver height bs).runAt d).1 = .ok ()) :
    ∃ written, List.Forall₂ Block.Kept bs written ∧
      Appending.Keeps ((handOver pipelineReceiver height bs).runAt d).2.state.store
        (k.extend written) ∧
      ((∀ r ∈ (k.extend written).transactions, Answering.Readable σ r) →
        TransactionRecord.HonoursAll k.transactions (written.flatMap Prod.snd)) ∧
      ((∀ b ∈ bs, b.Addressed) → (∀ r ∈ k.transactions, Answering.Readable σ r) →
        ∀ r ∈ (k.extend written).transactions, Answering.Readable σ r) := by
  induction bs generalizing height d k with
  | nil =>
    refine ⟨[], .nil, ?_, fun _ => nofun, fun _ hk => ?_⟩
    · rw [k.extend_nil]
      exact hd
    · rw [k.extend_nil]
      exact hk
  | cons b rest ih =>
    obtain ⟨⟨⟩, htake, hrest⟩ := Act.runAt_bind_ok hok
    obtain ⟨_, -, hpipeline⟩ := Pipeline.take_ok_pipeline hp htake
    obtain ⟨x, hdeposit, hblock, hkeeps, hback⟩ := Pipeline.take_kept hd htake
    obtain ⟨written, hwritten, hkept, hhonours, hreadable⟩ :=
      ih (d := ((Pipeline.take b height).runAt d).2) (by rw [hpipeline]; rfl) hkeeps hrest
    rw [handOver_cons_runAt rest htake]
    refine ⟨(.ofBlock b (.int height), x.1) :: written, .cons hblock hwritten, ?_, fun hall => ?_,
      fun haddressed hk => ?_⟩
    · rw [k.extend_cons]
      exact hkept
    · rw [k.extend_cons] at hall
      have hk : ∀ r ∈ k.transactions, Answering.Readable σ r := fun r hr =>
        hall r (List.mem_append_left _ (List.mem_append_left _ hr))
      have hpaid := (Pipeline.resolveOver_paid hk d.state.pipeline.policy b _ hd).2 x
        (Pipeline.deposit_resolved hdeposit)
      exact (hpaid.honours hblock.transactions).append (hhonours hall)
    · rw [k.extend_cons]
      obtain ⟨hb, hbs⟩ := List.forall_mem_cons.1 haddressed
      exact hreadable hbs (hback hb hk)

/-! ### Fixtures -/

/-- Reads a fixture and runs it. -/
def replay (v : Value) : Act (Station σ) Totals := do
  let s ← Act.lift (read v)
  s.run

/-- What was read of a fixture is what it spells, once it was run to the end. -/
theorem run_kept [Answering σ] {k : Contents} {s : Source} {d : Desk (Station σ)} {t : Totals}
    (hd : Appending.Keeps d.state.store k) (hok : (s.run.runAt d).1 = .ok t) :
    ∃ written, List.Forall₂ Block.Kept s.blocks written ∧
      Appending.Keeps (s.run.runAt d).2.state.store (k.extend written) ∧
      ((∀ r ∈ (k.extend written).transactions, Answering.Readable σ r) →
        TransactionRecord.HonoursAll k.transactions (written.flatMap Prod.snd)) ∧
      (s.Addressed → (∀ r ∈ k.transactions, Answering.Readable σ r) →
        ∀ r ∈ (k.extend written).transactions, Answering.Readable σ r) := by
  have hunderway := run_ok hok
  obtain ⟨-, hstate⟩ := run_ok_state hok
  obtain ⟨coin, rows, -, -, hopened⟩ := Pipeline.start_ok hunderway.start
  have hkept : Appending.Keeps (s.opened d).state.store k := by
    rw [opened, hopened]
    exact Appending.probe_keeps (d := ⟨d.state.store, rows⟩) hd
  rw [hstate]
  exact handOver_kept hunderway.accepts hkept hunderway.handOver

/-- **Hex text comes out in normal form, whatever its spelling.** A fixture that is read is run over
a store that answers from what it keeps. Once the run has come to its end, the store keeps for each
block of the fixture, in order, a record and those of its transactions, and the hashes and scripts
in them are the normal forms of the texts in the fixture. An input has value and address of the
output that it spends, if what the store keeps can be given back, as it can if what was there at
first can and addresses are texts. A fixture that differs in the spelling of hex text only has the
same run. -/
theorem replay_normal [Answering σ] {k : Contents} {v : Value} {s : Source} (hv : read v = .ok s)
    {d : Desk (Station σ)} (hd : Appending.Keeps d.state.store k) :
    (∀ t, ((replay v).runAt d).1 = .ok t →
      ∃ written : List (BlockRecord × List TransactionRecord),
        Appending.Keeps ((replay v).runAt d).2.state.store (k.extend written) ∧
        List.Forall₂ (fun w x => x.1.Spelt w x.2) (v.itemsAt "blocks") written ∧
        ((∀ r ∈ (k.extend written).transactions, Answering.Readable σ r) →
          TransactionRecord.HonoursAll k.transactions (written.flatMap Prod.snd)) ∧
        (s.Addressed → (∀ r ∈ k.transactions, Answering.Readable σ r) →
          ∀ r ∈ (k.extend written).transactions, Answering.Readable σ r)) ∧
      ∀ w, Respelled v w → ∀ e : Desk (Station σ), (replay w).runAt e = (replay v).runAt e := by
  have hrun : ∀ {w}, read w = .ok s →
      ∀ e : Desk (Station σ), (replay w).runAt e = s.run.runAt e := by
    intro w hw e
    rw [replay, Act.runAt_bind, Act.runAt_lift, hw]
  constructor
  · intro t hok
    rw [hrun hv] at hok ⊢
    obtain ⟨written, hwritten, hkept, hhonours, hreadable⟩ := run_kept hd hok
    obtain ⟨_, items, rfl, hitems, -, hblocks⟩ := read_ok_iff.1 hv
    refine ⟨written, hkept, ?_, hhonours, hreadable⟩
    rw [Value.itemsAt, hitems]
    exact forall₂_trans (fun _ _ _ hread hw => hw.spelt hread) hblocks hwritten
  · intro w hw e
    rw [hrun hv, hrun (read_respelled hw hv)]

/-- A fixture whose inputs are in upper case and with blanks, though hashes of transactions are not,
is run over a new memory. -/
theorem replay_normal_loud :
    let a := Hash.repeated 0xab
    let s : Source := ⟨.bitcoin, 7,
      [.holding [.hop a ⟨.null, 0⟩ 5 "first", .hop (.repeated 2) ⟨a, 0⟩ 4 "second"]]⟩
    let m : MemoryStore := {}
    let w : Setting := ⟨0, .whole 0, ⟨.whole 0, []⟩, []⟩
    let d := w.desk .sentinel m
    (replay s.loudForm).runAt d = (replay s.form).runAt d ∧
      ∃ t written, ((replay s.form).runAt d).1 = .ok t ∧
        Appending.Keeps ((replay s.form).runAt d).2.state.store (Contents.extend ⟨[], []⟩ written) ∧
        List.Forall₂ (fun w x => x.1.Spelt w x.2) (s.form.itemsAt "blocks") written ∧
        TransactionRecord.HonoursAll [] (written.flatMap Prod.snd) := by
  intro a s m w d
  have hread : read s.form = .ok s :=
    read_form (by simp [s, Block.holding, Transaction.hop, Evaluation.Stated, Value.isTruthy])
  have hrun : (replay s.form).runAt d = s.run.runAt d := by
    rw [replay, Act.runAt_bind, Act.runAt_lift, hread]
  have hok : (s.run.runAt d).1.isOk = true := by decide +kernel
  obtain ⟨t, ht⟩ := Act.exists_of_isOk hok
  rw [← hrun] at ht
  obtain ⟨hkept, hsame⟩ := replay_normal hread (d := d) (k := ⟨[], []⟩) rfl
  obtain ⟨written, hkeeps, hspelt, hhonours, -⟩ := hkept t ht
  exact ⟨hsame _ s.respelled_loudForm d, t, written, ht, hkeeps, hspelt,
    hhonours fun _ _ => trivial⟩

end Source

end BlockArchive
