import BlockArchive.Proofs.Ingest.Orphans
import BlockArchive.Proofs.Ingest.Provenance
import BlockArchive.Proofs.Ingest.Replay

/-!
# Everything that is written is well-formed

Whatever pipelines do over a store, and whichever of its calls fail on the way, the transactions
that it has gained are well-formed. Resolving takes addresses out of the store again, so what was
there at first decides which addresses inputs can have besides texts; all that is added has texts.

* `Block.Addressed` is what is asked of blocks, and `Contents.Offers` says which addresses the
  inputs of transactions can have that are written over some contents;
* `Contents.GrownBy` is what a store has come to keep, and `Pipeline.deposit_grown` that working on
  a block keeps it so;
* `Turn.act_grown` and `Turn.follow_grown` carry this through any turns, `Source.run_grown` through
  the run of a source.
-/

namespace BlockArchive

variable {σ : Type}

/-! ### Addresses -/

/-- The addresses in the block are texts, where there are any. -/
def Block.Addressed (b : Block) : Prop :=
  ∀ t ∈ b.transactions, ∀ o ∈ t.outputs, o.evaluation.Typed

/-- A text, or the address of an output that is kept. -/
def Contents.Offers (k : Contents) (address : Value) : Prop :=
  address.IsText ∨ ∃ r ∈ k.transactions, ∃ o ∈ r.outputs, address = o.address

/-- The address that is owed comes from the policy, from the block or from the archive. -/
theorem offers_of_owed {policy : CoinbasePolicy} {k : Contents} {block : List Transaction}
    (hblock : ∀ t ∈ block, ∀ o ∈ t.outputs, o.evaluation.Typed) {source : OutPoint} {p : Payment}
    (h : owed policy k.transactions block source = .ok p) : k.Offers p.address := by
  unfold owed at h
  split_ifs at h with hnull
  · obtain rfl := Except.ok.inj h
    exact .inl ⟨_, rfl⟩
  · cases hproduced : produced? block source with
    | some q =>
      rw [hproduced] at h
      obtain rfl := Except.ok.inj h
      -- the last transaction that produces the output
      obtain ⟨t, ht, hq⟩ := Option.bind_eq_some_iff.1 hproduced
      obtain ⟨o, ho, hq⟩ := Option.bind_eq_some_iff.1 hq
      obtain rfl := Option.some.inj hq
      rw [List.findRev?_eq_find?_reverse] at ht
      have hmem := List.mem_reverse.1 (List.mem_of_find?_eq_some ht)
      exact .inl (hblock t hmem o (List.mem_of_getElem? ho)).keptAddress
    | none =>
      rw [hproduced] at h
      obtain ⟨found, hfound, h⟩ := Except.bind_ok h
      obtain rfl := Except.ok.inj h
      cases found with
      | none => exact .inl ⟨"", rfl⟩
      | some q =>
        unfold archived? at hfound
        split at hfound
        · rename_i r hr
          unfold StoredTransaction.output at hfound
          split at hfound
          · rename_i o ho
            cases hpayment : o.payment with
            | error f =>
              rw [hpayment] at hfound
              cases hfound
            | ok q' =>
              rw [hpayment] at hfound
              obtain rfl := Option.some.inj (Except.ok.inj hfound)
              rw [List.findRev?_eq_find?_reverse] at hr
              have hmem := List.mem_reverse.1 (List.mem_of_find?_eq_some hr)
              exact .inr ⟨r, hmem, o, (StoredTransaction.mem_of_select? ho).1,
                KeptOutput.address_of_payment hpayment⟩
          · cases hfound
        · cases hfound

/-- The record of a transaction is well-formed with the addresses that its inputs have. -/
theorem Transaction.Recorded.wellFormed {blockHash : Hash} {t : Transaction} {r : TransactionRecord}
    (h : t.Recorded blockHash.display r) (ht : ∀ o ∈ t.outputs, o.evaluation.Typed)
    {P : Value → Prop} (hP : ∀ i ∈ r.inputs, P i.address) : r.WellFormed P where
  hash := h.hash ▸ t.hash.isHashText_display
  blockHash := h.blockHash ▸ blockHash.isHashText_display
  version := ⟨_, h.version⟩
  lockTime := ⟨_, h.lockTime⟩
  inputs j q hq := by
    have hj : j < t.inputs.length := h.inputCount ▸ (List.getElem?_eq_some_iff.1 hq).1
    obtain ⟨p, hp⟩ := h.inputs j _ (List.getElem?_eq_getElem hj)
    have haddress := hP q (List.mem_of_getElem? hq)
    obtain rfl := Option.some.inj (hq.symm.trans hp)
    exact ⟨h.hash.symm, rfl, Hash.isHashText_display _, ⟨_, rfl⟩, Hex.isScriptText_encode _,
      ⟨_, rfl⟩, Value.isAmount_toNat _, haddress⟩
  outputs j o ho := by
    rw [h.outputs] at ho
    obtain ⟨e, he, rfl⟩ := Transaction.getElem?_kept ho
    exact ⟨h.hash.symm, rfl, Value.isAmount_toNat _, Hex.isScriptText_encode _,
      (ht e (List.mem_of_getElem? he)).keptAddress⟩

/-! ### What a store comes to keep -/

/-- The contents are the first with blocks and well-formed transactions added to them. -/
def Contents.GrownBy (k k' : Contents) (written : List TransactionRecord) : Prop :=
  (∃ blocks, k' = ⟨k.blocks ++ blocks, k.transactions ++ written⟩) ∧
    ∀ r ∈ written, r.WellFormed k.Offers

/-- The store keeps what it kept at first, and well-formed transactions. -/
def Grown [Store σ] [Appending σ] (k : Contents) (s : σ) : Prop :=
  ∃ k' written, Appending.Keeps s k' ∧ k.GrownBy k' written

namespace Contents.GrownBy

variable {k k' : Contents} {written : List TransactionRecord}

theorem refl (k : Contents) : k.GrownBy k [] :=
  ⟨⟨[], by simp⟩, nofun⟩

theorem addBlock (h : k.GrownBy k' written) (r : BlockRecord) :
    k.GrownBy (k'.addBlock r) written := by
  obtain ⟨⟨blocks, rfl⟩, hwritten⟩ := h
  exact ⟨⟨blocks ++ [r], by simp [Contents.addBlock]⟩, hwritten⟩

theorem addTransactions (h : k.GrownBy k' written) {rs : List TransactionRecord}
    (hrs : ∀ r ∈ rs, r.WellFormed k.Offers) :
    k.GrownBy (k'.addTransactions rs) (written ++ rs) := by
  obtain ⟨⟨blocks, rfl⟩, hwritten⟩ := h
  exact ⟨⟨blocks, by simp [Contents.addTransactions]⟩,
    fun r hr => (List.mem_append.1 hr).elim (hwritten r) (hrs r)⟩

theorem offers (h : k.GrownBy k' written) {a : Value} (ha : k'.Offers a) : k.Offers a := by
  obtain ⟨⟨blocks, rfl⟩, hwritten⟩ := h
  obtain htext | ⟨r, hr, o, ho, rfl⟩ := ha
  · exact .inl htext
  · obtain hr | hr := List.mem_append.1 hr
    · exact .inr ⟨r, hr, o, ho, rfl⟩
    · obtain ⟨j, hj⟩ := List.mem_iff_getElem?.1 ho
      exact .inl ((hwritten r hr).outputs j o hj).address

theorem readable [Store σ] [Answering σ] (h : k.GrownBy k' written) {s : σ}
    (hs : Appending.Keeps s k') (hk : ∀ r ∈ k.transactions, Answering.Readable σ r) :
    ∀ r ∈ k'.transactions, Answering.Readable σ r := by
  obtain ⟨⟨blocks, rfl⟩, hwritten⟩ := h
  intro r hr
  obtain hold | hnew := List.mem_append.1 hr
  · exact hk r hold
  · refine Answering.readable_of_wellFormed hs hr (hwritten r hnew) fun a ha => ?_
    exact ha.imp_right fun ⟨q, hq, o, ho, heq⟩ => ⟨q, hk q hq, o, ho, heq⟩

end Contents.GrownBy

/-! ### One step -/

namespace Pipeline

variable [Store σ] [Answering σ] {k : Contents}

theorem start_grown (coin : Value) (height : Int) :
    Act.Ensures (fun s : Station σ => Grown k s.store) (fun _ => True) (start coin height) := by
  intro d hd
  refine ⟨?_, fun _ _ => trivial⟩
  rcases start_cases coin height d with ⟨f, hrun⟩ | ⟨-, c, rows, -, -, hstate⟩
  · rw [hrun]
    exact hd
  · rw [hstate]
    obtain ⟨k', written, hkeeps, hgrown⟩ := hd
    exact ⟨k', written, Appending.probe_keeps (d := ⟨d.state.store, rows⟩) hkeeps, hgrown⟩

theorem complete_grown (height : Int) :
    Act.Ensures (fun s : Station σ => Grown k s.store) (fun _ => True) (complete height) := by
  intro d hd
  refine ⟨?_, fun _ _ => trivial⟩
  cases hp : d.state.pipeline.phase.accepts with
  | true =>
    rw [complete_state height hp]
    exact hd
  | false =>
    rw [complete_rejected height hp]
    exact hd

variable (hk : ∀ r ∈ k.transactions, Answering.Readable σ r)
include hk

theorem deposit_wellFormed {policy : CoinbasePolicy} {b : Block} {height : Int} {d : Desk σ}
    {x : List TransactionRecord × Tally} (hd : Appending.Keeps d.state k) (hb : b.Addressed)
    (hok : ((deposit policy b height).runAt d).1 = .ok x) : ∀ r ∈ x.1, r.WellFormed k.Offers := by
  obtain ⟨hrecorded, -⟩ := deposit_recorded hok
  have hpaid := (resolveOver_paid hk policy b d hd).2 x (deposit_resolved hok)
  intro r hr
  obtain ⟨n, hn⟩ := List.mem_iff_getElem?.1 hr
  obtain ⟨t, ht, hrt, hpaid⟩ := hpaid.exists_recorded hrecorded hn
  refine hrt.wellFormed (hb t (List.mem_of_getElem? ht)) fun q hq => ?_
  obtain ⟨j, i, p, hp, rfl⟩ := hpaid.exists_owed hrt hq
  exact offers_of_owed (fun u hu => hb u (List.mem_of_mem_take hu)) hp

/-- **Working on a block adds only well-formed transactions.** -/
theorem deposit_grown (policy : CoinbasePolicy) {b : Block} (hb : b.Addressed) (height : Int)
    {d : Desk σ} (hd : Grown k d.state) :
    Grown k ((deposit policy b height).runAt d).2.state := by
  obtain ⟨k', written, hkeeps, hgrown⟩ := hd
  have hafter := deposit_keeps policy b height hkeeps
  cases hx : ((deposit policy b height).runAt d).1 with
  | error f =>
    simp only [hx] at hafter
    obtain h | h := hafter
    · exact ⟨_, _, h, hgrown⟩
    · exact ⟨_, _, h, hgrown.addBlock _⟩
  | ok x =>
    simp only [hx] at hafter
    have hreadable := hgrown.readable hkeeps hk
    have hbatch := deposit_wellFormed hreadable hkeeps hb hx
    exact ⟨_, _, hafter, (hgrown.addBlock _).addTransactions fun r hr =>
      (hbatch r hr).mono fun _ ha => hgrown.offers ha⟩

theorem take_grown {b : Block} (hb : b.Addressed) (height : Int) :
    Act.Ensures (fun s : Station σ => Grown k s.store) (fun _ => True) (take b height) := by
  intro d hd
  refine ⟨?_, fun _ _ => trivial⟩
  cases hp : d.state.pipeline.phase.accepts with
  | true =>
    rw [take_store_deposit b height hp]
    exact deposit_grown hk d.state.pipeline.policy hb height hd
  | false =>
    rw [take_rejected b height hp]
    exact hd

end Pipeline

/-! ### Turns and sources -/

/-- The blocks that are taken in have texts as addresses, where they have any. -/
def Turn.Addressed : Turn → Prop
  | .signal (.take b _) => b.Addressed
  | _ => True

section Runs

variable [Store σ] [Answering σ] {k : Contents}
  (hk : ∀ r ∈ k.transactions, Answering.Readable σ r)
include hk

/-- **Every turn adds only well-formed transactions.** -/
theorem Turn.act_grown {t : Turn} (ht : t.Addressed) :
    Act.Ensures (fun s : Station σ => Grown k s.store) (fun _ => True) t.act := by
  cases t with
  | renew policy slowBlock now => exact fun _ hd => ⟨hd, fun _ _ => trivial⟩
  | signal s =>
    cases s with
    | start coin height => exact Pipeline.start_grown coin height
    | take b height => exact Pipeline.take_grown hk ht height
    | complete height => exact (Pipeline.complete_grown height).bind fun _ _ => .pure trivial

theorem Turn.follow_grown {turns : List Turn} (hturns : ∀ t ∈ turns, t.Addressed)
    {d : Desk (Station σ)} (hd : Grown k d.state.store) :
    Grown k (follow turns d).state.store := by
  induction turns generalizing d with
  | nil => exact hd
  | cons t rest ih =>
    obtain ⟨ht, hrest⟩ := List.forall_mem_cons.1 hturns
    exact ih hrest (act_grown hk ht d hd).1

theorem Source.handOver_grown {bs : List Block} (hbs : ∀ b ∈ bs, b.Addressed) (height : Int) :
    Act.Ensures (fun s : Station σ => Grown k s.store) (fun _ => True)
      (handOver pipelineReceiver height bs) := by
  induction bs generalizing height with
  | nil => exact .pure trivial
  | cons b rest ih =>
    obtain ⟨hb, hrest⟩ := List.forall_mem_cons.1 hbs
    exact (Pipeline.take_grown hk hb height).bind fun _ _ => ih hrest (height + 1)

/-- **The run of a source adds only well-formed transactions**, whether or not it is completed. -/
theorem Source.run_grown {s : Source} (hs : s.Addressed) :
    Act.Ensures (fun s : Station σ => Grown k s.store) (fun _ => True) s.run :=
  (Pipeline.start_grown _ _).bind fun _ _ =>
    (handOver_grown hk hs _).bind fun _ _ => Pipeline.complete_grown _

/-- **Everything that is written is well-formed.** Any turns are taken over a store that answers
from what it keeps, or a source is run over it, and any calls may fail. The transactions that the
store has gained are well-formed, where the addresses of inputs are texts or those of outputs that
were there at first. The document of a well-formed transaction tells the numbers of its inputs and
outputs, and an output is found by its position and by nothing else. -/
theorem written_wellFormed {d : Desk (Station σ)} (hd : Appending.Keeps d.state.store k) :
    (∀ turns : List Turn, (∀ t ∈ turns, t.Addressed) →
      Grown k (Turn.follow turns d).state.store) ∧
    (∀ s : Source, s.Addressed → Grown k (s.run.runAt d).2.state.store) ∧
    ∀ r : TransactionRecord, r.WellFormed k.Offers → r.Counted ∧
      (∀ (j : Nat) o, r.outputs[j]? = some o →
        ∃ p, (StoredTransaction.ofRecord r).output j = .ok (some p) ∧
          o.value = .nat p.value.toNat ∧ o.address = p.address) ∧
      ∀ n : Int, (∀ j < r.outputs.length, n ≠ (j : Nat)) →
        (StoredTransaction.ofRecord r).output n = .ok none := by
  have hnew : Grown k d.state.store := ⟨k, [], hd, .refl k⟩
  exact ⟨fun turns hturns => Turn.follow_grown hk hturns hnew,
    fun s hs => (Source.run_grown hk hs d hnew).1,
    fun r hr => ⟨r.counted, fun _ _ ho => hr.output_placed ho, fun _ hn => hr.output_elsewhere hn⟩⟩

end Runs

/-- A memory that is not always there keeps a transaction of which another spends the output. The
first time the block is not written; the second time it is. -/
theorem written_wellFormed_hops :
    let stored := Pipeline.minted (.repeated 1) 5 "first"
    let block := Block.holding [.hop (.repeated 2) ⟨.repeated 1, 0⟩ 4 "second"]
    let store : Flaky MemoryStore :=
      ⟨{ transactions := [stored] }, [none, none, some (.value "full")]⟩
    let turns : List Turn := [.signal (.start (.string "bitcoin") 7), .signal (.take block 7),
      .signal (.take block 7), .signal (.complete 7)]
    let w : Setting := ⟨0, .whole 0, ⟨.whole 0, []⟩, []⟩
    let s := (Turn.follow turns (w.desk .sentinel store)).state.store
    Grown ⟨[], [stored]⟩ s ∧ s.store.transactions.length = 2 := by
  intro stored block store turns w s
  have hturns : ∀ t ∈ turns, t.Addressed := by
    have hblock : block.Addressed := by
      intro t ht o ho
      obtain rfl := List.mem_singleton.1 ht
      obtain rfl := List.mem_singleton.1 ho
      exact .inr ⟨_, rfl⟩
    simp [turns, Turn.Addressed, hblock]
  obtain ⟨hgrown, -, -⟩ := written_wellFormed (d := w.desk .sentinel store) (k := ⟨[], [stored]⟩)
    (fun _ _ => trivial) rfl
  exact ⟨hgrown turns hturns, by decide +kernel⟩

/-- An address that is no text is passed on: it is that of an output in the memory at first. -/
theorem passed_on_null :
    let stored : TransactionRecord := { Pipeline.minted (.repeated 1) 5 "first" with
      outputs := [⟨.string (Hash.repeated 1).display, .nat 0, .nat 5, .string "", .null⟩] }
    let block := Block.holding [.hop (.repeated 2) ⟨.repeated 1, 0⟩ 4 "second"]
    let turns : List Turn := [.signal (.start (.string "bitcoin") 7), .signal (.take block 7)]
    let w : Setting := ⟨0, .whole 0, ⟨.whole 0, []⟩, []⟩
    let store : MemoryStore := { transactions := [stored] }
    let s := (Turn.follow turns (w.desk .sentinel store)).state.store
    block.Addressed ∧ (∀ o ∈ stored.outputs, o.value.IsAmount) ∧
      ∃ r q, s.transactions = [stored, r] ∧ r.inputs = [q] ∧ ¬ q.address.IsText := by
  intro stored block turns w store s
  refine ⟨?_, ?_, _, _, rfl, rfl, ?_⟩
  · intro t ht o ho
    obtain rfl := List.mem_singleton.1 ht
    obtain rfl := List.mem_singleton.1 ho
    exact .inr ⟨_, rfl⟩
  · intro o ho
    obtain rfl := List.mem_singleton.1 ho
    exact ⟨5, rfl, by decide⟩
  · rintro ⟨_, h⟩
    cases h

end BlockArchive
