import BlockArchive.Proofs.Chain.HexGrammar
import BlockArchive.Proofs.Chain.Spelling
import BlockArchive.Proofs.Ingest.Loading
import BlockArchive.Proofs.Record.WellFormed

/-!
# Which fixtures are accepted

Of a fixture with a list of blocks the coin and the start height are read first, then the blocks in
order. Trouble with coin or height is trouble of the fixture, whatever its blocks are. The first
block that cannot be read is blamed by its position, whatever follows it and whatever the start
height is. If all blocks are read, the start height must not lie below zero.

* `Source.headerKinds` and `Source.blockKinds` are the kinds of faults that are reported as trouble
  with the fixture, and `Fault.Blames` says that a block is blamed;
* `TxInput.InBounds`, `Block.InBounds` and the like compare what was read with the fields that it
  was read of, and `Block.inBounds` says that they agree;
* `Source.read_exact` is the whole of it.
-/

namespace BlockArchive

/-! ### Bounds -/

namespace Value

/-- The field is hex text of 32 bytes, which in reversed order are those of the hash. -/
def HasHash (v : Value) (name : String) (h : Hash) : Prop :=
  ∃ s shown, v.field? name = some (.string s) ∧ Hex.decode s = .ok shown ∧ shown.length = 32 ∧
    h.bytes = shown.reverse

/-- The field is that of the hash, or it is missing and the hash is null. -/
def HasHashOrNull (v : Value) (name : String) (h : Hash) : Prop :=
  v.HasHash name h ∨ v.field? name = none ∧ h = .null

/-- The field is read as a whole number. -/
def HasInteger (v : Value) (name : String) (n : Int) : Prop :=
  ∃ w, v.field? name = some w ∧ w.toInteger = .ok n

theorem hasHash_of_field {v w : Value} {name : String} {h : Hash} (hfield : v.field? name = some w)
    (hread : w.toHash = .ok h) : v.HasHash name h := by
  obtain ⟨s, rfl, -⟩ := toHash_normal hread
  obtain ⟨shown, hshown, hlength, hbytes⟩ := toHash_ok_iff.1 hread
  exact ⟨s, shown, hfield, toBytes_ok_iff.1 hshown, hlength, hbytes⟩

theorem hasHash_of_require {v : Value} {name : String} {h : Hash}
    (hread : (v.require name >>= toHash) = .ok h) : v.HasHash name h := by
  obtain ⟨w, hfield, hread⟩ := Except.bind_ok hread
  exact hasHash_of_field (field?_of_require hfield) hread

theorem hasHash_of_optional {v : Value} {name : String} {h : Hash}
    (hread : v.optionalHash name = .ok h) : v.HasHashOrNull name h := by
  obtain ⟨w, hw, hread⟩ := Except.bind_ok hread
  have hfield := getD_field?_of_optional hw
  cases hv : v.field? name with
  | none =>
    rw [hv] at hfield
    subst hfield
    exact .inr ⟨hv, (Except.ok.inj (hread.symm.trans (toHash_display .null)))⟩
  | some u =>
    rw [hv] at hfield
    obtain rfl : u = w := hfield
    exact .inl (hasHash_of_field hv hread)

theorem hasInteger_of_require {v : Value} {name : String} {n : Int}
    (hread : (v.require name >>= toInteger) = .ok n) : v.HasInteger name n := by
  obtain ⟨w, hfield, hread⟩ := Except.bind_ok hread
  exact ⟨w, field?_of_require hfield, hread⟩

end Value

/-- The input refers to a hash of 32 bytes and to an index that is not below zero. -/
structure TxInput.InBounds (v : Value) (i : TxInput) : Prop where
  hash : v.HasHash "prev_hash" i.source.hash
  index : ∃ n : Int, v.HasInteger "prev_index" n ∧ 0 ≤ n ∧ (i.source.index : Int) = n

/-- The value of the output is an unsigned 64-bit number. -/
structure EvaluatedOutput.InBounds (v : Value) (o : EvaluatedOutput) : Prop where
  value : ∃ n : Int, v.HasInteger "value" n ∧ 0 ≤ n ∧ n ≤ 2 ^ 64 - 1 ∧
    (o.output.value.toNat : Int) = n

/-- The hash of the transaction has 32 bytes, and its inputs and outputs are within bounds. -/
structure Transaction.InBounds (v : Value) (t : Transaction) : Prop where
  hash : v.HasHash "hash" t.hash
  inputs : List.Forall₂ TxInput.InBounds (v.itemsAt "inputs") t.inputs
  outputs : List.Forall₂ EvaluatedOutput.InBounds (v.itemsAt "outputs") t.outputs

/-- The hashes of the block have 32 bytes, and its transactions are within bounds. -/
structure Block.InBounds (v : Value) (b : Block) : Prop where
  hash : v.HasHash "hash" b.header.hash
  previous : v.HasHashOrNull "prev_hash" b.header.previous
  merkleRoot : v.HasHashOrNull "merkle_root" b.header.merkleRoot
  transactions : List.Forall₂ Transaction.InBounds (v.itemsAt "txs") b.transactions

theorem TxInput.inBounds {v : Value} {i : TxInput} (h : read v = .ok i) : i.InBounds v := by
  obtain ⟨hhash, hindex, -, -⟩ := read_ok_iff.1 h
  exact ⟨Value.hasHash_of_require hhash, _, Value.hasInteger_of_require hindex,
    Int.natCast_nonneg _, rfl⟩

theorem EvaluatedOutput.inBounds {v : Value} {o : EvaluatedOutput} (h : read v = .ok o) :
    o.InBounds v := by
  obtain ⟨-, amount, -, hamount, -, hvalue, -⟩ := read_ok_iff.1 h
  obtain rfl := Value.int.inj (Value.toAmount_ok_iff.1 hvalue)
  have hlt := o.output.value.toNat_lt
  exact ⟨_, Value.hasInteger_of_require hamount, Int.natCast_nonneg _, by omega, rfl⟩

theorem Transaction.inBounds {v : Value} {t : Transaction} (h : read v = .ok t) :
    t.InBounds v := by
  obtain ⟨hhash, -⟩ := read_ok_iff.1 h
  exact ⟨Value.hasHash_of_require hhash, (forall₂_inputs_of_read h).imp fun _ _ => TxInput.inBounds,
    (forall₂_outputs_of_read h).imp fun _ _ => EvaluatedOutput.inBounds⟩

/-- Whatever is read of a block has its bounds. -/
theorem Block.inBounds {v : Value} {b : Block} (h : read v = .ok b) : b.InBounds v := by
  obtain ⟨hheader, -⟩ := read_ok_iff.1 h
  obtain ⟨hhash, -, hprevious, hroot, -⟩ := BlockHeader.read_ok_iff.1 hheader
  exact ⟨Value.hasHash_of_require hhash, Value.hasHash_of_optional hprevious,
    Value.hasHash_of_optional hroot,
    (forall₂_transactions_of_read h).imp fun _ _ => Transaction.inBounds⟩

/-! ### What is reported -/

/-- What a fault tells beside its text; only problems do. -/
def Fault.details : Fault → List (String × Value)
  | .problem p => p.details
  | _ => []

theorem Fault.details_eq_nil {f : Fault} (h : ∀ p, f ≠ .problem p) : f.details = [] := by
  unfold details
  split
  · exact absurd rfl (h _)
  · rfl

/-- The fault reports that the block at a position of a fixture cannot be read, and tells the
position and after it what another fault tells, which is no position. -/
def Fault.Blames (f : Fault) (position : Nat) (cause : Fault) : Prop :=
  ∃ p, f = .problem p ∧ p.category = .fixture ∧ p.code = .string "INVALID_FIXTURE_BLOCK" ∧
    p.details = ("position", .nat position) :: cause.details ∧
    ∀ d ∈ cause.details, d.1 ≠ "position"

namespace Source

/-- The kinds of faults that count as trouble with the coin or the start height of a fixture. -/
def headerKinds : List String := ["TypeError", "ValueError", "AttributeError"]

/-- The kinds of faults that count as trouble with a block of a fixture. -/
def blockKinds : List String := ["ValidationError", "KeyError"] ++ headerKinds

theorem headerFault_of_kind {f : Fault} (h : f.name ∈ headerKinds) :
    (headerFault f).Reports .fixture "INVALID_FIXTURE" := by
  unfold headerFault
  split
  · simp [headerKinds, Fault.name] at h
  · exact ⟨_, rfl, rfl, rfl⟩

theorem blockFault_of_kind {v : Value} {f : Fault} (hv : v.Misreads f) (h : f.name ∈ blockKinds)
    (position : Nat) : (blockFault position f).Blames position f := by
  unfold blockFault
  split
  · rename_i p
    have hp := hv.problem p rfl
    have hcategory : p.category.ancestry.contains .validation = true := by
      rw [Problem.category_of_isMisreading hp]
      rfl
    rw [if_pos hcategory]
    refine ⟨_, rfl, rfl, rfl, rfl, fun d hd => ?_⟩
    rw [Problem.name_of_isMisreading hp d hd]
    decide
  · simp [blockKinds, headerKinds, Fault.name] at h
  · rename_i hproblem _
    have hdetails := Fault.details_eq_nil hproblem
    exact ⟨_, rfl, rfl, rfl, by rw [hdetails]; rfl, by simp [hdetails]⟩

/-! ### The order of reading -/

/-- Reads the coin of a fixture. -/
def readCoin (v : Value) : Except Fault Coin := do
  Coin.read (← v.optional "coin" (.string Coin.bitcoin.name))

theorem readHeader_eq (v : Value) : readHeader v = do
    let coin ← readCoin v
    let height ← v.optionalInteger "start_height" 0
    return (coin, height) := by
  simp only [readHeader, readCoin, Value.optionalInteger, bind_assoc]

theorem readCoin_error {v : Value} {f : Fault} (h : readCoin v = .error f) :
    f.name ∈ headerKinds := by
  unfold readCoin Value.optional at h
  split at h
  · change Coin.read _ = _ at h
    unfold Coin.read at h
    split at h
    · split at h <;> cases h
      simp [headerKinds, Fault.name]
    all_goals
      cases h
      simp [headerKinds, Fault.name]
  · cases h
    simp [headerKinds, Fault.name]

/-- Trouble with the coin or the start height is trouble with both together. -/
theorem readHeader_error {v : Value} {f : Fault}
    (h : readCoin v = .error f ∨ v.optionalInteger "start_height" 0 = .error f)
    (hf : f.name ∈ headerKinds) : ∃ g, readHeader v = .error g ∧ g.name ∈ headerKinds := by
  rw [readHeader_eq]
  cases hcoin : readCoin v with
  | error g => exact ⟨g, rfl, readCoin_error hcoin⟩
  | ok coin =>
    have hheight := h.resolve_left (by simp [hcoin])
    refine ⟨f, ?_, hf⟩
    rw [hheight]
    rfl

theorem readHeader_ok {v : Value} {coin : Coin} {height : Int} (hcoin : readCoin v = .ok coin)
    (hheight : v.optionalInteger "start_height" 0 = .ok height) :
    readHeader v = .ok (coin, height) := by
  rw [readHeader_eq, hcoin, hheight]
  rfl

theorem readBlocks_stops {before after : List Value} {w : Value} {f : Fault} (position : Nat)
    (hbefore : ∀ x ∈ before, ∃ b, Block.read x = .ok b) (hw : Block.read w = .error f) :
    readBlocks position (before ++ w :: after) =
      .error (blockFault (position + before.length) f) := by
  induction before generalizing position with
  | nil =>
    rw [List.nil_append, readBlocks, hw]
    rfl
  | cons x rest ih =>
    obtain ⟨⟨b, hb⟩, hrest⟩ := List.forall_mem_cons.1 hbefore
    rw [List.cons_append, readBlocks, hb, ih (position + 1) hrest, List.length_cons,
      Nat.add_right_comm, Nat.add_assoc]
    rfl

theorem exists_forall₂_read {items : List Value} (h : ∀ x ∈ items, ∃ b, Block.read x = .ok b) :
    ∃ bs, List.Forall₂ (fun w b => Block.read w = .ok b) items bs := by
  induction items with
  | nil => exact ⟨[], .nil⟩
  | cons x rest ih =>
    obtain ⟨⟨b, hb⟩, hrest⟩ := List.forall_mem_cons.1 h
    obtain ⟨bs, hbs⟩ := ih hrest
    exact ⟨b :: bs, .cons hb hbs⟩

theorem read_eq {fields : List (String × Value)} {items : List Value}
    (hblocks : Value.lookup? "blocks" fields = some (.list items)) :
    read (.mapping fields) =
      (readHeader (.mapping fields)).mapError headerFault >>= fun header =>
        readBlocks 0 items >>= fun blocks =>
          if 0 ≤ header.2 then .ok ⟨header.1, header.2.toNat, blocks⟩
          else .error (.ofProblem (.startHeight header.2)) := by
  have hfield : (Value.mapping fields).field? "blocks" = some (.list items) := hblocks
  simp only [read, hfield]
  rfl

/-- **A fixture is accepted exactly if its parts are, and the first bad block is blamed.** Let a
fixture have a list of blocks. Trouble with its coin or its start height is trouble with the
fixture, whatever the blocks are. If both are read, and a block is not though all before it are,
that block is blamed, whatever follows it and whatever the height is. If all blocks are read, there
is a source exactly if the height does not lie below zero, and the height is blamed otherwise, if
it has not too many digits to be told. A source has the blocks of the fixture, one for one. Whatever
is read of a block, its hashes have 32 bytes, no index of an output spent lies below zero, and the
values of outputs are unsigned 64-bit numbers. -/
theorem read_exact {fields : List (String × Value)} {items : List Value}
    (hblocks : Value.lookup? "blocks" fields = some (.list items)) :
    let v := Value.mapping fields
    (∀ f, readCoin v = .error f ∨ v.optionalInteger "start_height" 0 = .error f →
      f.name ∈ headerKinds →
      ∃ g, read v = .error g ∧ g.Reports .fixture "INVALID_FIXTURE") ∧
    (∀ coin height, readCoin v = .ok coin → v.optionalInteger "start_height" 0 = .ok height →
      (∀ before w after f, items = before ++ w :: after →
        (∀ x ∈ before, ∃ b, Block.read x = .ok b) → Block.read w = .error f →
        f.name ∈ blockKinds →
        ∃ g, read v = .error g ∧ g.Blames before.length f) ∧
      ((∀ x ∈ items, ∃ b, Block.read x = .ok b) →
        ((∃ s, read v = .ok s) ↔ 0 ≤ height) ∧
        (height < 0 → Document.isTooLong height = false →
          ∃ g, read v = .error g ∧ g.Reports .fixture "INVALID_START_HEIGHT") ∧
        (height < 0 → Document.isTooLong height = true → read v = .error .longInteger)) ∧
      ∀ s, read v = .ok s → s.coin = coin ∧ s.startHeight = height ∧
        List.Forall₂ (fun w b => Block.read w = .ok b) items s.blocks) ∧
    ∀ w b, Block.read w = .ok b → b.InBounds w := by
  intro v
  have hread := read_eq hblocks
  refine ⟨fun f hf hkind => ?_, fun coin height hcoin hheight => ?_, fun w b => Block.inBounds⟩
  · obtain ⟨g, hheader, hg⟩ := readHeader_error hf hkind
    rw [hheader] at hread
    exact ⟨_, hread, headerFault_of_kind hg⟩
  rw [readHeader_ok hcoin hheight] at hread
  refine ⟨fun before w after f hitems hbefore hw hkind => ?_, fun hall => ?_, fun s hs => ?_⟩
  · have hmeets := Block.read_meets w
    rw [hw] at hmeets
    rw [hitems, readBlocks_stops 0 hbefore hw, Nat.zero_add] at hread
    exact ⟨_, hread, blockFault_of_kind hmeets hkind _⟩
  · obtain ⟨bs, hbs⟩ := exists_forall₂_read hall
    rw [readBlocks_ok_iff.2 hbs] at hread
    change read v = if 0 ≤ height then .ok ⟨coin, height.toNat, bs⟩ else _ at hread
    refine ⟨?_, fun hsign hshort => ?_, fun hsign hlong => ?_⟩
    · rw [hread]
      split_ifs with hsign <;> simp [hsign]
    · have hproblem : Fault.ofProblem (.startHeight height) = .problem (.startHeight height) :=
        Fault.ofProblem_of_short (List.forall_mem_singleton.2 hshort)
      rw [if_neg (by omega), hproblem] at hread
      exact ⟨_, hread, _, rfl, rfl, rfl⟩
    · rw [if_neg (by omega)] at hread
      exact hread.trans (congrArg Except.error
        (Fault.ofProblem_of_long (v := .int height) (List.mem_singleton.2 rfl)
          (Bool.eq_false_iff.not_left.2 hlong)))
  · obtain ⟨_, items', -, hitems, hheader, hforall⟩ := read_ok_iff.1 hs
    obtain rfl := Value.list.inj (Option.some.inj (hblocks.symm.trans hitems))
    obtain ⟨hcoin', hheight'⟩ := Prod.mk.inj
      (Except.ok.inj ((readHeader_ok hcoin hheight).symm.trans hheader))
    exact ⟨hcoin'.symm, hheight'.symm, hforall⟩

/-- The second of three blocks has a hash of one byte. It is blamed, though the third is no block
and the height lies below zero. -/
theorem read_exact_blamed :
    let bare : Value := .mapping [("hash", .string Hash.null.display)]
    let short : Value := .mapping [("hash", .string "00")]
    let fields := [("blocks", .list [bare, short, .null]), ("start_height", .int (-1))]
    Value.lookup? "blocks" fields = some (.list [bare, short, .null]) ∧
      ∃ g, read (.mapping fields) = .error g ∧
        g.Blames 1 (.problem (.hashLength 1 (.string "00"))) := by
  intro bare short fields
  have hblocks : Value.lookup? "blocks" fields = some (.list [bare, short, .null]) := rfl
  have hbare : ∃ b, Block.read bare = .ok b := by
    simp [bare, Block.read, BlockHeader.read, Value.require, Value.optionalInteger,
      Value.optionalHash, Value.optionalList, Value.optional, Value.lookup?, Value.elements,
      Value.toHash_display, Value.toInteger, bind, Except.bind, pure, Except.pure]
  have hshort : Block.read short = .error (.problem (.hashLength 1 (.string "00"))) := rfl
  have hcoin : readCoin (.mapping fields) = .ok .bitcoin := Coin.read_name .bitcoin
  obtain ⟨-, hparts, -⟩ := read_exact hblocks
  obtain ⟨hblamed, -⟩ := hparts .bitcoin (-1) hcoin rfl
  exact ⟨hblocks, hblamed [bare] short [.null] _ rfl (by simpa using hbare) hshort (by decide)⟩

/-- A fixture without blocks that states a height. -/
def heightOnly (height : Value) : Value :=
  .mapping [("blocks", .list []), ("start_height", height)]

/-- **Not every height below zero is blamed as one.** Of a double only the whole part counts, and a
height of too many digits cannot be told. -/
theorem read_heightOnly :
    (read (heightOnly (.real ⟨0xbfe0000000000000⟩)) = .ok ⟨.bitcoin, 0, []⟩ ∧
        (Value.real ⟨0xbfe0000000000000⟩).isNegative = .ok true) ∧
      read (heightOnly (.int (-unwritable))) = .error .longInteger :=
  ⟨⟨by rfl, by rfl⟩, eq_of_isLongInteger (by decide +kernel)⟩

end Source

end BlockArchive
