import BlockArchive.Proofs.Chain.HexText
import BlockArchive.Proofs.Store.Writing

/-!
# How a fixture spells hex text

Hashes and scripts are hex text in a fixture. Which field each of them is read of can be told, and
two fixtures that differ in the spelling of hex text only are read as the same.

* `Value.Spells` and `Value.SpellsOr` say which field of a fixture a text comes from;
* `TxInput.read_ok_iff`, `Transaction.read_ok_iff`, `Block.read_ok_iff` and the like say what is
  read, field by field;
* `Source.Respelled` relates two fixtures that differ in the spelling of hex text only, and
  `Source.read_respelled` says that the same is read of both.
-/

namespace BlockArchive

namespace Value

/-! ### Fields -/

/-- The items of a list in a field; none if there is no list. -/
def itemsAt (v : Value) (name : String) : List Value := ((v.field? name).bind items?).getD []

/-- The second value is the text of a field of the first in its normal form. -/
def Spells (v : Value) (name : String) (w : Value) : Prop :=
  ∃ s, v.field? name = some (.string s) ∧ w = .string (Hex.normal s)

/-- The second value is the text of a field of the first in its normal form, or a given text if
there is no such field. -/
def SpellsOr (v : Value) (name default : String) (w : Value) : Prop :=
  v.Spells name w ∨ v.field? name = none ∧ w = .string default

theorem field?_of_require {v w : Value} {name : String} (h : v.require name = .ok w) :
    v.field? name = some w := by
  unfold require at h
  split at h
  · split at h
    · rename_i hlookup
      obtain rfl := Except.ok.inj h
      exact hlookup
    · cases h
  all_goals cases h

theorem getD_field?_of_optional {v w default : Value} {name : String}
    (h : v.optional name default = .ok w) : (v.field? name).getD default = w := by
  unfold optional at h
  split at h
  · exact Except.ok.inj h
  · cases h

theorem spells_of_require {v u : Value} {name : String} {hash : Hash}
    (hfield : v.require name = .ok u) (hread : u.toHash = .ok hash) :
    v.Spells name (.string hash.display) := by
  obtain ⟨s, rfl, hs⟩ := toHash_normal hread
  exact ⟨s, field?_of_require hfield, by rw [hs]⟩

theorem optionalHash_spells {v : Value} {name : String} {hash : Hash}
    (h : v.optionalHash name = .ok hash) :
    v.SpellsOr name Hash.null.display (.string hash.display) := by
  obtain ⟨u, hu, hread⟩ := Except.bind_ok h
  have hfield := getD_field?_of_optional hu
  cases hv : v.field? name with
  | none =>
    rw [hv] at hfield
    subst hfield
    obtain rfl := Except.ok.inj (hread.symm.trans (toHash_display Hash.null))
    exact .inr ⟨hv, rfl⟩
  | some w =>
    rw [hv] at hfield
    obtain rfl : w = u := hfield
    obtain ⟨s, rfl, hs⟩ := toHash_normal hread
    exact .inl ⟨s, hv, by rw [hs]⟩

theorem optionalScript_spells {v : Value} {name : String} {b : Bytes}
    (h : v.optionalScript name = .ok b) : v.SpellsOr name "" (.string (Hex.encode b)) := by
  obtain ⟨u, hu, hread⟩ := Except.bind_ok h
  have hfield := getD_field?_of_optional hu
  cases hv : v.field? name with
  | none =>
    rw [hv] at hfield
    subst hfield
    obtain rfl := Except.ok.inj (hread.symm.trans (toBytes_encode []))
    exact .inr ⟨hv, rfl⟩
  | some w =>
    rw [hv] at hfield
    obtain rfl : w = u := hfield
    obtain ⟨s, rfl, hs⟩ := toBytes_normal hread
    exact .inl ⟨s, hv, by rw [hs]⟩

theorem mapping_of_require {v w : Value} {name : String} (h : v.require name = .ok w) :
    ∃ fields, v = .mapping fields := by
  unfold require at h
  split at h
  · exact ⟨_, rfl⟩
  all_goals cases h

theorem mapping_of_optional {v w default : Value} {name : String}
    (h : v.optional name default = .ok w) : ∃ fields, v = .mapping fields := by
  unfold optional at h
  split at h
  · exact ⟨_, rfl⟩
  · cases h

/-- What is read of a list is read of the items of the field, where something is read of mappings
only: so nothing is read of the characters of a text or the numbers of a byte string. -/
theorem forall₂_of_optionalList {α : Type} {v : Value} {name : String}
    {read : Value → Except Fault α} {xs : List α} (h : v.optionalList name read = .ok xs)
    (hmapping : ∀ w x, read w = .ok x → ∃ fields, w = .mapping fields) :
    List.Forall₂ (fun w x => read w = .ok x) (v.itemsAt name) xs := by
  obtain ⟨u, hu, h⟩ := Except.bind_ok h
  obtain ⟨items, hitems, h⟩ := Except.bind_ok h
  have hread := Except.forall₂_of_mapM h
  have hfield := getD_field?_of_optional hu
  have hitemsAt : v.itemsAt name = u.items?.getD [] := by
    rw [itemsAt, ← hfield]
    cases v.field? name <;> rfl
  have hnone : ∀ {ys : List Value}, List.Forall₂ (fun w x => read w = .ok x) ys xs →
      (∀ y ∈ ys, ∀ fields, y ≠ .mapping fields) → xs = [] := by
    intro ys hys hshape
    cases hys with
    | nil => rfl
    | cons hy _ =>
      obtain ⟨fields, rfl⟩ := hmapping _ _ hy
      exact absurd rfl (hshape _ List.mem_cons_self fields)
  rw [hitemsAt]
  cases u with
  | list ys | frozen ys =>
    obtain rfl := Except.ok.inj hitems
    exact hread
  | string s | mapping fields | bytes b | buffer b =>
    obtain rfl := Except.ok.inj hitems
    rw [hnone hread fun y hy => ?_]
    · exact .nil
    · obtain ⟨x, -, rfl⟩ := List.mem_map.1 hy
      rintro _ ⟨⟩
  | torn t =>
    obtain rfl := Except.ok.inj hitems
    rw [hnone hread fun y hy => ?_]
    · exact .nil
    · obtain ⟨p, -, rfl⟩ := List.mem_map.1 hy
      unfold ofPoints
      split <;> rintro _ ⟨⟩
  | _ => cases hitems

/-! ### Fields that are spelled otherwise -/

/-- Two values with fields of the same names, where the values of each name are related. -/
def FieldsAlike (R : String → Value → Value → Prop) (v w : Value) : Prop :=
  ∃ fs gs, v = .mapping fs ∧ w = .mapping gs ∧
    List.Forall₂ (fun f g => f.1 = g.1 ∧ R f.1 f.2 g.2) fs gs

/-- Two values that are the same, or two lists of one sort with related items. -/
def ItemsAlike (R : Value → Value → Prop) (v w : Value) : Prop :=
  v = w ∨ ∃ xs ys, List.Forall₂ R xs ys ∧
    (v = .list xs ∧ w = .list ys ∨ v = .frozen xs ∧ w = .frozen ys)

theorem lookup?_alike {R : String → Value → Value → Prop} {fs gs : List (String × Value)}
    (h : List.Forall₂ (fun f g => f.1 = g.1 ∧ R f.1 f.2 g.2) fs gs) (name : String) :
    Option.Rel (R name) (lookup? name fs) (lookup? name gs) := by
  induction h with
  | nil => exact .none
  | @cons f g _ _ hfg _ ih =>
    obtain ⟨hname, hR⟩ := hfg
    unfold lookup? at ih ⊢
    rw [List.find?_cons, List.find?_cons, ← hname]
    cases hf : f.1 == name with
    | true =>
      obtain rfl := eq_of_beq hf
      exact .some hR
    | false => exact ih

theorem mapM_alike {α : Type} {S : Value → Value → Prop} {read : Value → Except Fault α}
    {xs ys : List Value} (h : List.Forall₂ S xs ys)
    (hread : ∀ x y z, S x y → read x = .ok z → read y = .ok z) {zs : List α}
    (hxs : xs.mapM read = .ok zs) : ys.mapM read = .ok zs := by
  refine Except.mapM_ok ?_
  have hzs := Except.forall₂_of_mapM hxs
  clear hxs
  induction h generalizing zs with
  | nil =>
    cases hzs
    exact .nil
  | cons hS _ ih =>
    cases hzs with
    | cons hz hrest => exact .cons (hread _ _ _ hS hz) (ih hrest)

namespace FieldsAlike

variable {R : String → Value → Value → Prop} {v w : Value} (h : FieldsAlike R v w) {name : String}
include h

theorem require {u : Value} (hu : v.require name = .ok u) :
    ∃ u', w.require name = .ok u' ∧ R name u u' := by
  obtain ⟨fs, gs, rfl, rfl, hfields⟩ := h
  have hrel := lookup?_alike hfields name
  have hlookup : lookup? name fs = some u := field?_of_require hu
  rw [hlookup] at hrel
  generalize hw : lookup? name gs = found at hrel
  cases hrel with
  | some hR => exact ⟨_, by simp only [Value.require, hw], hR⟩

theorem optional {u default : Value} (hR : R name default default)
    (hu : v.optional name default = .ok u) :
    ∃ u', w.optional name default = .ok u' ∧ R name u u' := by
  obtain ⟨fs, gs, rfl, rfl, hfields⟩ := h
  have hrel := lookup?_alike hfields name
  obtain rfl := Except.ok.inj hu
  refine ⟨(lookup? name gs).getD default, rfl, ?_⟩
  generalize lookup? name fs = found, lookup? name gs = found' at hrel ⊢
  cases hrel with
  | none => exact hR
  | some hR => exact hR

theorem requireHash (hR : ∀ u u', R name u u' → u.Respelled u') {hash : Hash}
    (hv : (v.require name >>= toHash) = .ok hash) : (w.require name >>= toHash) = .ok hash := by
  obtain ⟨u, hu, hv⟩ := Except.bind_ok hv
  obtain ⟨u', hu', hrel⟩ := h.require hu
  rw [hu']
  exact (hR _ _ hrel).toHash hv

theorem requireInteger (hR : ∀ u u', R name u u' → u = u') {n : Int}
    (hv : (v.require name >>= toInteger) = .ok n) : (w.require name >>= toInteger) = .ok n := by
  obtain ⟨u, hu, hv⟩ := Except.bind_ok hv
  obtain ⟨u', hu', hrel⟩ := h.require hu
  rw [hu', ← hR _ _ hrel]
  exact hv

theorem optionalHash (hR : ∀ u u', R name u u' → u.Respelled u') (hrefl : ∀ u, R name u u)
    {hash : Hash} (hv : v.optionalHash name = .ok hash) : w.optionalHash name = .ok hash := by
  obtain ⟨u, hu, hv⟩ := Except.bind_ok hv
  obtain ⟨u', hu', hrel⟩ := h.optional (hrefl _) hu
  rw [Value.optionalHash, hu']
  exact (hR _ _ hrel).toHash hv

theorem optionalScript (hR : ∀ u u', R name u u' → u.Respelled u') (hrefl : ∀ u, R name u u)
    {b : Bytes} (hv : v.optionalScript name = .ok b) : w.optionalScript name = .ok b := by
  obtain ⟨u, hu, hv⟩ := Except.bind_ok hv
  obtain ⟨u', hu', hrel⟩ := h.optional (hrefl _) hu
  rw [Value.optionalScript, hu']
  exact (hR _ _ hrel).toBytes hv

theorem optional_eq (hR : ∀ u u', R name u u' ↔ u = u') {u default : Value}
    (hv : v.optional name default = .ok u) : w.optional name default = .ok u := by
  obtain ⟨u', hu', hrel⟩ := h.optional ((hR _ _).2 rfl) hv
  rw [hu', (hR _ _).1 hrel]

theorem optionalInteger (hR : ∀ u u', R name u u' ↔ u = u') {default n : Int}
    (hv : v.optionalInteger name default = .ok n) : w.optionalInteger name default = .ok n := by
  obtain ⟨u, hu, hv⟩ := Except.bind_ok hv
  rw [Value.optionalInteger, h.optional_eq hR hu]
  exact hv

theorem optionalList {α : Type} {S : Value → Value → Prop} {read : Value → Except Fault α}
    {zs : List α} (hv : v.optionalList name read = .ok zs)
    (hread : ∀ x y z, S x y → read x = .ok z → read y = .ok z)
    (hR : ∀ u u', R name u u' → u.ItemsAlike S u') (hrefl : ∀ u, R name u u) :
    w.optionalList name read = .ok zs := by
  obtain ⟨u, hu, hv⟩ := Except.bind_ok hv
  obtain ⟨u', hu', hrel⟩ := h.optional (hrefl _) hu
  rw [Value.optionalList, hu']
  obtain rfl | ⟨xs, ys, hitems, ⟨rfl, rfl⟩ | ⟨rfl, rfl⟩⟩ := hR _ _ hrel
  · exact hv
  all_goals
    have hxs : xs.mapM read = .ok zs := hv
    exact mapM_alike hitems hread hxs

end FieldsAlike

end Value

/-! ### Fixtures that are spelled otherwise -/

/-- The fields of two inputs are the same but for the spelling of hash and script. -/
def TxInput.Respelled : Value → Value → Prop :=
  Value.FieldsAlike fun name v w =>
    if name = "prev_hash" ∨ name = "script_sig" then v.Respelled w else v = w

/-- The fields of two outputs are the same but for the spelling of the script. -/
def EvaluatedOutput.Respelled : Value → Value → Prop :=
  Value.FieldsAlike fun name v w => if name = "script_pubkey" then v.Respelled w else v = w

/-- The fields of two transactions are the same but for the spelling of hashes and scripts. -/
def Transaction.Respelled : Value → Value → Prop :=
  Value.FieldsAlike fun name v w =>
    if name = "hash" then v.Respelled w
    else if name = "inputs" then v.ItemsAlike TxInput.Respelled w
    else if name = "outputs" then v.ItemsAlike EvaluatedOutput.Respelled w
    else v = w

/-- The fields of two blocks are the same but for the spelling of hashes and scripts. -/
def Block.Respelled : Value → Value → Prop :=
  Value.FieldsAlike fun name v w =>
    if name = "hash" ∨ name = "prev_hash" ∨ name = "merkle_root" then v.Respelled w
    else if name = "txs" then v.ItemsAlike Transaction.Respelled w
    else v = w

/-- The fields of two fixtures are the same but for the spelling of hashes and scripts. -/
def Source.Respelled : Value → Value → Prop :=
  Value.FieldsAlike fun name v w =>
    if name = "blocks" then v.ItemsAlike Block.Respelled w else v = w

/-! ### What is read, field by field -/

theorem Except.bind_ok_iff {ε α β : Type} {r : Except ε α} {f : α → Except ε β} {y : β} :
    r >>= f = .ok y ↔ ∃ x, r = .ok x ∧ f x = .ok y := by
  refine ⟨Except.bind_ok, ?_⟩
  rintro ⟨x, rfl, h⟩
  exact h

theorem OutPoint.make_ok_iff {hash : Hash} {index : Int} {o : OutPoint} :
    make hash index = .ok o ↔ o.hash = hash ∧ (o.index : Int) = index := by
  obtain ⟨hash', index'⟩ := o
  unfold make
  split_ifs with h
  · simp only [Except.ok.injEq, OutPoint.mk.injEq]
    constructor
    · rintro ⟨rfl, rfl⟩
      exact ⟨rfl, Int.toNat_of_nonneg h⟩
    · rintro ⟨rfl, rfl⟩
      exact ⟨rfl, Int.toNat_natCast index'⟩
  · simp only [false_iff]
    rintro ⟨-, rfl⟩
    exact h (Int.natCast_nonneg _)

theorem TxInput.read_ok_iff {v : Value} {i : TxInput} :
    read v = .ok i ↔
      (v.require "prev_hash" >>= Value.toHash) = .ok i.source.hash ∧
      (v.require "prev_index" >>= Value.toInteger) = .ok (i.source.index : Int) ∧
      v.optionalScript "script_sig" = .ok i.script ∧
      v.optionalInteger "sequence" defaultSequence = .ok i.sequence := by
  simp only [read, Except.bind_ok_iff, OutPoint.make_ok_iff]
  constructor
  · rintro ⟨u, hu, hash, hhash, u', hu', index, hindex, source, ⟨rfl, rfl⟩, script, hscript,
      sequence, hsequence, ⟨⟩⟩
    exact ⟨⟨u, hu, hhash⟩, ⟨u', hu', hindex⟩, hscript, hsequence⟩
  · rintro ⟨⟨u, hu, hhash⟩, ⟨u', hu', hindex⟩, hscript, hsequence⟩
    exact ⟨u, hu, _, hhash, u', hu', _, hindex, i.source, ⟨rfl, rfl⟩, _, hscript, _, hsequence, rfl⟩

theorem EvaluatedOutput.read_ok_iff {v : Value} {o : EvaluatedOutput} :
    read v = .ok o ↔ ∃ stated : Value, ∃ amount : Int,
      v.optional "address" .null = .ok stated ∧
      (v.require "value" >>= Value.toInteger) = .ok amount ∧
      v.optionalScript "script_pubkey" = .ok o.output.script ∧
      (Value.int amount).toAmount = .ok o.output.value ∧
      v.optional "pattern" (.string (if stated.isTruthy then "Unknown" else "NotRecognised")) =
        .ok o.evaluation.pattern ∧
      o.evaluation.address = if stated.isTruthy then stated else .null := by
  simp only [read, Except.bind_ok_iff]
  constructor
  · rintro ⟨stated, hstated, u, hu, amount, hamount, script, hscript, value, hvalue, pattern,
      hpattern, ⟨⟩⟩
    exact ⟨stated, amount, hstated, ⟨u, hu, hamount⟩, hscript, hvalue, hpattern, rfl⟩
  · rintro ⟨stated, amount, hstated, ⟨u, hu, hamount⟩, hscript, hvalue, hpattern, haddress⟩
    refine ⟨stated, hstated, u, hu, amount, hamount, _, hscript, _, hvalue, _, hpattern, ?_⟩
    rw [← haddress]
    rfl

theorem Transaction.read_ok_iff {v : Value} {t : Transaction} :
    read v = .ok t ↔
      (v.require "hash" >>= Value.toHash) = .ok t.hash ∧
      v.optionalInteger "version" 1 = .ok t.version ∧
      v.optionalInteger "locktime" 0 = .ok t.locktime ∧
      v.optionalList "inputs" TxInput.read = .ok t.inputs ∧
      v.optionalList "outputs" EvaluatedOutput.read = .ok t.outputs := by
  simp only [read, Except.bind_ok_iff]
  constructor
  · rintro ⟨u, hu, hash, hhash, version, hversion, locktime, hlocktime, inputs, hinputs, outputs,
      houtputs, ⟨⟩⟩
    exact ⟨⟨u, hu, hhash⟩, hversion, hlocktime, hinputs, houtputs⟩
  · rintro ⟨⟨u, hu, hhash⟩, hversion, hlocktime, hinputs, houtputs⟩
    exact ⟨u, hu, _, hhash, _, hversion, _, hlocktime, _, hinputs, _, houtputs, rfl⟩

theorem BlockHeader.read_ok_iff {v : Value} {x : BlockHeader} :
    read v = .ok x ↔
      (v.require "hash" >>= Value.toHash) = .ok x.hash ∧
      v.optionalInteger "version" 1 = .ok x.version ∧
      v.optionalHash "prev_hash" = .ok x.previous ∧
      v.optionalHash "merkle_root" = .ok x.merkleRoot ∧
      v.optionalInteger "timestamp" 0 = .ok x.timestamp ∧
      v.optionalInteger "bits" 0 = .ok x.bits ∧
      v.optionalInteger "nonce" 0 = .ok x.nonce := by
  simp only [read, Except.bind_ok_iff]
  constructor
  · rintro ⟨u, hu, hash, hhash, version, hversion, previous, hprevious, root, hroot, timestamp,
      htimestamp, bits, hbits, nonce, hnonce, ⟨⟩⟩
    exact ⟨⟨u, hu, hhash⟩, hversion, hprevious, hroot, htimestamp, hbits, hnonce⟩
  · rintro ⟨⟨u, hu, hhash⟩, hversion, hprevious, hroot, htimestamp, hbits, hnonce⟩
    exact ⟨u, hu, _, hhash, _, hversion, _, hprevious, _, hroot, _, htimestamp, _, hbits, _, hnonce,
      rfl⟩

theorem Block.read_ok_iff {v : Value} {b : Block} :
    read v = .ok b ↔
      BlockHeader.read v = .ok b.header ∧ v.optionalInteger "size" 0 = .ok b.size ∧
      v.optionalList "txs" Transaction.read = .ok b.transactions := by
  simp only [read, Except.bind_ok_iff]
  constructor
  · rintro ⟨header, hheader, size, hsize, transactions, htransactions, ⟨⟩⟩
    exact ⟨hheader, hsize, htransactions⟩
  · rintro ⟨hheader, hsize, htransactions⟩
    exact ⟨_, hheader, _, hsize, _, htransactions, rfl⟩

/-! ### Lists of parts -/

theorem Transaction.forall₂_inputs_of_read {v : Value} {t : Transaction} (h : read v = .ok t) :
    List.Forall₂ (fun w i => TxInput.read w = .ok i) (v.itemsAt "inputs") t.inputs := by
  obtain ⟨-, -, -, hinputs, -⟩ := read_ok_iff.1 h
  refine Value.forall₂_of_optionalList hinputs fun w i hw => ?_
  obtain ⟨_, hfield, -⟩ := Except.bind_ok hw
  exact Value.mapping_of_require hfield

theorem Transaction.forall₂_outputs_of_read {v : Value} {t : Transaction} (h : read v = .ok t) :
    List.Forall₂ (fun w o => EvaluatedOutput.read w = .ok o) (v.itemsAt "outputs") t.outputs := by
  obtain ⟨-, -, -, -, houtputs⟩ := read_ok_iff.1 h
  refine Value.forall₂_of_optionalList houtputs fun w o hw => ?_
  obtain ⟨_, hfield, -⟩ := Except.bind_ok hw
  exact Value.mapping_of_optional hfield

theorem Block.forall₂_transactions_of_read {v : Value} {b : Block} (h : read v = .ok b) :
    List.Forall₂ (fun w t => Transaction.read w = .ok t) (v.itemsAt "txs") b.transactions := by
  obtain ⟨-, -, htransactions⟩ := read_ok_iff.1 h
  refine Value.forall₂_of_optionalList htransactions fun w t hw => ?_
  obtain ⟨_, hfield, -⟩ := Except.bind_ok hw
  exact Value.mapping_of_require hfield

/-! ### Two spellings of a fixture -/

theorem TxInput.read_respelled {v w : Value} (h : Respelled v w) {i : TxInput}
    (hv : read v = .ok i) : read w = .ok i := by
  obtain ⟨hhash, hindex, hscript, hsequence⟩ := read_ok_iff.1 hv
  refine read_ok_iff.2 ⟨h.requireHash ?_ hhash, h.requireInteger ?_ hindex,
    h.optionalScript ?_ ?_ hscript, h.optionalInteger ?_ hsequence⟩
  all_goals simp [Value.Respelled]

theorem EvaluatedOutput.read_respelled {v w : Value} (h : Respelled v w) {o : EvaluatedOutput}
    (hv : read v = .ok o) : read w = .ok o := by
  obtain ⟨stated, amount, hstated, hamount, hscript, hvalue, hpattern, haddress⟩ :=
    read_ok_iff.1 hv
  refine read_ok_iff.2 ⟨stated, amount, h.optional_eq ?_ hstated, h.requireInteger ?_ hamount,
    h.optionalScript ?_ ?_ hscript, hvalue, h.optional_eq ?_ hpattern, haddress⟩
  all_goals simp [Value.Respelled]

theorem Transaction.read_respelled {v w : Value} (h : Respelled v w) {t : Transaction}
    (hv : read v = .ok t) : read w = .ok t := by
  obtain ⟨hhash, hversion, hlocktime, hinputs, houtputs⟩ := read_ok_iff.1 hv
  refine read_ok_iff.2 ⟨h.requireHash ?_ hhash, h.optionalInteger ?_ hversion,
    h.optionalInteger ?_ hlocktime,
    h.optionalList hinputs (fun _ _ _ h => TxInput.read_respelled h) ?_ ?_,
    h.optionalList houtputs (fun _ _ _ h => EvaluatedOutput.read_respelled h) ?_ ?_⟩
  all_goals simp [Value.Respelled, Value.ItemsAlike]

theorem Block.read_respelled {v w : Value} (h : Respelled v w) {b : Block}
    (hv : read v = .ok b) : read w = .ok b := by
  obtain ⟨hheader, hsize, htransactions⟩ := read_ok_iff.1 hv
  obtain ⟨hhash, hversion, hprevious, hroot, htimestamp, hbits, hnonce⟩ :=
    BlockHeader.read_ok_iff.1 hheader
  refine read_ok_iff.2 ⟨BlockHeader.read_ok_iff.2 ⟨h.requireHash ?_ hhash,
    h.optionalInteger ?_ hversion, h.optionalHash ?_ ?_ hprevious, h.optionalHash ?_ ?_ hroot,
    h.optionalInteger ?_ htimestamp, h.optionalInteger ?_ hbits, h.optionalInteger ?_ hnonce⟩,
    h.optionalInteger ?_ hsize,
    h.optionalList htransactions (fun _ _ _ h => Transaction.read_respelled h) ?_ ?_⟩
  all_goals simp [Value.Respelled, Value.ItemsAlike]

namespace Source

theorem readBlocks_ok_iff {position : Nat} {items : List Value} {bs : List Block} :
    readBlocks position items = .ok bs ↔
      List.Forall₂ (fun w b => Block.read w = .ok b) items bs := by
  induction items generalizing position bs with
  | nil =>
    rw [List.forall₂_nil_left_iff, readBlocks, Except.ok.injEq, eq_comm]
  | cons w rest ih =>
    simp only [readBlocks, Except.bind_ok_iff, List.forall₂_cons_left_iff]
    constructor
    · rintro ⟨b, hb, others, hothers, ⟨⟩⟩
      exact ⟨b, others, Except.ok_of_mapError hb, ih.1 hothers, rfl⟩
    · rintro ⟨b, others, hb, hothers, rfl⟩
      exact ⟨b, by rw [hb]; rfl, others, ih.2 hothers, rfl⟩

theorem read_ok_iff {v : Value} {s : Source} :
    read v = .ok s ↔ ∃ fields items, v = .mapping fields ∧
      v.field? "blocks" = some (.list items) ∧
      readHeader v = .ok (s.coin, (s.startHeight : Int)) ∧
      List.Forall₂ (fun w b => Block.read w = .ok b) items s.blocks := by
  constructor
  · intro h
    unfold read at h
    split at h
    · rename_i fields items hitems
      obtain ⟨header, hheader, h⟩ := Except.bind_ok h
      obtain ⟨blocks, hblocks, h⟩ := Except.bind_ok h
      split_ifs at h with hheight
      obtain rfl := Except.ok.inj h
      refine ⟨fields, items, rfl, hitems, ?_, readBlocks_ok_iff.1 hblocks⟩
      rw [Except.ok_of_mapError hheader]
      exact congrArg (fun n => Except.ok (header.1, n)) (Int.toNat_of_nonneg hheight).symm
    · cases h
  · rintro ⟨fields, items, rfl, hitems, hheader, hblocks⟩
    simp only [read, hitems, hheader, readBlocks_ok_iff.2 hblocks]
    simp [Except.mapError, bind, Except.bind, pure, Except.pure]

/-- **What is read of a fixture does not depend on how it spells hex text.** -/
theorem read_respelled {v w : Value} (h : Respelled v w) {s : Source} (hv : read v = .ok s) :
    read w = .ok s := by
  obtain ⟨fields, items, rfl, hitems, hheader, hblocks⟩ := read_ok_iff.1 hv
  have hheader' : readHeader w = readHeader (.mapping fields) := by
    have hrefl : ∀ name, name ≠ "blocks" → ∀ default u,
        (Value.mapping fields).optional name default = .ok u → w.optional name default = .ok u :=
      fun name hname default u => h.optional_eq (by simp [hname])
    simp only [readHeader, hrefl "coin" (by decide) _ _ rfl,
      hrefl "start_height" (by decide) _ _ rfl]
    rfl
  have hrequire : (Value.mapping fields).require "blocks" = .ok (.list items) := by
    have hlookup : Value.lookup? "blocks" fields = some (.list items) := hitems
    simp only [Value.require, hlookup]
  obtain ⟨u, hu, hR⟩ := h.require hrequire
  obtain ⟨-, gs, -, rfl, -⟩ := h
  -- the blocks are the same, or respelled one by one
  rw [if_pos rfl] at hR
  obtain rfl | ⟨xs, ys, hblocks', ⟨hxs, rfl⟩ | ⟨hxs, -⟩⟩ := hR
  · exact read_ok_iff.2
      ⟨gs, items, rfl, Value.field?_of_require hu, hheader'.trans hheader, hblocks⟩
  · obtain rfl := Value.list.inj hxs
    have hread := Value.mapM_alike hblocks' (fun _ _ _ h => Block.read_respelled h)
      (Except.mapM_ok hblocks)
    exact read_ok_iff.2 ⟨gs, ys, rfl, Value.field?_of_require hu, hheader'.trans hheader,
      Except.forall₂_of_mapM hread⟩
  · cases hxs

end Source

/-! ### A fixture with two spellings -/

/-- The hex text of bytes in upper case, after a blank. -/
def Hex.loud (b : Bytes) : String := String.ofList (' ' :: (encodeChars b).map Char.toUpper)

theorem Hex.value?_toUpper : ∀ n : Fin 16, value? (digit n).toUpper = some n.val := by decide

theorem Hex.respelled_loud (b : Bytes) : Respelled (encode b).toList (loud b).toList := by
  rw [encode, loud, String.toList_ofList, String.toList_ofList]
  refine .blankRight (by decide) ?_
  induction b with
  | nil => exact .nil
  | cons x rest ih =>
    have hx := x.toNat_lt
    exact .pair (digit_spec ⟨x.toNat / 16, by omega⟩).1 (value?_toUpper ⟨x.toNat / 16, by omega⟩)
      (digit_spec ⟨x.toNat % 16, by omega⟩).1 (value?_toUpper ⟨x.toNat % 16, by omega⟩) ih

/-- The input as a fixture may have it, too: in upper case. -/
def TxInput.loudForm (i : TxInput) : Value :=
  .mapping [("prev_hash", .string (Hex.loud i.source.hash.bytes.reverse)),
    ("prev_index", .nat i.source.index), ("script_sig", .string (Hex.loud i.script)),
    ("sequence", .int i.sequence)]

/-- The transaction with inputs in upper case, though not its hash. -/
def Transaction.loudForm (t : Transaction) : Value :=
  .mapping [("hash", .string t.hash.display), ("version", .int t.version),
    ("locktime", .int t.locktime), ("inputs", .list (t.inputs.map TxInput.loudForm)),
    ("outputs", .list (t.outputs.map EvaluatedOutput.form))]

/-- The block with inputs in upper case. -/
def Block.loudForm (b : Block) : Value :=
  .mapping [("hash", .string b.header.hash.display), ("version", .int b.header.version),
    ("prev_hash", .string b.header.previous.display),
    ("merkle_root", .string b.header.merkleRoot.display),
    ("timestamp", .int b.header.timestamp), ("bits", .int b.header.bits),
    ("nonce", .int b.header.nonce), ("size", .int b.size),
    ("txs", .list (b.transactions.map Transaction.loudForm))]

/-- The fixture with inputs in upper case. -/
def Source.loudForm (s : Source) : Value :=
  .mapping [("coin", .string s.coin.name), ("start_height", .nat s.startHeight),
    ("blocks", .list (s.blocks.map Block.loudForm))]

theorem Value.itemsAlike_map {α : Type} {R : Value → Value → Prop} {f g : α → Value} {xs : List α}
    (h : ∀ x ∈ xs, R (f x) (g x)) : (Value.list (xs.map f)).ItemsAlike R (.list (xs.map g)) := by
  refine .inr ⟨_, _, ?_, .inl ⟨rfl, rfl⟩⟩
  exact List.forall₂_map_left_iff.2 (List.forall₂_map_right_iff.2 (List.forall₂_same.2 h))

theorem TxInput.respelled_loudForm (i : TxInput) : Respelled i.form i.loudForm := by
  refine ⟨_, _, rfl, rfl, ?_⟩
  have hhash : (Value.string i.source.hash.display).Respelled
      (.string (Hex.loud i.source.hash.bytes.reverse)) :=
    .inr ⟨_, _, rfl, rfl, Hex.respelled_loud _⟩
  have hscript : (Value.string (Hex.encode i.script)).Respelled (.string (Hex.loud i.script)) :=
    .inr ⟨_, _, rfl, rfl, Hex.respelled_loud _⟩
  simp [hhash, hscript]

theorem Transaction.respelled_loudForm (t : Transaction) : Respelled t.form t.loudForm := by
  refine ⟨_, _, rfl, rfl, ?_⟩
  have hinputs := Value.itemsAlike_map fun (i : TxInput) (_ : i ∈ t.inputs) => i.respelled_loudForm
  have houtputs : (Value.list (t.outputs.map EvaluatedOutput.form)).ItemsAlike
      EvaluatedOutput.Respelled (.list (t.outputs.map EvaluatedOutput.form)) := .inl rfl
  simp [hinputs, houtputs, Value.Respelled]

theorem Block.respelled_loudForm (b : Block) : Respelled b.form b.loudForm := by
  refine ⟨_, _, rfl, rfl, ?_⟩
  have htransactions := Value.itemsAlike_map
    fun (t : Transaction) (_ : t ∈ b.transactions) => t.respelled_loudForm
  simp [htransactions, Value.Respelled]

/-- The inputs of any source may be spelled otherwise than the outputs that they spend. -/
theorem Source.respelled_loudForm (s : Source) : Respelled s.form s.loudForm := by
  refine ⟨_, _, rfl, rfl, ?_⟩
  have hblocks := Value.itemsAlike_map fun (b : Block) (_ : b ∈ s.blocks) => b.respelled_loudForm
  simp [hblocks]

end BlockArchive
