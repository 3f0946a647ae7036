import BlockArchive.Proofs.Act.Outcome
import BlockArchive.Proofs.Chain.Reading
import BlockArchive.Proofs.Json.Room

/-!
# What keeps a fixture from being loaded

Whatever a fixture holds, it is read or it is refused with a problem of the fixture, whose report
tells the block at which the trouble is. There are three exceptions, which stop the loading with
faults of their own: the file is not UTF-8, a number in it has too many digits, or an infinite
number stands in a field that is read as a whole number.

* `Value.Unbounded` says that such a field holds an infinite number, at any depth;
* `Value.Misreads` are the faults with which the parts of a fixture are read, and
  `Block.read_meets` and what leads up to it follow the reading;
* `Source.Unreported` are the three exceptions;
* `Source.load_stops` says that there are no others, and `Source.load_escapes` that the
  exceptions are real.
-/

namespace BlockArchive

/-! ### Rules -/

namespace Act.Meets

variable {α β : Type} {Q : α → Prop} {P : β → Prop} {F G : Fault → Prop}

/-- Two computations in a row, where the second may count on what the first gives. -/
theorem bind {r : Except Fault α} {g : α → Except Fault β} (h : Meets Q F r)
    (hg : ∀ x, Q x → Meets P F (g x)) : Meets P F (r >>= g) := by
  cases r with
  | ok x => exact hg x h
  | error f => exact h

theorem mapError {r : Except Fault α} {g : Fault → Fault} (h : Meets Q F r)
    (hg : ∀ f, F f → G (g f)) : Meets Q G (r.mapError g) := by
  cases r with
  | ok x => exact h
  | error f => exact hg f h

theorem of_mapError {ε : Type} {g : ε → Fault} (hg : ∀ e, F (g e)) (r : Except ε α) :
    Meets (fun _ => True) F (r.mapError g) := by
  cases r with
  | ok x => trivial
  | error e => exact hg e

theorem mapM {xs : List α} {g : α → Except Fault β}
    (h : ∀ x ∈ xs, Meets (fun _ => True) F (g x)) : Meets (fun _ => True) F (xs.mapM g) := by
  induction xs with
  | nil => trivial
  | cons x rest ih =>
    rw [List.mapM_cons]
    obtain ⟨hx, hrest⟩ := List.forall_mem_cons.1 h
    exact hx.bind fun _ _ => (ih hrest).bind fun _ _ => trivial

end Act.Meets

/-! ### Problems of reading -/

namespace Problem

/-- The problem is one with which the reading of a part of a block stops. -/
def isMisreading : Problem → Bool
  | .hex .. | .hashLength .. | .outpointIndex _ | .outputValue _ => true
  | _ => false

theorem category_of_isMisreading {p : Problem} (h : p.isMisreading = true) :
    p.category = .validation := by
  unfold isMisreading at h
  split at h <;> first | rfl | cases h

theorem name_of_isMisreading {p : Problem} (h : p.isMisreading = true) :
    ∀ d ∈ p.details, d.1 = "value" := by
  unfold isMisreading at h
  split at h
  case h_5 => cases h
  all_goals simp [details]

end Problem

/-! ### Infinite numbers in a value -/

namespace Value

/-- A double that is infinite. -/
def IsInfinite (v : Value) : Prop := ∃ x negative, v = .real x ∧ x.decode = .infinite negative

/-- A value stands in another, at any depth. -/
inductive Holds : Value → Value → Prop
  /-- The value itself. -/
  | here (v : Value) : Holds v v
  /-- In an item of a list. -/
  | item {items : List Value} {x w : Value} (hx : x ∈ items) (h : Holds x w) :
      Holds (.list items) w
  /-- In an item of an immutable list. -/
  | frozen {items : List Value} {x w : Value} (hx : x ∈ items) (h : Holds x w) :
      Holds (.frozen items) w
  /-- In a field. -/
  | field {fields : List (String × Value)} {f : String × Value} {w : Value} (hf : f ∈ fields)
      (h : Holds f.2 w) : Holds (.mapping fields) w

/-- The names of the fields of a fixture that are read as whole numbers. -/
def integerNames : List String :=
  ["start_height", "version", "timestamp", "bits", "nonce", "size", "locktime", "prev_index",
    "sequence", "value"]

/-- An infinite number stands in a field that is read as a whole number. -/
def Unbounded (v : Value) : Prop :=
  ∃ fields name w, v.Holds (.mapping fields) ∧ name ∈ integerNames ∧
    lookup? name fields = some w ∧ w.IsInfinite

theorem Unbounded.of_lookup? {fields : List (String × Value)} {name : String} {w : Value}
    (hname : name ∈ integerNames) (h : lookup? name fields = some w) (hw : w.IsInfinite) :
    (mapping fields).Unbounded :=
  ⟨fields, name, w, .here _, hname, h, hw⟩

theorem Unbounded.field {fields : List (String × Value)} {name : String} {w : Value}
    (h : lookup? name fields = some w) (hw : w.Unbounded) : (mapping fields).Unbounded := by
  obtain ⟨f, hf, rfl⟩ := Option.map_eq_some_iff.1 h
  obtain ⟨inner, n, u, hheld, hrest⟩ := hw
  exact ⟨inner, n, u, .field (List.mem_of_find?_eq_some hf) hheld, hrest⟩

theorem not_unbounded_string (s : String) : ¬ (string s).Unbounded := by
  rintro ⟨fields, name, w, h, -⟩
  cases h

theorem not_unbounded_ofPoints (points : List Text.Point) : ¬ (ofPoints points).Unbounded := by
  unfold ofPoints
  split
  · rintro ⟨fields, name, w, h, -⟩
    cases h
  · exact not_unbounded_string _

theorem not_unbounded_int (n : Int) : ¬ (int n).Unbounded := by
  rintro ⟨fields, name, w, h, -⟩
  cases h

/-! ### The faults of reading -/

/-- A fault with which reading a value may stop: an overflow only where the value is unbounded, and
as a problem only one of reading. -/
structure Misreads (v : Value) (f : Fault) : Prop where
  overflow : f = .infiniteInteger → v.Unbounded
  problem : ∀ p, f = .problem p → p.isMisreading = true

theorem Misreads.whole {v w : Value} {f : Fault} (h : w.Misreads f)
    (hpart : w.Unbounded → v.Unbounded) : v.Misreads f :=
  ⟨fun hf => hpart (h.overflow hf), h.problem⟩

/-- The value of a field. -/
def IsField (v : Value) (name : String) (w : Value) : Prop :=
  ∃ fields, v = .mapping fields ∧ lookup? name fields = some w

theorem require_meets (v : Value) (name : String) :
    Act.Meets (v.IsField name) v.Misreads (v.require name) := by
  unfold require
  split
  · split
    · rename_i fields _ w hlookup
      exact ⟨fields, rfl, hlookup⟩
    · exact ⟨nofun, nofun⟩
  all_goals exact ⟨nofun, nofun⟩

theorem optional_meets (v : Value) (name : String) (default : Value) :
    Act.Meets (fun w => v.IsField name w ∨ w = default) v.Misreads (v.optional name default) := by
  unfold optional
  split
  · rename_i fields
    cases hlookup : lookup? name fields with
    | some w => exact .inl ⟨fields, rfl, hlookup⟩
    | none => exact .inr rfl
  · exact ⟨nofun, nofun⟩

theorem toInteger_meets {v w : Value} (hw : w.IsInfinite → v.Unbounded) :
    Act.Meets (fun _ => True) v.Misreads w.toInteger := by
  have hfault (shown : String) (t : Number.IntegerTrouble) :
      v.Misreads (integerFault shown t) := by
    cases t <;> exact ⟨nofun, nofun⟩
  unfold toInteger
  split
  · trivial
  · trivial
  · rename_i x
    split
    · exact ⟨nofun, nofun⟩
    · rename_i negative hdecode
      exact ⟨fun _ => hw ⟨x, negative, rfl, hdecode⟩, nofun⟩
    · trivial
  · exact .of_mapError (hfault _) _
  · exact .of_mapError (hfault _) _
  · exact .of_mapError (hfault _) _
  · exact .of_mapError (hfault _) _
  · exact ⟨nofun, nofun⟩

theorem Misreads.of_problem (v : Value) {p : Problem} (hp : p.isMisreading = true) :
    v.Misreads (.problem p) := by
  refine ⟨nofun, fun q hq => ?_⟩
  obtain rfl := Fault.problem.inj hq
  exact hp

theorem Misreads.ofProblem (v : Value) {p : Problem} (hp : p.isMisreading = true) :
    v.Misreads (.ofProblem p) := by
  unfold Fault.ofProblem
  split
  · exact ⟨nofun, nofun⟩
  · exact .of_problem v hp

theorem Misreads.hexFault (v w : Value) (why : String) : v.Misreads (w.hexFault why) := by
  unfold Value.hexFault shown
  split
  · exact .of_problem v rfl
  · rename_i f hshown
    split_ifs at hshown
    obtain rfl := Except.error.inj hshown
    exact ⟨nofun, nofun⟩

theorem toBytes_meets (v w : Value) : Act.Meets (fun _ => True) v.Misreads w.toBytes := by
  unfold toBytes
  split
  · exact .of_mapError (fun _ => .hexFault v _ _) _
  · exact .hexFault v _ _
  · exact .hexFault v _ _
  · exact .hexFault v _ _

theorem toHash_meets (v w : Value) : Act.Meets (fun _ => True) v.Misreads w.toHash := by
  refine (toBytes_meets v w).bind fun shown _ => ?_
  split
  · trivial
  · exact .of_problem v rfl

theorem toAmount_meets (v w : Value) : Act.Meets (fun _ => True) v.Misreads w.toAmount := by
  unfold toAmount
  split
  · split
    · trivial
    · exact .ofProblem v rfl
  · exact .ofProblem v rfl

theorem elements_meets (v w : Value) (hw : w.Unbounded → v.Unbounded) :
    Act.Meets (fun xs => ∀ x ∈ xs, x.Unbounded → v.Unbounded) v.Misreads w.elements := by
  cases w with
  | list items =>
    rintro x hx ⟨fields, name, u, hheld, hrest⟩
    exact hw ⟨fields, name, u, .item hx hheld, hrest⟩
  | frozen items =>
    rintro x hx ⟨fields, name, u, hheld, hrest⟩
    exact hw ⟨fields, name, u, .frozen hx hheld, hrest⟩
  | string s | mapping fields =>
    intro x hx
    obtain ⟨y, -, rfl⟩ := List.mem_map.1 hx
    exact fun h => absurd h (not_unbounded_string _)
  | torn t =>
    intro x hx
    obtain ⟨y, -, rfl⟩ := List.mem_map.1 hx
    exact fun h => absurd h (not_unbounded_ofPoints _)
  | bytes b | buffer b =>
    intro x hx
    obtain ⟨y, -, rfl⟩ := List.mem_map.1 hx
    exact fun h => absurd h (not_unbounded_int _)
  | _ => exact ⟨nofun, nofun⟩

/-! ### Fields -/

theorem IsField.unbounded {v w : Value} {name : String} (h : v.IsField name w)
    (hname : name ∈ integerNames) (hw : w.IsInfinite) : v.Unbounded := by
  obtain ⟨fields, rfl, hlookup⟩ := h
  exact .of_lookup? hname hlookup hw

theorem IsField.whole {v w : Value} {name : String} (h : v.IsField name w) (hw : w.Unbounded) :
    v.Unbounded := by
  obtain ⟨fields, rfl, hlookup⟩ := h
  exact .field hlookup hw

theorem optional_toInteger_meets (v : Value) {name : String} (default : Int)
    (hname : name ∈ integerNames) {w : Value} (h : v.IsField name w ∨ w = .int default) :
    Act.Meets (fun _ => True) v.Misreads w.toInteger := by
  rcases h with h | rfl
  · exact toInteger_meets (h.unbounded hname)
  · trivial

theorem optionalInteger_meets (v : Value) {name : String} (default : Int)
    (hname : name ∈ integerNames) :
    Act.Meets (fun _ => True) v.Misreads (v.optionalInteger name default) :=
  (v.optional_meets name _).bind fun _ => v.optional_toInteger_meets default hname

theorem optionalHash_meets (v : Value) (name : String) :
    Act.Meets (fun _ => True) v.Misreads (v.optionalHash name) :=
  (optional_meets v name _).bind fun w _ => toHash_meets v w

theorem optionalScript_meets (v : Value) (name : String) :
    Act.Meets (fun _ => True) v.Misreads (v.optionalScript name) :=
  (optional_meets v name _).bind fun w _ => toBytes_meets v w

theorem optionalList_meets {α : Type} {read : Value → Except Fault α}
    (hread : ∀ w : Value, Act.Meets (fun _ => True) w.Misreads (read w)) (v : Value)
    (name : String) : Act.Meets (fun _ => True) v.Misreads (v.optionalList name read) := by
  refine (optional_meets v name _).bind fun w hw => ?_
  have hpart : w.Unbounded → v.Unbounded := by
    rcases hw with hw | rfl
    · exact hw.whole
    · rintro ⟨_, _, _, h, -⟩
      cases h with
      | item hx _ => cases hx
  refine (elements_meets v w hpart).bind fun xs hxs => .mapM fun x hx => ?_
  exact (hread x).imp (fun _ => id) fun f hf => hf.whole (hxs x hx)

end Value

/-! ### Blocks -/

theorem OutPoint.make_meets (v : Value) (hash : Hash) (index : Int) :
    Act.Meets (fun _ => True) v.Misreads (make hash index) := by
  unfold make
  split
  · trivial
  · exact .ofProblem v rfl

theorem TxInput.read_meets (v : Value) : Act.Meets (fun _ => True) v.Misreads (read v) := by
  refine (v.require_meets "prev_hash").bind fun w _ => ?_
  refine (Value.toHash_meets v w).bind fun hash _ => ?_
  refine (v.require_meets "prev_index").bind fun w hw => ?_
  refine (Value.toInteger_meets (hw.unbounded (by decide))).bind fun index _ => ?_
  refine (OutPoint.make_meets v hash index).bind fun source _ => ?_
  refine (v.optionalScript_meets _).bind fun script _ => ?_
  exact (v.optionalInteger_meets _ (by decide)).bind fun sequence _ => trivial

theorem EvaluatedOutput.read_meets (v : Value) :
    Act.Meets (fun _ => True) v.Misreads (read v) := by
  refine (v.optional_meets "address" _).bind fun stated _ => ?_
  refine (v.require_meets "value").bind fun w hw => ?_
  refine (Value.toInteger_meets (hw.unbounded (by decide))).bind fun amount _ => ?_
  refine (v.optionalScript_meets _).bind fun script _ => ?_
  refine (Value.toAmount_meets v _).bind fun value _ => ?_
  exact (v.optional_meets "pattern" _).bind fun pattern _ => trivial

theorem Transaction.read_meets (v : Value) : Act.Meets (fun _ => True) v.Misreads (read v) := by
  refine (v.require_meets "hash").bind fun w _ => ?_
  refine (Value.toHash_meets v w).bind fun hash _ => ?_
  refine (v.optionalInteger_meets _ (by decide)).bind fun version _ => ?_
  refine (v.optionalInteger_meets _ (by decide)).bind fun locktime _ => ?_
  refine (Value.optionalList_meets TxInput.read_meets v _).bind fun inputs _ => ?_
  exact (Value.optionalList_meets EvaluatedOutput.read_meets v _).bind fun outputs _ => trivial

theorem BlockHeader.read_meets (v : Value) : Act.Meets (fun _ => True) v.Misreads (read v) := by
  refine (v.require_meets "hash").bind fun w _ => ?_
  refine (Value.toHash_meets v w).bind fun hash _ => ?_
  refine (v.optionalInteger_meets _ (by decide)).bind fun version _ => ?_
  refine (v.optionalHash_meets _).bind fun previous _ => ?_
  refine (v.optionalHash_meets _).bind fun merkleRoot _ => ?_
  refine (v.optionalInteger_meets _ (by decide)).bind fun timestamp _ => ?_
  refine (v.optionalInteger_meets _ (by decide)).bind fun bits _ => ?_
  exact (v.optionalInteger_meets _ (by decide)).bind fun nonce _ => trivial

/-- **Whatever a block is read of**, it overflows only at an infinite number, and its problems are
those of reading. -/
theorem Block.read_meets (v : Value) : Act.Meets (fun _ => True) v.Misreads (read v) := by
  refine (BlockHeader.read_meets v).bind fun header _ => ?_
  refine (v.optionalInteger_meets _ (by decide)).bind fun size _ => ?_
  exact (Value.optionalList_meets Transaction.read_meets v _).bind fun transactions _ => trivial

/-! ### Fixtures -/

/-- The fault is a problem of a fixture. -/
def Fault.isFixture : Fault → Bool
  | .problem p => p.category == .fixture
  | _ => false

namespace Source

/-- A problem of the fixture, an overflow at an infinite number, or a number of too many digits to
be told. -/
def Refuses (v : Value) (f : Fault) : Prop :=
  f.isFixture = true ∨ f = .infiniteInteger ∧ v.Unbounded ∨ f = .longInteger ∧ ¬ v.Short

theorem Refuses.of_short {v : Value} {f : Fault} (h : Refuses v f) (hv : v.Short) :
    f.isFixture = true ∨ f = .infiniteInteger ∧ v.Unbounded := by
  obtain h | h | ⟨-, hlong⟩ := h
  · exact .inl h
  · exact .inr h
  · exact absurd hv hlong

theorem blockFault_refuses {v : Value} (position : Nat) {f : Fault} (h : v.Misreads f) :
    Refuses v (blockFault position f) := by
  unfold blockFault
  split
  · rename_i p
    have hcategory : p.category.ancestry.contains .validation = true := by
      rw [Problem.category_of_isMisreading (h.problem p rfl)]
      rfl
    rw [if_pos hcategory]
    exact .inl rfl
  · exact .inr (.inl ⟨rfl, h.overflow rfl⟩)
  · exact .inl rfl

theorem headerFault_refuses {v : Value} {f : Fault} (h : v.Misreads f) :
    Refuses v (headerFault f) := by
  unfold headerFault
  split
  · exact .inr (.inl ⟨rfl, h.overflow rfl⟩)
  · exact .inl rfl

theorem readBlocks_meets {v : Value} {items : List Value}
    (hitems : ∀ x ∈ items, x.Unbounded → v.Unbounded) (position : Nat) :
    Act.Meets (fun _ => True) (Refuses v) (readBlocks position items) := by
  induction items generalizing position with
  | nil => trivial
  | cons x rest ih =>
    obtain ⟨hx, hrest⟩ := List.forall_mem_cons.1 hitems
    refine ((Block.read_meets x).mapError fun f hf => ?_).bind fun b _ => ?_
    · exact blockFault_refuses position (hf.whole hx)
    · exact (ih hrest _).bind fun _ _ => trivial

theorem readHeader_meets (v : Value) : Act.Meets (fun _ => True) v.Misreads (readHeader v) := by
  have hcoin (w : Value) : Act.Meets (fun _ => True) v.Misreads (Coin.read w) := by
    unfold Coin.read
    split
    · split
      · trivial
      · exact ⟨nofun, nofun⟩
    all_goals exact ⟨nofun, nofun⟩
  refine (v.optional_meets "coin" _).bind fun w _ => (hcoin w).bind fun coin _ => ?_
  refine (v.optional_meets "start_height" _).bind fun w hw => ?_
  exact (v.optional_toInteger_meets 0 (by decide) hw).bind fun height _ => trivial

theorem readHeader_short {v : Value} (hv : v.Short) {header : Coin × Int}
    (h : readHeader v = .ok header) : Document.isTooLong header.2 = false := by
  obtain ⟨_, -, h⟩ := Except.bind_ok h
  obtain ⟨coin, -, h⟩ := Except.bind_ok h
  obtain ⟨w, hw, h⟩ := Except.bind_ok h
  obtain ⟨height, hheight, h⟩ := Except.bind_ok h
  obtain rfl := Except.ok.inj h
  exact Value.toInteger_short (hv.optional Value.short_zero hw) hheight

theorem refuses_startHeight {v : Value} {header : Coin × Int} (h : readHeader v = .ok header) :
    Refuses v (.ofProblem (.startHeight header.2)) := by
  unfold Fault.ofProblem
  split
  · rename_i hlong
    rw [Problem.shown, List.any_cons, List.any_nil, Bool.or_false] at hlong
    refine .inr (.inr ⟨rfl, fun hv => ?_⟩)
    rw [show Document.hasLongInteger (.int header.2) = _ from readHeader_short hv h] at hlong
    cases hlong
  · exact .inl rfl

/-- **Whatever a fixture is read of**, it is refused with a problem of the fixture, but for an
overflow at an infinite number and a height that cannot be told. -/
theorem read_meets (v : Value) : Act.Meets (fun _ => True) (Refuses v) (read v) := by
  unfold read
  split
  · rename_i fields items hblocks
    have hitems : ∀ x ∈ items, x.Unbounded → (Value.mapping fields).Unbounded := by
      rintro x hx ⟨inner, name, u, hheld, hrest⟩
      exact .field hblocks ⟨inner, name, u, .item hx hheld, hrest⟩
    cases hheader : readHeader (.mapping fields) with
    | error f =>
      have hmeets := readHeader_meets (.mapping fields)
      rw [hheader] at hmeets
      exact headerFault_refuses hmeets
    | ok header =>
      refine (readBlocks_meets hitems 0).bind fun blocks _ => ?_
      split
      · trivial
      · exact refuses_startHeight hheader
  · exact .inl rfl

/-! ### Files -/

/-- The faults with which the loading of a fixture may stop and which are no problems of the
fixture. -/
inductive Unreported (disk : Disk) (path : Path) : Fault → Prop
  /-- The file is not UTF-8. -/
  | bytes {b : Bytes} {m : String} (hcontent : disk.content path = .ok b)
      (hbytes : Text.decodeUtf8 b = .error m) : Unreported disk path (.notUtf8 m)
  /-- A whole number in the file has too many digits. -/
  | digits {b : Bytes} {cs : List Char} {n : Nat} (hcontent : disk.content path = .ok b)
      (htext : Text.decodeUtf8 b = .ok cs)
      (hdigits : Json.parseChars (Text.unifyLineEnds cs) = .error (.longInteger n)) :
      Unreported disk path (.json (.longInteger n))
  /-- An infinite number stands in a field that is read as a whole number. -/
  | infinity {v : Value} (hfile : readFile disk path = .ok v) (hv : v.Unbounded) :
      Unreported disk path .infiniteInteger

theorem readFile_of_bytes {disk : Disk} {path : Path} {b : Bytes} {m : String}
    (hcontent : disk.content path = .ok b) (hbytes : Text.decodeUtf8 b = .error m) :
    readFile disk path = .error (.notUtf8 m) := by
  rw [readFile, hcontent]
  show ((Text.decodeUtf8 b).mapError Fault.notUtf8 >>= _) = _
  rw [hbytes]
  rfl

theorem readFile_of_text {disk : Disk} {path : Path} {b : Bytes} {cs : List Char}
    (hcontent : disk.content path = .ok b) (htext : Text.decodeUtf8 b = .ok cs) :
    readFile disk path = (Json.parseChars (Text.unifyLineEnds cs)).mapError fun t => match t with
      | .syntaxAt .. => .problem (.fixtureSyntax path.text t.message)
      | .longInteger _ | .deep _ => .json t := by
  rw [readFile, hcontent]
  show ((Text.decodeUtf8 b).mapError Fault.notUtf8 >>= _) = _
  rw [htext]
  rfl

theorem readFile_meets (disk : Disk) (path : Path) :
    Act.Meets (fun _ => True) (fun f => f.isFixture = true ∨ Unreported disk path f)
      (readFile disk path) := by
  cases hcontent : disk.content path with
  | error t =>
    rw [readFile, hcontent]
    exact .inl rfl
  | ok b =>
    cases htext : Text.decodeUtf8 b with
    | error m =>
      rw [readFile_of_bytes hcontent htext]
      exact .inr (.bytes hcontent htext)
    | ok cs =>
      rw [readFile_of_text hcontent htext]
      cases hparse : Json.parseChars (Text.unifyLineEnds cs) with
      | ok v => trivial
      | error t =>
        cases t with
        | syntaxAt => exact .inl rfl
        | longInteger n => exact .inr (.digits hcontent htext hparse)
        | deep isList => exact absurd hparse (Json.parseChars_ne_deep _ isList)

theorem load_outcome {σ : Type} (disk : Disk) (path : Path) (d : Desk σ) :
    ((load disk path).runAt d).1 = readFile disk path >>= read := by
  simp only [load, Act.runAt_bind, Act.runAt_lift, Act.runAt_log, Act.runAt_pure]
  cases readFile disk path >>= read <;> rfl

/-- Where the file is not UTF-8 or a number in it has too many digits, loading stops with that. -/
theorem load_of_unreported {σ : Type} {disk : Disk} {path : Path} {f : Fault}
    (h : Unreported disk path f) (hf : f ≠ .infiniteInteger) (d : Desk σ) :
    ((load disk path).runAt d).1 = .error f := by
  rw [load_outcome]
  obtain ⟨hcontent, hbytes⟩ | ⟨hcontent, htext, hdigits⟩ | _ := h
  · rw [readFile_of_bytes hcontent hbytes]
    rfl
  · rw [readFile_of_text hcontent htext, hdigits]
    rfl
  · exact absurd rfl hf

/-- **A fixture is loaded, or refused as a fixture, but for three exceptions.** Whatever the file
holds, loading stops with a problem of the fixture, or with one of the exceptions. It does stop with
the exception where the file is not UTF-8 or a number in it has too many digits. Whatever value a
fixture is read of, of the exceptions only the overflow at an infinite number is left, as long as no
number in it is longer than those of a file can be: then the report of a height may stop. -/
theorem load_stops {σ : Type} (disk : Disk) (path : Path) (d : Desk σ) :
    Act.Meets (fun _ => True) (fun f => f.isFixture = true ∨ Unreported disk path f)
        ((load disk path).runAt d).1 ∧
      (∀ f, Unreported disk path f → f ≠ .infiniteInteger →
        ((load disk path).runAt d).1 = .error f) ∧
      ∀ v, Act.Meets (fun _ => True) (fun f => f.isFixture = true ∨
        f = .infiniteInteger ∧ v.Unbounded ∨ f = .longInteger ∧ ¬ v.Short) (read v) := by
  refine ⟨?_, fun f hunreported hf => load_of_unreported hunreported hf d, read_meets⟩
  rw [load_outcome]
  cases hfile : readFile disk path with
  | error f =>
    have hmeets := readFile_meets disk path
    rwa [hfile] at hmeets
  | ok v =>
    refine (read_meets v).imp (fun _ => id) fun f hf => ?_
    rcases hf.of_short (readFile_short hfile) with hf | ⟨rfl, hv⟩
    · exact .inl hf
    · exact .inr (.infinity hfile hv)

/-- The name of the fault of an outcome that is neither a source nor a problem of a fixture. -/
def escape? : Except Fault Source → Option String
  | .ok _ => none
  | .error f => if f.isFixture then none else some f.name

theorem escape?_of_unreported {σ : Type} {disk : Disk} {path : Path} {f : Fault}
    (h : Unreported disk path f) (hf : f ≠ .infiniteInteger) (d : Desk σ) :
    escape? ((load disk path).runAt d).1 = some f.name := by
  rw [load_of_unreported h hf d]
  cases h <;> rfl

theorem decodeUtf8From_ones (position n : Nat) :
    Text.decodeUtf8From position (List.replicate n 0x31) = .ok (List.replicate n '1') := by
  induction n generalizing position with
  | zero =>
    rw [List.replicate_zero, Text.decodeUtf8From]
    rfl
  | succ n ih =>
    have hfirst (rest : Bytes) : Text.decodeFirst 0x31 rest = .ok ('1', 0) := rfl
    rw [List.replicate_succ, Text.decodeUtf8From, hfirst]
    show (Text.decodeUtf8From (position + 0 + 1) (List.replicate n 0x31)).map _ = _
    rw [ih]
    rfl

theorem unifyLineEnds_ones (n : Nat) :
    Text.unifyLineEnds (List.replicate n '1') = List.replicate n '1' := by
  induction n with
  | zero => rfl
  | succ n ih =>
    show '1' :: Text.unifyLineEnds (List.replicate n '1') = _
    rw [ih]
    rfl

theorem parseChars_ones {n : Nat} (h : Json.digitLimit < n + 1) :
    Json.parseChars (List.replicate (n + 1) '1') = .error (.longInteger (n + 1)) := by
  have htake : (List.replicate n '1').takeWhile Char.isDigit = List.replicate n '1' := by
    rw [List.takeWhile_replicate]
    rfl
  have hdrop : (List.replicate n '1').dropWhile Char.isDigit = [] := by
    rw [List.dropWhile_replicate]
    rfl
  have hlong : Json.digitLimit < ('1' :: List.replicate n '1').length := by
    rwa [List.length_cons, List.length_replicate]
  have hread (fuel room : Nat) : Json.readValue (fuel + 1) room ('1' :: List.replicate n '1') =
      .error (.long (n + 1)) := by
    show Json.readNumberTail false ('1' :: (List.replicate n '1').takeWhile Char.isDigit)
      ((List.replicate n '1').dropWhile Char.isDigit) = _
    rw [htake, hdrop]
    show (if Json.digitLimit < _ then _ else _) = _
    rw [if_pos hlong, List.length_cons, List.length_replicate]
  have hskip : Json.skip ('1' :: List.replicate n '1') = '1' :: List.replicate n '1' := rfl
  have hmark : ('1' :: List.replicate n '1').head? ≠ some (Char.ofNat 0xfeff) := by
    rw [List.head?_cons]
    decide
  rw [List.replicate_succ, Json.parseChars, Json.parseWithin, if_neg hmark, hskip, Json.fuelFor,
    hread]

/-- A disk with one file. -/
def diskOf (content : Bytes) : Disk := ⟨[(["f.json"], .file content)]⟩

/-- **The exceptions are real**: a file that is not UTF-8, one that holds a number of 4301 digits,
and a fixture that states an infinite height. -/
theorem load_escapes :
    let outcome : Bytes → Except Fault Source := fun content =>
      ((load (diskOf content) ⟨"", ["f.json"]⟩ : Act Unit Source).perform ()).1
    let endless : Value :=
      .mapping [("blocks", .list []), ("start_height", .real (.infinity false))]
    escape? (outcome [0xff]) = some "UnicodeDecodeError" ∧
      escape? (outcome (List.replicate 4301 0x31)) = some "ValueError" ∧
      escape? (read endless) = some "OverflowError" := by
  intro outcome endless
  have hcontent (b : Bytes) : (diskOf b).content ⟨"", ["f.json"]⟩ = .ok b := rfl
  refine ⟨?_, ?_, by decide +kernel⟩
  · have hbytes : Text.decodeUtf8 [0xff] = .error (Text.Utf8Trouble.start.message 0xff 0 1) := by
      rw [Text.decodeUtf8, Text.decodeUtf8From]
      rfl
    exact escape?_of_unreported (.bytes (hcontent _) hbytes) (by simp) _
  · have hdigits : Json.parseChars (Text.unifyLineEnds (List.replicate 4301 '1')) =
        .error (.longInteger 4301) := by
      rw [unifyLineEnds_ones]
      exact parseChars_ones (by decide)
    exact escape?_of_unreported (.digits (hcontent _) (decodeUtf8From_ones 0 4301) hdigits)
      (by simp) _

end Source

end BlockArchive
