import BlockArchive.Proofs.Json.Tokens

/-!
# JSON texts are read back

What is written for data is read back as the same data, in every style: blanks between tokens are
skipped, every token ends where it was written to end, the fuel is enough, and so is the room if
there is as much as the data is deep.

* `Value.IsData` is data: nothing, truth values, whole numbers of few enough digits, texts, lists of
  data, and mappings of data whose names are distinct; `Value.depth` is how deep it is;
* `Json.Reads` says that a value is read back in any place, and `Value.IsData.reads` that data is;
* `Json.parseWithin_render` is the round trip of a whole text, `Json.parse_render` that where there
  is room for all.
-/

namespace BlockArchive

/-- Data that a JSON text can hold. -/
inductive Value.IsData : Value → Prop
  /-- Nothing. -/
  | null : IsData .null
  /-- A truth value. -/
  | bool (b : Bool) : IsData (.bool b)
  /-- A whole number that can be written. -/
  | int {n : Int} (short : Document.isTooLong n = false) : IsData (.int n)
  /-- A text. -/
  | string (s : String) : IsData (.string s)
  /-- A list of data. -/
  | list {xs : List Value} (items : ∀ x ∈ xs, IsData x) : IsData (.list xs)
  /-- Data under distinct names. -/
  | mapping {fields : List (String × Value)} (names : (fields.map Prod.fst).Nodup)
      (values : ∀ f ∈ fields, IsData f.2) : IsData (.mapping fields)

namespace Value

mutual

/-- How many lists and mappings there are inside each other. -/
def depth : Value → Nat
  | .list xs | .frozen xs => depthOfItems xs + 1
  | .mapping fields => depthOfFields fields + 1
  | _ => 0

/-- The depth of the deepest item. -/
def depthOfItems : List Value → Nat
  | [] => 0
  | x :: xs => max (depth x) (depthOfItems xs)

/-- The depth of the deepest field. -/
def depthOfFields : List (String × Value) → Nat
  | [] => 0
  | (_, v) :: rest => max (depth v) (depthOfFields rest)

end

theorem depthOfItems_le {xs : List Value} {n : Nat} :
    depthOfItems xs ≤ n ↔ ∀ x ∈ xs, x.depth ≤ n := by
  induction xs with
  | nil => simp [depthOfItems]
  | cons x xs ih => rw [depthOfItems, Nat.max_le, ih, List.forall_mem_cons]

theorem depthOfFields_le {fields : List (String × Value)} {n : Nat} :
    depthOfFields fields ≤ n ↔ ∀ f ∈ fields, f.2.depth ≤ n := by
  induction fields with
  | nil => simp [depthOfFields]
  | cons f fields ih => rw [depthOfFields, Nat.max_le, ih, List.forall_mem_cons]

/-- Where there is room for a list, there is room inside it for its items. -/
theorem depth_list_le {xs : List Value} {room : Nat} :
    (list xs).depth ≤ room ↔ ∃ inside, room = inside + 1 ∧ ∀ x ∈ xs, x.depth ≤ inside := by
  rw [depth]
  constructor
  · intro h
    exact ⟨room - 1, by omega, depthOfItems_le.1 (by omega)⟩
  · rintro ⟨inside, rfl, hinside⟩
    exact Nat.succ_le_succ (depthOfItems_le.2 hinside)

/-- Where there is room for a mapping, there is room inside it for its fields. -/
theorem depth_mapping_le {fields : List (String × Value)} {room : Nat} :
    (mapping fields).depth ≤ room ↔
      ∃ inside, room = inside + 1 ∧ ∀ f ∈ fields, f.2.depth ≤ inside := by
  rw [depth]
  constructor
  · intro h
    exact ⟨room - 1, by omega, depthOfFields_le.1 (by omega)⟩
  · rintro ⟨inside, rfl, hinside⟩
    exact Nat.succ_le_succ (depthOfFields_le.2 hinside)

end Value

namespace Json

/-! ### Blanks -/

theorem skip_cons {c : Char} (hc : Text.isJsonBlank c = false) (cs : List Char) :
    skip (c :: cs) = c :: cs := by
  simp [skip, hc]

theorem skip_append {blanks : List Char} (h : ∀ c ∈ blanks, Text.isJsonBlank c = true)
    (cs : List Char) : skip (blanks ++ cs) = skip cs :=
  List.dropWhile_append_of_pos h

theorem isJsonBlank_of_mem_lineStart {style : Style} {level : Nat} {c : Char}
    (h : c ∈ lineStart style level) : Text.isJsonBlank c = true := by
  unfold lineStart at h
  split at h
  · cases h
  · rcases List.mem_cons.1 h with rfl | h
    · rfl
    · rw [List.eq_of_mem_replicate h]
      rfl

/-- The blanks behind a comma. -/
def gap (style : Style) (level : Nat) : List Char :=
  match style.indent with
  | none => [' ']
  | some _ => lineStart style level

theorem separator_eq (style : Style) (level : Nat) :
    separator style level = ',' :: gap style level := by
  unfold separator gap
  cases style.indent <;> rfl

theorem isJsonBlank_of_mem_gap {style : Style} {level : Nat} {c : Char} (h : c ∈ gap style level) :
    Text.isJsonBlank c = true := by
  unfold gap at h
  split at h
  · rw [List.mem_singleton.1 h]
    rfl
  · exact isJsonBlank_of_mem_lineStart h

theorem ends_lineStart (style : Style) (level : Nat) {c : Char} (hc : goesOn c = false)
    (rest : List Char) : Ends (lineStart style level ++ c :: rest) := by
  unfold lineStart
  split
  · exact ends_cons hc
  · exact ends_cons rfl

/-! ### Beginnings -/

theorem renderChars_list_cons (style : Style) (level : Nat) (x : Value) (xs : List Value) :
    renderChars style level (.list (x :: xs)) =
      '[' :: (lineStart style (level + 1) ++ (renderChars style (level + 1) x ++
        (renderItems style (level + 1) xs ++ (lineStart style level ++ [']'])))) := by
  simp [renderChars]

theorem renderChars_mapping_cons (style : Style) (level : Nat) (k : String) (v : Value)
    (fields : List (String × Value)) :
    renderChars style level (.mapping ((k, v) :: fields)) =
      '\x7b' :: (lineStart style (level + 1) ++ (string k.toList ++ (':' :: ' ' ::
        (renderChars style (level + 1) v ++ (renderFields style (level + 1) fields ++
          (lineStart style level ++ ['\x7d'])))))) := by
  simp [renderChars]

/-- A whole number begins with a digit or with a minus, and with nothing else. -/
theorem ofInt_eq_cons (n : Int) :
    ∃ c cs, (Text.ofInt n).toList = c :: cs ∧
      ∀ d : Char, d.isDigit = false → d ≠ '-' → c ≠ d := by
  obtain ⟨c, cs, hcs, -⟩ := Text.decimalDigits_eq_cons n.natAbs
  cases n with
  | ofNat n =>
    have hc : c.isDigit = true := Text.isDigit_of_mem_decimalDigits (hcs ▸ List.mem_cons_self)
    refine ⟨c, cs, by rw [Text.ofInt, String.toList_ofList]; exact hcs, ?_⟩
    rintro d hd - rfl
    exact Bool.false_ne_true (hd.symm.trans hc)
  | negSucc n =>
    refine ⟨'-', _, by rw [Text.ofInt, String.toList_ofList], ?_⟩
    rintro d - hminus rfl
    exact hminus rfl

/-- The text of data begins neither with a blank nor with a closing bracket, and is ASCII there. -/
theorem renderChars_eq_cons (style : Style) (level : Nat) {v : Value} (hv : v.IsData) :
    ∃ c cs, renderChars style level v = c :: cs ∧ Text.isJsonBlank c = false ∧ c ≠ ']' ∧
      c ≠ Char.ofNat 0xfeff := by
  cases hv with
  | null => exact ⟨'n', _, rfl, rfl, by decide, by decide⟩
  | bool b => cases b <;> exact ⟨_, _, rfl, rfl, by decide, by decide⟩
  | @int n _ =>
    obtain ⟨c, cs, hcs, hne⟩ := ofInt_eq_cons n
    refine ⟨c, cs, hcs, ?_, hne _ rfl (by decide), hne _ rfl (by decide)⟩
    simp [Text.isJsonBlank, hne]
  | string s => exact ⟨'"', _, rfl, rfl, by decide, by decide⟩
  | @list xs _ =>
    cases xs with
    | nil => exact ⟨'[', _, rfl, rfl, by decide, by decide⟩
    | cons x xs => exact ⟨'[', _, renderChars_list_cons .., rfl, by decide, by decide⟩
  | @mapping fields _ _ =>
    cases fields with
    | nil => exact ⟨'\x7b', _, rfl, rfl, by decide, by decide⟩
    | cons f fields => exact ⟨'\x7b', _, renderChars_mapping_cons .., rfl, by decide, by decide⟩

theorem skip_renderChars {blanks : List Char} (h : ∀ c ∈ blanks, Text.isJsonBlank c = true)
    (style : Style) (level : Nat) {v : Value} (hv : v.IsData) (rest : List Char) :
    skip (blanks ++ (renderChars style level v ++ rest)) = renderChars style level v ++ rest := by
  obtain ⟨c, cs, hcs, hc, -⟩ := renderChars_eq_cons style level hv
  rw [skip_append h, hcs, List.cons_append, skip_cons hc]

/-! ### Values -/

/-- A value is read back in any place with room for it. -/
def Reads (v : Value) : Prop :=
  ∀ (style : Style) (level fuel room : Nat) (rest : List Char), Ends rest → v.depth ≤ room →
    2 * (renderChars style level v).length < fuel →
    readValue fuel room (renderChars style level v ++ rest) = .ok (v, rest)

/-- What is neither a string nor a list nor an object is read as a word or a number. -/
theorem readValue_simple (fuel room : Nat) {c : Char} (cs : List Char) (hstring : c ≠ '"')
    (hlist : c ≠ '[') (hobject : c ≠ '\x7b') :
    readValue (fuel + 1) room (c :: cs) = readSimple (c :: cs) := by
  rw [readValue]
  · exact fun rest h => hstring (List.cons.inj h).1
  · exact fun rest h => hlist (List.cons.inj h).1
  · exact fun rest h => hobject (List.cons.inj h).1

theorem reads_null : Reads .null := by
  rintro style level (- | fuel) room rest - hroom hfuel
  · omega
  · exact readValue_simple fuel room _ (by decide) (by decide) (by decide)

theorem reads_bool (b : Bool) : Reads (.bool b) := by
  rintro style level (- | fuel) room rest - hroom hfuel
  · omega
  · cases b <;> exact readValue_simple fuel room _ (by decide) (by decide) (by decide)

theorem reads_int {n : Int} (hn : Document.isTooLong n = false) : Reads (.int n) := by
  rintro style level (- | fuel) room rest hrest - hfuel
  · omega
  · have hread := readSimple_ofInt hn hrest
    obtain ⟨c, cs, hcs, hne⟩ := ofInt_eq_cons n
    rw [renderChars]
    rw [hcs, List.cons_append] at hread ⊢
    rw [readValue_simple fuel room _ (hne _ rfl (by decide)) (hne _ rfl (by decide))
      (hne _ rfl (by decide)), hread]

theorem reads_string (s : String) : Reads (.string s) := by
  rintro style level (- | fuel) room rest - hroom hfuel
  · omega
  · simp only [renderChars, string, List.cons_append, List.append_assoc, List.nil_append, readValue,
      readString_string, Except.map]
    rw [Value.ofPoints_map_char, String.ofList_toList]

theorem readItems_renderItems (style : Style) (level level' : Nat) {x : Value} {xs : List Value}
    (hdata : ∀ y ∈ x :: xs, y.IsData) (hreads : ∀ y ∈ x :: xs, Reads y) {room : Nat}
    (hroom : ∀ y ∈ x :: xs, y.depth ≤ room) (fuel : Nat) (rest : List Char)
    (hfuel : 2 * ((renderChars style level x).length + (renderItems style level xs).length) + 1 <
      fuel) :
    readItems fuel room (renderChars style level x ++ (renderItems style level xs ++
      (lineStart style level' ++ ']' :: rest))) = .ok (x :: xs, rest) := by
  -- each item takes one from the fuel, and at least its comma from the text
  induction xs generalizing x fuel with
  | nil =>
    obtain - | fuel := fuel
    · omega
    have hread := hreads x List.mem_cons_self style level fuel room
      (lineStart style level' ++ ']' :: rest) (ends_lineStart style level' rfl rest)
      (hroom x List.mem_cons_self) (by simp only [renderItems, List.length_nil] at hfuel; omega)
    have hskip : skip (lineStart style level' ++ ']' :: rest) = ']' :: rest := by
      rw [skip_append fun c => isJsonBlank_of_mem_lineStart, skip_cons rfl]
    simp only [renderItems, List.nil_append, readItems, hread, hskip]
  | cons y ys ih =>
    obtain - | fuel := fuel
    · omega
    have htail : renderItems style level (y :: ys) ++ (lineStart style level' ++ ']' :: rest) =
        ',' :: (gap style level ++ (renderChars style level y ++ (renderItems style level ys ++
          (lineStart style level' ++ ']' :: rest)))) := by
      simp only [renderItems, separator_eq, List.append_assoc, List.cons_append]
    have hlength : (renderItems style level (y :: ys)).length =
        1 + (gap style level).length + (renderChars style level y).length +
          (renderItems style level ys).length := by
      simp only [renderItems, separator_eq, List.length_append, List.length_cons]
      omega
    have hread := fun more => hreads x List.mem_cons_self style level fuel room (',' :: more)
      (ends_cons rfl) (hroom x List.mem_cons_self) (by omega)
    have hrest := ih (fun z hz => hdata z (List.mem_cons_of_mem _ hz))
      (fun z hz => hreads z (List.mem_cons_of_mem _ hz))
      (fun z hz => hroom z (List.mem_cons_of_mem _ hz)) fuel (by omega)
    have hy := hdata y (List.mem_cons_of_mem _ List.mem_cons_self)
    rw [htail]
    simp only [readItems, hread, skip_cons (c := ',') rfl,
      skip_renderChars (fun c => isJsonBlank_of_mem_gap) style level hy, hrest, Except.map]

theorem reads_list {xs : List Value} (hdata : ∀ x ∈ xs, x.IsData) (hreads : ∀ x ∈ xs, Reads x) :
    Reads (.list xs) := by
  rintro style level (- | fuel) room rest - hroom hfuel
  · omega
  obtain ⟨inside, rfl, hinside⟩ := Value.depth_list_le.1 hroom
  cases xs with
  | nil =>
    have hskip : skip (']' :: rest) = ']' :: rest := skip_cons rfl rest
    simp only [renderChars, List.cons_append, List.nil_append, readValue, hskip]
  | cons x xs =>
    have hx := hdata x List.mem_cons_self
    -- a list that is not empty does not begin with its bracket: items do not
    obtain ⟨c, cs, hcs, -, hc, -⟩ := renderChars_eq_cons style (level + 1) hx
    have hitems := readItems_renderItems style (level + 1) level hdata hreads hinside fuel rest (by
      simp only [renderChars_list_cons, List.length_cons, List.length_append] at hfuel
      omega)
    simp only [renderChars_list_cons, List.cons_append, List.append_assoc, List.nil_append,
      readValue, skip_renderChars (fun c => isJsonBlank_of_mem_lineStart) style (level + 1) hx]
    split
    · rename_i heq
      rw [hcs, List.cons_append] at heq
      exact absurd (List.cons.inj heq).1 hc
    · rw [hitems]
      rfl

theorem setField_of_notMem {fields : List (String × Value)} {name : String}
    (h : name ∉ fields.map Prod.fst) (v : Value) :
    Value.setField fields name v = fields ++ [(name, v)] := by
  have hany : fields.any (fun f => f.1 == name) = false := by
    rw [List.any_eq_false]
    rintro f hf hname
    exact h (List.mem_map.2 ⟨f, hf, eq_of_beq hname⟩)
  rw [Value.setField, hany, if_neg Bool.false_ne_true]

theorem notMem_of_nodup {before after : List (String × Value)} {k : String} {v : Value}
    (h : ((before ++ (k, v) :: after).map Prod.fst).Nodup) : k ∉ before.map Prod.fst := by
  rw [List.map_append, List.nodup_append] at h
  exact fun hk => h.2.2 k hk k List.mem_cons_self rfl

/-- A field is read and put to those before it; what follows says whether there are others. -/
theorem readFields_field (style : Style) (level : Nat) (k : String) {v : Value} (hdata : v.IsData)
    (hreads : Reads v) {before : List (String × Value)} (hnew : k ∉ before.map Prod.fst)
    {fuel room : Nat} (hfuel : 2 * (renderChars style level v).length < fuel)
    (hroom : v.depth ≤ room) {rest : List Char} (hrest : Ends rest) :
    (∀ after, skip rest = '\x7d' :: after →
      readFields (fuel + 1) room before
          (string k.toList ++ (':' :: ' ' :: (renderChars style level v ++ rest))) =
        .ok (before ++ [(k, v)], after)) ∧
    ∀ more, skip rest = ',' :: more →
      readFields (fuel + 1) room before
          (string k.toList ++ (':' :: ' ' :: (renderChars style level v ++ rest))) =
        readFields fuel room (before ++ [(k, v)]) (skip more) := by
  have hblank : ∀ c ∈ [' '], Text.isJsonBlank c = true := by
    intro c hc
    rw [List.mem_singleton.1 hc]
    rfl
  have hskip := skip_renderChars hblank style level hdata rest
  have hread := hreads style level fuel room rest hrest hroom hfuel
  rw [List.singleton_append] at hskip
  constructor
  all_goals
    intro after hafter
    simp only [string, List.cons_append, List.append_assoc, List.nil_append, readFields,
      readString_string, skip_cons (c := ':') rfl, hskip, hread, nameOf_map_char,
      String.ofList_toList, hafter,
      setField_of_notMem hnew]

/-- The fields of an object are read back behind those that were read before. -/
theorem readFields_renderFields (style : Style) (level level' : Nat) {k : String} {v : Value}
    {fields : List (String × Value)} (before : List (String × Value))
    (hnames : ((before ++ (k, v) :: fields).map Prod.fst).Nodup)
    (hdata : ∀ f ∈ (k, v) :: fields, f.2.IsData) (hreads : ∀ f ∈ (k, v) :: fields, Reads f.2)
    {room : Nat} (hroom : ∀ f ∈ (k, v) :: fields, f.2.depth ≤ room) (fuel : Nat) (rest : List Char)
    (hfuel : 2 * ((renderChars style level v).length + (renderFields style level fields).length) +
      1 < fuel) :
    readFields fuel room before (string k.toList ++ (':' :: ' ' :: (renderChars style level v ++
      (renderFields style level fields ++ (lineStart style level' ++ '\x7d' :: rest))))) =
      .ok (before ++ (k, v) :: fields, rest) := by
  -- what was read so far grows at its end, so that names are compared with all before them
  induction fields generalizing k v before fuel with
  | nil =>
    obtain - | fuel := fuel
    · omega
    obtain ⟨hv, hread⟩ : v.IsData ∧ Reads v :=
      ⟨hdata (k, v) List.mem_cons_self, hreads (k, v) List.mem_cons_self⟩
    have hnew := notMem_of_nodup hnames
    have hskip : skip (lineStart style level' ++ '\x7d' :: rest) = '\x7d' :: rest := by
      rw [skip_append fun c => isJsonBlank_of_mem_lineStart, skip_cons rfl]
    rw [renderFields, List.nil_append]
    exact (readFields_field style level k hv hread hnew (by omega) (hroom (k, v) List.mem_cons_self)
      (ends_lineStart style level' rfl rest)).1 rest hskip
  | cons f fields ih =>
    obtain - | fuel := fuel
    · omega
    obtain ⟨k', v'⟩ := f
    obtain ⟨hv, hread⟩ : v.IsData ∧ Reads v :=
      ⟨hdata (k, v) List.mem_cons_self, hreads (k, v) List.mem_cons_self⟩
    have hnew := notMem_of_nodup hnames
    have htail : renderFields style level ((k', v') :: fields) ++
        (lineStart style level' ++ '\x7d' :: rest) =
        ',' :: (gap style level ++ (string k'.toList ++ (':' :: ' ' ::
          (renderChars style level v' ++ (renderFields style level fields ++
            (lineStart style level' ++ '\x7d' :: rest)))))) := by
      simp only [renderFields, separator_eq, List.append_assoc, List.cons_append]
    have hlength : (renderFields style level ((k', v') :: fields)).length =
        1 + (gap style level).length + (string k'.toList).length + 2 +
          (renderChars style level v').length + (renderFields style level fields).length := by
      simp only [renderFields, separator_eq, List.length_append, List.length_cons]
      omega
    have hrest := ih (before ++ [(k, v)]) (by simpa using hnames)
      (fun g hg => hdata g (List.mem_cons_of_mem _ hg))
      (fun g hg => hreads g (List.mem_cons_of_mem _ hg))
      (fun g hg => hroom g (List.mem_cons_of_mem _ hg)) fuel (by omega)
    have hskip : ∀ cs, skip (gap style level ++ (string k'.toList ++ cs)) =
        string k'.toList ++ cs := fun cs => by
      rw [skip_append fun c => isJsonBlank_of_mem_gap]
      exact skip_cons rfl _
    rw [htail, (readFields_field style level k hv hread hnew (by omega)
      (hroom (k, v) List.mem_cons_self) (ends_cons rfl)).2 _ (skip_cons rfl _), hskip, hrest,
      List.append_assoc, List.singleton_append]

theorem reads_mapping {fields : List (String × Value)} (hnames : (fields.map Prod.fst).Nodup)
    (hdata : ∀ f ∈ fields, f.2.IsData) (hreads : ∀ f ∈ fields, Reads f.2) :
    Reads (.mapping fields) := by
  rintro style level (- | fuel) room rest - hroom hfuel
  · omega
  obtain ⟨inside, rfl, hinside⟩ := Value.depth_mapping_le.1 hroom
  cases fields with
  | nil =>
    have hskip : skip ('\x7d' :: rest) = '\x7d' :: rest := skip_cons rfl rest
    simp only [renderChars, List.cons_append, List.nil_append, readValue, hskip]
  | cons f fields =>
    obtain ⟨k, v⟩ := f
    have hfields :=
      readFields_renderFields style (level + 1) level [] hnames hdata hreads hinside fuel rest
      (by
        simp only [renderChars_mapping_cons, List.length_cons, List.length_append] at hfuel
        omega)
    have hskip : ∀ cs, skip (lineStart style (level + 1) ++ (string k.toList ++ cs)) =
        string k.toList ++ cs := fun cs => by
      rw [skip_append fun c => isJsonBlank_of_mem_lineStart]
      exact skip_cons rfl _
    simp only [renderChars_mapping_cons, List.cons_append, List.append_assoc, List.nil_append,
      readValue, hskip]
    split
    · rename_i heq
      cases heq
    · rw [hfields]
      rfl

end Json

/-- Data is read back in any place. -/
theorem Value.IsData.reads {v : Value} (hv : v.IsData) : Json.Reads v := by
  induction hv with
  | null => exact Json.reads_null
  | bool b => exact Json.reads_bool b
  | int hn => exact Json.reads_int hn
  | string s => exact Json.reads_string s
  | list hdata ih => exact Json.reads_list hdata ih
  | mapping hnames hdata ih => exact Json.reads_mapping hnames hdata ih

/-! ### Whole texts -/

namespace Json

variable {style : Style} {level : Nat}

theorem depthOfItems_le_length {xs : List Value}
    (h : ∀ x ∈ xs, x.depth ≤ (renderChars style level x).length) :
    Value.depthOfItems xs ≤ (renderItems style level xs).length := by
  induction xs with
  | nil => exact Nat.zero_le _
  | cons x xs ih =>
    obtain ⟨hx, hxs⟩ := List.forall_mem_cons.1 h
    have := ih hxs
    simp only [Value.depthOfItems, renderItems, List.length_append]
    omega

theorem depthOfFields_le_length {fields : List (String × Value)}
    (h : ∀ f ∈ fields, f.2.depth ≤ (renderChars style level f.2).length) :
    Value.depthOfFields fields ≤ (renderFields style level fields).length := by
  induction fields with
  | nil => exact Nat.zero_le _
  | cons f fields ih =>
    obtain ⟨hf, hfields⟩ := List.forall_mem_cons.1 h
    have := ih hfields
    simp only [Value.depthOfFields, renderFields, List.length_append, List.length_cons]
    omega

/-- Data is no deeper than its text is long: each list and each mapping has its brackets. -/
theorem depth_le_length (style : Style) (level : Nat) {v : Value} (hv : v.IsData) :
    v.depth ≤ (renderChars style level v).length := by
  induction hv generalizing level with
  | null | bool | int | string => exact Nat.zero_le _
  | @list xs _ ih =>
    cases xs with
    | nil => simp [Value.depth, Value.depthOfItems, renderChars]
    | cons x xs =>
      obtain ⟨hx, hxs⟩ := List.forall_mem_cons.1 ih
      have hfirst := hx (level + 1)
      have hothers := depthOfItems_le_length fun y hy => hxs y hy (level + 1)
      simp only [Value.depth, Value.depthOfItems, renderChars_list_cons, List.length_cons,
        List.length_append]
      omega
  | @mapping fields _ _ ih =>
    cases fields with
    | nil => simp [Value.depth, Value.depthOfFields, renderChars]
    | cons f fields =>
      obtain ⟨k, v⟩ := f
      obtain ⟨hv, hfields⟩ := List.forall_mem_cons.1 ih
      have hfirst : v.depth ≤ (renderChars style (level + 1) v).length := hv (level + 1)
      have hothers := depthOfFields_le_length fun g hg => hfields g hg (level + 1)
      simp only [Value.depth, Value.depthOfFields, renderChars_mapping_cons, List.length_cons,
        List.length_append]
      omega

/-- **A JSON text is read back**, with as much room as the data is deep. -/
theorem parseWithin_render (style : Style) {v : Value} (hv : v.IsData) {room : Nat}
    (hroom : v.depth ≤ room) : parseWithin room (renderChars style 0 v) = .ok v := by
  obtain ⟨c, cs, hcs, hblank, -, hmark⟩ := renderChars_eq_cons style 0 hv
  have hread := hv.reads style 0 (fuelFor (renderChars style 0 v)) room [] ends_nil hroom
    (Nat.lt_succ_self _)
  have hskip : skip (renderChars style 0 v) = renderChars style 0 v := by rw [hcs, skip_cons hblank]
  rw [List.append_nil] at hread
  have hhead : (renderChars style 0 v).head? ≠ some (Char.ofNat 0xfeff) := by
    rw [hcs]
    exact fun h => hmark (Option.some.inj h)
  simp only [parseWithin, hhead, ↓reduceIte, hskip, hread]
  rfl

/-- **A JSON text is read back** where there is room for all that can be in a text. -/
theorem parse_render (style : Style) {v : Value} (hv : v.IsData) :
    parse (render style v) = .ok v := by
  have hlength := depth_le_length style 0 hv
  rw [parse, render, String.toList_ofList, parseChars]
  refine parseWithin_render style hv ?_
  rw [fuelFor]
  omega

end Json

end BlockArchive
