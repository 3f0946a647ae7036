import BlockArchive.Proofs.Store.Table

/-!
# How a write to the tables ends

A write makes the connection if there is none, turns records into texts and adds their rows one
after the other. Then there are four ways in which it can end: the connection turns out to be
closed; all rows are committed; trouble with a row is reported and what waits to be committed is
given up; or no column holds a key, and the rows before it are left waiting.

* `Value.Misfits` is a value that no column holds: a whole number beyond 64 bits, or a text that
  cannot be encoded;
* `Draft` is what a row is to be made of, and `Database.insert_cases` what becomes of it;
* `Database.addRows` adds rows up to the first that cannot be added: `Database.addRows_ok` says what
  there is if all are, and `Database.addRows_error` finds the one at which it stops;
* `TableStore.Settled` is a store in which nothing waits to be committed, and `TableStore.seen` is
  what its connection sees;
* `TableStore.Ends` are the four ways, and `TableStore.Writes` adds those in which a write does not
  come so far: `TableStore.insertBlock_writes` and `TableStore.insertTransactions_writes` say that
  there are no others, and `TableStore.Writes.all_or_nothing` what they come to where nothing waits.
-/

namespace BlockArchive

/-! ### Adding a row -/

/-- The fault says that no column holds a value. -/
def Fault.isMisfit : Fault → Bool
  | .columnOverflow | .unencodable _ => true
  | _ => false

/-- No column holds the value, and the fault says so. -/
inductive Value.Misfits : Value → Fault → Prop
  /-- A whole number has more than 64 bits. -/
  | number {n : Int} (h : Cell.fits n = false) : Misfits (.int n) .columnOverflow
  /-- A text cannot be encoded. -/
  | text (t : Text.Torn) : Misfits (.torn t) (.unencodable t.trouble)

theorem Value.Misfits.isMisfit {v : Value} {f : Fault} (h : v.Misfits f) : f.isMisfit = true := by
  cases h <;> rfl

theorem Cell.bind_cases (position : Nat) (v : Value) :
    (∃ c, bind position v = .ok c) ∨ (∃ x, bind position v = .error (.database x)) ∨
      ∃ f, bind position v = .error f ∧ v.Misfits f := by
  cases v with
  | int n =>
    cases hn : fits n with
    | true => exact .inl ⟨.integer n, by rw [bind, hn, if_pos rfl]⟩
    | false => exact .inr (.inr ⟨_, by rw [bind, hn, if_neg Bool.false_ne_true], .number hn⟩)
  | torn t => exact .inr (.inr ⟨_, rfl, .text t⟩)
  | null | bool | real | string | bytes | buffer => exact .inl ⟨_, rfl⟩
  | moment | plain | list | frozen | mapping | object => exact .inr (.inl ⟨_, rfl⟩)

/-- What a row is to be made of: its keys and the text of its document. -/
structure Draft where
  /-- The first key. -/
  first : Value
  /-- The second key. -/
  second : Value
  /-- The text of the document. -/
  document : String

/-- No column holds a key of the row. -/
def Draft.Misfits (r : Draft) (f : Fault) : Prop := r.first.Misfits f ∨ r.second.Misfits f

theorem Draft.Misfits.isMisfit {r : Draft} {f : Fault} (h : r.Misfits f) : f.isMisfit = true :=
  h.elim Value.Misfits.isMisfit Value.Misfits.isMisfit

/-- What the second key column of a section prefers to hold. -/
def Section.secondAffinity : Section → Affinity
  | .blocks => .integer
  | .transactions => .text

/-- The row is made of the draft: texts stand in text columns as they are. -/
structure Draft.Fills (s : Section) (r : Draft) (row : TableRow) : Prop where
  first : ∀ text, r.first = .string text → row.first = .text text
  second : s = .transactions → ∀ text, r.second = .string text → row.second = .text text
  document : row.document = .text r.document

theorem Draft.fills_of_bind {s : Section} {r : Draft} {a b : Cell}
    (ha : Cell.bind 1 r.first = .ok a) (hb : Cell.bind 2 r.second = .ok b) (id : Nat) :
    r.Fills s ⟨id, Affinity.text.apply a, s.secondAffinity.apply b, .text r.document⟩ := by
  refine ⟨?_, ?_, rfl⟩
  · intro text htext
    rw [htext] at ha
    obtain rfl := Except.ok.inj ha
    rfl
  · rintro rfl text htext
    rw [htext] at hb
    obtain rfl := Except.ok.inj hb
    rfl

namespace Database

theorem adapt_cases (s : Section) (a b : Cell) (text : String) :
    adapt s.name s.columns [a, b, .text text] =
        .ok [Affinity.text.apply a, s.secondAffinity.apply b, .text text] ∨
      ∃ x, adapt s.name s.columns [a, b, .text text] = .error (.database x) := by
  cases s
  all_goals
    simp only [Section.columns, adapt, Section.secondAffinity]
    split
    · exact .inr ⟨_, rfl⟩
    split
    · exact .inr ⟨_, rfl⟩
    · exact .inl rfl

/-- **What becomes of a row that is to be added.** It is added with the next number, or the database
reports trouble, or no column holds one of its keys. -/
theorem insert_cases (s : Section) (locked : Bool) (r : Draft) (db : Database) :
    (∃ t row, db.table s = .ok t ∧ row.id = t.next ∧ r.Fills s row ∧
        insert s locked r.first r.second (.string r.document) db =
          .ok (db.setTable s (some ⟨t.rows ++ [row], t.next + 1⟩))) ∨
      (∃ x, insert s locked r.first r.second (.string r.document) db = .error (.database x)) ∨
      ∃ f, insert s locked r.first r.second (.string r.document) db = .error f ∧
        r.Misfits f ∧ ∃ t, db.table s = .ok t := by
  have hbind : ∀ a b, Cell.bind 1 r.first = .ok a → Cell.bind 2 r.second = .ok b →
      bindFrom 1 [r.first, r.second, .string r.document] = .ok [a, b, .text r.document] := by
    intro a b ha hb
    simp only [bindFrom, ha, hb]
    rfl
  unfold insert
  cases ht : db.table s with
  | error f =>
    unfold table at ht
    split at ht
    · cases ht
    · obtain rfl := Except.error.inj ht
      exact .inr (.inl ⟨_, rfl⟩)
  | ok t =>
    -- the keys are looked at first, then the lock, then the columns
    obtain ⟨a, ha⟩ | ⟨x, hx⟩ | ⟨f, hf, hfirst⟩ := Cell.bind_cases 1 r.first
    · obtain ⟨b, hb⟩ | ⟨x, hx⟩ | ⟨f, hf, hsecond⟩ := Cell.bind_cases 2 r.second
      · rw [hbind a b ha hb]
        cases locked with
        | true => exact .inr (.inl ⟨_, rfl⟩)
        | false =>
          obtain h | ⟨x, h⟩ := adapt_cases s a b r.document
          · exact .inl ⟨t, _, rfl, rfl, Draft.fills_of_bind ha hb t.next,
              by simp only [bind, Except.bind, h]; rfl⟩
          · exact .inr (.inl ⟨x, by simp only [bind, Except.bind, h]; rfl⟩)
      · exact .inr (.inl ⟨x, by simp only [bindFrom, ha, hx]; rfl⟩)
      · exact .inr (.inr ⟨f, by simp only [bindFrom, ha, hf]; rfl, .inr hsecond, t, rfl⟩)
    · exact .inr (.inl ⟨x, by simp only [bindFrom, hx]; rfl⟩)
    · exact .inr (.inr ⟨f, by simp only [bindFrom, hf]; rfl, .inl hfirst, t, rfl⟩)

theorem not_misfits_of_insert {s : Section} {locked : Bool} {r : Draft} {db db' : Database}
    (h : insert s locked r.first r.second (.string r.document) db = .ok db') {f : Fault} :
    ¬ r.Misfits f := by
  have hkey : ∀ {position v}, v.Misfits f → Cell.bind position v = .error f := by
    intro position v hv
    cases hv with
    | number hn => simp [Cell.bind, hn]
    | text => rfl
  cases ht : db.table s with
  | error g =>
    simp only [insert, ht] at h
    cases h
  | ok t =>
    rintro (hfirst | hsecond)
    · simp only [insert, ht, bindFrom, hkey hfirst] at h
      cases h
    · cases ha : Cell.bind 1 r.first with
      | error g =>
        simp only [insert, ht, bindFrom, ha] at h
        cases h
      | ok a =>
        simp only [insert, ht, bindFrom, ha, hkey hsecond] at h
        cases h

/-! ### Adding rows -/

theorem setTable_setTable (db : Database) (s : Section) (t u : Option Table) :
    (db.setTable s t).setTable s u = db.setTable s u := by
  cases s <;> rfl

theorem setTable_self {db : Database} {s : Section} {t : Table} (h : db.table s = .ok t) :
    db.setTable s (some t) = db := by
  cases s
  all_goals
    simp only [table, table?] at h
    split at h
    · rename_i u hu
      obtain rfl := Except.ok.inj h
      simp only [setTable, ← hu]
    · cases h

/-- Adds rows one after the other up to the first that cannot be added: what came of it, and the
contents with the rows before that one. -/
def addRows (s : Section) (locked : Bool) :
    List Draft → Database → Except Fault Unit × Database
  | [], db => (.ok (), db)
  | r :: rest, db =>
    match insert s locked r.first r.second (.string r.document) db with
    | .ok db' => addRows s locked rest db'
    | .error f => (.error f, db)

variable {s : Section} {locked : Bool} {rs : List Draft} {db db' : Database}

/-- Rows that are all added are numbered on, in order, and made of their drafts. -/
theorem addRows_ok (h : addRows s locked rs db = (.ok (), db')) {t : Table}
    (ht : db.table s = .ok t) :
    ∃ rows : List TableRow, rows.map TableRow.id = List.range' t.next rs.length ∧
      List.Forall₂ (Draft.Fills s) rs rows ∧
      db' = db.setTable s (some ⟨t.rows ++ rows, t.next + rs.length⟩) := by
  induction rs generalizing db t with
  | nil =>
    obtain rfl := congrArg Prod.snd h
    exact ⟨[], rfl, .nil, by simp [addRows, setTable_self ht]⟩
  | cons r rest ih =>
    rw [addRows] at h
    obtain ⟨u, row, hu, hid, hfills, hrun⟩ | ⟨x, hrun⟩ | ⟨_, hrun, -⟩ := insert_cases s locked r db
    · obtain rfl : t = u := Except.ok.inj (ht.symm.trans hu)
      rw [hrun] at h
      obtain ⟨rows, hids, hrest, rfl⟩ := ih h (table_setTable_self ..)
      refine ⟨row :: rows, ?_, .cons hfills hrest, ?_⟩
      · rw [List.map_cons, hid, hids, List.length_cons, List.range'_succ]
      · rw [setTable_setTable, List.append_assoc, List.singleton_append, List.length_cons,
          Nat.add_right_comm, Nat.add_assoc]
    · simp [hrun] at h
    · simp [hrun] at h

/-- Where adding rows stops, the rows before one that cannot be added have been. -/
theorem addRows_error {f : Fault} (h : addRows s locked rs db = (.error f, db')) :
    ∃ before r after, rs = before ++ r :: after ∧
      addRows s locked before db = (.ok (), db') ∧
      insert s locked r.first r.second (.string r.document) db' = .error f := by
  induction rs generalizing db with
  | nil => simp [addRows] at h
  | cons r rest ih =>
    rw [addRows] at h
    cases hrun : insert s locked r.first r.second (.string r.document) db with
    | ok db₁ =>
      rw [hrun] at h
      obtain ⟨before, q, after, rfl, hbefore, hq⟩ := ih h
      exact ⟨r :: before, q, after, rfl, by rw [addRows, hrun]; exact hbefore, hq⟩
    | error g =>
      rw [hrun] at h
      obtain ⟨hg, rfl⟩ := Prod.mk.inj h
      obtain rfl := Except.error.inj hg
      exact ⟨[], r, rest, rfl, rfl, hrun⟩

/-- Adding rows stops with trouble in the database, or at a key that no column holds. -/
theorem addRows_fault {f : Fault} (h : addRows s locked rs db = (.error f, db')) :
    (∃ x, f = .database x) ∨ ∃ before r after, rs = before ++ r :: after ∧
      addRows s locked before db = (.ok (), db') ∧ r.Misfits f := by
  obtain ⟨before, r, after, hrs, hbefore, hr⟩ := addRows_error h
  obtain ⟨_, _, -, -, -, hrun⟩ | ⟨x, hrun⟩ | ⟨g, hrun, hmisfits, -⟩ := insert_cases s locked r db'
  · simp [hrun] at hr
  · rw [hrun] at hr
    exact .inl ⟨x, (Except.error.inj hr).symm⟩
  · rw [hrun] at hr
    obtain rfl := Except.error.inj hr
    exact .inr ⟨before, r, after, hrs, hbefore, hmisfits⟩

theorem table_of_addRows_misfit {f : Fault} (hf : f.isMisfit = true)
    (h : addRows s locked rs db = (.error f, db')) : ∃ t, db.table s = .ok t := by
  cases rs with
  | nil => simp [addRows] at h
  | cons r rest =>
    obtain ⟨t, _, ht, -, -, -⟩ | ⟨x, hrun⟩ | ⟨_, -, -, t, ht⟩ := insert_cases s locked r db
    · exact ⟨t, ht⟩
    · rw [addRows, hrun] at h
      obtain rfl := Except.error.inj (congrArg Prod.fst h)
      cases hf
    · exact ⟨t, ht⟩

end Database

namespace TableStore

variable {d : Desk TableStore} {c : Connection} {problem : String → Problem}

/-! ### Making the connection -/

/-- The store once its connection has been made. -/
def opened (t : TableStore) (db : Database) (disk : Disk) : TableStore :=
  { t with connection := some ⟨db, db, true⟩, disk := t.keep db disk }

/-- A connection is there, or is made now, or cannot be made and nothing happens. -/
theorem connect_cases (d : Desk TableStore) :
    (∃ why, connect.runAt d = (.error (.problem (.connect d.state.location.text why)), d)) ∨
      ∃ c d', connect.runAt d = (.ok c, d') ∧ d'.state.connection = some c ∧
        (d.state.connection = some c ∧ d' = d ∨
          d.state.connection = none ∧ ∃ db disk, d.state.openDatabase = .ok (db, disk) ∧
            c = ⟨db, db, true⟩ ∧ d'.state = d.state.opened db disk) := by
  cases hc : d.state.connection with
  | some c => exact .inr ⟨c, d, by simp [connect, hc], hc, .inl ⟨rfl, rfl⟩⟩
  | none =>
    cases hopen : d.state.openDatabase with
    | error why => exact .inl ⟨why, by simp [connect, hc, hopen]⟩
    | ok x =>
      have hrun : (connect.runAt d).1 = .ok ⟨x.1, x.1, true⟩ ∧
          (connect.runAt d).2.state = d.state.opened x.1 x.2 := by
        simp [connect, hc, hopen, log, Except.map, opened]
      exact .inr ⟨_, _, Prod.ext hrun.1 rfl, by rw [hrun.2]; rfl,
        .inr ⟨rfl, x.1, x.2, rfl, rfl, hrun.2⟩⟩

/-! ### Stores in which nothing waits -/

/-- Nothing waits to be committed. -/
def Settled (t : TableStore) : Prop := ∀ c, t.connection = some c → c.working = c.committed

theorem settled_committed (t : TableStore) (c : Connection) : (t.committed c).Settled := by
  rintro _ ⟨⟩
  rfl

/-- What the connection of the store sees, or would see if it were made now. -/
def seen (t : TableStore) : Except String Database :=
  match t.connection with
  | some c => .ok c.working
  | none => t.openDatabase.map Prod.fst

/-- Making the connection changes nothing of what is seen, and nothing at all if there is one. -/
theorem connect_settled {t : TableStore} (ht : t.Settled) (rows : List Row) :
    let u := (connect.runAt ⟨t, rows⟩).2.state
    u.Settled ∧ u.seen = t.seen ∧ ∀ c, t.connection = some c → u = t := by
  obtain ⟨why, hrun⟩ | ⟨c, d', hrun, hc, h⟩ := connect_cases ⟨t, rows⟩
  · rw [hrun]
    exact ⟨ht, rfl, fun _ _ => rfl⟩
  · rw [hrun]
    obtain ⟨-, rfl⟩ | ⟨hnone, db, disk, hopen, -, hstate⟩ := h
    · exact ⟨ht, rfl, fun _ _ => rfl⟩
    · dsimp only at hnone hopen hstate ⊢
      rw [hstate]
      refine ⟨?_, ?_, fun c hc => by rw [hnone] at hc; cases hc⟩
      · rintro _ ⟨⟩
        rfl
      · simp only [seen, opened, hnone, hopen]
        rfl

/-! ### Changes to a connection -/

theorem Connected.showing_working {t : TableStore} (h : t.Connected c) :
    t.showing c c.working = t := by
  rw [TableStore.showing, ← h.connection]

theorem Connected.showing_committed {t : TableStore} (h : t.Connected c) (ht : t.Settled) :
    t.showing c c.committed = t := by
  rw [← ht c h.connection, h.showing_working]

theorem Connected.insertRow_runAt (h : d.state.Connected c) (s : Section) (r : Draft) :
    (insertRow s r.first r.second r.document).runAt d =
      match Database.insert s d.state.locked r.first r.second (.string r.document) c.working with
      | .ok db => (.ok (), ⟨d.state.showing c db, d.rows⟩)
      | .error f => (.error f, d) := by
  simp only [insertRow, change, Act.runAt_bind, h.connected_runAt, Act.runAt_state, Act.runAt_lift]
  cases Database.insert s d.state.locked r.first r.second (.string r.document) c.working <;> rfl

/-- The row that a transaction with the text of its document is to make. -/
def draft (x : TransactionRecord × String) : Draft := ⟨x.1.hash, x.1.blockHash, x.2⟩

theorem Connected.insertRows_runAt (h : d.state.Connected c)
    (xs : List (TransactionRecord × String)) :
    let added := Database.addRows .transactions d.state.locked (xs.map draft) c.working
    (insertRows xs).runAt d = (added.1, ⟨d.state.showing c added.2, d.rows⟩) := by
  induction xs generalizing d c with
  | nil => exact Prod.ext rfl (congrArg (Desk.mk · d.rows) h.showing_working.symm)
  | cons x rest ih =>
    have hrow := h.insertRow_runAt .transactions (draft x)
    simp only [draft] at hrow
    simp only [insertRows, Act.runAt_bind, hrow, List.map_cons, Database.addRows, draft]
    cases Database.insert .transactions d.state.locked x.1.hash x.1.blockHash (.string x.2)
      c.working with
    | ok db => exact ih (d := ⟨d.state.showing c db, d.rows⟩) (h.showing db)
    | error f => exact Prod.ext rfl (congrArg (Desk.mk · d.rows) h.showing_working.symm)

/-- Over a connection that has been closed neither change nor rollback is possible. -/
theorem writing_runAt_of_closed (hc : d.state.connection = some c) (hopen : c.isOpen = false)
    {a : Act TableStore Unit} (ha : a.runAt d = (.error (.database .closed), d)) :
    (writing problem a).runAt d = (.error (.database .closed), d) := by
  simp [writing, ha, rollback, connected, connect, hc, hopen]

/-! ### How a write ends -/

/-- The ways in which a write of rows ends at a store with a connection, each with the outcome and
the store that is left. -/
inductive Ends (problem : String → Problem) (s : Section) (rs : List Draft) (t : TableStore)
    (c : Connection) : Except Fault Unit → TableStore → Prop where
  /-- The connection is closed: nothing is added, nor can it be taken back. -/
  | closed (hc : t.connection = some c) (hopen : c.isOpen = false) :
    Ends problem s rs t c (.error (.database .closed)) t
  /-- All rows are added and committed. -/
  | kept {db : Database} (ht : t.Connected c)
    (hadd : Database.addRows s t.locked rs c.working = (.ok (), db)) :
    Ends problem s rs t c (.ok ()) ((t.showing c db).committed { c with working := db })
  /-- There is trouble with a row, and what waits to be committed is given up. -/
  | undone {x : DatabaseTrouble} {db : Database} (ht : t.Connected c)
    (hadd : Database.addRows s t.locked rs c.working = (.error (.database x), db)) :
    Ends problem s rs t c (.error (.problem (problem x.message))) (t.showing c c.committed)
  /-- No column holds a key, and the rows before are left waiting. -/
  | left {f : Fault} {db : Database} (ht : t.Connected c) (hf : f.isMisfit = true)
    (hadd : Database.addRows s t.locked rs c.working = (.error f, db)) :
    Ends problem s rs t c (.error f) (t.showing c db)

theorem writing_ends (problem : String → Problem) {s : Section} {rs : List Draft}
    {a : Act TableStore Unit} (hc : d.state.connection = some c)
    (hclosed : c.isOpen = false → a.runAt d = (.error (.database .closed), d))
    (hopen : d.state.Connected c →
      let added := Database.addRows s d.state.locked rs c.working
      a.runAt d = (added.1, ⟨d.state.showing c added.2, d.rows⟩)) :
    ((writing problem a).runAt d).2.rows = d.rows ∧
      Ends problem s rs d.state c ((writing problem a).runAt d).1
        ((writing problem a).runAt d).2.state := by
  cases h : c.isOpen with
  | false =>
    rw [writing_runAt_of_closed hc h (hclosed h)]
    exact ⟨rfl, .closed hc h⟩
  | true =>
    have ht : d.state.Connected c := ⟨hc, h⟩
    have ha := hopen ht
    generalize hadd : Database.addRows s d.state.locked rs c.working = added at ha
    obtain ⟨outcome, db⟩ := added
    have hshowing := ht.showing db
    cases outcome with
    | ok u =>
      rw [writing_runAt_of_ok problem ha hshowing]
      exact ⟨rfl, .kept ht hadd⟩
    | error f =>
      rcases Database.addRows_fault hadd with ⟨x, rfl⟩ | ⟨_, _, _, -, -, hmisfits⟩
      · have hrun : (writing problem a).runAt d =
            (.error (.problem (problem x.message)), ⟨d.state.showing c c.committed, d.rows⟩) := by
          have hrollback :=
            Connected.rollback_runAt (d := ⟨d.state.showing c db, d.rows⟩) hshowing
          simp only [writing, Act.runAt_bind, Act.runAt_attempt, ha, hrollback, Act.runAt_stop]
          rfl
        rw [hrun]
        exact ⟨rfl, .undone ht hadd⟩
      · have hf : f.isMisfit = true := hmisfits.isMisfit
        have hrun : (writing problem a).runAt d =
            (.error f, ⟨d.state.showing c db, d.rows⟩) := by
          simp only [writing, Act.runAt_bind, Act.runAt_attempt, ha]
          split
          · rename_i heq
            cases heq
          · rename_i heq
            obtain rfl := Except.error.inj heq
            cases hf
          · rename_i heq
            obtain rfl := Except.error.inj heq
            rfl
        rw [hrun]
        exact ⟨rfl, .left ht hf hadd⟩

/-! ### The two writes -/

/-- What a write comes to that has drafts of rows to make, unless a document cannot be written. -/
inductive Writes (problem : String → Problem) (s : Section) (drafts : Except Fault (List Draft))
    (d : Desk TableStore) (run : Except Fault Unit × Desk TableStore) : Prop where
  /-- No connection can be made. -/
  | unreachable {why : String}
    (hconnect : connect.runAt d = (.error (.problem (.connect d.state.location.text why)), d))
    (h : run = (.error (.problem (.connect d.state.location.text why)), d))
  /-- A number in a document has too many digits. -/
  | unwritten {c : Connection} {d' : Desk TableStore} (hconnect : connect.runAt d = (.ok c, d'))
    (hdrafts : drafts = .error .longInteger) (h : run = (.error .longInteger, d'))
  /-- Rows are added. -/
  | ended {c : Connection} {d' : Desk TableStore} {rs : List Draft}
    (hconnect : connect.runAt d = (.ok c, d')) (hdrafts : drafts = .ok rs)
    (hrows : run.2.rows = d'.rows) (hends : Ends problem s rs d'.state c run.1 run.2.state)

/-- **All or nothing.** A write to a store in which nothing waits adds and commits all of its rows,
unless it fails, and then the store is as reaching it leaves it; provided that no rows are left
waiting because of a key that no column holds. -/
theorem Writes.all_or_nothing {s : Section} {drafts : Except Fault (List Draft)}
    {run : Except Fault Unit × Desk TableStore} (h : Writes problem s drafts d run)
    (hd : d.state.Settled)
    (hleft : ∀ ds locked db db' f, drafts = .ok ds → f.isMisfit = true →
      Database.addRows s locked ds db = (.error f, db') → db' = db) :
    (∃ f, run.1 = .error f ∧ run.2.state = (connect.runAt d).2.state) ∨
      ∃ ds c d' db, drafts = .ok ds ∧ connect.runAt d = (.ok c, d') ∧ d'.state.Connected c ∧
        Database.addRows s d'.state.locked ds c.working = (.ok (), db) ∧ run.1 = .ok () ∧
        run.2.state = (d'.state.showing c db).committed { c with working := db } := by
  have hsettled := (connect_settled hd d.rows).1
  cases h with
  | unreachable hconnect h =>
    rw [h, hconnect]
    exact .inl ⟨_, rfl, rfl⟩
  | unwritten hconnect _ h =>
    rw [h, hconnect]
    exact .inl ⟨_, rfl, rfl⟩
  | @ended c d' ds hconnect hdrafts _ hends =>
    rw [hconnect] at hsettled ⊢
    obtain ⟨outcome, u, rows⟩ := run
    dsimp only at hends ⊢
    cases hends with
    | closed => exact .inl ⟨_, rfl, rfl⟩
    | undone hc => exact .inl ⟨_, rfl, hc.showing_committed hsettled⟩
    | left hc hf hadd =>
      rw [hleft _ _ _ _ _ hdrafts hf hadd]
      exact .inl ⟨_, rfl, hc.showing_working⟩
    | kept hc hadd => exact .inr ⟨ds, c, d', _, hdrafts, rfl, hc, hadd, rfl, rfl⟩

theorem writes_of_writing {β : Type} {s : Section} {texts : Except Fault β}
    {rows : β → Act TableStore Unit} {drafts : β → List Draft}
    (htexts : ∀ f, texts = .error f → f = .longInteger)
    (hclosed : ∀ x c (d : Desk TableStore), texts = .ok x → d.state.connection = some c →
      c.isOpen = false → (rows x).runAt d = (.error (.database .closed), d))
    (hopen : ∀ x c (d : Desk TableStore), texts = .ok x → d.state.Connected c →
      let added := Database.addRows s d.state.locked (drafts x) c.working
      (rows x).runAt d = (added.1, ⟨d.state.showing c added.2, d.rows⟩)) (d : Desk TableStore) :
    Writes problem s (texts.map drafts) d
      ((do
        let _ ← connect
        let x ← Act.lift texts
        writing problem (rows x)).runAt d) := by
  obtain ⟨why, hconnect⟩ | ⟨c, d', hconnect, hc, -⟩ := connect_cases d
  · refine .unreachable hconnect ?_
    rw [Act.runAt_bind, hconnect]
  · rw [Act.runAt_bind, hconnect]
    dsimp only
    rw [Act.runAt_bind, Act.runAt_lift]
    cases hx : texts with
    | error f =>
      obtain rfl := htexts f hx
      exact .unwritten hconnect rfl rfl
    | ok x =>
      have hends := writing_ends problem hc (hclosed x c d' hx hc) (hopen x c d' hx)
      exact .ended hconnect rfl hends.1 hends.2

end TableStore

/-- A document is not written only if it holds a number of too many digits. -/
theorem Document.write_error {v : Value} {f : Fault} (h : write v = .error f) :
    f = .longInteger := by
  unfold write at h
  split at h
  · exact (Except.error.inj h).symm
  · cases h

theorem Except.forall₂_of_mapM {ε α β : Type} {f : α → Except ε β} {xs : List α} {ys : List β}
    (h : xs.mapM f = .ok ys) : List.Forall₂ (fun x y => f x = .ok y) xs ys := by
  induction xs generalizing ys with
  | nil =>
    obtain rfl := Except.ok.inj h
    exact .nil
  | cons x rest ih =>
    rw [List.mapM_cons] at h
    cases hx : f x with
    | error e => simp [hx, bind, Except.bind] at h
    | ok y =>
      cases hrest : rest.mapM f with
      | error e => simp [hx, hrest, bind, Except.bind] at h
      | ok ys' =>
        rw [hx, hrest] at h
        obtain rfl := Except.ok.inj h
        exact .cons hx (ih hrest)

theorem Except.exists_of_mapM_error {ε α β : Type} {f : α → Except ε β} {xs : List α} {e : ε}
    (h : xs.mapM f = .error e) : ∃ x ∈ xs, f x = .error e := by
  induction xs with
  | nil => cases h
  | cons x rest ih =>
    rw [List.mapM_cons] at h
    cases hx : f x with
    | error e' =>
      rw [hx] at h
      obtain rfl := Except.error.inj h
      exact ⟨x, List.mem_cons_self, hx⟩
    | ok y =>
      cases hrest : rest.mapM f with
      | error e' =>
        rw [hx, hrest] at h
        obtain rfl := Except.error.inj h
        obtain ⟨x', hx', hrun⟩ := ih hrest
        exact ⟨x', List.mem_cons_of_mem x hx', hrun⟩
      | ok ys =>
        rw [hx, hrest] at h
        cases h

/-- Where one of two lists that correspond is split at an item, the other one is split at what
corresponds to it. -/
theorem forall₂_split {α β : Type} {R : α → β → Prop} {xs : List α} {before after : List β} {y : β}
    (h : List.Forall₂ R xs (before ++ y :: after)) :
    ∃ ws x zs, xs = ws ++ x :: zs ∧ List.Forall₂ R ws before ∧ R x y := by
  have htake := List.forall₂_take_append _ before (y :: after) h
  have hdrop := List.forall₂_drop_append _ before (y :: after) h
  obtain ⟨x, zs, hx, -, hrest⟩ := List.forall₂_cons_right_iff.1 hdrop
  refine ⟨_, x, zs, ?_, htake, hx⟩
  rw [← hrest, List.take_append_drop]

namespace TableStore

/-- The row that a block is to make. -/
def blockDrafts (r : BlockRecord) : Except Fault (List Draft) :=
  (Document.write r.document).map fun text => [⟨r.hash, r.height, text⟩]

/-- The rows that transactions are to make. -/
def transactionDrafts (rs : List TransactionRecord) : Except Fault (List Draft) :=
  (rs.mapM fun r => Document.write r.document).map fun texts => (rs.zip texts).map draft

/-- The draft has the hashes of a transaction as keys, and its document. -/
structure Drafts (r : TransactionRecord) (x : Draft) : Prop where
  first : x.first = r.hash
  second : x.second = r.blockHash
  document : Document.write r.document = .ok x.document

theorem forall₂_of_transactionDrafts {rs : List TransactionRecord} {ds : List Draft}
    (h : transactionDrafts rs = .ok ds) :
    List.Forall₂ Drafts rs ds := by
  unfold transactionDrafts at h
  cases htexts : rs.mapM fun r => Document.write r.document with
  | error f =>
    rw [htexts] at h
    cases h
  | ok texts =>
    rw [htexts] at h
    obtain rfl := Except.ok.inj h
    have hall := Except.forall₂_of_mapM htexts
    clear htexts h
    induction hall with
    | nil => exact .nil
    | cons hx _ ih => exact .cons ⟨rfl, rfl, hx⟩ ih

theorem exists_of_mem_transactionDrafts {rs : List TransactionRecord} {ds : List Draft}
    (h : transactionDrafts rs = .ok ds) {x : Draft} (hx : x ∈ ds) : ∃ r ∈ rs, Drafts r x := by
  obtain ⟨before, after, rfl⟩ := List.append_of_mem hx
  obtain ⟨ws, r, zs, rfl, -, hr⟩ := forall₂_split (forall₂_of_transactionDrafts h)
  exact ⟨r, by simp, hr⟩

theorem blockDrafts_ok {r : BlockRecord} {ds : List Draft} (h : blockDrafts r = .ok ds) :
    ∃ text, Document.write r.document = .ok text ∧ ds = [⟨r.hash, r.height, text⟩] := by
  unfold blockDrafts at h
  cases htext : Document.write r.document with
  | error f =>
    rw [htext] at h
    cases h
  | ok text =>
    rw [htext] at h
    exact ⟨text, rfl, (Except.ok.inj h).symm⟩

theorem insertBlock_writes (r : BlockRecord) (d : Desk TableStore) :
    Writes (.insertBlock r.hash r.height) .blocks (blockDrafts r) d
      ((Store.insertBlock r : Act TableStore Unit).runAt d) := by
  refine writes_of_writing (fun _ => Document.write_error) ?_ ?_ d
  · intro text c d _ hc hopen
    simp [insertRow, change, connected, connect, hc, hopen]
  · intro text c d _ ht
    have hrow := ht.insertRow_runAt .blocks ⟨r.hash, r.height, text⟩
    dsimp only at hrow
    rw [hrow]
    simp only [Database.addRows]
    cases Database.insert .blocks d.state.locked r.hash r.height (.string text) c.working with
    | ok db => rfl
    | error f => exact Prod.ext rfl (congrArg (Desk.mk · d.rows) ht.showing_working.symm)

theorem insertTransactions_writes (r : TransactionRecord) (rest : List TransactionRecord)
    (d : Desk TableStore) :
    Writes (.insertTransactions (r :: rest).length r.blockHash) .transactions
      (transactionDrafts (r :: rest)) d
      ((Store.insertTransactions (r :: rest) : Act TableStore Unit).runAt d) := by
  refine writes_of_writing (fun f hf => ?_) ?_ ?_ d
  · obtain ⟨_, -, hwrite⟩ := Except.exists_of_mapM_error hf
    exact Document.write_error hwrite
  · intro texts c d htexts hc hopen
    -- there is a first row, and adding it fails
    cases Except.forall₂_of_mapM htexts with
    | cons => simp [insertRows, insertRow, change, connected, connect, hc, hopen]
  · intro texts c d _ ht
    exact ht.insertRows_runAt _

/-! ### Keys that no column holds -/

/-- A text that is half of a pair. -/
def half : Value := .torn ⟨[.half 0], rfl⟩

/-- The outcome is that a number has no room in a column. -/
def isOverflow {α : Type} : Except Fault α → Bool
  | .error .columnOverflow => true
  | _ => false

theorem eq_of_isOverflow {α : Type} {r : Except Fault α} (h : isOverflow r = true) :
    r = .error .columnOverflow := by
  unfold isOverflow at h
  split at h
  · rfl
  · cases h

end TableStore

end BlockArchive
