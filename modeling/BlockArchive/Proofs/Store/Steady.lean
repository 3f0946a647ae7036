import BlockArchive.Proofs.Act.Refinement
import BlockArchive.Proofs.Store.Memory
import BlockArchive.Store.Guarded

/-!
# Stores that have been reached

What a call does depends on the store and not on the rows written before. And a store that has been
reached once need not be reached again: a store in tables keeps its connection as long as nobody
closes it, so that asking whether it answers changes nothing any more.

* `TableStore.Reaches` and `TableStore.Serves` are relations of stores in tables that calls keep: of
  the former it is enough to compare how they are reached, and of the latter what becomes of a row;
* `TableStore.Steady` and `AnyStore.Steady` relate a store that has been reached to itself, and
  `TableStore.steady_serves`, `AnyStore.find_steady` and the like say that calls keep it so;
* `AnyStore.probe_reached` and `AnyStore.probe_runAt_of_reached`: a store that answers has been
  reached, and one that has been reached is left as it is.
-/

namespace BlockArchive

open Act (Refines Matches)

/-! ### Stores in tables, side by side -/

namespace TableStore

variable {α : Type} {R : TableStore → TableStore → Prop}

theorem reporting_matches (problem : String → Problem) {a b : Act TableStore α}
    (h : Matches R a b) : Matches R (reporting problem a) (reporting problem b) := by
  refine (Act.Matches.attempt h).bind fun outcome => ?_
  split
  · exact .pure _
  · exact .stop _
  · exact .stop _

theorem documentOf_matches (row : Option TableRow) :
    Matches R (documentOf row) (documentOf row) := by
  cases row with
  | none => exact .pure _
  | some r =>
    dsimp only [documentOf]
    unfold Document.read Document.reported
    cases Json.parse (r.document.text?.getD "") with
    | ok v => exact .pure v
    | error trouble =>
      cases trouble with
      | syntaxAt => exact (Refines.log _ _).bind fun _ => .stop _
      | longInteger | deep => exact .stop _

/-- Related stores lie in the same place, and are reached alike. -/
structure Reaches (R : TableStore → TableStore → Prop) : Prop where
  location : ∀ s t, R s t → s.location = t.location
  connect : Matches R connect connect

namespace Reaches

variable (h : Reaches R)
include h

theorem connected : Matches R connected connected :=
  h.connect.bind fun c => Refines.guard _ (.pure c)

theorem query (f : Database → Except Fault α) : Matches R (query f) (query f) :=
  h.connected.bind fun _ => .lift _

/-- What is asked of related stores is answered alike. -/
theorem ask (problem : String → Problem) (f : Database → Except Fault α) :
    Matches R (reporting problem (TableStore.query f)) (reporting problem (TableStore.query f)) :=
  reporting_matches problem (h.query f)

theorem probe : Matches R (Store.probe : Act TableStore Unit) Store.probe := by
  show Matches R TableStore.probe TableStore.probe
  unfold TableStore.probe
  refine Refines.state_bind fun s t hst => ?_
  rw [h.location s t hst]
  exact (reporting_matches _ h.connected).bind fun _ => .log _ _

theorem loadTransaction (hash : String) :
    Matches R (loadTransaction hash) (loadTransaction hash) :=
  (h.ask _ _).bind documentOf_matches

theorem find (hash : String) :
    Matches R (Store.find hash : Act TableStore _) (Store.find hash) := by
  refine (h.loadTransaction hash).bind fun document => ?_
  split
  · exact .pure _
  · exact (Refines.lift _).bind fun _ => .pure _

theorem loadBlock (height : Int) : Matches R (loadBlock height) (loadBlock height) := by
  refine (h.ask _ _).bind fun row => ?_
  cases row with
  | none => exact .pure _
  | some row =>
    exact (documentOf_matches _).bind fun _ => (Refines.lift _).bind fun _ => .pure _

theorem latestHeight : Matches R latestHeight latestHeight :=
  (h.ask _ _).bind fun _ => .pure _

end Reaches

/-- Related stores are reached alike, and what is done to their rows is done alike. -/
structure Serves (R : TableStore → TableStore → Prop) : Prop extends Reaches R where
  insertRow : ∀ s first second document,
    Matches R (insertRow s first second document) (insertRow s first second document)
  commit : Matches R commit commit
  rollback : Matches R rollback rollback

namespace Serves

variable (h : Serves R)
include h

theorem writing (problem : String → Problem) {a : Act TableStore Unit} (ha : Matches R a a) :
    Matches R (writing problem a) (writing problem a) := by
  refine (Act.Matches.attempt (ha.bind fun _ => h.commit)).bind fun outcome => ?_
  split
  · exact .pure _
  · exact h.rollback.bind fun _ => .stop _
  · exact .stop _

theorem insertRows (rows : List (TransactionRecord × String)) :
    Matches R (insertRows rows) (insertRows rows) := by
  induction rows with
  | nil => exact .pure _
  | cons row rest ih => exact (h.insertRow _ _ _ _).bind fun _ => ih

theorem insertBlock (r : BlockRecord) :
    Matches R (Store.insertBlock r : Act TableStore Unit) (Store.insertBlock r) := by
  refine h.connect.bind fun _ => (Refines.lift _).bind fun text => ?_
  exact h.writing _ (h.insertRow _ _ _ _)

theorem insertTransactions (rs : List TransactionRecord) :
    Matches R (Store.insertTransactions rs : Act TableStore Unit)
      (Store.insertTransactions rs) := by
  cases rs with
  | nil => exact .pure _
  | cons r rest =>
    refine h.connect.bind fun _ => (Refines.lift _).bind fun texts => ?_
    exact h.writing _ (h.insertRows _)

end Serves

/-! ### A store that has been reached -/

/-- The same store, which has a connection. -/
def Steady (s t : TableStore) : Prop := s = t ∧ s.connection.isSome = true

theorem Steady.update {f : TableStore → TableStore}
    (hf : ∀ s, s.connection.isSome = true → (f s).connection.isSome = true) :
    Matches Steady (Act.update f) (Act.update f) := by
  refine Refines.update ?_
  rintro s _ ⟨rfl, hs⟩
  exact ⟨rfl, hf s hs⟩

theorem steady_reaches : Reaches Steady where
  location := by
    rintro s _ ⟨rfl, -⟩
    rfl
  connect := by
    unfold connect
    refine Refines.state_bind ?_
    rintro s _ ⟨rfl, hs⟩
    obtain ⟨c, hc⟩ := Option.isSome_iff_exists.1 hs
    rw [hc]
    exact .pure c

theorem steady_serves : Serves Steady where
  toReaches := steady_reaches
  insertRow s first second document := by
    refine steady_reaches.connected.bind fun c => Refines.state_bind ?_
    rintro t _ ⟨rfl, -⟩
    exact (Refines.lift _).bind fun db => Steady.update fun _ _ => rfl
  commit := steady_reaches.connected.bind fun _ => Steady.update fun _ _ => rfl
  rollback := steady_reaches.connected.bind fun _ => Steady.update fun _ _ => rfl

/-- Whether a store answers does not depend on the rows written before, and if it does it has a
connection. -/
theorem probe_reached (t : TableStore) (rows rows' : List Row) :
    let r := (Store.probe : Act TableStore Unit).runAt ⟨t, rows⟩
    let r' := (Store.probe : Act TableStore Unit).runAt ⟨t, rows'⟩
    r.1 = r'.1 ∧ r.2.state = r'.2.state ∧ (r.1 = .ok () → r.2.state.connection.isSome = true) := by
  cases hc : t.connection with
  | some c =>
    cases hopen : c.isOpen with
    | true => simp [Store.probe, probe, reporting, connected, connect, hc, hopen, log]
    | false => simp [Store.probe, probe, reporting, connected, connect, hc, hopen, Except.map]
  | none =>
    cases hdb : t.openDatabase with
    | ok x => simp [Store.probe, probe, reporting, connected, connect, hc, hdb, log, Except.map]
    | error why => simp [Store.probe, probe, reporting, connected, connect, hc, hdb]

theorem probe_state_of_connected {d : Desk TableStore} (h : d.state.connection.isSome = true) :
    ((Store.probe : Act TableStore Unit).runAt d).2.state = d.state := by
  obtain ⟨c, hc⟩ := Option.isSome_iff_exists.1 h
  cases hopen : c.isOpen with
  | true => simp [Store.probe, probe, reporting, connected, connect, hc, hopen, log]
  | false => simp [Store.probe, probe, reporting, connected, connect, hc, hopen, Except.map]

end TableStore

/-! ### Stores in memory -/

theorem MemoryStore.append_steady (rs : List TransactionRecord) :
    Matches (· = ·) (append rs) (append rs) := by
  induction rs with
  | nil => exact .pure _
  | cons r rest ih =>
    refine (Refines.update fun _ _ h => by rw [h]).bind fun _ => ?_
    split
    · exact .stop _
    · exact ih

/-! ### Stores of either kind -/

namespace AnyStore

/-- The store has been reached. -/
def Reached : AnyStore → Prop
  | .memory _ => True
  | .tables t => t.connection.isSome = true

/-- The same store, which has been reached. -/
def Steady (s t : AnyStore) : Prop := s = t ∧ s.Reached

theorem on_steady {α : Type} {m : Act MemoryStore α} {t : Act TableStore α}
    (hm : Matches (· = ·) m m) (ht : Matches TableStore.Steady t t) :
    Matches Steady (on m t) (on m t) := by
  rw [Act.matches_iff] at hm ht ⊢
  rintro ⟨s, rows⟩ ⟨_, rows'⟩ ⟨rfl, hs⟩
  cases s with
  | memory s =>
    obtain ⟨houtcome, hstate⟩ := hm ⟨s, rows⟩ ⟨s, rows'⟩ rfl
    exact ⟨houtcome, congrArg AnyStore.memory hstate, trivial⟩
  | tables s =>
    obtain ⟨houtcome, hstate, hreached⟩ := ht ⟨s, rows⟩ ⟨s, rows'⟩ ⟨rfl, hs⟩
    exact ⟨houtcome, congrArg AnyStore.tables hstate, hreached⟩

theorem find_steady (hash : String) :
    Matches Steady (Store.find hash : Act AnyStore _) (Store.find hash) := by
  refine on_steady ?_ (TableStore.steady_serves.find hash)
  refine (Refines.update fun _ _ h => by rw [h]).bind fun _ => Refines.state_bind ?_
  rintro s _ rfl
  exact .pure _

theorem insertBlock_steady (r : BlockRecord) :
    Matches Steady (Store.insertBlock r : Act AnyStore Unit) (Store.insertBlock r) :=
  on_steady (Refines.update fun _ _ h => by rw [h]) (TableStore.steady_serves.insertBlock r)

theorem insertTransactions_steady (rs : List TransactionRecord) :
    Matches Steady (Store.insertTransactions rs : Act AnyStore Unit)
      (Store.insertTransactions rs) := by
  refine on_steady ?_ (TableStore.steady_serves.insertTransactions rs)
  exact (Refines.update fun _ _ h => by rw [h]).bind fun _ => MemoryStore.append_steady rs

/-- Whether a store answers does not depend on the rows written before, and one that does has been
reached. -/
theorem probe_reached (s : AnyStore) (rows rows' : List Row) :
    let r := (Store.probe : Act AnyStore Unit).runAt ⟨s, rows⟩
    let r' := (Store.probe : Act AnyStore Unit).runAt ⟨s, rows'⟩
    r.1 = r'.1 ∧ r.2.state = r'.2.state ∧ (r.1 = .ok () → r.2.state.Reached) := by
  cases s with
  | memory m => cases h : m.available <;> simp [Store.probe, on, h, Reached]
  | tables t =>
    obtain ⟨houtcome, hstate, hreached⟩ := TableStore.probe_reached t rows rows'
    exact ⟨houtcome, congrArg AnyStore.tables hstate, hreached⟩

/-- Asking a store that has been reached changes nothing. -/
theorem probe_runAt_of_reached {d : Desk AnyStore} (h : d.state.Reached) :
    ((Store.probe : Act AnyStore Unit).runAt d).2.state = d.state := by
  obtain ⟨s, rows⟩ := d
  cases s with
  | memory m => cases h : m.available <;> simp [Store.probe, on, h]
  | tables t =>
    have hstate := TableStore.probe_state_of_connected (d := ⟨t, rows⟩) h
    exact congrArg AnyStore.tables hstate

end AnyStore

end BlockArchive
