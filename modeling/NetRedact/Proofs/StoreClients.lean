import Mathlib.Logic.Relation
import NetRedact.Proofs.ExpiringMap

/-!
# Clients of the store in memory

A client of the store in memory reads the clock first and gets to the table later.  A request for a
record that finds an expired one comes to the table a second time, to remove it; until then other
clients may have swept the handle and put a new record under it.  `Crowd` is a table with any number
of such clients, each of whom may be delayed for any time between its steps.

What makes the store safe is that every step that removes a record compares the deadline of the very
record that it removes with the reading of the clock that its client goes by.  A reading is never
ahead of the clock, so no record is lost before its deadline; and as long as a record is held, its
handle cannot be taken again.
-/

namespace NetRedact.MemoryStore

open MappingStore (Response)

/-! ## Visits to the table -/

/-- What a client does at the table. -/
inductive Errand where
  | put (record : MappingRecord)
  | lookUp (handle : Handle)
  /-- The errand of a client that has found an expired record. -/
  | remove (handle : Handle)
  | sweep
  deriving DecidableEq

/-- Whether a client begins with an errand.  Nobody comes to remove a record who has not looked it
up. -/
def Errand.opens : Errand → Bool
  | .remove _ => false
  | _ => true

/-- One step of a client, and the reading of the clock that it goes by. -/
structure Visit where
  reading : Moment
  errand : Errand
  deriving DecidableEq

namespace Visit

/-- What a visit does to the table, and what the client is told.  To look up a record changes
nothing. -/
def serve (v : Visit) (s : MemoryStore) : Response × MemoryStore :=
  match v.errand with
  | .put record => MappingStore.memory.answer v.reading s (.put record)
  | .lookUp handle => (.got (get v.reading handle s).1, s)
  | .remove handle => (.nothing, removeExpired v.reading handle s)
  | .sweep => MappingStore.memory.answer v.reading s .evictExpired

/-- The visit that a client owes after this one.  It goes by the same reading. -/
def next (v : Visit) (s : MemoryStore) : List Visit :=
  match v.errand with
  | .lookUp handle => if meetsExpired v.reading handle s then [⟨v.reading, .remove handle⟩] else []
  | _ => []

end Visit

/-- With nobody in between, to look up a record and to remove it if it has expired is to request
it. -/
theorem get_eq_visits (now : Moment) (handle : Handle) (s : MemoryStore) :
    MappingStore.memory.answer now s (.get handle) =
      ((Visit.mk now (.lookUp handle)).serve s |>.1,
        ((Visit.mk now (.lookUp handle)).next s).foldl (fun s v => (v.serve s).2) s) := by
  unfold MappingStore.answer Visit.next Visit.serve
  simp only [MappingStore.memory, Prod.mk.injEq, true_and]
  unfold get meetsExpired
  cases hfind : s.find? handle with
  | none => rfl
  | some stored =>
      rw [Option.any_some, ← not_live]
      cases hlive : live now stored with
      | true => simp [hlive]
      | false => simp [hlive]

/-- To remove what has expired thins out the table. -/
theorem thins_removeExpired (now : Moment) (handle : Handle) (s : MemoryStore) :
    Thins now s (removeExpired now handle s) := by
  intro other
  cases hfind : s.find? handle with
  | none =>
      left
      simp only [removeExpired, hfind]
  | some stored =>
      cases hlive : live now stored with
      | true =>
          left
          simp only [removeExpired, hfind, hlive, if_true]
      | false =>
          rw [removeExpired_eq_erase hfind hlive]
          by_cases hother : other = handle
          · right
            rw [hother, Table.find?_erase_self, shows, hfind, Option.filter_some, hlive]
            rfl
          · exact .inl (Table.find?_erase_ne s hother)

/-! ## What happened at the table -/

/-- A visit that has taken place: when, and in which state it found the table. -/
structure Turn where
  clock : Moment
  visit : Visit
  before : MemoryStore

namespace Turn

/-- The table that the visit has left behind. -/
def after (e : Turn) : MemoryStore :=
  (e.visit.serve e.before).2

/-- What the visitor was told. -/
def reply (e : Turn) : Response :=
  (e.visit.serve e.before).1

/-- The record that the visit has put into the table, with its deadline. -/
def put? (e : Turn) : Option StoredRecord :=
  match e.visit.errand, e.reply with
  | .put record, .put (.ok _) => (e.visit.reading.add? record.ttl).map (⟨record, ·⟩)
  | _, _ => none

/-- Whether the visit has put a record under a handle. -/
def putsUnder (handle : Handle) (e : Turn) : Bool :=
  e.put?.any fun stored => decide (stored.record.handle = handle)

/-- The visit has removed the record under a handle. -/
def Removes (handle : Handle) (e : Turn) : Prop :=
  e.before.find? handle ≠ none ∧ e.after.find? handle = none

/-- What a visit does: it puts a record under a handle that was free, or it puts none anywhere and at
most removes records that have expired by the reading that it goes by. -/
theorem cases (e : Turn) :
    (∃ stored, e.put? = some stored ∧ e.before.find? stored.record.handle = none ∧
      e.after = e.before.insert stored.record.handle stored) ∨
    (e.put? = none ∧ Thins e.visit.reading e.before e.after) := by
  obtain ⟨clock, ⟨reading, errand⟩, before⟩ := e
  cases errand with
  | put record =>
      unfold put? after reply Visit.serve
      cases MappingStore.answer_put_cases reading record before with
      | inl haccepted =>
          obtain ⟨deadline, hdeadline, hfree, hanswer⟩ := haccepted
          refine .inl ⟨⟨record, deadline⟩, ?_, hfree, ?_⟩
          · simp only [hanswer, hdeadline, Option.map_some]
          · simp only [hanswer]
      | inr hrefused =>
          obtain ⟨error, hanswer⟩ := hrefused
          simp only [hanswer, true_and]
          exact .inr fun _ => .inl rfl
  | lookUp handle => exact .inr ⟨rfl, fun _ => .inl rfl⟩
  | remove handle => exact .inr ⟨rfl, thins_removeExpired reading handle before⟩
  | sweep => exact .inr ⟨rfl, thins_evictExpired reading before⟩

/-- A record stays where it is, or it is removed; and then it has reached its deadline at the reading
that the visitor goes by. -/
theorem keeps_or_removes (e : Turn) {handle : Handle} {stored : StoredRecord}
    (hfind : e.before.find? handle = some stored) :
    e.after.find? handle = some stored ∨
      e.after.find? handle = none ∧ stored.deadline ≤ e.visit.reading := by
  cases e.cases with
  | inl hputs =>
      obtain ⟨added, -, hfree, hafter⟩ := hputs
      left
      have hne : handle ≠ added.record.handle := by
        rintro rfl
        rw [hfree] at hfind
        cases hfind
      rw [hafter, Table.find?_insert_ne _ hne, hfind]
  | inr hthins =>
      cases hthins.2 handle with
      | inl hsame => exact .inl (hsame.trans hfind)
      | inr hshown =>
          rw [shows, hfind, Option.filter_some] at hshown
          by_cases hlive : stored.deadline ≤ e.visit.reading
          · have hgone : live e.visit.reading stored = false :=
              decide_eq_false (Int.not_lt.mpr hlive)
            rw [hgone] at hshown
            exact .inr ⟨hshown, hlive⟩
          · have hkept : live e.visit.reading stored = true :=
              decide_eq_true (Int.not_le.mp hlive)
            rw [hkept] at hshown
            exact .inl hshown

/-- A record is put under a handle that is free, and is then in the table. -/
theorem find?_of_put? {e : Turn} {stored : StoredRecord} (hput : e.put? = some stored) :
    e.before.find? stored.record.handle = none ∧
      e.after.find? stored.record.handle = some stored := by
  cases e.cases with
  | inl hputs =>
      obtain ⟨added, hadded, hfree, hafter⟩ := hputs
      cases hput.symm.trans hadded
      exact ⟨hfree, by rw [hafter, Table.find?_insert_self]⟩
  | inr hthins =>
      rw [hput] at hthins
      cases hthins.1

/-- What is in the table after a visit was there before or has been put there by it. -/
theorem find?_after {e : Turn} {handle : Handle} {stored : StoredRecord}
    (hfind : e.after.find? handle = some stored) :
    e.before.find? handle = some stored ∧ e.putsUnder handle = false ∨
      e.put? = some stored ∧ stored.record.handle = handle := by
  unfold putsUnder
  cases e.cases with
  | inl hputs =>
      obtain ⟨added, hadded, -, hafter⟩ := hputs
      rw [hafter] at hfind
      by_cases hsame : handle = added.record.handle
      · subst hsame
        rw [Table.find?_insert_self] at hfind
        cases hfind
        exact .inr ⟨hadded, rfl⟩
      · rw [Table.find?_insert_ne _ hsame] at hfind
        exact .inl ⟨hfind, by simp [hadded, Ne.symm hsame]⟩
  | inr hthins =>
      exact .inl ⟨hthins.2.find?_eq_some hfind, by rw [hthins.1]; rfl⟩

end Turn

/-! ## Clients at work -/

/-- A table and its clients. -/
structure Crowd where
  clock : Moment
  /-- The visits that are to come, of the clients that have read the clock. -/
  pending : List Visit
  table : MemoryStore
  /-- The visits that have taken place, oldest first. -/
  past : List Turn

namespace Crowd

/-- An empty table to which nobody has come yet. -/
def start (clock : Moment) : Crowd :=
  ⟨clock, [], .empty, []⟩

/-- Time passes. -/
def advance (w : Crowd) (d : Duration) : Crowd :=
  { w with clock := ⟨w.clock.nanos + d.nanos⟩ }

/-- A client reads the clock and is on its way. -/
def read (w : Crowd) (errand : Errand) : Crowd :=
  { w with pending := ⟨w.clock, errand⟩ :: w.pending }

/-- A client gets to the table; the others are still on their way. -/
def attend (w : Crowd) (visit : Visit) (others : List Visit) : Crowd where
  clock := w.clock
  pending := visit.next w.table ++ others
  table := (visit.serve w.table).2
  past := w.past ++ [⟨w.clock, visit, w.table⟩]

/-- One thing that happens.  Of the visits that are to come any one may be the next. -/
inductive Step (w : Crowd) : Crowd → Prop where
  | advance (d : Duration) : Step w (w.advance d)
  | read (errand : Errand) (hopens : errand.opens = true) : Step w (w.read errand)
  | attend {visit : Visit} {others : List Visit} (hpending : w.pending.Perm (visit :: others)) :
      Step w (w.attend visit others)

/-- Any number of things that happen, one after the other. -/
abbrev Run : Crowd → Crowd → Prop :=
  Relation.ReflTransGen Step

end Crowd

/-! ## Stretches of visits -/

/-- Visits that take place one after the other, each on the table that the one before it has left. -/
def Linked : MemoryStore → List Turn → MemoryStore → Prop
  | first, [], last => first = last
  | first, e :: later, last => e.before = first ∧ Linked e.after later last

/-- A stretch of visits can be cut anywhere. -/
theorem linked_append {first last : MemoryStore} {front back : List Turn} :
    Linked first (front ++ back) last ↔
      ∃ middle, Linked first front middle ∧ Linked middle back last := by
  induction front generalizing first with
  | nil =>
      constructor
      · intro h
        exact ⟨first, rfl, h⟩
      · rintro ⟨middle, rfl, h⟩
        exact h
  | cons e front ih =>
      rw [List.cons_append, Linked, ih]
      constructor
      · rintro ⟨hbefore, middle, hfront, hback⟩
        exact ⟨middle, ⟨hbefore, hfront⟩, hback⟩
      · rintro ⟨middle, ⟨hbefore, hfront⟩, hback⟩
        exact ⟨hbefore, middle, hfront, hback⟩

/-- A record outlasts all visitors who have read the clock before its deadline. -/
theorem Linked.find?_of_readings {first last : MemoryStore} {events : List Turn} {handle : Handle}
    {stored : StoredRecord} (h : Linked first events last)
    (hreadings : ∀ e ∈ events, e.visit.reading < stored.deadline)
    (hfind : first.find? handle = some stored) : last.find? handle = some stored := by
  induction events generalizing first with
  | nil =>
      subst h
      exact hfind
  | cons e later ih =>
      obtain ⟨rfl, hlater⟩ := h
      obtain ⟨hreading, hreadings⟩ := List.forall_mem_cons.mp hreadings
      cases e.keeps_or_removes hfind with
      | inl hkept => exact ih hlater hreadings hkept
      | inr hremoved => exact absurd hreading (Int.not_lt.mpr hremoved.2)

/-- A record is held until somebody removes it. -/
theorem Linked.find?_of_kept {first last : MemoryStore} {events : List Turn} {handle : Handle}
    {stored : StoredRecord} (h : Linked first events last)
    (hkept : ∀ e ∈ events, ¬e.Removes handle) (hfind : first.find? handle = some stored) :
    last.find? handle = some stored := by
  induction events generalizing first with
  | nil =>
      subst h
      exact hfind
  | cons e later ih =>
      obtain ⟨rfl, hlater⟩ := h
      obtain ⟨hkeeps, hkept⟩ := List.forall_mem_cons.mp hkept
      cases e.keeps_or_removes hfind with
      | inl hsame => exact ih hlater hkept hsame
      | inr hremoved => exact absurd ⟨by simp [hfind], hremoved.1⟩ hkeeps

/-- While a record is held and nobody removes it, nothing is put under its handle. -/
theorem Linked.putsUnder_eq_false {first last : MemoryStore} {events : List Turn} {handle : Handle}
    (h : Linked first events last) (hkept : ∀ e ∈ events, ¬e.Removes handle)
    (hheld : first.find? handle ≠ none) : ∀ e ∈ events, e.putsUnder handle = false := by
  induction events generalizing first with
  | nil => simp
  | cons e later ih =>
      obtain ⟨rfl, hlater⟩ := h
      obtain ⟨hkeeps, hkept⟩ := List.forall_mem_cons.mp hkept
      have hafter : e.after.find? handle ≠ none := fun hnone => hkeeps ⟨hheld, hnone⟩
      refine List.forall_mem_cons.mpr ⟨?_, ih hlater hkept hafter⟩
      rw [Turn.putsUnder, Option.any_eq_false]
      intro stored hput
      refine decide_eq_false ?_
      rintro rfl
      exact hheld (Turn.find?_of_put? hput).1

/-- As long as nobody removes what is under a handle, at most one record is put there. -/
theorem Linked.countP_putsUnder_le {first last : MemoryStore} {events : List Turn} {handle : Handle}
    (h : Linked first events last) (hkept : ∀ e ∈ events, ¬e.Removes handle) :
    events.countP (Turn.putsUnder handle) ≤ 1 := by
  induction events generalizing first with
  | nil => simp
  | cons e later ih =>
      obtain ⟨-, hlater⟩ := h
      have hkept := (List.forall_mem_cons.mp hkept).2
      cases hputs : e.putsUnder handle with
      | false =>
          rw [List.countP_cons_of_neg (by simp [hputs])]
          exact ih hlater hkept
      | true =>
          obtain ⟨stored, hput, hhandle⟩ := Option.any_eq_true _ _ |>.mp hputs
          have hfind := (Turn.find?_of_put? hput).2
          rw [of_decide_eq_true hhandle] at hfind
          have hnone := hlater.putsUnder_eq_false hkept (by simp [hfind])
          have hzero : later.countP (Turn.putsUnder handle) = 0 :=
            List.countP_eq_zero.mpr (by simpa using hnone)
          have hcount := List.countP_cons_of_pos (l := later) hputs
          omega

/-! ## Safety -/

namespace Crowd

/-- A record is held since a visit that has put it, and nobody has removed it or put another one
under its handle since. -/
def HeldSince (past : List Turn) (handle : Handle) (stored : StoredRecord) : Prop :=
  ∃ front p back, past = front ++ p :: back ∧ p.put? = some stored ∧
    stored.record.handle = handle ∧ ∀ e ∈ back, ¬e.Removes handle ∧ e.putsUnder handle = false

/-- The invariant of a run. -/
structure Sound (w : Crowd) : Prop where
  pending : ∀ visit ∈ w.pending, visit.reading ≤ w.clock
  /-- No reading comes from the future. -/
  readings : ∀ e ∈ w.past, e.visit.reading ≤ e.clock
  clocks : w.past.Pairwise fun e later => e.clock ≤ later.clock
  clock : ∀ e ∈ w.past, e.clock ≤ w.clock
  linked : Linked .empty w.past w.table
  held : ∀ handle stored, w.table.find? handle = some stored → HeldSince w.past handle stored

/-- At the beginning nothing is held. -/
theorem sound_start (clock : Moment) : (start clock).Sound where
  pending := by simp [start]
  readings := by simp [start]
  clocks := .nil
  clock := by simp [start]
  linked := rfl
  held := by
    intro handle stored hfind
    cases hfind

/-- A client that gets to the table keeps the invariant. -/
theorem Sound.attend {w : Crowd} (h : w.Sound) {visit : Visit} {others : List Visit}
    (hpending : w.pending.Perm (visit :: others)) : (w.attend visit others).Sound where
  pending := by
    have hvisit := h.pending visit (hpending.mem_iff.mpr List.mem_cons_self)
    intro other hother
    cases List.mem_append.mp hother with
    | inl hnext =>
        -- The visit that is owed goes by the reading of the one that has taken place.
        have hsame : other.reading = visit.reading := by
          unfold Visit.next at hnext
          split at hnext
          · split at hnext
            · rw [List.mem_singleton.mp hnext]
            · cases hnext
          · cases hnext
        rw [hsame]
        exact hvisit
    | inr hold => exact h.pending other (hpending.mem_iff.mpr (List.mem_cons_of_mem _ hold))
  readings := by
    have hvisit := h.pending visit (hpending.mem_iff.mpr List.mem_cons_self)
    intro e he
    cases List.mem_append.mp he with
    | inl hold => exact h.readings e hold
    | inr hnew => exact List.mem_singleton.mp hnew ▸ hvisit
  clocks := by
    refine List.pairwise_append.mpr ⟨h.clocks, List.pairwise_singleton _ _, ?_⟩
    intro e he last hlast
    rw [List.mem_singleton.mp hlast]
    exact h.clock e he
  clock := by
    intro e he
    cases List.mem_append.mp he with
    | inl hold => exact h.clock e hold
    | inr hnew =>
        rw [List.mem_singleton.mp hnew]
        exact Int.le_refl _
  linked := linked_append.mpr ⟨w.table, h.linked, rfl, rfl⟩
  held := by
    intro handle stored hfind
    let e : Turn := ⟨w.clock, visit, w.table⟩
    have hkept : ¬e.Removes handle := by
      intro hremoves
      have hsome : e.after.find? handle = some stored := hfind
      rw [hremoves.2] at hsome
      cases hsome
    cases Turn.find?_after (e := e) hfind with
    | inl hbefore =>
        obtain ⟨front, p, back, hpast, hput, hhandle, hback⟩ := h.held handle stored hbefore.1
        refine ⟨front, p, back ++ [e], ?_, hput, hhandle, ?_⟩
        · show w.past ++ [e] = _
          rw [hpast]
          simp
        · exact List.forall_mem_append.mpr ⟨hback, by simp [hkept, hbefore.2]⟩
    | inr hput => exact ⟨w.past, e, [], rfl, hput.1, hput.2, by simp⟩

/-- Everything that happens keeps the invariant. -/
theorem Sound.step {w w' : Crowd} (h : w.Sound) (hstep : Step w w') : w'.Sound := by
  cases hstep with
  | advance d =>
      have hlater : w.clock ≤ (w.advance d).clock :=
        Int.le_add_of_nonneg_right (Int.natCast_nonneg _)
      exact { h with
        pending := fun visit hvisit => Int.le_trans (h.pending visit hvisit) hlater
        clock := fun e he => Int.le_trans (h.clock e he) hlater }
  | read errand hopens =>
      refine { h with pending := ?_ }
      exact List.forall_mem_cons.mpr ⟨Int.le_refl _, h.pending⟩
  | attend hpending => exact h.attend hpending

/-- A run keeps the invariant. -/
theorem Sound.run {w w' : Crowd} (h : w.Sound) (hrun : Run w w') : w'.Sound := by
  induction hrun with
  | refl => exact h
  | tail _ hstep ih => exact ih.step hstep

/-- What clients can rely on, however their steps fall between each other's. -/
structure IsSafe (w : Crowd) : Prop where
  /-- A request gives back a record that was in the table, and only one whose deadline lies behind
  the reading of the clock that the request goes by. -/
  fresh : ∀ e ∈ w.past, ∀ handle record, e.visit.errand = .lookUp handle →
    e.reply = .got (.ok record) → ∃ stored, e.before.find? handle = some stored ∧
      stored.record = record ∧ e.visit.reading < stored.deadline
  /-- A record that is in the table stays as it is, or it is removed by a visitor who has read the
  clock at its deadline or later. -/
  removal : ∀ e ∈ w.past, ∀ handle stored, e.before.find? handle = some stored →
    e.after.find? handle = some stored ∨ e.after.find? handle = none ∧
      stored.deadline ≤ e.visit.reading ∧ e.visit.reading ≤ e.clock
  /-- A record that was put is given back to everybody who looks it up before its deadline. -/
  found : ∀ front p middle g back stored, w.past = front ++ p :: (middle ++ g :: back) →
    p.put? = some stored → g.visit.errand = .lookUp stored.record.handle →
      g.clock < stored.deadline → g.reply = .got (.ok stored.record)
  /-- From one removal under a handle to the next at most one record is put there. -/
  once : ∀ handle front stretch back, w.past = front ++ (stretch ++ back) →
    (∀ e ∈ stretch, ¬e.Removes handle) → stretch.countP (Turn.putsUnder handle) ≤ 1
  /-- What is held under a handle is the one record that was put there since the last removal. -/
  held : ∀ handle stored, w.table.find? handle = some stored ↔ HeldSince w.past handle stored

/-- A record that was put is found until its deadline.  Whoever has been at the table in between has
read the clock before the deadline, as the clock has not reached it yet. -/
theorem Sound.found {w : Crowd} (h : w.Sound) {front middle back : List Turn} {p g : Turn}
    {stored : StoredRecord} (hpast : w.past = front ++ p :: (middle ++ g :: back))
    (hput : p.put? = some stored) (herrand : g.visit.errand = .lookUp stored.record.handle)
    (hclock : g.clock < stored.deadline) : g.reply = .got (.ok stored.record) := by
  have hlinked := h.linked
  have hclocks := h.clocks
  have hreadings := h.readings
  rw [hpast] at hlinked hclocks hreadings
  obtain ⟨-, -, -, hlater⟩ := linked_append.mp hlinked
  obtain ⟨_, hmiddle, rfl, -⟩ := linked_append.mp hlater
  have hbefore : ∀ e ∈ middle, e.visit.reading < stored.deadline := by
    intro e he
    have horder := (List.pairwise_append.mp (List.pairwise_append.mp hclocks).2.1.of_cons).2.2
    exact Int.lt_of_le_of_lt (Int.le_trans (hreadings e (by simp [he]))
      (horder e he g List.mem_cons_self)) hclock
  have hfind := hmiddle.find?_of_readings hbefore (Turn.find?_of_put? hput).2
  have hlive : live g.visit.reading stored = true :=
    decide_eq_true (Int.lt_of_le_of_lt (hreadings g (by simp)) hclock)
  unfold Turn.reply Visit.serve
  rw [herrand]
  simp only [get_fst, shows, hfind, Option.filter_some, hlive, if_true]

/-- What was put and not removed since is held. -/
theorem Sound.find?_of_heldSince {w : Crowd} (h : w.Sound) {handle : Handle} {stored : StoredRecord}
    (hheld : HeldSince w.past handle stored) : w.table.find? handle = some stored := by
  obtain ⟨front, p, back, hpast, hput, rfl, hback⟩ := hheld
  have hlinked := h.linked
  rw [hpast] at hlinked
  obtain ⟨-, -, -, hlater⟩ := linked_append.mp hlinked
  exact hlater.find?_of_kept (fun e he => (hback e he).1) (Turn.find?_of_put? hput).2

/-- What a request gives back is in the table and live at its reading. -/
theorem fresh_of_got {e : Turn} {handle : Handle} {record : MappingRecord}
    (herrand : e.visit.errand = .lookUp handle) (hreply : e.reply = .got (.ok record)) :
    ∃ stored, e.before.find? handle = some stored ∧ stored.record = record ∧
      e.visit.reading < stored.deadline := by
  unfold Turn.reply Visit.serve at hreply
  rw [herrand] at hreply
  simp only [get_fst, Response.got.injEq] at hreply
  cases hshown : shows e.visit.reading e.before handle with
  | none =>
      rw [hshown] at hreply
      cases hreply
  | some stored =>
      rw [hshown] at hreply
      cases hreply
      obtain ⟨hfind, hlive⟩ := Option.filter_eq_some_iff.mp hshown
      exact ⟨stored, hfind, rfl, of_decide_eq_true hlive⟩

/-- The store in memory is safe for any number of clients, whatever order their steps come in and
however long any of them is delayed between two of its steps. -/
theorem run_isSafe {clock : Moment} {w : Crowd} (hrun : Run (start clock) w) : w.IsSafe := by
  have hsound := (sound_start clock).run hrun
  refine ⟨?_, ?_, ?_, ?_, fun handle stored =>
    ⟨hsound.held handle stored, hsound.find?_of_heldSince⟩⟩
  · intro e _ handle record herrand hreply
    exact fresh_of_got herrand hreply
  · intro e he handle stored hfind
    cases e.keeps_or_removes hfind with
    | inl hkept => exact .inl hkept
    | inr hremoved => exact .inr ⟨hremoved.1, hremoved.2, hsound.readings e he⟩
  · intro front p middle g back stored hpast hput herrand hclock
    exact hsound.found hpast hput herrand hclock
  · intro handle front stretch back hpast hkept
    have hlinked := hsound.linked
    rw [hpast] at hlinked
    obtain ⟨_, -, hrest⟩ := linked_append.mp hlinked
    obtain ⟨_, hstretch, -⟩ := linked_append.mp hrest
    exact hstretch.countP_putsUnder_le hkept

/-- A request has found a record of five seconds expired.  Before it comes back to remove that record
another client sweeps it, and a third one puts a new record under the same handle; the request comes
too late for the old record and leaves the new one, which is then found. -/
theorem run_isSafe_late_removal :
    let old : MappingRecord := ⟨⟨.replicate 16 0⟩, [], ⟨0, 0⟩, ⟨5, 0⟩⟩
    let new : MappingRecord := ⟨⟨.replicate 16 0⟩, [], ⟨9, 0⟩, ⟨14, 0⟩⟩
    let waited := (((start ⟨0⟩).read (.put old)).attend ⟨⟨0⟩, .put old⟩ []).advance (.ofSeconds 6)
    let visit (errand : Errand) : Visit := ⟨waited.clock, errand⟩
    let met := (waited.read (.lookUp old.handle)).attend (visit (.lookUp old.handle)) []
    let swept := (met.read .sweep).attend (visit .sweep) met.pending
    let reused := (swept.read (.put new)).attend (visit (.put new)) met.pending
    let w := ((reused.attend (visit (.remove old.handle)) []).read (.lookUp new.handle)).attend
      (visit (.lookUp new.handle)) []
    Run (start ⟨0⟩) w ∧ w.IsSafe ∧ met.pending = [visit (.remove old.handle)] ∧
      w.past.map (fun e => e.putsUnder old.handle) = [true, false, false, true, false, false] ∧
      w.table.held new.handle = some new := by
  intro old new waited visit met swept reused w
  have hmet : Run (start ⟨0⟩) met :=
    ((((Relation.ReflTransGen.single (.read (.put old) rfl)).tail (.attend (.refl _))).tail
      (.advance (.ofSeconds 6))).tail (.read (.lookUp old.handle) rfl)).tail (.attend (.refl _))
  have howed : met.pending = [visit (.remove old.handle)] := by decide
  have hreused : Run (start ⟨0⟩) reused :=
    (((hmet.tail (.read .sweep rfl)).tail (.attend (.refl _))).tail (.read (.put new) rfl)).tail
      (.attend (.of_eq (by decide)))
  have hrun : Run (start ⟨0⟩) w :=
    ((hreused.tail (.attend (.of_eq (by decide)))).tail (.read (.lookUp new.handle) rfl)).tail
      (.attend (.of_eq (by decide)))
  exact ⟨hrun, run_isSafe hrun, howed, by decide, by decide⟩

end Crowd

end NetRedact.MemoryStore
