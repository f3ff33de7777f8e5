import NetRedact.Proofs.Tables
import NetRedact.Store.Memory

/-!
# What a store keeps

A store writes once: a record that it accepts takes a handle that was free, and a record that it
refuses leaves no trace.  `MappingStore.WriteOnce` says so about any store and any account of what
its states hold.  The store in memory is of this kind, and so is one that refuses everything.

What a client of the store in memory can tell from a state is what the state shows at a reading of
the clock.  Each operation is described by what it shows afterwards.
-/

namespace NetRedact

/-- `after` holds one record more than `before`, under the handle of that record. -/
structure Adds (record : MappingRecord) (before after : Handle → Option MappingRecord) : Prop where
  absent : before record.handle = none
  present : after record.handle = some record
  others : ∀ other, other ≠ record.handle → after other = before other

/-- A store writes once, as far as `held` tells what it holds at a reading of the clock. -/
structure MappingStore.WriteOnce {σ : Type} (store : MappingStore σ)
    (held : Moment → σ → Handle → Option MappingRecord) : Prop where
  /-- An accepted record is added under its own handle. -/
  accepts : ∀ {now record before handle after},
    store.put now record before = (.ok handle, after) →
      handle = record.handle ∧ Adds record (held now before) (held now after)
  /-- A refused record changes nothing. -/
  refuses : ∀ {now record before e after},
    store.put now record before = (.error e, after) → held now after = held now before

/-- A store that refuses everything writes once, whatever it is said to hold. -/
theorem MappingStore.failing_writeOnce {σ : Type} (backend reason : String)
    (held : Moment → σ → Handle → Option MappingRecord) :
    (MappingStore.failing backend reason).WriteOnce held where
  accepts := by
    intro now record before handle after hput
    cases hput
  refuses := by
    intro now record before e after hput
    cases hput
    rfl

namespace MemoryStore

/-- The records held, expired or not. -/
def held (s : MemoryStore) (handle : Handle) : Option MappingRecord :=
  (s.find? handle).map StoredRecord.record

/-- A record is accepted if the clock can show its deadline and its handle is free.  It is then
added with that deadline. -/
theorem put_eq_ok_iff {now : Moment} {record : MappingRecord} {s s' : MemoryStore}
    {handle : Handle} :
    put now record s = (.ok handle, s') ↔
      ∃ deadline, now.add? record.ttl = some deadline ∧ s.find? record.handle = none ∧
        handle = record.handle ∧ s' = s.insert record.handle ⟨record, deadline⟩ := by
  unfold put
  cases hdeadline : now.add? record.ttl with
  | none => simp
  | some deadline =>
      unfold occupy
      cases hfree : s.find? record.handle with
      | some stored => simp [hfree]
      | none =>
          simp only [hfree, Prod.mk.injEq, Except.ok.injEq, Option.some.injEq, true_and,
            exists_eq_left']
          rw [eq_comm, eq_comm (b := s')]

/-- Whether a record is accepted depends on the clock and on its handle only. -/
theorem put_fst_eq_ok_iff {now : Moment} {record : MappingRecord} {s : MemoryStore} :
    (put now record s).1 = .ok record.handle ↔
      (∃ deadline, now.add? record.ttl = some deadline) ∧ s.find? record.handle = none := by
  constructor
  · intro hput
    obtain ⟨deadline, hdeadline, hfree, -⟩ := put_eq_ok_iff.mp (Prod.ext hput rfl)
    exact ⟨⟨deadline, hdeadline⟩, hfree⟩
  · rintro ⟨⟨deadline, hdeadline⟩, hfree⟩
    have hput := put_eq_ok_iff.mpr ⟨deadline, hdeadline, hfree, rfl, rfl⟩
    exact congrArg Prod.fst hput

/-- A refused record leaves the table as it is. -/
theorem put_error {now : Moment} {record : MappingRecord} {s s' : MemoryStore} {e : StoreError}
    (hput : put now record s = (.error e, s')) : s' = s := by
  unfold put occupy at hput
  cases hdeadline : now.add? record.ttl with
  | none =>
      rw [hdeadline] at hput
      exact (congrArg Prod.snd hput).symm
  | some deadline =>
      rw [hdeadline] at hput
      cases hfree : s.find? record.handle with
      | some stored =>
          simp only [hfree, Prod.mk.injEq] at hput
          exact hput.2.symm
      | none =>
          simp only [hfree, Prod.mk.injEq, reduceCtorEq, false_and] at hput

/-- What is shown under a handle at a reading of the clock. -/
def shows (now : Moment) (s : MemoryStore) (handle : Handle) : Option StoredRecord :=
  (s.find? handle).filter (live now)

/-- A request for a record is answered by what is shown. -/
theorem get_fst (now : Moment) (handle : Handle) (s : MemoryStore) :
    (get now handle s).1 =
      match shows now s handle with
      | some stored => .ok stored.record
      | none => .error .notFound := by
  unfold get shows
  cases hfind : s.find? handle with
  | none => rfl
  | some stored =>
      by_cases hlive : live now stored = true
      · simp [hlive, Option.filter]
      · simp [hlive, Option.filter]

/-- The second step of a request erases an expired record. -/
theorem removeExpired_eq_erase {now : Moment} {handle : Handle} {s : MemoryStore}
    {stored : StoredRecord} (hfind : s.find? handle = some stored)
    (hexpired : live now stored = false) : removeExpired now handle s = s.erase handle := by
  simp [removeExpired, hfind, hexpired]

/-- A request for a record removes at most that record, and only when it has expired. -/
theorem get_snd (now : Moment) (handle : Handle) (s : MemoryStore) (other : Handle) :
    (get now handle s).2.find? other =
      if other = handle then shows now s handle else s.find? other := by
  unfold get shows
  cases hfind : s.find? handle with
  | none =>
      by_cases hother : other = handle
      · simp [hother, hfind]
      · simp [hother]
  | some stored =>
      by_cases hlive : live now stored = true
      · by_cases hother : other = handle
        · simp [hlive, hother, hfind, Option.filter]
        · simp [hlive, hother]
      · have herase := removeExpired_eq_erase hfind (Bool.eq_false_iff.mpr hlive)
        by_cases hother : other = handle
        · simp [hlive, hother, herase, Table.find?_erase_self, Option.filter]
        · simp [hlive, hother, herase, Table.find?_erase_ne s hother]

/-- A sweep leaves what is shown. -/
theorem evictExpired_snd (now : Moment) (s : MemoryStore) (handle : Handle) :
    (evictExpired now s).2.find? handle = shows now s handle :=
  Table.find?_filter _ s handle

/-- A record is in the swept table if it was in the table and has not reached its deadline. -/
theorem find?_evictExpired_eq_some_iff {now : Moment} {s : MemoryStore} {handle : Handle}
    {stored : StoredRecord} :
    (evictExpired now s).2.find? handle = some stored ↔
      s.find? handle = some stored ∧ now < stored.deadline := by
  rw [evictExpired_snd, shows, Option.filter_eq_some_iff]
  exact and_congr_right fun _ => decide_eq_true_iff

/-- `after` is `before` without some records that have expired by a reading of the clock. -/
def Thins (now : Moment) (before after : MemoryStore) : Prop :=
  ∀ handle, after.find? handle = before.find? handle ∨ after.find? handle = shows now before handle

/-- A request for a record thins out the table. -/
theorem thins_get (now : Moment) (handle : Handle) (s : MemoryStore) :
    Thins now s (get now handle s).2 := by
  intro other
  rw [get_snd]
  by_cases hother : other = handle
  · rw [if_pos hother, hother]
    exact .inr rfl
  · rw [if_neg hother]
    exact .inl rfl

/-- A sweep thins out the table. -/
theorem thins_evictExpired (now : Moment) (s : MemoryStore) : Thins now s (evictExpired now s).2 :=
  fun handle => .inr (evictExpired_snd now s handle)

/-- Thinning out brings nothing new. -/
theorem Thins.find?_eq_some {now : Moment} {before after : MemoryStore} {handle : Handle}
    {stored : StoredRecord} (hthins : Thins now before after)
    (hafter : after.find? handle = some stored) : before.find? handle = some stored := by
  cases hthins handle with
  | inl hsame => exact hsame.symm.trans hafter
  | inr hshown =>
      have hfilter : (before.find? handle).filter (live now) = some stored :=
        hshown.symm.trans hafter
      exact (Option.filter_eq_some_iff.mp hfilter).1

/-- A handle that is free stays so when the table is thinned out. -/
theorem Thins.find?_eq_none {now : Moment} {before after : MemoryStore} {handle : Handle}
    (hthins : Thins now before after) (hbefore : before.find? handle = none) :
    after.find? handle = none := by
  cases hafter : after.find? handle with
  | none => rfl
  | some stored =>
      have hsome := hthins.find?_eq_some hafter
      rw [hbefore] at hsome
      cases hsome

/-- A record is in its place: in the table, or expired and removed. -/
def Holds (now : Moment) (s : MemoryStore) (stored : StoredRecord) : Prop :=
  s.find? stored.record.handle = some stored ∨
    live now stored = false ∧ s.find? stored.record.handle = none

/-- A record stays in its place while time passes. -/
theorem Holds.later {now later : Moment} {s : MemoryStore} {stored : StoredRecord}
    (hholds : Holds now s stored) (hle : now ≤ later) : Holds later s stored := by
  cases hholds with
  | inl hfind => exact .inl hfind
  | inr hgone =>
      refine .inr ⟨?_, hgone.2⟩
      have hexpired : ¬now.nanos < stored.deadline.nanos := of_decide_eq_false hgone.1
      have hle' : now.nanos ≤ later.nanos := hle
      have hlater : ¬later.nanos < stored.deadline.nanos := by omega
      exact decide_eq_false hlater

/-- A record stays in its place when the table is thinned out. -/
theorem Holds.thins {now : Moment} {before after : MemoryStore} {stored : StoredRecord}
    (hholds : Holds now before stored) (hthins : Thins now before after) :
    Holds now after stored := by
  cases hholds with
  | inl hfind =>
      cases hthins stored.record.handle with
      | inl hsame => exact .inl (hsame.trans hfind)
      | inr hshown =>
          unfold shows at hshown
          rw [hfind, Option.filter_some] at hshown
          by_cases hlive : live now stored = true
          · rw [if_pos hlive] at hshown
            exact .inl hshown
          · rw [if_neg hlive] at hshown
            exact .inr ⟨Bool.eq_false_iff.mpr hlive, hshown⟩
  | inr hgone =>
      refine .inr ⟨hgone.1, ?_⟩
      cases hthins stored.record.handle with
      | inl hsame => exact hsame.trans hgone.2
      | inr hshown =>
          unfold shows at hshown
          rw [hgone.2, Option.filter_none] at hshown
          exact hshown

/-- A record stays in its place when another handle is taken. -/
theorem Holds.insert {now : Moment} {s : MemoryStore} {stored : StoredRecord}
    (hholds : Holds now s stored) (other : StoredRecord) (hne : stored.record.handle ≠ other.record.handle) :
    Holds now (s.insert other.record.handle other) stored := by
  have hsame := Table.find?_insert_ne s hne other
  unfold Holds
  rw [hsame]
  exact hholds

/-- A record in its place is given back until its deadline and no longer. -/
theorem Holds.get_fst {now : Moment} {s : MemoryStore} {stored : StoredRecord}
    (hholds : Holds now s stored) :
    (get now stored.record.handle s).1 =
      if now < stored.deadline then .ok stored.record else .error .notFound := by
  rw [MemoryStore.get_fst]
  unfold shows
  cases hholds with
  | inl hfind =>
      rw [hfind, Option.filter_some]
      by_cases hlive : now < stored.deadline
      · rw [if_pos hlive, if_pos (show live now stored = true from decide_eq_true hlive)]
      · rw [if_neg hlive, if_neg (by simpa [live] using hlive)]
  | inr hgone =>
      rw [hgone.2, Option.filter_none, if_neg (of_decide_eq_false hgone.1)]

/-- What is given back is in the table. -/
theorem find?_of_get {now : Moment} {handle : Handle} {s : MemoryStore} {record : MappingRecord}
    (hget : (get now handle s).1 = .ok record) :
    ∃ stored, s.find? handle = some stored ∧ stored.record = record := by
  rw [MemoryStore.get_fst] at hget
  cases hshown : shows now s handle with
  | none =>
      rw [hshown] at hget
      cases hget
  | some stored =>
      rw [hshown] at hget
      cases hget
      exact ⟨stored, (Option.filter_eq_some_iff.mp hshown).1, rfl⟩

end MemoryStore

end NetRedact
