import NetRedact.Proofs.ExpiringMap
import NetRedact.Proofs.StampArithmetic

/-!
# Stamped and enforced expiry

A record carries the stamps at which it was made and will expire, and a store keeps it until a deadline
of the monotonic clock that is reckoned from their difference.  Whatever lifetime the record was asked
to have, the two agree: at every later time, a request is told that there is no record if and only if
the wall clock has reached the stamp.

The store may have been used before, and it may be used for anything else in between.  What is assumed
is that both clocks move on together, and that nobody else puts a record under the same handle.
-/

namespace NetRedact

/-! ## The stamps of a record -/

namespace MappingRecord

variable {created : Timestamp} (handle : Handle) (entries : List MappingEntry) (ttl : Duration)

/-- A record expires when its lifetime has passed since it was made. -/
theorem epochNanos_expiresAt {r : MappingRecord} (hcreated : r.createdAt.IsPlain)
    (hexpires : r.expiresAt.IsPlain) (hle : r.createdAt.le r.expiresAt = true) :
    r.expiresAt.epochNanos = r.createdAt.epochNanos + r.ttl.nanos := by
  have horder := (Timestamp.le_iff hcreated hexpires).mp hle
  rw [ttl, Timestamp.nanos_since hexpires hcreated]
  omega

/-- A new record does not expire before it is made. -/
theorem createdAt_le_expiresAt (hvalid : created.IsValid) (hplain : created.IsPlain) :
    created.le (make handle entries created ttl).expiresAt = true := by
  refine (Timestamp.le_iff hplain (Timestamp.addCapped_isPlain hplain ttl)).mpr ?_
  rw [Timestamp.epochNanos_addCapped hvalid hplain]
  have := Timestamp.epochNanos_le_last hvalid hplain
  omega

/-- A new record lives as long as it was asked to, or until the last stamp. -/
theorem nanos_ttl_make (hvalid : created.IsValid) (hplain : created.IsPlain) :
    (make handle entries created ttl).ttl.nanos =
      min ttl.nanos (Timestamp.last.since created).nanos := by
  show ((created.addCapped ttl).since created).nanos = _
  rw [Timestamp.nanos_since (Timestamp.addCapped_isPlain hplain ttl) hplain,
    Timestamp.nanos_since Timestamp.last_isPlain hplain,
    Timestamp.epochNanos_addCapped hvalid hplain]
  have := Timestamp.epochNanos_le_last hvalid hplain
  omega

/-- The lifetime of a new record is got from its stamps without falling back on no time at all: their
difference is not too long and not negative. -/
theorem difference_make (hvalid : created.IsValid) (hplain : created.IsPlain) :
    let r := make handle entries created ttl
    ∃ span, r.expiresAt.difference? r.createdAt = some span ∧ span.toDuration? = some r.ttl := by
  intro r
  have hexpires : r.expiresAt.IsPlain := Timestamp.addCapped_isPlain hplain ttl
  have hle := createdAt_le_expiresAt handle entries ttl hvalid hplain
  obtain ⟨span, hspan, hnanos⟩ := Timestamp.exists_difference
    (Timestamp.addCapped_isValid hvalid hplain ttl) hvalid hexpires hplain
  refine ⟨span, hspan, ?_⟩
  have hsum := epochNanos_expiresAt (r := r) hplain hexpires hle
  have hlength : span.nanos = r.ttl.nanos := by
    show _ = (r.ttl.nanos : Int)
    rw [hnanos]
    show r.expiresAt.epochNanos - r.createdAt.epochNanos = _
    omega
  unfold SignedDuration.toDuration?
  rw [hlength, if_pos (Int.natCast_nonneg _), Int.toNat_natCast]

end MappingRecord

/-! ## The deadline in the store -/

namespace MappingStore

/-- An act leaves a record in its place if it puts nothing else under its handle. -/
theorem Session.holds_perform {w : Session MemoryStore} {stored : StoredRecord}
    (h : w.state.Holds w.clock stored) (act : Act)
    (hfree : ∀ record, act = .put record → record.handle ≠ stored.record.handle) :
    (w.perform memory act).state.Holds (w.perform memory act).clock stored := by
  refine MemoryStore.Holds.later ?_ (clock_le_perform memory w act)
  cases act with
  | put record =>
      unfold Session.perform
      cases answer_put_cases w.clock record w.state with
      | inl haccepted =>
          obtain ⟨deadline, -, -, hanswer⟩ := haccepted
          rw [hanswer]
          exact h.insert ⟨record, deadline⟩ (hfree record rfl).symm
      | inr hrefused =>
          obtain ⟨e, hanswer⟩ := hrefused
          rw [hanswer]
          exact h
  | get handle => exact h.thins (MemoryStore.thins_get w.clock handle w.state)
  | evictExpired => exact h.thins (MemoryStore.thins_evictExpired w.clock w.state)
  | advance d => exact h

/-- Acts leave a record in its place if none of them puts anything else under its handle. -/
theorem Session.holds_run {w : Session MemoryStore} {stored : StoredRecord}
    (h : w.state.Holds w.clock stored) {acts : List Act}
    (hfree : ∀ record, Act.put record ∈ acts → record.handle ≠ stored.record.handle) :
    (w.run memory acts).state.Holds (w.run memory acts).clock stored := by
  induction acts generalizing w with
  | nil => exact h
  | cons act rest ih =>
      have hact : ∀ record, act = .put record → record.handle ≠ stored.record.handle := by
        rintro record rfl
        exact hfree record List.mem_cons_self
      have hrest : ∀ record, Act.put record ∈ rest → record.handle ≠ stored.record.handle :=
        fun record hmem => hfree record (List.mem_cons_of_mem act hmem)
      exact ih (holds_perform h act hact) hrest

/-- The monotonic clock and the wall clock have moved on by the same time, and the wall clock shows no
leap second. -/
structure InStep (now later : Moment) (stamp laterStamp : Timestamp) : Prop where
  plain : laterStamp.IsPlain
  elapsed : laterStamp.epochNanos - stamp.epochNanos = later.nanos - now.nanos

/-- A record that is put into a store when it is made can be had until the wall clock reaches its
expiry, and not from then on. -/
theorem Session.get_run_put {w : Session MemoryStore} {record : MappingRecord} {acts : List Act}
    {later : Timestamp} (hcreated : record.createdAt.IsPlain) (hexpires : record.expiresAt.IsPlain)
    (hle : record.createdAt.le record.expiresAt = true)
    (hput : (memory.put w.clock record w.state).1 = .ok record.handle)
    (hfresh : ∀ other, Act.put other ∈ acts → other.handle ≠ record.handle)
    (hclocks : InStep w.clock ((w.perform memory (.put record)).run memory acts).clock
      record.createdAt later) :
    let w' := (w.perform memory (.put record)).run memory acts
    (memory.get w'.clock record.handle w'.state).1 =
      if record.isExpiredAt later then .error .notFound else .ok record := by
  intro w'
  have hput' : (MemoryStore.put w.clock record w.state).1 = .ok record.handle := hput
  obtain ⟨deadline, hdeadline, -, -, hstate⟩ := MemoryStore.put_eq_ok_iff.mp (Prod.ext hput' rfl)
  have hplace : (w.perform memory (.put record)).state.Holds
      (w.perform memory (.put record)).clock ⟨record, deadline⟩ := by
    refine .inl ?_
    exact (congrArg (fun s : MemoryStore => s.find? record.handle) hstate).trans
      (Table.find?_insert_self _ _ _)
  have hget := (holds_run hplace hfresh).get_fst
  -- The deadline lies as far behind the first reading of the one clock as the expiry lies behind
  -- that of the other.
  have hsum := MappingRecord.epochNanos_expiresAt hcreated hexpires hle
  have hnanos := Moment.nanos_of_add? hdeadline
  have helapsed : later.epochNanos - record.createdAt.epochNanos = w'.clock.nanos - w.clock.nanos :=
    hclocks.elapsed
  have hexpired : record.isExpiredAt later = true ↔ ¬w'.clock < deadline := by
    show record.expiresAt.le later = true ↔ ¬w'.clock.nanos < deadline.nanos
    rw [Timestamp.le_iff hexpires hclocks.plain]
    omega
  refine hget.trans ?_
  by_cases hlive : w'.clock < deadline
  · rw [if_pos hlive, if_neg (fun hstamp => hexpired.mp hstamp hlive)]
  · rw [if_neg hlive, if_pos (hexpired.mpr hlive)]

end MappingStore

/-! ## The law -/

open MappingStore in
/-- Stamped and enforced expiry agree for every lifetime that a new record is asked to have and every
stamp outside leap seconds at which it is made.  The record expires when it is made or later, at the
stamp that the lifetime leads to or, where a step on the way has no result, at the last one, and never
within a leap second.  Its lifetime is the one asked for, or the time up to the last stamp if that is
less; it is the difference of the stamps, which is neither too long nor negative.  A store accepts the
record under a handle that is free if the clock can show the deadline, and whatever else is done there
without putting a record under this handle, a request gets the record as long as it has not expired by
the wall clock and is told that there is none from then on. -/
theorem make_expires_as_stamped (handle : Handle) (entries : List MappingEntry) (ttl : Duration)
    {created : Timestamp} (hvalid : created.IsValid) (hplain : created.IsPlain) :
    let r := MappingRecord.make handle entries created ttl
    (r.expiresAt.IsValid ∧ r.expiresAt.IsPlain ∧ r.createdAt.le r.expiresAt = true ∧
      r.expiresAt = ((SignedDuration.ofDuration? ttl).bind created.add?).getD .last) ∧
    (r.ttl.nanos = min ttl.nanos (Timestamp.last.since created).nanos ∧
      ∃ span, r.expiresAt.difference? r.createdAt = some span ∧ span.toDuration? = some r.ttl) ∧
    ∀ (w : Session MemoryStore) (acts : List Act) (later : Timestamp),
      w.state.find? handle = none → (∃ deadline, w.clock.add? r.ttl = some deadline) →
      (∀ other, Act.put other ∈ acts → other.handle ≠ handle) →
      let w' := (w.perform memory (.put r)).run memory acts
      InStep w.clock w'.clock created later →
      (memory.put w.clock r w.state).1 = .ok handle ∧
        (memory.get w'.clock handle w'.state).1 =
          if r.isExpiredAt later then .error .notFound else .ok r := by
  intro r
  have hexpires : r.expiresAt.IsPlain := Timestamp.addCapped_isPlain hplain ttl
  have hle := MappingRecord.createdAt_le_expiresAt handle entries ttl hvalid hplain
  refine ⟨⟨Timestamp.addCapped_isValid hvalid hplain ttl, hexpires, hle,
      Timestamp.addCapped_eq hvalid hplain ttl⟩,
    ⟨MappingRecord.nanos_ttl_make handle entries ttl hvalid hplain,
      MappingRecord.difference_make handle entries ttl hvalid hplain⟩, ?_⟩
  intro w acts later hfree hdeadline hfresh w' hclocks
  have hput : (memory.put w.clock r w.state).1 = .ok r.handle :=
    MemoryStore.put_fst_eq_ok_iff.mpr ⟨hdeadline, hfree⟩
  exact ⟨hput, Session.get_run_put hplain hexpires hle hput hfresh hclocks⟩

open MappingStore in
/-- One second and one nanosecond before the last stamp a record is made that is to live for as long as
a duration can be.  It lives for one second and one nanosecond: after a second of which somebody has
swept the store and asked for the record it is still there, and a nanosecond later it is not. -/
theorem make_expires_as_stamped_last_second :
    let created : Timestamp := ⟨Timestamp.maxSeconds - 1, 999999998⟩
    let handle := Handle.ofDraw (Vector.replicate 16 7)
    let r := MappingRecord.make handle [] created (.ofParts 18446744073709551615 999999999)
    let w := (Session.start ⟨5⟩ (.empty : MemoryStore)).perform memory (.put r)
    let acts : List Act := [.evictExpired, .advance (.ofSeconds 1), .get handle]
    let almost := w.run memory acts
    let past := w.run memory (acts ++ [.advance ⟨1⟩])
    created.IsValid ∧ created.IsPlain ∧ r.ttl.nanos = 1000000001 ∧
      (memory.get almost.clock handle almost.state).1 = .ok r ∧
        (memory.get past.clock handle past.state).1 = .error .notFound := by
  intro created handle r w acts almost past
  have hvalid : created.IsValid := by decide
  have hplain : created.IsPlain := by decide
  obtain ⟨-, ⟨httl, -⟩, hstore⟩ := make_expires_as_stamped handle []
    (.ofParts 18446744073709551615 999999999) hvalid hplain
  have hnanos : r.ttl.nanos = 1000000001 := httl.trans (by decide)
  have hdeadline : (⟨5⟩ : Moment).add? r.ttl = some ⟨1000000006⟩ := by
    rw [Moment.add?, hnanos]
    rfl
  have hget := fun acts later hfresh hclocks =>
    (hstore (Session.start ⟨5⟩ .empty) acts later rfl ⟨_, hdeadline⟩ hfresh hclocks).2
  refine ⟨hvalid, hplain, hnanos, ?_, ?_⟩
  · have hclocks : InStep ⟨5⟩ almost.clock created ⟨Timestamp.maxSeconds, 999999998⟩ :=
      ⟨by decide, by decide +kernel⟩
    have hanswer := hget _ _ (by simp [acts]) hclocks
    exact hanswer.trans (if_neg (by decide))
  · have hclocks : InStep ⟨5⟩ past.clock created ⟨Timestamp.maxSeconds, 999999999⟩ :=
      ⟨by decide, by decide +kernel⟩
    have hanswer := hget _ _ (by simp [acts]) hclocks
    exact hanswer.trans (if_pos (by decide))

end NetRedact
