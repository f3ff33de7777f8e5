import NetRedact.Mapping.Record

/-!
# Reckoning with stamps

A lifetime is given as a duration, which may be longer than the calendar; it is turned into a length
of time with a sign, which has a smaller range; that is added to a stamp, which has a still smaller
one; and the lifetime is got back as the difference of two stamps.  Where one of these steps has no
result, the last stamp or no time at all takes its place.

This module takes the steps one by one, for stamps outside leap seconds.  The sum is the exact one, or
the last stamp if that is sooner; the difference always has a result; and so a record lives for the
time that it was given, or until the last stamp.
-/

namespace NetRedact

/-! ## Lengths of time with a sign -/

/-- A length of time with a sign. -/
structure SignedDuration where
  nanos : Int
  deriving DecidableEq

namespace SignedDuration

/-- The longest one in either direction, in nanoseconds: its milliseconds just fit into a signed
64-bit number. -/
def limit : Int := 9223372036854775807 * 1000000

/-- The one with the given nanoseconds, if it is not too long. -/
def ofNanos? (n : Int) : Option SignedDuration :=
  if -limit ≤ n ∧ n ≤ limit then some ⟨n⟩ else none

/-- A duration with a sign, if it is not too long. -/
def ofDuration? (d : Duration) : Option SignedDuration :=
  ofNanos? d.nanos

/-- The duration without the sign, if that is not negative. -/
def toDuration? (s : SignedDuration) : Option Duration :=
  if 0 ≤ s.nanos then some ⟨s.nanos.toNat⟩ else none

/-- A duration keeps its length when it is given a sign. -/
theorem nanos_of_ofDuration? {d : Duration} {s : SignedDuration} (h : ofDuration? d = some s) :
    s.nanos = d.nanos := by
  unfold ofDuration? ofNanos? at h
  split at h
  · cases h
    rfl
  · cases h

theorem ofDuration?_of_le {d : Duration} (h : d.nanos ≤ limit) : ofDuration? d = some ⟨d.nanos⟩ := by
  unfold ofDuration? ofNanos?
  unfold limit at h ⊢
  exact if_pos ⟨by omega, h⟩

end SignedDuration

namespace Timestamp

/-! ## Stamps as numbers -/

/-- The stamp lies in no leap second. -/
def IsPlain (t : Timestamp) : Prop :=
  t.nanos < 1000000000

instance (t : Timestamp) : Decidable t.IsPlain :=
  inferInstanceAs (Decidable (_ < _))

/-- The nanoseconds since the beginning of 1970, leap seconds not counted. -/
def epochNanos (t : Timestamp) : Int :=
  t.seconds * 1000000000 + t.nanos

/-- The stamp with the given nanoseconds since 1970, if the calendar has it. -/
def ofEpochNanos? (n : Int) : Option Timestamp :=
  let t : Timestamp := ⟨n / 1000000000, (n % 1000000000).toNat⟩
  if t.IsValid then some t else none

/-- The stamp that a length of time leads to, if the calendar has it. -/
def add? (t : Timestamp) (s : SignedDuration) : Option Timestamp :=
  ofEpochNanos? (t.epochNanos + s.nanos)

/-- The length of time from `b` to `a`, if it is not too long. -/
def difference? (a b : Timestamp) : Option SignedDuration :=
  SignedDuration.ofNanos? (a.epochNanos - b.epochNanos)

theorem last_isValid : last.IsValid := by decide

theorem last_isPlain : last.IsPlain := by decide

/-- Outside leap seconds, stamps are ordered as their numbers are. -/
theorem le_iff {a b : Timestamp} (ha : a.IsPlain) (hb : b.IsPlain) :
    a.le b = true ↔ a.epochNanos ≤ b.epochNanos := by
  unfold IsPlain at ha hb
  unfold le epochNanos
  simp only [Bool.or_eq_true, decide_eq_true_eq, Bool.and_eq_true, beq_iff_eq]
  omega

/-- Outside leap seconds, the time between two stamps is the difference of their numbers. -/
theorem nanosSince_eq {a b : Timestamp} (ha : a.IsPlain) (hb : b.IsPlain) :
    a.nanosSince b = a.epochNanos - b.epochNanos := by
  unfold IsPlain at ha hb
  unfold nanosSince epochNanos
  rw [if_neg (by omega), if_neg (by omega)]
  dsimp only
  omega

theorem nanos_since {a b : Timestamp} (ha : a.IsPlain) (hb : b.IsPlain) :
    (a.since b).nanos = (a.epochNanos - b.epochNanos).toNat := by
  unfold since
  rw [nanosSince_eq ha hb]

/-- The calendar has every stamp up to the last one. -/
theorem epochNanos_le_last {t : Timestamp} (hvalid : t.IsValid) (hplain : t.IsPlain) :
    t.epochNanos ≤ last.epochNanos := by
  unfold IsPlain at hplain
  have hseconds : t.seconds ≤ maxSeconds := hvalid.2.1
  unfold epochNanos last
  dsimp only
  omega

/-- The calendar is shorter than the longest length of time with a sign. -/
theorem epochNanos_sub_le {a b : Timestamp} (ha : a.IsValid) (hb : b.IsValid)
    (hplain : a.IsPlain) : a.epochNanos - b.epochNanos ≤ SignedDuration.limit := by
  have hfirst : minSeconds = -8334601228800 := by decide
  have hlast : maxSeconds = 8210266876799 := by decide
  have hmax : a.seconds ≤ maxSeconds := ha.2.1
  have hmin : minSeconds ≤ b.seconds := hb.1
  unfold IsPlain at hplain
  unfold SignedDuration.limit epochNanos
  omega

/-- Two stamps of the calendar are never too far apart to have a difference. -/
theorem exists_difference {a b : Timestamp} (ha : a.IsValid) (hb : b.IsValid)
    (hplain : a.IsPlain) (hplain' : b.IsPlain) :
    ∃ s, a.difference? b = some s ∧ s.nanos = a.epochNanos - b.epochNanos := by
  have hle := epochNanos_sub_le ha hb hplain
  have hge := epochNanos_sub_le hb ha hplain'
  unfold difference? SignedDuration.ofNanos?
  rw [if_pos ⟨by omega, hle⟩]
  exact ⟨_, rfl, rfl⟩

/-! ## The capped sum -/

/-- Outside leap seconds, the capped sum is the sum, or the last stamp if that is sooner. -/
theorem epochNanos_addCapped {t : Timestamp} (hvalid : t.IsValid) (hplain : t.IsPlain)
    (d : Duration) :
    (t.addCapped d).epochNanos = min (t.epochNanos + d.nanos) last.epochNanos := by
  unfold IsPlain at hplain
  have hseconds : t.seconds ≤ maxSeconds := hvalid.2.1
  unfold addCapped epochNanos last
  dsimp only
  rw [if_pos (Or.inl hplain), if_pos hplain]
  split
  · dsimp only
    omega
  · dsimp only
    omega

theorem addCapped_isPlain {t : Timestamp} (hplain : t.IsPlain) (d : Duration) :
    (t.addCapped d).IsPlain := by
  unfold IsPlain at hplain
  unfold addCapped IsPlain last
  dsimp only
  rw [if_pos (Or.inl hplain), if_pos hplain]
  split
  · exact Nat.mod_lt _ (by decide)
  · decide

/-- The capped sum lies in the calendar. -/
theorem addCapped_isValid {t : Timestamp} (hvalid : t.IsValid) (hplain : t.IsPlain) (d : Duration) :
    (t.addCapped d).IsValid := by
  have hplain' := addCapped_isPlain hplain d
  have hsum := epochNanos_addCapped hvalid hplain d
  have hle := epochNanos_le_last hvalid hplain
  obtain ⟨hmin, -⟩ := hvalid
  unfold IsPlain at hplain hplain'
  unfold epochNanos last at hsum hle
  dsimp only at hsum hle
  exact ⟨by omega, by omega, by omega⟩

/-- A stamp outside leap seconds is got back from its number. -/
theorem ofEpochNanos?_epochNanos {t : Timestamp} (hvalid : t.IsValid) (hplain : t.IsPlain) :
    ofEpochNanos? t.epochNanos = some t := by
  unfold IsPlain at hplain
  obtain ⟨seconds, nanos⟩ := t
  dsimp only at hplain
  have hseconds : (seconds * 1000000000 + nanos) / 1000000000 = seconds := by omega
  have hnanos : ((seconds * 1000000000 + nanos : Int) % 1000000000).toNat = nanos := by omega
  unfold ofEpochNanos? epochNanos
  simp only [hseconds, hnanos, if_pos hvalid]

/-- The calendar has no number beyond that of the last stamp. -/
theorem ofEpochNanos?_eq_none {n : Int} (h : last.epochNanos < n) : ofEpochNanos? n = none := by
  unfold epochNanos last at h
  unfold ofEpochNanos?
  refine if_neg ?_
  rintro ⟨-, hmax, -⟩
  dsimp only at h hmax
  omega

/-- The capped sum is got in two steps, each of which may have no result: the duration is given a
sign, and then it is added to the stamp.  A duration that is too long for the first step would have
left the calendar in the second one. -/
theorem addCapped_eq {t : Timestamp} (hvalid : t.IsValid) (hplain : t.IsPlain) (d : Duration) :
    t.addCapped d = ((SignedDuration.ofDuration? d).bind t.add?).getD last := by
  have hsum := epochNanos_addCapped hvalid hplain d
  have hsame := ofEpochNanos?_epochNanos (addCapped_isValid hvalid hplain d)
    (addCapped_isPlain hplain d)
  have hlast := ofEpochNanos?_epochNanos last_isValid last_isPlain
  rw [hsum] at hsame
  by_cases hle : t.epochNanos + d.nanos ≤ last.epochNanos
  · -- The sum is in the calendar, so the duration is not too long.
    have hrange := epochNanos_sub_le last_isValid hvalid last_isPlain
    rw [Int.min_eq_left hle] at hsame
    rw [SignedDuration.ofDuration?_of_le (by omega), Option.bind_some, add?, hsame,
      Option.getD_some]
  · have hbeyond : last.epochNanos < t.epochNanos + d.nanos := by omega
    rw [Int.min_eq_right (Int.le_of_lt hbeyond), hlast] at hsame
    rw [← Option.some.inj hsame]
    cases hsigned : SignedDuration.ofDuration? d with
    | none => rfl
    | some s =>
        rw [Option.bind_some, add?, SignedDuration.nanos_of_ofDuration? hsigned,
          ofEpochNanos?_eq_none hbeyond, Option.getD_none]

end Timestamp

end NetRedact
