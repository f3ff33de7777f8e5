import NetRedact.Proofs.Dates
import NetRedact.Proofs.Digits
import NetRedact.Proofs.NumberTexts
import NetRedact.Proofs.Words
import NetRedact.Time.Rfc3339

/-!
# Written stamps

A stamp is read back from its text to the nanosecond, whatever its year, and within a leap second at
the end of a minute as well.  A leap second behind any other second is written like the second that
comes next, so it is this one that is read: the same fraction of the second behind.  Every stamp can
be read, and those that come back as they were are known by their parts.

The reader takes one field after the other.  For each field there is one lemma: in front of
anything that does not go on with a digit, the reader of the field takes what the writer of the
field wrote.
-/

namespace NetRedact

/-! ## What a text can tell -/

namespace Timestamp

/-- If the stamp lies in a leap second, then this is one at the end of a minute. -/
def LeapEndsMinute (t : Timestamp) : Prop :=
  1000000000 ≤ t.nanos → t.seconds % 60 = 59

instance (t : Timestamp) : Decidable t.LeapEndsMinute :=
  inferInstanceAs (Decidable (_ → _))

/-- The stamp that the text of a stamp tells.  A leap second within a minute goes for the second
behind it. -/
def told (t : Timestamp) : Timestamp :=
  if t.LeapEndsMinute then t else ⟨t.seconds + 1, t.nanos - 1000000000⟩

theorem told_eq_self_iff {t : Timestamp} : t.told = t ↔ t.LeapEndsMinute := by
  unfold told
  constructor
  · intro h
    by_contra hleap
    rw [if_neg hleap] at h
    have hseconds : t.seconds + 1 = t.seconds := congrArg seconds h
    omega
  · exact fun hleap => if_pos hleap

/-- The last second of the calendar ends a minute, so that there is always a second behind. -/
theorem told_isValid {t : Timestamp} (h : t.IsValid) : t.told.IsValid := by
  unfold told
  split
  next => exact h
  next hleap =>
      obtain ⟨hmin, hmax, hnanos⟩ := h
      obtain ⟨-, hsecond⟩ := Classical.not_imp.mp hleap
      have hlast : maxSeconds % 60 = 59 := by decide
      exact ⟨by dsimp only; omega, by dsimp only; omega, by dsimp only; omega⟩

end Timestamp

namespace Rfc3339

open NetRedact.Text NetRedact.Calendar NetRedact.Scan

/-! ## Numbers and separators -/

theorem separator?_cons {c : Char} (h : isBlank c = false) (rest : List Char) :
    separator? c (c :: rest) = some rest := by
  simp [separator?, trimFront_cons h]

theorem spanDigits_padded {width n : Nat} {rest : List Char} (hrest : StopsAt Char.isDigit rest) :
    spanDigits (padded width n ++ rest) = (padded width n, rest) :=
  span_eq_iff.mpr ⟨rfl, fun _ => isDigit_of_mem_padded, hrest⟩

/-- A number is taken whole if it has no more digits than are asked for. -/
theorem number?_padded {most : Option Nat} {width n : Nat} {rest : List Char}
    (hmost : ∀ m, most = some m → (padded width n).length ≤ m) (hrest : StopsAt Char.isDigit rest) :
    number? most (padded width n ++ rest) = some (n, rest) := by
  have htake : (padded width n ++ rest).takeWhile Char.isDigit = padded width n := by
    have hspan : spanDigits (padded width n ++ rest) = (padded width n, rest) :=
      spanDigits_padded hrest
    rw [spanDigits, List.span_eq_takeWhile_dropWhile] at hspan
    exact (Prod.mk.inj hspan).1
  have hne : padded width n ≠ [] := by
    obtain ⟨c, inner, heq, -⟩ := padded_eq_cons width n
    simp [heq]
  unfold number?
  cases most with
  | none => simp [htake, hne, decimalNumber_padded]
  | some m =>
      have hall : (padded width n).take m = padded width n := List.take_of_length_le (hmost m rfl)
      simp [htake, hall, hne, decimalNumber_padded]

theorem shortNumber?_padded {n : Nat} (h : n < 100) {rest : List Char}
    (hrest : StopsAt Char.isDigit rest) : shortNumber? (padded 2 n ++ rest) = some (n, rest) := by
  have hlength : (padded 2 n).length = 2 := length_padded_of_lt (by decide) h
  have htrim : trimFront (padded 2 n ++ rest) = padded 2 n ++ rest := by
    obtain ⟨c, inner, heq, hc⟩ := padded_eq_cons 2 n
    rw [heq, List.cons_append]
    exact trimFront_cons (isBlank_of_isDigit hc) _
  rw [shortNumber?, htrim]
  refine number?_padded ?_ hrest
  rintro m ⟨⟩
  exact Nat.le_of_eq hlength

/-- A separator and the number behind it are read together. -/
theorem bind_separated {α : Type} {c : Char} (hc : isBlank c = false) {n : Nat} (h : n < 100)
    {rest : List Char} (hrest : StopsAt Char.isDigit rest) (go : Nat × List Char → Option α) :
    ((separator? c (c :: (padded 2 n ++ rest))).bind fun cs => (shortNumber? cs).bind go) =
      go (n, rest) := by
  rw [separator?_cons hc, Option.bind_some, shortNumber?_padded h hrest, Option.bind_some]

/-! ## Years -/

theorem year?_renderYear (year : Int) {rest : List Char} (hrest : StopsAt Char.isDigit rest) :
    year? (renderYear year ++ rest) = some (year, rest) := by
  have hsigned : number? none (padded 4 year.natAbs ++ rest) = some (year.natAbs, rest) :=
    number?_padded (by simp) hrest
  unfold renderYear
  split
  next hneg =>
      have habs : -(year.natAbs : Int) = year := by omega
      rw [List.cons_append, year?, trimFront_cons (by decide)]
      simp only [hsigned, Option.map_some, habs]
  next hneg =>
      have habs : (year.natAbs : Int) = year := by omega
      split
      next hlong =>
          rw [List.cons_append, year?, trimFront_cons (by decide)]
          simp only [hsigned, Option.map_some, habs]
      next hlong =>
          have hlength : (padded 4 year.natAbs).length = 4 :=
            length_padded_of_lt (by decide) (by omega)
          have hplain : number? (some 4) (padded 4 year.natAbs ++ rest) =
              some (year.natAbs, rest) := by
            refine number?_padded ?_ hrest
            rintro m ⟨⟩
            exact Nat.le_of_eq hlength
          obtain ⟨c, inner, heq, hc⟩ := padded_eq_cons 4 year.natAbs
          rw [heq, List.cons_append] at hplain
          rw [heq, List.cons_append, year?, trimFront_cons (isBlank_of_isDigit hc)]
          have hminus : c ≠ '-' := by
            rintro rfl
            exact absurd hc (by decide)
          have hplus : c ≠ '+' := by
            rintro rfl
            exact absurd hc (by decide)
          simp [hplain, habs, hminus, hplus]

/-! ## Fractions and the end -/

/-- Digits in front of the end give so many nanoseconds as zeros to the ninth place would. -/
theorem fraction?_padded {width n : Nat} (hpos : 0 < width) (hwidth : width ≤ 9)
    (h : n < 10 ^ width) :
    fraction? ('.' :: (padded width n ++ ['Z'])) = some (n * 10 ^ (9 - width), ['Z']) := by
  have hlength := length_padded_of_lt hpos h
  have hspan : spanDigits (padded width n ++ ['Z']) = (padded width n, ['Z']) :=
    spanDigits_padded (stopsAt_cons (by decide) _)
  have htake : (padded width n).take 9 = padded width n := List.take_of_length_le (by omega)
  have hne : padded width n ≠ [] := by
    obtain ⟨c, inner, heq, -⟩ := padded_eq_cons width n
    simp [heq]
  unfold fraction?
  simp only [hspan, htake, hlength, decimalNumber_padded]
  simp [hne]

theorem fraction?_renderFraction {nanos : Nat} (h : nanos < 1000000000) :
    fraction? (renderFraction nanos ++ ['Z']) = some (nanos, ['Z']) := by
  unfold renderFraction
  split
  next hzero =>
      rw [hzero]
      rfl
  next hzero =>
      split
      next hmilli =>
          have hdigits : nanos / 1000000 < 10 ^ 3 := by omega
          rw [List.cons_append, fraction?_padded (by decide) (by decide) hdigits]
          simp
          omega
      next hmilli =>
          split
          next hmicro =>
              have hdigits : nanos / 1000 < 10 ^ 6 := by omega
              rw [List.cons_append, fraction?_padded (by decide) (by decide) hdigits]
              simp
              omega
          next hmicro =>
              have hdigits : nanos < 10 ^ 9 := by omega
              rw [List.cons_append, fraction?_padded (by decide) (by decide) hdigits]
              simp

theorem stopsAt_renderFraction (nanos : Nat) :
    StopsAt Char.isDigit (renderFraction nanos ++ ['Z']) := by
  unfold renderFraction
  split
  · exact stopsAt_cons (by decide) _
  · split
    · exact stopsAt_cons (by decide) _
    · split <;> exact stopsAt_cons (by decide) _

theorem offset?_zulu : offset? ['Z'] = some (0, []) := by
  decide

/-! ## Stamps -/

/-- The date and the time of day of a stamp make up the stamp that its text tells.  Within a leap
second the seconds are one more and the nanoseconds a thousand million less than those of the
stamp. -/
theorem assemble?_parts {t : Timestamp} (h : t.IsValid) :
    assemble? (dateOf (t.day + epochDay)) (t.secondOfDay.toNat / 3600)
      (t.secondOfDay.toNat / 60 % 60) (t.secondOfDay.toNat % 60 + t.nanos / 1000000000)
      (t.nanos % 1000000000) 0 = some t.told := by
  obtain ⟨hmin, hmax, hnanos⟩ := id h
  have hdate := isDateOf_dateOf (t.day + epochDay)
  have hday : t.seconds = t.day * 86400 + t.secondOfDay := by
    unfold Timestamp.day Timestamp.secondOfDay
    omega
  have hsecond : 0 ≤ t.secondOfDay ∧ t.secondOfDay < 86400 := by
    unfold Timestamp.secondOfDay
    omega
  have hfirst : -262143 ≤ yearOf (t.day + epochDay) := by
    refine le_yearOf ?_
    unfold Timestamp.minSeconds at hmin
    omega
  have hlast : yearOf (t.day + epochDay) ≤ 262142 := by
    refine yearOf_le ?_
    unfold Timestamp.maxSeconds at hmax
    change _ < daysBeforeYear 262143
    omega
  have hbounds : ¬((dateOf (t.day + epochDay)).year < -262143 ∨
      262142 < (dateOf (t.day + epochDay)).year ∨ 23 < t.secondOfDay.toNat / 3600 ∨
      59 < t.secondOfDay.toNat / 60 % 60 ∨
      60 < t.secondOfDay.toNat % 60 + t.nanos / 1000000000) := by
    rw [hdate.year_eq]
    omega
  have hstamp : (⟨(t.day + epochDay - epochDay) * 86400 + (t.secondOfDay.toNat / 3600 : Nat) * 3600 +
        (t.secondOfDay.toNat / 60 % 60 : Nat) * 60 +
        ((t.secondOfDay.toNat % 60 + t.nanos / 1000000000) -
          (t.secondOfDay.toNat % 60 + t.nanos / 1000000000) / 60 : Nat) - 0,
      t.nanos % 1000000000 +
        (t.secondOfDay.toNat % 60 + t.nanos / 1000000000) / 60 * 1000000000⟩ : Timestamp) =
      t.told := by
    unfold Timestamp.told
    -- Only a leap second at the end of a minute has the number sixty.
    split
    next hleap =>
        unfold Timestamp.LeapEndsMinute at hleap
        have hsixty : (t.secondOfDay.toNat % 60 + t.nanos / 1000000000) / 60 =
            t.nanos / 1000000000 := by omega
        rw [hsixty, Timestamp.mk.injEq]
        omega
    next hleap =>
        obtain ⟨hnanos', hsecond'⟩ := Classical.not_imp.mp hleap
        have hsixty : (t.secondOfDay.toNat % 60 + t.nanos / 1000000000) / 60 = 0 := by omega
        rw [hsixty, Timestamp.mk.injEq]
        omega
  unfold assemble?
  simp only [hdate.back, Option.bind_eq_bind, Option.bind_some, if_neg hbounds, hstamp]
  exact if_pos (Timestamp.told_isValid h)

/-- What is put together is a stamp. -/
theorem isValid_of_assemble? {date : Date} {hour minute second nanos : Nat} {offset : Int}
    {t : Timestamp} (h : assemble? date hour minute second nanos offset = some t) : t.IsValid := by
  unfold assemble? at h
  cases hday : dayOf? date with
  | none => simp [hday] at h
  | some day =>
      simp only [hday, Option.bind_eq_bind, Option.bind_some] at h
      split at h
      · contradiction
      · split at h
        next hvalid =>
            obtain rfl := Option.some.inj h
            exact hvalid
        · contradiction

/-- The reader gives the stamp that is told. -/
theorem read?_render {t : Timestamp} (h : t.IsValid) : read? (render t) = some t.told := by
  obtain ⟨-, -, hnanos⟩ := id h
  have hdate := isDateOf_dateOf (t.day + epochDay)
  have hmonth := hdate.month_le
  have hday := hdate.day_le
  have hsecond : t.secondOfDay.toNat < 86400 := by
    unfold Timestamp.secondOfDay
    omega
  unfold read? render
  dsimp only [Option.bind_eq_bind]
  -- The date.
  rw [year?_renderYear _ (stopsAt_cons (by decide) _), Option.bind_some,
    bind_separated (by decide) (by omega) (stopsAt_cons (by decide) _),
    bind_separated (by decide) (by omega) (stopsAt_cons (by decide) _)]
  dsimp only [Option.bind_some]
  -- The time of day.
  rw [if_pos (Or.inl rfl), shortNumber?_padded (by omega) (stopsAt_cons (by decide) _),
    Option.bind_some, bind_separated (by decide) (by omega) (stopsAt_cons (by decide) _),
    bind_separated (by decide) (by omega) (stopsAt_renderFraction _),
    fraction?_renderFraction (Nat.mod_lt _ (by decide)), Option.bind_some, offset?_zulu]
  exact assemble?_parts h

/-- The last stamp, a leap second at the end of a minute and one within, and the first stamp of
all. -/
example :
    render Timestamp.last = "+262142-12-31T23:59:59.999999999Z".toList ∧
      render ⟨1483228799, 1500000000⟩ = "2016-12-31T23:59:60.500Z".toList ∧
      render ⟨0, 1500000000⟩ = "1970-01-01T00:00:01.500Z".toList ∧
      render ⟨Timestamp.minSeconds, 0⟩ = "-262143-01-01T00:00:00Z".toList := by
  decide +kernel

/-- What is read is a stamp. -/
theorem isValid_of_read? {cs : List Char} {t : Timestamp} (h : read? cs = some t) : t.IsValid := by
  unfold read? at h
  -- The date.
  iterate 5 obtain ⟨_, -, h⟩ := Option.bind_eq_some_iff.mp h
  dsimp only at h
  split at h
  · split at h
    · -- The time of day and the offset.
      iterate 8 obtain ⟨_, -, h⟩ := Option.bind_eq_some_iff.mp h
      split at h
      · exact isValid_of_assemble? h
      · contradiction
    · contradiction
  · contradiction

/-- Exactly the stamps outside leap seconds and those at the end of a minute come back from their
text. -/
theorem read?_render_iff (t : Timestamp) :
    read? (render t) = some t ↔ t.IsValid ∧ t.LeapEndsMinute := by
  constructor
  · intro h
    have hvalid := isValid_of_read? h
    rw [read?_render hvalid, Option.some.injEq] at h
    exact ⟨hvalid, Timestamp.told_eq_self_iff.mp h⟩
  · rintro ⟨hvalid, hleap⟩
    rw [read?_render hvalid, Timestamp.told_eq_self_iff.mpr hleap]

end Rfc3339

end NetRedact
