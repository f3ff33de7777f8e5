import NetRedact.Time.Calendar
import Mathlib.Algebra.GroupWithZero.Nat
import Mathlib.Data.List.Basic

/-!
# Days and dates

Every day has one date and the date leads back to the day.  The year is found from a guess; that
the guess is at most one off follows from the mean length of a year, as the days before a year
differ from so many mean years by less than two days.
-/

namespace NetRedact.Calendar

/-! ## Years -/

theorem daysBeforeYear_succ (year : Int) :
    daysBeforeYear (year + 1) = daysBeforeYear year + ((monthLengths year).sum : Nat) := by
  have hsum : (monthLengths year).sum = if isLeapYear year then 366 else 365 := by
    unfold monthLengths
    cases isLeapYear year <;> rfl
  have hleap : isLeapYear year = true ↔
      year % 4 = 0 ∧ (year % 100 ≠ 0 ∨ year % 400 = 0) := by
    simp [isLeapYear]
  rw [hsum]
  unfold daysBeforeYear
  by_cases h : isLeapYear year = true
  · rw [if_pos h]
    rw [hleap] at h
    omega
  · rw [if_neg h]
    rw [hleap] at h
    omega

/-- Four hundred mean years are 146097 days. -/
theorem daysBeforeYear_bounds (year : Int) :
    146097 * year - 400 < 400 * daysBeforeYear year ∧
      400 * daysBeforeYear year < 146097 * year + 800 := by
  unfold daysBeforeYear
  omega

theorem daysBeforeYear_lt {year later : Int} (h : year < later) :
    daysBeforeYear year < daysBeforeYear later := by
  have := daysBeforeYear_bounds year
  have := daysBeforeYear_bounds later
  omega

theorem daysBeforeYear_le {year later : Int} (h : year ≤ later) :
    daysBeforeYear year ≤ daysBeforeYear later := by
  rcases Int.lt_or_eq_of_le h with hlt | rfl
  · exact Int.le_of_lt (daysBeforeYear_lt hlt)
  · exact Int.le_refl _

/-- A day lies within its year. -/
theorem yearOf_spec (day : Int) :
    daysBeforeYear (yearOf day) ≤ day ∧ day < daysBeforeYear (yearOf day + 1) := by
  have hmean : 146097 * (day * 400 / 146097) ≤ day * 400 ∧
      day * 400 < 146097 * (day * 400 / 146097) + 146097 := by omega
  have hbelow := daysBeforeYear_bounds (day * 400 / 146097 - 1)
  have habove := daysBeforeYear_bounds (day * 400 / 146097 + 1 + 1)
  unfold yearOf
  dsimp only
  split
  next hlow =>
      rw [Int.sub_add_cancel]
      omega
  next hlow =>
      split
      · omega
      · omega

/-- The year of a day is the only one within which the day lies. -/
theorem yearOf_le {day bound : Int} (h : day < daysBeforeYear (bound + 1)) :
    yearOf day ≤ bound := by
  by_contra hlate
  have := daysBeforeYear_le (by omega : bound + 1 ≤ yearOf day)
  have := (yearOf_spec day).1
  omega

theorem le_yearOf {day bound : Int} (h : daysBeforeYear bound ≤ day) : bound ≤ yearOf day := by
  by_contra hearly
  have := daysBeforeYear_le (by omega : yearOf day + 1 ≤ bound)
  have := (yearOf_spec day).2
  omega

/-! ## Months -/

/-- A day of the year lies in one of the months, behind the ones before it. -/
theorem splitMonth_spec {lengths : List Nat} {n : Nat} (h : n < lengths.sum) :
    ∃ length, lengths[(splitMonth lengths n).1]? = some length ∧
      (splitMonth lengths n).2 < length ∧
      (lengths.take (splitMonth lengths n).1).sum + (splitMonth lengths n).2 = n := by
  induction lengths generalizing n with
  | nil => simp at h
  | cons length later ih =>
      by_cases hin : n < length
      · refine ⟨length, ?_, ?_, ?_⟩ <;> simp [splitMonth, hin]
      · have hrest : n - length < later.sum := by
          simp only [List.sum_cons] at h
          omega
        obtain ⟨found, hget, hlt, hsum⟩ := ih hrest
        refine ⟨found, ?_, ?_, ?_⟩
        · simpa [splitMonth, hin] using hget
        · simpa [splitMonth, hin] using hlt
        · simp only [splitMonth, hin, ↓reduceIte, List.take_succ_cons, List.sum_cons]
          omega

theorem length_monthLengths (year : Int) : (monthLengths year).length = 12 := rfl

theorem le_of_mem_monthLengths {year : Int} {length : Nat} (h : length ∈ monthLengths year) :
    length ≤ 31 := by
  unfold monthLengths at h
  simp only [List.mem_cons, List.not_mem_nil, or_false] at h
  split at h <;> omega

/-! ## Dates -/

/-- What is known of the date of a day: it leads back to the day, and its parts have at most two
digits. -/
structure IsDateOf (date : Date) (day : Int) : Prop where
  year_eq : date.year = yearOf day
  month_le : date.month ≤ 12
  day_le : date.day ≤ 31
  back : dayOf? date = some day

theorem isDateOf_dateOf (day : Int) : IsDateOf (dateOf day) day := by
  obtain ⟨hfirst, hlast⟩ := yearOf_spec day
  have hinside : (day - daysBeforeYear (yearOf day)).toNat < (monthLengths (yearOf day)).sum := by
    have := daysBeforeYear_succ (yearOf day)
    omega
  obtain ⟨length, hget, hlt, hsum⟩ := splitMonth_spec hinside
  obtain ⟨hmonth, -⟩ := List.getElem?_eq_some_iff.mp hget
  have hmost := le_of_mem_monthLengths (List.mem_of_getElem? hget)
  rw [length_monthLengths] at hmonth
  refine ⟨rfl, hmonth, Nat.le_trans (Nat.succ_le_of_lt hlt) hmost, ?_⟩
  unfold dayOf? dateOf
  dsimp only
  rw [hget]
  dsimp only
  rw [if_pos hlt, ← List.sum_eq_foldl]
  congr 1
  omega

end NetRedact.Calendar
