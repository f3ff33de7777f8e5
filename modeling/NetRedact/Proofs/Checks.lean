import NetRedact.Scan.Detect

/-!
# Checks in a row

A scan looks at its caller's wish at checks, and a check does nothing but stop the scan or let it go on.
So a stretch of the scan is given up or comes to the same end as without a caller who may give up, and
which of the two happens is decided by the number of checks in it.
-/

namespace NetRedact

namespace Cancellation

/-- That many checks in a row. -/
def pass : Nat → Cancellation → Except RedactError Cancellation
  | 0, cancel => .ok cancel
  | count + 1, cancel =>
    match cancel.check with
    | .error e => .error e
    | .ok left => pass count left

/-- The caller has given up when it comes to the check with this number, where the first one has the
number zero. -/
def FiredBy : Cancellation → Nat → Prop
  | never, _ => False
  | after checks, number => checks ≤ number

theorem pass_add (first second : Nat) (cancel : Cancellation) :
    cancel.pass (first + second) = cancel.pass first >>= pass second := by
  induction first generalizing cancel with
  | zero => rw [Nat.zero_add]; rfl
  | succ first ih =>
      rw [Nat.succ_add, pass, pass]
      cases cancel.check with
      | error e => rfl
      | ok left => exact ih left

@[simp] theorem pass_never (count : Nat) : never.pass count = .ok .never := by
  induction count with
  | zero => rfl
  | succ count ih => exact ih

theorem pass_after (count checks : Nat) :
    (after checks).pass count =
      if count ≤ checks then .ok (.after (checks - count)) else .error .cancelled := by
  induction count generalizing checks with
  | zero => rfl
  | succ count ih =>
      cases checks with
      | zero => rfl
      | succ checks =>
          rw [pass, check]
          simp only [ih, Nat.add_le_add_iff_right, Nat.add_sub_add_right]

/-- Checks in a row are passed, or the caller has given up by one of them. -/
theorem pass_cases (count : Nat) (cancel : Cancellation) :
    ((∃ left, cancel.pass count = .ok left) ∧ ∀ number < count, ¬ cancel.FiredBy number) ∨
      cancel.pass count = .error .cancelled ∧ ∃ number < count, cancel.FiredBy number := by
  cases cancel with
  | never => exact .inl ⟨⟨_, pass_never count⟩, fun _ _ h => h⟩
  | after checks =>
      rw [pass_after]
      by_cases hle : count ≤ checks
      · rw [if_pos hle]
        refine .inl ⟨⟨_, rfl⟩, ?_⟩
        intro number hlt hfired
        exact absurd (Nat.lt_of_lt_of_le hlt hle) (Nat.not_lt.mpr hfired)
      · rw [if_neg hle]
        exact .inr ⟨rfl, checks, Nat.not_le.mp hle, Nat.le_refl checks⟩

end Cancellation

namespace Scan.Detector

/-- Hits cost one check each, and what is kept of them does not depend on the checks. -/
theorem confirmAll_eq (d : Detector) (found : List Candidate) (hs : List Hit)
    (cancel : Cancellation) :
    d.confirmAll found hs cancel =
      (cancel.pass hs.length).map fun left => (found.reverse ++ hs.filterMap d.confirm?, left) := by
  induction hs generalizing found cancel with
  | nil => simp [confirmAll, Cancellation.pass, Except.map]
  | cons h hs ih =>
      rw [confirmAll, List.length_cons, Cancellation.pass]
      cases cancel.check with
      | error e => rfl
      | ok left =>
          cases hconfirm : d.confirm? h with
          | none => simp only [hconfirm, ih, List.filterMap_cons]
          | some c => simp [hconfirm, ih]

end Scan.Detector

end NetRedact
