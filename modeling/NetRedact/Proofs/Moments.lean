import NetRedact.Time.Clock

/-!
# Reckoning with moments

Moments are reckoned with as the nanoseconds that they stand for, as far as the clock can show the
result.
-/

namespace NetRedact.Moment

/-- A moment that the clock can show stands for the nanoseconds asked for. -/
theorem nanos_of_ofNanos? {n : Int} {m : Moment} (h : ofNanos? n = some m) : m.nanos = n := by
  unfold ofNanos? at h
  split at h
  · cases h
    rfl
  · cases h

/-- A moment reached from another one lies the duration behind it. -/
theorem nanos_of_add? {m later : Moment} {d : Duration} (h : m.add? d = some later) :
    later.nanos = m.nanos + d.nanos :=
  nanos_of_ofNanos? h

/-- A moment reached backwards from another one lies the duration before it. -/
theorem nanos_of_sub? {m earlier : Moment} {d : Duration} (h : m.sub? d = some earlier) :
    earlier.nanos = m.nanos - d.nanos :=
  nanos_of_ofNanos? h

/-- The clock can show a moment. -/
def Shown (m : Moment) : Prop :=
  -limit ≤ m.nanos ∧ m.nanos < limit

instance (m : Moment) : Decidable m.Shown :=
  inferInstanceAs (Decidable (_ ∧ _))

/-- The clock can show a moment reached from another one. -/
theorem shown_of_add? {m later : Moment} {d : Duration} (h : m.add? d = some later) :
    later.Shown := by
  unfold add? ofNanos? at h
  split at h
  · next hin =>
      cases h
      exact hin
  · cases h

/-- The clock can show what lies between two moments that it can show. -/
theorem Shown.between {first m last : Moment} (hfirst : first.Shown) (hlast : last.Shown)
    (hle : first ≤ m) (hge : m ≤ last) : m.Shown :=
  ⟨Int.le_trans hfirst.1 hle, Int.lt_of_le_of_lt hge hlast.2⟩

/-- A duration cannot be taken from a shown moment only if it goes back beyond all shown ones. -/
theorem before_all_of_sub?_eq_none {m : Moment} {d : Duration} (hm : m.Shown)
    (hnone : m.sub? d = none) {t : Moment} (ht : t.Shown) : m.nanos - d.nanos < t.nanos := by
  have hout : ¬(-limit ≤ m.nanos - d.nanos ∧ m.nanos - d.nanos < limit) := by
    intro hin
    unfold sub? ofNanos? at hnone
    rw [if_pos hin] at hnone
    cases hnone
  have hbelow := hm.2
  have habove := ht.1
  omega

end NetRedact.Moment
