import NetRedact.Admission.RateLimit
import NetRedact.Proofs.Moments
import NetRedact.Proofs.Tables

/-!
# What one check does to a limiter

A limiter is looked at through the times that it holds for each identity.  One check changes those of
one identity only.  It forgets a front part of them, all of it older than the window, and adds the
time of the request if that is admitted.
-/

namespace NetRedact.RateLimiter

/-- The admitted times that are held for an identity, oldest first. -/
def times (limiter : RateLimiter) (identity : String) : List Moment :=
  (limiter.windows.find? identity).getD []

/-- The held times that count against a request of an identity. -/
def counting (limiter : RateLimiter) (identity : String) (now : Moment) : List Moment :=
  drain limiter.window now (limiter.times identity)

/-- What is drained is a front part, and all of it has left the window. -/
theorem exists_drain_eq (window : Duration) (now : Moment) (times : List Moment) :
    ∃ expired, times = expired ++ drain window now times ∧
      ∀ t ∈ expired, t.nanos + window.nanos ≤ now.nanos := by
  unfold drain
  cases hcutoff : now.sub? window with
  | none =>
      -- The beginning of the window cannot be shown, and nothing is drained.
      exact ⟨[], rfl, by simp⟩
  | some cutoff =>
      have hnanos := Moment.nanos_of_sub? hcutoff
      refine ⟨times.takeWhile fun t => decide (t ≤ cutoff), ?_, ?_⟩
      · exact List.takeWhile_append_dropWhile.symm
      · intro t ht
        have hle : t ≤ cutoff :=
          of_decide_eq_true (List.all_eq_true.mp List.all_takeWhile t ht)
        have hle' : t.nanos ≤ cutoff.nanos := hle
        omega

/-- `after` is the limiter `before` once it has charged an identity with the times `charged`.  The
times that no longer count are forgotten, and nothing else has changed. -/
structure Charges (identity : String) (now : Moment) (charged : List Moment)
    (before after : RateLimiter) : Prop where
  maxRequests : after.maxRequests = before.maxRequests
  window : after.window = before.window
  /-- The identity's own times. -/
  own : after.times identity = before.counting identity now ++ charged
  /-- What is forgotten has left the window. -/
  forgotten : ∃ expired, before.times identity = expired ++ before.counting identity now ∧
    ∀ t ∈ expired, t.nanos + before.window.nanos ≤ now.nanos
  /-- Every other identity keeps what it has. -/
  others : ∀ other, other ≠ identity → after.windows.find? other = before.windows.find? other

/-- Giving an identity new times charges it with those behind the ones that count. -/
private theorem charges_insert (limiter : RateLimiter) (identity : String) (now : Moment)
    (charged : List Moment) :
    Charges identity now charged limiter
      { limiter with
        windows := limiter.windows.insert identity
          (limiter.counting identity now ++ charged) } where
  maxRequests := rfl
  window := rfl
  own := by
    unfold times
    rw [Table.find?_insert_self]
    rfl
  forgotten := exists_drain_eq limiter.window now (limiter.times identity)
  others := fun _ hother => Table.find?_insert_ne _ hother _

/-- With room in the window, a check admits the request and charges it. -/
theorem check_of_room {limiter : RateLimiter} {identity : String} {now : Moment}
    (hroom : (limiter.counting identity now).length < limiter.maxRequests) :
    (limiter.check identity now).1 = .allowed ∧
      Charges identity now [now] limiter (limiter.check identity now).2 := by
  have hcheck : limiter.check identity now = (.allowed, { limiter with
      windows := limiter.windows.insert identity (limiter.counting identity now ++ [now]) }) :=
    if_pos hroom
  rw [hcheck]
  exact ⟨rfl, charges_insert limiter identity now [now]⟩

/-- Without room, a check refuses the request and charges nothing. -/
theorem check_of_full {limiter : RateLimiter} {identity : String} {now : Moment}
    (hfull : limiter.maxRequests ≤ (limiter.counting identity now).length) :
    (limiter.check identity now).1 =
        .limited (retryAfter limiter.window now (limiter.counting identity now)) ∧
      Charges identity now [] limiter (limiter.check identity now).2 := by
  have hcheck : limiter.check identity now =
      (.limited (retryAfter limiter.window now (limiter.counting identity now)),
        { limiter with
          windows := limiter.windows.insert identity (limiter.counting identity now) }) :=
    if_neg (by exact Nat.not_lt.mpr hfull)
  have hcharges := charges_insert limiter identity now []
  rw [List.append_nil] at hcharges
  rw [hcheck]
  exact ⟨rfl, hcharges⟩

end NetRedact.RateLimiter
