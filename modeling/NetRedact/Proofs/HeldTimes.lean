import NetRedact.Proofs.TrackedIdentities

/-!
# What a limiter holds, exactly

`Ledger.Remembers` says what a limiter may have forgotten.  As long as the readings of the clock come
in order, it can be said what is left.  The times held for an identity are its admitted times behind
the beginning of the window that ended with the last call that touched them: a request of the
identity, or a purge, which touches everything.  There are never more of them than requests are
permitted, and a purge leaves those identities that have been admitted within the window before it.

A window without length is the exception.  The time of a request does not lie behind its beginning
and is held nevertheless, as it is added after the others have been drained.
-/

namespace NetRedact.RateLimiter

/-! ## The last touch -/

/-- An exchange touches the times of the identity whose request it is.  A purge touches all. -/
def Exchange.Touches (identity : String) (e : Exchange) : Prop :=
  e.call.asker? = some identity ∨ e.call.asker? = none

instance (identity : String) (e : Exchange) : Decidable (e.Touches identity) :=
  inferInstanceAs (Decidable (_ ∨ _))

/-- The reading of the last call that touched the times of an identity. -/
def lastTouch? (identity : String) (past : List Exchange) : Option Moment :=
  ((past.filter fun e => decide (e.Touches identity)).getLast?).map (·.call.now)

/-- An exchange that touches an identity is its last touch. -/
theorem lastTouch?_of_touches {identity : String} (past : List Exchange) {e : Exchange}
    (htouches : e.Touches identity) : lastTouch? identity (past ++ [e]) = some e.call.now := by
  unfold lastTouch?
  rw [List.filter_append, List.filter_cons_of_pos (by exact decide_eq_true htouches)]
  simp

/-- An exchange that does not touch an identity leaves its last touch as it is. -/
theorem lastTouch?_of_not_touches {identity : String} (past : List Exchange) {e : Exchange}
    (hother : ¬e.Touches identity) :
    lastTouch? identity (past ++ [e]) = lastTouch? identity past := by
  unfold lastTouch?
  rw [List.filter_append, List.filter_cons_of_neg (by simpa using hother), List.filter_nil,
    List.append_nil]

/-- A call that does not touch an identity leaves it as it is. -/
theorem find?_answer_of_not_touches (limiter : RateLimiter) {call : Call} {reply : Reply}
    {identity : String} (hother : ¬Exchange.Touches identity ⟨call, reply⟩) :
    (limiter.answer call).2.windows.find? identity = limiter.windows.find? identity := by
  cases hasker : call.asker? with
  | none => exact absurd (.inr hasker) hother
  | some asker =>
      apply (charges_answer limiter hasker).others
      intro hsame
      apply hother
      exact .inl (hsame ▸ hasker)

/-! ## How many times are held -/

/-- Draining makes no room for more than there was. -/
theorem length_counting_le (limiter : RateLimiter) (identity : String) (now : Moment) :
    (limiter.counting identity now).length ≤ (limiter.times identity).length := by
  obtain ⟨expired, hsplit, -⟩ :=
    exists_drain_eq limiter.window now (limiter.times identity)
  unfold counting
  have hlength := congrArg List.length hsplit
  rw [List.length_append] at hlength
  omega

/-- No identity has more times than requests are permitted. -/
def Bounded (limiter : RateLimiter) : Prop :=
  ∀ identity, (limiter.times identity).length ≤ limiter.maxRequests

/-- A limiter that has not seen a request is bounded. -/
theorem bounded_fresh (maxRequests : Nat) (window : Duration) :
    (fresh maxRequests window).Bounded := by
  intro identity
  exact Nat.zero_le _

/-- A call keeps a limiter bounded: a time is added only where there is room. -/
theorem Bounded.answer {limiter : RateLimiter} (h : limiter.Bounded) (call : Call) :
    (limiter.answer call).2.Bounded := by
  intro identity
  rw [(settings_answer limiter call).1]
  have hbefore := h identity
  obtain ⟨expired, kept, hsplit, hafter, -⟩ := exists_times_answer limiter call identity
  by_cases hcharged : call.asker? = some identity ∧ (limiter.answer call).1.admits = true
  · have hroom := (admits_iff limiter call hcharged.1).mp hcharged.2
    rw [(charges_answer limiter hcharged.1).own, Exchange.charge, if_pos hcharged,
      List.length_append, List.length_singleton]
    omega
  · have hlength := congrArg List.length hsplit
    rw [List.length_append] at hlength
    rw [hafter, Exchange.charge, if_neg hcharged, List.append_nil]
    omega

/-! ## Which times are held -/

/-- `held` are the times that an identity keeps from its admitted ones when it has been touched at
`n`: those later than a window before.  Where the window has no length, it is only `n` itself, which
is then the time admitted last. -/
structure HeldSince (window : Duration) (n : Moment) (admitted held : List Moment) : Prop where
  recent : 0 < window.nanos → held = recentTimes window n admitted
  atOnce : window.nanos = 0 → held = [n] ∧ admitted.getLast? = some n

namespace Ledger

/-- What is left to a tracked identity by the last call that touched it. -/
def HoldsExactly (window : Duration) (l : Ledger) : Prop :=
  ∀ identity, l.limiter.Tracks identity →
    ∃ n, lastTouch? identity l.past = some n ∧
      HeldSince window n (admittedTimes identity l.past) (l.limiter.times identity)

/-- An empty ledger has no identities. -/
theorem holdsExactly_fresh (maxRequests : Nat) (window : Duration) :
    (fresh maxRequests window).HoldsExactly window := by
  intro identity htracks
  simp [Tracks, fresh, RateLimiter.fresh, Table.find?_empty] at htracks

/-- A call that is not charged to an identity leaves its admitted times as they are. -/
theorem admittedTimes_enter_of_not_charged {l : Ledger} {call : Call} {identity : String}
    (hfree : ¬(call.asker? = some identity ∧ (l.limiter.answer call).1.admits = true)) :
    admittedTimes identity (l.enter call).past = admittedTimes identity l.past := by
  rw [admittedTimes_enter, Exchange.charge, if_neg hfree, List.append_nil]

/-- Where the window has no length, nothing admitted so far lies behind its beginning. -/
theorem recentTimes_admittedTimes_of_zero {l : Ledger} {window : Duration} {now : Moment}
    (hzero : window.nanos = 0) (hlast : ∀ t ∈ l.readings, t ≤ now) (identity : String) :
    recentTimes window now (admittedTimes identity l.past) = [] := by
  apply recentTimes_eq_nil
  intro t ht
  have hle : t.nanos ≤ now.nanos := le_of_mem_admittedTimes hlast t ht
  omega

/-- A request leaves to its identity what is still in the window, and itself if it is admitted. -/
theorem heldSince_of_asker {maxRequests : Nat} {window : Duration} {l : Ledger}
    (h : l.Remembers maxRequests window) (horder : l.InOrder) (hmax : 1 ≤ maxRequests)
    {call : Call} (hnow : call.now.Shown) (hlast : ∀ t ∈ l.readings, t ≤ call.now)
    {identity : String} (hasker : call.asker? = some identity) :
    HeldSince window call.now (admittedTimes identity (l.enter call).past)
      ((l.enter call).limiter.times identity) := by
  have hcounting := h.counting_eq horder hnow hlast identity
  have hown : (l.enter call).limiter.times identity =
      l.limiter.counting identity call.now ++
        Exchange.charge identity ⟨call, (l.limiter.answer call).1⟩ :=
    (charges_answer l.limiter hasker).own
  rw [hown, admittedTimes_enter, hcounting]
  constructor
  · intro hpos
    -- What the request charges lies at the end of the window, so behind its beginning.
    have hcharge : recentTimes window call.now
        (Exchange.charge identity ⟨call, (l.limiter.answer call).1⟩) =
          Exchange.charge identity ⟨call, (l.limiter.answer call).1⟩ := by
      unfold recentTimes Exchange.charge
      rw [List.filter_eq_self]
      intro t ht
      split at ht
      · rw [List.mem_singleton.mp ht]
        show decide (call.now.nanos - window.nanos < call.now.nanos) = true
        rw [decide_eq_true_eq]
        omega
      · cases ht
    rw [recentTimes_append, hcharge]
  · intro hzero
    have hnothing := recentTimes_admittedTimes_of_zero hzero hlast identity
    -- With nothing that counts there is room, so the request is admitted.
    have hadmits : (l.limiter.answer call).1.admits = true := by
      apply (admits_iff l.limiter call hasker).mpr
      rw [hcounting, hnothing, h.maxRequests_eq]
      exact hmax
    rw [hnothing, Exchange.charge, if_pos ⟨hasker, hadmits⟩, List.nil_append]
    exact ⟨rfl, by simp⟩

/-- A purge leaves to the identities that it keeps what is still in the window. -/
theorem heldSince_of_purge {maxRequests : Nat} {window : Duration} {l : Ledger}
    (h : l.Remembers maxRequests window) (horder : l.InOrder) {now : Moment} (hnow : now.Shown)
    (hlast : ∀ t ∈ l.readings, t ≤ now) {identity : String}
    (htracks : (l.enter (.purgeIdle now)).limiter.Tracks identity) :
    HeldSince window now (admittedTimes identity (l.enter (.purgeIdle now)).past)
      ((l.enter (.purgeIdle now)).limiter.times identity) := by
  have hcounting := h.counting_eq horder hnow hlast identity
  have hleft := (tracks_purgeIdle.mp htracks).2
  have htimes : (l.enter (.purgeIdle now)).limiter.times identity =
      l.limiter.counting identity now := times_purgeIdle l.limiter now identity
  have hadmitted : admittedTimes identity (l.enter (.purgeIdle now)).past =
      admittedTimes identity l.past :=
    admittedTimes_enter_of_not_charged (by simp [Call.asker?])
  rw [htimes, hadmitted, hcounting]
  constructor
  · intro _
    rfl
  · intro hzero
    rw [hcounting] at hleft
    exact absurd (recentTimes_admittedTimes_of_zero hzero hlast identity) hleft

/-- A call that comes with the latest reading so far leaves to each tracked identity exactly what it
should have. -/
theorem HoldsExactly.enter {maxRequests : Nat} {window : Duration} {l : Ledger}
    (hholds : l.HoldsExactly window) (h : l.Remembers maxRequests window) (horder : l.InOrder)
    (hmax : 1 ≤ maxRequests) {call : Call} (hnow : call.now.Shown)
    (hlast : ∀ t ∈ l.readings, t ≤ call.now) : (l.enter call).HoldsExactly window := by
  intro identity htracks
  by_cases htouches : Exchange.Touches identity ⟨call, (l.limiter.answer call).1⟩
  · refine ⟨call.now, lastTouch?_of_touches l.past htouches, ?_⟩
    cases htouches with
    | inl hasker => exact heldSince_of_asker h horder hmax hnow hlast hasker
    | inr hpurge =>
        cases call with
        | check asker now => cases hpurge
        | allow asker now => cases hpurge
        | purgeIdle now => exact heldSince_of_purge h horder hnow hlast htracks
  · have hkept : (l.enter call).limiter.windows.find? identity =
        l.limiter.windows.find? identity :=
      find?_answer_of_not_touches l.limiter htouches
    have hbefore : l.limiter.Tracks identity := by
      unfold Tracks at htracks ⊢
      rw [← hkept]
      exact htracks
    obtain ⟨n, htouch, hheld⟩ := hholds identity hbefore
    refine ⟨n, (lastTouch?_of_not_touches l.past htouches).trans htouch, ?_⟩
    have htimes : (l.enter call).limiter.times identity = l.limiter.times identity :=
      congrArg (Option.getD · []) hkept
    rw [htimes, admittedTimes_enter_of_not_charged fun hcharged => htouches (.inl hcharged.1)]
    exact hheld

/-- A ledger in which every entry is as it should be. -/
structure Exact (maxRequests : Nat) (window : Duration) (l : Ledger) : Prop where
  follows : l.Follows maxRequests window
  noneIdle : l.limiter.NoneIdle
  bounded : l.limiter.Bounded
  holds : l.HoldsExactly window

/-- An empty ledger has no entry. -/
theorem exact_fresh (maxRequests : Nat) (window : Duration) :
    (fresh maxRequests window).Exact maxRequests window where
  follows := follows_fresh maxRequests window
  noneIdle := noneIdle_fresh maxRequests window
  bounded := bounded_fresh maxRequests window
  holds := holdsExactly_fresh maxRequests window

/-- A call that comes with the latest reading so far leaves every entry as it should be. -/
theorem Exact.enter {maxRequests : Nat} {window : Duration} {l : Ledger}
    (h : l.Exact maxRequests window) (hmax : 1 ≤ maxRequests) {call : Call}
    (hnow : call.now.Shown) (hlast : ∀ t ∈ l.readings, t ≤ call.now) :
    (l.enter call).Exact maxRequests window where
  follows := h.follows.enter hnow hlast
  noneIdle := h.noneIdle.answer (h.follows.remembers.maxRequests_eq ▸ hmax) call
  bounded := h.bounded.answer call
  holds := h.holds.enter h.follows.remembers h.follows.inOrder hmax hnow hlast

/-- Calls that come in order leave every entry as it should be. -/
theorem exact_run {maxRequests : Nat} (window : Duration) (hmax : 1 ≤ maxRequests)
    {calls : List Call} (hshown : ∀ call ∈ calls, call.now.Shown)
    (hordered : calls.Pairwise fun earlier later => earlier.now ≤ later.now) :
    ((fresh maxRequests window).run calls).Exact maxRequests window :=
  run_induction (fun _ _ hexact hnow hlatest => hexact.enter hmax hnow hlatest)
    (exact_fresh maxRequests window) hshown hordered (by simp)

/-! ## Purges -/

/-- A request of the identity has been admitted in the window that ends at a moment. -/
def Active (window : Duration) (now : Moment) (l : Ledger) (identity : String) : Prop :=
  ∃ t ∈ admittedTimes identity l.past, InWindow window now t

/-- The active identities are those for which a time counts. -/
theorem Remembers.active_iff {maxRequests : Nat} {window : Duration} {l : Ledger}
    (h : l.Remembers maxRequests window) (horder : l.InOrder) {now : Moment} (hnow : now.Shown)
    (hlast : ∀ t ∈ l.readings, t ≤ now) {identity : String} :
    l.Active window now identity ↔ l.limiter.counting identity now ≠ [] := by
  rw [h.counting_eq horder hnow hlast, ← List.length_pos_iff,
    length_recentTimes (le_of_mem_admittedTimes hlast)]
  unfold countIn Active
  rw [List.countP_pos_iff]
  simp only [decide_eq_true_eq]

end Ledger

/-- An identity for which a time counts has an entry. -/
theorem tracks_of_counting_ne_nil {limiter : RateLimiter} {identity : String} {now : Moment}
    (hcounting : limiter.counting identity now ≠ []) : limiter.Tracks identity := by
  unfold Tracks
  by_contra hnone
  apply hcounting
  have htimes : limiter.times identity = [] := by
    unfold times
    rw [Option.not_isSome_iff_eq_none.mp hnone]
    rfl
  have hle := length_counting_le limiter identity now
  rw [htimes] at hle
  exact List.eq_nil_of_length_eq_zero (Nat.le_zero.mp hle)

/-- A limiter tells the number of its identities. -/
theorem tracked_eq_ncard (limiter : RateLimiter) :
    limiter.tracked = {identity | limiter.Tracks identity}.ncard :=
  Table.size_eq_ncard limiter.windows

/-- A purge tells the number of the identities that it drops. -/
theorem purged_eq_ncard (limiter : RateLimiter) (now : Moment) :
    (limiter.purgeIdle now).1 =
      {identity | limiter.Tracks identity ∧
        ¬(limiter.purgeIdle now).2.Tracks identity}.ncard := by
  have hkept : {identity | (limiter.purgeIdle now).2.Tracks identity} ⊆
      {identity | limiter.Tracks identity} := by
    intro identity htracks
    exact (tracks_purgeIdle.mp htracks).1
  have hcount : (limiter.purgeIdle now).1 =
      limiter.tracked - (limiter.purgeIdle now).2.tracked := by
    show (limiter.windows.map _).size - _ = limiter.windows.size - _
    unfold Table.size Table.map
    rw [List.length_map]
    rfl
  rw [hcount, tracked_eq_ncard, tracked_eq_ncard,
    ← Set.ncard_sdiff hkept (Table.finite_keys _)]
  rfl

/-- A limiter holds no more than it needs, and a purge accounts for what it drops.  After calls that
came in order, each tracked identity has a time, has its times in order and no more of them than
requests are permitted, and they are exactly those left in the window by the last call that touched
it.  A later purge keeps exactly the identities with a request admitted in the window that ends with
it, all of which it finds tracked, and tells how many it has dropped. -/
theorem run_holds_exactly (maxRequests : Nat) (window : Duration) (calls : List Call)
    (hmax : 1 ≤ maxRequests) (hshown : ∀ call ∈ calls, call.now.Shown)
    (hordered : calls.Pairwise fun earlier later => earlier.now ≤ later.now) :
    let l := (Ledger.fresh maxRequests window).run calls
    (∀ identity, l.limiter.Tracks identity →
      l.limiter.times identity ≠ [] ∧ (l.limiter.times identity).Pairwise (· ≤ ·) ∧
        (l.limiter.times identity).length ≤ maxRequests ∧
        ∃ n, lastTouch? identity l.past = some n ∧
          HeldSince window n (admittedTimes identity l.past) (l.limiter.times identity)) ∧
      ∀ now : Moment, now.Shown → (∀ call ∈ calls, call.now ≤ now) →
        (∀ identity, (l.limiter.purgeIdle now).2.Tracks identity ↔ l.Active window now identity) ∧
        (∀ identity, l.Active window now identity → l.limiter.Tracks identity) ∧
        (l.limiter.purgeIdle now).1 =
          {identity | l.limiter.Tracks identity ∧ ¬l.Active window now identity}.ncard ∧
        (l.limiter.purgeIdle now).2.tracked =
          {identity | l.Active window now identity}.ncard := by
  intro l
  have hexact : l.Exact maxRequests window := Ledger.exact_run window hmax hshown hordered
  have hremembers := hexact.follows.remembers
  have horder := hexact.follows.inOrder
  constructor
  · intro identity htracks
    refine ⟨hexact.noneIdle identity htracks, (horder.held hremembers identity).2, ?_,
      hexact.holds identity htracks⟩
    have hbounded := hexact.bounded identity
    rw [hremembers.maxRequests_eq] at hbounded
    exact hbounded
  · intro now hnow hlatest
    have hlast : ∀ t ∈ l.readings, t ≤ now :=
      Ledger.le_of_mem_readings_run (by simp) hlatest
    have htracked : ∀ identity, l.Active window now identity → l.limiter.Tracks identity := by
      intro identity hactive
      exact tracks_of_counting_ne_nil ((hremembers.active_iff horder hnow hlast).mp hactive)
    have hkept : ∀ identity,
        (l.limiter.purgeIdle now).2.Tracks identity ↔ l.Active window now identity := by
      intro identity
      rw [tracks_purgeIdle, hremembers.active_iff horder hnow hlast]
      exact and_iff_right_of_imp tracks_of_counting_ne_nil
    refine ⟨hkept, htracked, ?_, ?_⟩
    · rw [purged_eq_ncard]
      simp only [hkept]
    · rw [tracked_eq_ncard]
      simp only [hkept]

/-- Two identities with one request each in ten nanoseconds.  A refused request and a purge that
drops nothing touch the first of them; the next purge drops it and keeps the second. -/
theorem run_holds_exactly_two_identities :
    ∃ calls : List Call,
      (∀ call ∈ calls, call.now.Shown) ∧
        (calls.Pairwise fun earlier later => earlier.now ≤ later.now) ∧
        let l := (Ledger.fresh 1 ⟨10⟩).run calls
        l.limiter.times "a" = [⟨0⟩] ∧
          (∃ n, lastTouch? "a" l.past = some n ∧
            HeldSince ⟨10⟩ n (admittedTimes "a" l.past) (l.limiter.times "a")) ∧
          lastTouch? "a" l.past = some ⟨8⟩ ∧
          {identity | l.limiter.Tracks identity ∧ ¬l.Active ⟨10⟩ ⟨12⟩ identity}.ncard = 1 ∧
          {identity | l.Active ⟨10⟩ ⟨12⟩ identity}.ncard = 1 := by
  have hshown : ∀ call ∈ ([.check "a" ⟨0⟩, .allow "b" ⟨5⟩, .check "a" ⟨6⟩,
      .purgeIdle ⟨8⟩] : List Call), call.now.Shown := by decide
  have hordered : ([.check "a" ⟨0⟩, .allow "b" ⟨5⟩, .check "a" ⟨6⟩,
      .purgeIdle ⟨8⟩] : List Call).Pairwise fun earlier later => earlier.now ≤ later.now := by
    decide
  obtain ⟨hentries, hpurges⟩ := run_holds_exactly 1 ⟨10⟩ _ (Nat.le_refl 1) hshown hordered
  obtain ⟨-, -, hdropped, hleft⟩ := hpurges ⟨12⟩ (by decide) (by decide)
  refine ⟨_, hshown, hordered, by decide, (hentries "a" (by decide)).2.2.2, by decide, ?_, ?_⟩
  · rw [← hdropped]
    decide
  · rw [← hleft]
    decide

/-- Where the window has no length, the time of an admitted request is held although it does not lie
behind the beginning of the window that ends with it. -/
theorem request_held_without_window :
    let l := (Ledger.fresh 1 .zero).run [.check "a" ⟨5000000000⟩]
    l.limiter.Tracks "a" ∧ lastTouch? "a" l.past = some ⟨5000000000⟩ ∧
      l.limiter.times "a" = [⟨5000000000⟩] ∧
      recentTimes .zero ⟨5000000000⟩ (admittedTimes "a" l.past) = [] := by
  decide

end NetRedact.RateLimiter
