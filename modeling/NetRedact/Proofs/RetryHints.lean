import NetRedact.Http.Service
import NetRedact.Proofs.HeldTimes

/-!
# What a refused caller is told

A refused request is told how long its identity has to wait.  The limiter holds as many times as
requests are permitted when it refuses, no more, so there is room again as soon as the oldest one has
left the window.  Until then all of them count, and from then on at least one does not, unless the
identity has been admitted again.  Refused requests, purges and other identities change nothing in
that, as the law of the sliding window speaks of the admitted times of the identity only.

Over HTTP the hint is given in whole seconds, rounded up.
-/

namespace NetRedact.RateLimiter

/-! ## Counting at a later moment -/

/-- Times that have left the window do not come back into it. -/
theorem countIn_recentTimes {window : Duration} {now later : Moment} (hle : now ≤ later)
    (times : List Moment) :
    countIn window later (recentTimes window now times) = countIn window later times := by
  unfold countIn recentTimes
  rw [List.countP_filter]
  apply List.countP_congr
  intro t _
  have hle' : now.nanos ≤ later.nanos := hle
  simp only [Bool.and_eq_true, decide_eq_true_eq]
  unfold InWindow
  omega

/-- Times that all lie in the window are all counted. -/
theorem countIn_eq_length {window : Duration} {now : Moment} {times : List Moment}
    (hin : ∀ t ∈ times, InWindow window now t) : countIn window now times = times.length := by
  unfold countIn
  rw [List.countP_eq_length]
  intro t ht
  exact decide_eq_true (hin t ht)

/-- The first of the recent times lies behind the beginning of the window. -/
theorem lt_of_held {window : Duration} {now oldest : Moment} {times rest : List Moment}
    (hheld : recentTimes window now times = oldest :: rest) :
    now.nanos - window.nanos < oldest.nanos := by
  have hmem : oldest ∈ recentTimes window now times := by
    rw [hheld]
    exact List.mem_cons_self
  exact of_decide_eq_true (List.mem_filter.mp hmem).2

/-- The wait ends when the oldest time leaves the window. -/
theorem retryAfter_cons {window : Duration} {oldest free : Moment} (now : Moment)
    (rest : List Moment) (hadd : oldest.add? window = some free) :
    retryAfter window now (oldest :: rest) = free.since now := by
  unfold retryAfter
  rw [List.head?_cons, Option.bind_some, hadd]

namespace Ledger

/-! ## Waiting -/

/-- Calls that come in order between two moments, while no request of the identity is admitted. -/
structure Meanwhile (identity : String) (now later : Moment) (l : Ledger) (between : List Call) :
    Prop where
  ordered : between.Pairwise fun earlier later => earlier.now ≤ later.now
  within : ∀ call ∈ between, now ≤ call.now ∧ call.now ≤ later
  unadmitted : admittedTimes identity (l.run between).past = admittedTimes identity l.past

/-- A check with the latest reading so far is decided by the law. -/
theorem Follows.isAllowed_check_iff {maxRequests : Nat} {window : Duration} {l : Ledger}
    (h : l.Follows maxRequests window) {now : Moment} (hnow : now.Shown)
    (hlast : ∀ t ∈ l.readings, t ≤ now) (identity : String) :
    (l.limiter.check identity now).1.isAllowed = true ↔
      countIn window now (admittedTimes identity l.past) < maxRequests := by
  have hadmits := admits_iff l.limiter (.check identity now) rfl
  rw [← h.remembers.length_counting h.inOrder hnow hlast identity]
  rw [h.remembers.maxRequests_eq] at hadmits
  exact hadmits

/-- Whether a caller who has waited is admitted depends on the times admitted before the wait. -/
theorem Follows.isAllowed_after_iff {maxRequests : Nat} {window : Duration} {l : Ledger}
    (h : l.Follows maxRequests window) {identity : String} {now later : Moment}
    {between : List Call} (hnow : now.Shown) (hlater : later.Shown) (hle : now ≤ later)
    (hlast : ∀ t ∈ l.readings, t ≤ now) (hwait : Meanwhile identity now later l between) :
    ((l.run between).limiter.check identity later).1.isAllowed = true ↔
      countIn window later (admittedTimes identity l.past) < maxRequests := by
  have hfollows : (l.run between).Follows maxRequests window := by
    apply h.run
    · intro call hcall
      obtain ⟨hfrom, hto⟩ := hwait.within call hcall
      exact hnow.between hlater hfrom hto
    · exact hwait.ordered
    · intro t ht call hcall
      exact Int.le_trans (hlast t ht) (hwait.within call hcall).1
  have hreadings : ∀ t ∈ (l.run between).readings, t ≤ later := by
    apply le_of_mem_readings_run
    · intro t ht
      exact Int.le_trans (hlast t ht) hle
    · intro call hcall
      exact (hwait.within call hcall).2
  rw [hfollows.isAllowed_check_iff hlater hreadings, hwait.unadmitted]

/-! ## Refusals -/

/-- A request of the identity is refused at `now` with the hint `r`: the held times are as many as
requests are permitted, and at the end of the hint the oldest one leaves the window. -/
structure Refuses (maxRequests : Nat) (window : Duration) (l : Ledger) (identity : String)
    (now : Moment) (r : Duration) (oldest : Moment) (rest : List Moment) : Prop where
  held : recentTimes window now (admittedTimes identity l.past) = oldest :: rest
  sorted : ∀ t ∈ rest, oldest ≤ t
  past : ∀ t ∈ oldest :: rest, t ≤ now
  full : rest.length + 1 = maxRequests
  hint : now.nanos + r.nanos = oldest.nanos + window.nanos

variable {maxRequests : Nat} {window : Duration} {l : Ledger} {identity : String} {now : Moment}
  {r : Duration}

/-- A refused request meets as many times as are permitted: fewer leave room, and more are never held.
The check adds nothing to them. -/
theorem Exact.of_limited (h : l.Exact maxRequests window)
    (hlimited : (l.limiter.check identity now).1 = .limited r) :
    (l.limiter.counting identity now).length = maxRequests ∧
      (l.limiter.check identity now).2.times identity = l.limiter.counting identity now ∧
      retryAfter window now (l.limiter.counting identity now) = r := by
  have hremembers := h.follows.remembers
  have hfull : l.limiter.maxRequests ≤ (l.limiter.counting identity now).length := by
    by_contra hroom
    rw [(check_of_room (Nat.not_le.mp hroom)).1] at hlimited
    cases hlimited
  obtain ⟨hhint, hcharges⟩ := check_of_full hfull
  refine ⟨?_, ?_, ?_⟩
  · have hbounded := h.bounded identity
    have hle := length_counting_le l.limiter identity now
    rw [hremembers.maxRequests_eq] at hfull hbounded
    omega
  · rw [hcharges.own, List.append_nil]
  · rw [hhint, hremembers.window_eq] at hlimited
    exact RateDecision.limited.inj hlimited

/-- A refused request is not among the admitted ones. -/
theorem admittedTimes_enter_of_limited (hlimited : (l.limiter.check identity now).1 = .limited r) :
    admittedTimes identity (l.enter (.check identity now)).past =
      admittedTimes identity l.past := by
  have hrefused : (l.limiter.answer (.check identity now)).1.admits = false := by
    show (l.limiter.check identity now).1.isAllowed = false
    rw [hlimited]
    rfl
  apply admittedTimes_enter_of_not_charged
  simp [hrefused]

/-- The hint of a refusal ends when the oldest held time leaves the window, if the clock can show that
moment. -/
theorem Exact.exists_refuses (h : l.Exact maxRequests window) (hmax : 1 ≤ maxRequests)
    (hnow : now.Shown) (hlast : ∀ t ∈ l.readings, t ≤ now)
    (hlimited : (l.limiter.check identity now).1 = .limited r)
    (hfree : ∀ oldest ∈ ((l.limiter.check identity now).2.times identity).head?,
      (oldest.add? window).isSome = true) :
    ∃ oldest rest, l.Refuses maxRequests window identity now r oldest rest := by
  obtain ⟨hlength, htimes, hretry⟩ := h.of_limited hlimited
  have hcounting := h.follows.remembers.counting_eq h.follows.inOrder hnow hlast identity
  have hpos : 0 < (l.limiter.counting identity now).length := by omega
  obtain ⟨oldest, rest, hcons⟩ := List.exists_cons_of_length_pos hpos
  rw [htimes, hcons] at hfree
  rw [hcons] at hlength hretry
  have hheld : recentTimes window now (admittedTimes identity l.past) = oldest :: rest :=
    hcounting.symm.trans hcons
  have hsublist : (oldest :: rest).Sublist (admittedTimes identity l.past) := by
    rw [← hheld]
    exact List.filter_sublist
  have hsorted : (oldest :: rest).Pairwise (· ≤ ·) :=
    (h.follows.inOrder.sorted.sublist (admittedTimes_sublist identity l.past)).sublist hsublist
  have hbehind := lt_of_held hheld
  obtain ⟨free, hadd⟩ := Option.isSome_iff_exists.mp (hfree oldest rfl)
  have hnanos := Moment.nanos_of_add? hadd
  refine ⟨oldest, rest, hheld, (List.pairwise_cons.mp hsorted).1, ?_, hlength, ?_⟩
  · intro t ht
    exact le_of_mem_admittedTimes hlast t (hsublist.subset ht)
  · rw [← hretry, retryAfter_cons now rest hadd]
    show now.nanos + ((free.nanos - now.nanos).toNat : Int) = _
    omega

/-- The hint is not zero and not longer than the window. -/
theorem Refuses.bounds {oldest : Moment} {rest : List Moment}
    (h : l.Refuses maxRequests window identity now r oldest rest) :
    0 < r.nanos ∧ r.nanos ≤ window.nanos := by
  have hbehind := lt_of_held h.held
  have hpast : oldest.nanos ≤ now.nanos := h.past oldest List.mem_cons_self
  have hhint := h.hint
  omega

/-- There is room in the window if and only if the hint is over. -/
theorem Refuses.countIn_lt_iff {oldest : Moment} {rest : List Moment}
    (h : l.Refuses maxRequests window identity now r oldest rest) {later : Moment}
    (hle : now ≤ later) :
    countIn window later (admittedTimes identity l.past) < maxRequests ↔
      now.nanos + r.nanos ≤ later.nanos := by
  have hle' : now.nanos ≤ later.nanos := hle
  have hfull := h.full
  have hhint := h.hint
  rw [← countIn_recentTimes hle, h.held]
  by_cases hover : now.nanos + r.nanos ≤ later.nanos
  · -- The oldest time has left the window, and the others are too few.
    have hout : countIn window later [oldest] = 0 := by
      apply countIn_eq_zero
      intro t ht
      rw [List.mem_singleton.mp ht]
      omega
    have hfew : countIn window later rest ≤ rest.length := List.countP_le_length
    have hsplit := countIn_append window later [oldest] rest
    rw [List.singleton_append, hout] at hsplit
    omega
  · -- All held times are in the window still.
    have hall : countIn window later (oldest :: rest) = (oldest :: rest).length := by
      apply countIn_eq_length
      intro t ht
      have hpast : t.nanos ≤ now.nanos := h.past t ht
      have hoff : oldest.nanos ≤ t.nanos := by
        cases List.mem_cons.mp ht with
        | inl hfirst =>
            rw [hfirst]
        | inr hrest => exact h.sorted t hrest
      show later.nanos - window.nanos < t.nanos ∧ t.nanos ≤ later.nanos
      omega
    rw [hall, List.length_cons]
    omega

/-- A caller who waits is admitted if and only if the wait is not shorter than the hint. -/
theorem Refuses.isAllowed_after_iff {oldest : Moment} {rest : List Moment}
    (h : l.Refuses maxRequests window identity now r oldest rest)
    (hfollows : l.Follows maxRequests window) (hnow : now.Shown)
    (hlast : ∀ t ∈ l.readings, t ≤ now)
    (hlimited : (l.limiter.check identity now).1 = .limited r) {between : List Call} {d : Duration}
    {later : Moment} (hadd : now.add? d = some later)
    (hwait : Meanwhile identity now later (l.enter (.check identity now)) between) :
    (((l.enter (.check identity now)).run between).limiter.check identity later).1.isAllowed =
      true ↔ r.nanos ≤ d.nanos := by
  have hnanos := Moment.nanos_of_add? hadd
  have hle : now ≤ later := by
    show now.nanos ≤ later.nanos
    omega
  have hrefused : (l.enter (.check identity now)).Follows maxRequests window :=
    hfollows.enter hnow hlast
  rw [hrefused.isAllowed_after_iff hnow (Moment.shown_of_add? hadd) hle
    (le_of_mem_readings_enter hlast) hwait, admittedTimes_enter_of_limited hlimited,
    h.countIn_lt_iff hle]
  omega

end Ledger

/-! ## Over HTTP -/

/-- The header of a response that tells how long to wait gives the seconds of the hint. -/
theorem lookup_retryAfter (r : Duration) :
    (Http.outcomeResponse (.rejected (.rateLimited r))).headers.lookup "retry-after" =
      some (toString (Http.waitSeconds r)) :=
  rfl

/-- A hint is rounded up to the next whole second. -/
theorem waitSeconds_bounds {r : Duration} (hpos : 0 < r.nanos)
    (hsmall : r.nanos < Http.maxWait * Duration.perSecond) :
    r.nanos ≤ Http.waitSeconds r * Duration.perSecond ∧
      Http.waitSeconds r * Duration.perSecond < r.nanos + Duration.perSecond := by
  unfold Http.waitSeconds Duration.seconds Duration.subsecond
  unfold Http.maxWait Duration.perSecond at *
  split
  · omega
  · omega

/-- The seconds of a hint are the least that are not shorter than it. -/
theorem isLeast_waitSeconds {r : Duration} (hpos : 0 < r.nanos)
    (hsmall : r.nanos < Http.maxWait * Duration.perSecond) :
    IsLeast {seconds | r.nanos ≤ (Duration.ofSeconds seconds).nanos} (Http.waitSeconds r) := by
  obtain ⟨henough, hleast⟩ := waitSeconds_bounds hpos hsmall
  constructor
  · exact henough
  · intro seconds hseconds
    have hseconds' : r.nanos ≤ seconds * Duration.perSecond := hseconds
    have hbelow : Http.waitSeconds r * Duration.perSecond <
        (seconds + 1) * Duration.perSecond := by
      rw [Nat.add_mul, Nat.one_mul]
      omega
    exact Nat.le_of_lt_succ (Nat.lt_of_mul_lt_mul_right hbelow)

/-- The hint of a refusal is exact, and waiting for it works.  Suppose that a request is refused after
calls that came in order, and that the clock can show when the oldest held time leaves the window.
Then the hint is neither zero nor longer than the window.  Whatever else reaches the limiter, as long
as no request of the identity is admitted, the next check of the identity is refused before the hint
is over and allowed from then on.  Over HTTP the caller is told the least number of seconds that is
not shorter than the hint, if there is one in the range of the header, and a caller who waits for so
long is allowed. -/
theorem retry_hint_exact (maxRequests : Nat) (window : Duration) (calls : List Call)
    (identity : String) (now : Moment) (r : Duration) (hmax : 1 ≤ maxRequests)
    (hshown : ∀ call ∈ calls, call.now.Shown)
    (hordered : calls.Pairwise fun earlier later => earlier.now ≤ later.now)
    (hnow : now.Shown) (hlatest : ∀ call ∈ calls, call.now ≤ now)
    (hlimited : (((Ledger.fresh maxRequests window).run calls).limiter.check identity now).1 =
      .limited r)
    (hfree : ∀ oldest ∈ ((((Ledger.fresh maxRequests window).run calls).limiter.check identity
      now).2.times identity).head?, (oldest.add? window).isSome = true) :
    let refused := ((Ledger.fresh maxRequests window).run calls).enter (.check identity now)
    0 < r.nanos ∧ r.nanos ≤ window.nanos ∧
      (∀ between d later, now.add? d = some later →
        Ledger.Meanwhile identity now later refused between →
          (((refused.run between).limiter.check identity later).1.isAllowed = true ↔
            r.nanos ≤ d.nanos)) ∧
      (r.nanos < Http.maxWait * Duration.perSecond → ∃ seconds,
        (Http.outcomeResponse (.rejected (.rateLimited r))).headers.lookup "retry-after" =
            some (toString seconds) ∧
          IsLeast {s | r.nanos ≤ (Duration.ofSeconds s).nanos} seconds ∧
          ∀ between later, now.add? (.ofSeconds seconds) = some later →
            Ledger.Meanwhile identity now later refused between →
              ((refused.run between).limiter.check identity later).1.isAllowed = true) := by
  intro refused
  have hexact := Ledger.exact_run window hmax hshown hordered
  have hlast : ∀ t ∈ ((Ledger.fresh maxRequests window).run calls).readings, t ≤ now :=
    Ledger.le_of_mem_readings_run (by simp) hlatest
  obtain ⟨oldest, rest, hrefuses⟩ := hexact.exists_refuses hmax hnow hlast hlimited hfree
  obtain ⟨hpos, hle⟩ := hrefuses.bounds
  have hwaited : ∀ between d later, now.add? d = some later →
      Ledger.Meanwhile identity now later refused between →
        (((refused.run between).limiter.check identity later).1.isAllowed = true ↔
          r.nanos ≤ d.nanos) := by
    intro between d later hadd hwait
    exact hrefuses.isAllowed_after_iff hexact.follows hnow hlast hlimited hadd hwait
  refine ⟨hpos, hle, hwaited, ?_⟩
  intro hsmall
  have hleast := isLeast_waitSeconds hpos hsmall
  refine ⟨Http.waitSeconds r, lookup_retryAfter r, hleast, ?_⟩
  intro between later hadd hwait
  exact (hwaited between _ later hadd hwait).mpr hleast.1

/-- Two requests in ten seconds, and a third one 4.2 seconds after the first.  It has to wait for 5.8
seconds and is told six.  A refused request, a purge and somebody else come in between. -/
theorem retry_hint_exact_third_request :
    ∃ calls between : List Call,
      let refused := ((Ledger.fresh 2 (.ofSeconds 10)).run calls).enter (.check "a" ⟨4200000000⟩)
      (((Ledger.fresh 2 (.ofSeconds 10)).run calls).limiter.check "a" ⟨4200000000⟩).1 =
          .limited ⟨5800000000⟩ ∧
        Ledger.Meanwhile "a" ⟨4200000000⟩ ⟨9999999999⟩ refused between ∧
        ¬((refused.run between).limiter.check "a" ⟨9999999999⟩).1.isAllowed = true ∧
        ((refused.run between).limiter.check "a" ⟨10000000000⟩).1.isAllowed = true ∧
        (Http.outcomeResponse (.rejected (.rateLimited ⟨5800000000⟩))).headers.lookup
          "retry-after" = some (toString 6) ∧
        ((refused.run between).limiter.check "a" ⟨10200000000⟩).1.isAllowed = true := by
  have hlimited : (((Ledger.fresh 2 (.ofSeconds 10)).run [.check "a" ⟨0⟩,
      .check "a" ⟨3500000000⟩]).limiter.check "a" ⟨4200000000⟩).1 = .limited ⟨5800000000⟩ := by
    decide
  obtain ⟨-, -, hexact, hheader⟩ := retry_hint_exact 2 (.ofSeconds 10) _ "a" ⟨4200000000⟩ _
    (by decide) (by decide) (by decide) (by decide) (by decide) hlimited (by decide)
  obtain ⟨seconds, hvalue, ⟨henough, hleast⟩, hafter⟩ := hheader (by decide)
  have hsix : seconds = 6 := by
    have hle : seconds ≤ 6 := hleast (show 5800000000 ≤ (Duration.ofSeconds 6).nanos by decide)
    have hge : 5800000000 ≤ seconds * 1000000000 := henough
    omega
  subst hsix
  refine ⟨_, [.check "a" ⟨5000000000⟩, .purgeIdle ⟨6000000000⟩, .allow "b" ⟨7000000000⟩],
    hlimited, ⟨by decide, by decide, by decide⟩, ?_, ?_, hvalue, ?_⟩
  · intro hallowed
    have hover := (hexact _ ⟨5799999999⟩ ⟨9999999999⟩ (by decide)
      ⟨by decide, by decide, by decide⟩).mp hallowed
    exact absurd hover (by decide)
  · apply (hexact _ ⟨5800000000⟩ ⟨10000000000⟩ (by decide) ⟨by decide, by decide, by decide⟩).mpr
    decide
  · exact hafter _ ⟨10200000000⟩ (by decide) ⟨by decide, by decide, by decide⟩

end NetRedact.RateLimiter
