import NetRedact.Proofs.LimiterRuns

/-!
# The law of the sliding window

A request is admitted if and only if fewer than the permitted number of the identity's admitted
requests lie in the window that ends with it.  The law speaks of all requests ever admitted, while a
limiter drops times from the front and forgets whole identities.  It follows the law as long as the
readings of the clock come in order.  The times that it holds are then sorted, so that draining
leaves exactly those inside the window; and what it has dropped had left the window by an earlier
reading, hence by the present one.

Where the clock cannot show the beginning of the window, nothing is drained.  Then all moments that
the clock can show lie behind that beginning.
-/

namespace NetRedact.RateLimiter

/-! ## Draining sorted times -/

/-- Taking the times up to a cutoff from the front of sorted times takes all of them. -/
private theorem lt_of_mem_dropWhile {cutoff : Moment} {times : List Moment}
    (hsorted : times.Pairwise (· ≤ ·)) :
    ∀ t ∈ times.dropWhile fun t => decide (t ≤ cutoff), cutoff.nanos < t.nanos := by
  induction times with
  | nil =>
      intro t ht
      cases ht
  | cons first rest ih =>
      obtain ⟨hfirst, hrest⟩ := List.pairwise_cons.mp hsorted
      by_cases hexpired : first ≤ cutoff
      · rw [List.dropWhile_cons_of_pos (by exact decide_eq_true hexpired)]
        exact ih hrest
      · -- The first time left lies behind the cutoff, and all others lie behind it.
        rw [List.dropWhile_cons_of_neg (by simpa using hexpired)]
        have hinside : cutoff.nanos < first.nanos := Int.not_le.mp hexpired
        intro t ht
        cases List.mem_cons.mp ht with
        | inl hsame => exact hsame ▸ hinside
        | inr hlater => exact Int.lt_of_lt_of_le hinside (hfirst t hlater)

/-- Of sorted times only those behind the beginning of the window are left. -/
theorem lt_of_mem_drain (window : Duration) {now : Moment} {times : List Moment}
    (hnow : now.Shown) (hshown : ∀ t ∈ times, t.Shown) (hsorted : times.Pairwise (· ≤ ·)) :
    ∀ t ∈ drain window now times, now.nanos - window.nanos < t.nanos := by
  unfold drain
  cases hcutoff : now.sub? window with
  | none =>
      intro t ht
      exact Moment.before_all_of_sub?_eq_none hnow hcutoff (hshown t ht)
  | some cutoff =>
      rw [← Moment.nanos_of_sub? hcutoff]
      exact lt_of_mem_dropWhile hsorted

/-- The times that lie behind the beginning of the window that ends at a moment. -/
def recentTimes (window : Duration) (now : Moment) (times : List Moment) : List Moment :=
  times.filter fun t => decide (now.nanos - window.nanos < t.nanos)

/-- Times are looked at one by one. -/
theorem recentTimes_append (window : Duration) (now : Moment) (first second : List Moment) :
    recentTimes window now (first ++ second) =
      recentTimes window now first ++ recentTimes window now second := by
  unfold recentTimes
  rw [List.filter_append]

/-- Times that have left the window lie behind its beginning no longer. -/
theorem recentTimes_eq_nil {window : Duration} {now : Moment} {times : List Moment}
    (hleft : ∀ t ∈ times, t.nanos + window.nanos ≤ now.nanos) :
    recentTimes window now times = [] := by
  unfold recentTimes
  rw [List.filter_eq_nil_iff]
  intro t ht hbehind
  have hgone := hleft t ht
  have hin := of_decide_eq_true hbehind
  omega

/-- Draining sorted times leaves those behind the beginning of the window. -/
theorem drain_eq_recentTimes (window : Duration) {now : Moment} {times : List Moment}
    (hnow : now.Shown) (hshown : ∀ t ∈ times, t.Shown) (hsorted : times.Pairwise (· ≤ ·)) :
    drain window now times = recentTimes window now times := by
  obtain ⟨expired, hsplit, hexpired⟩ := exists_drain_eq window now times
  have hinside := lt_of_mem_drain window hnow hshown hsorted
  have hall : recentTimes window now (drain window now times) = drain window now times := by
    unfold recentTimes
    rw [List.filter_eq_self]
    intro t ht
    exact decide_eq_true (hinside t ht)
  calc drain window now times
      = recentTimes window now expired ++ recentTimes window now (drain window now times) := by
        rw [recentTimes_eq_nil hexpired, hall, List.nil_append]
    _ = recentTimes window now (expired ++ drain window now times) := (recentTimes_append ..).symm
    _ = recentTimes window now times := by rw [← hsplit]

/-- Of times up to a moment, those in the window that ends with it are the recent ones. -/
theorem length_recentTimes {window : Duration} {now : Moment} {times : List Moment}
    (hpast : ∀ t ∈ times, t ≤ now) :
    (recentTimes window now times).length = countIn window now times := by
  unfold recentTimes countIn
  rw [← List.countP_eq_length_filter]
  apply List.countP_congr
  intro t ht
  have hle : t.nanos ≤ now.nanos := hpast t ht
  simp only [decide_eq_true_eq]
  show _ ↔ now.nanos - window.nanos < t.nanos ∧ t.nanos ≤ now.nanos
  omega

/-! ## The law -/

/-- The law for one exchange behind earlier ones. -/
def Exchange.Lawful (maxRequests : Nat) (window : Duration) (earlier : List Exchange)
    (e : Exchange) : Prop :=
  ∀ identity, e.call.asker? = some identity →
    (e.reply.admits = true ↔
      countIn window e.call.now (admittedTimes identity earlier) < maxRequests)

/-- The admitted times of an identity are among the readings of all calls, in the same order. -/
theorem admittedTimes_sublist (identity : String) (past : List Exchange) :
    (admittedTimes identity past).Sublist (past.map (·.call.now)) := by
  unfold admittedTimes
  induction past with
  | nil => exact List.Sublist.refl _
  | cons e past ih =>
      rw [List.flatMap_cons, List.map_cons]
      by_cases hcharged : e.call.asker? = some identity ∧ e.reply.admits = true
      · rw [Exchange.charge, if_pos hcharged]
        exact ih.cons_cons _
      · rw [Exchange.charge, if_neg hcharged]
        exact ih.cons _

namespace Ledger

/-- The readings of the clock that have come with the calls so far. -/
def readings (l : Ledger) : List Moment :=
  l.past.map (·.call.now)

/-- No call has come with a reading yet. -/
@[simp]
theorem readings_fresh (maxRequests : Nat) (window : Duration) :
    (fresh maxRequests window).readings = [] :=
  rfl

/-- A call adds its reading. -/
theorem readings_enter (l : Ledger) (call : Call) :
    (l.enter call).readings = l.readings ++ [call.now] := by
  simp [readings, enter]

/-- Behind a call with the latest reading so far no reading is later. -/
theorem le_of_mem_readings_enter {l : Ledger} {call : Call}
    (hlast : ∀ t ∈ l.readings, t ≤ call.now) : ∀ t ∈ (l.enter call).readings, t ≤ call.now := by
  intro t ht
  rw [readings_enter, List.mem_append] at ht
  cases ht with
  | inl hold => exact hlast t hold
  | inr hnew =>
      rw [List.mem_singleton.mp hnew]
      exact Int.le_refl _

/-- A ledger in which the readings came in order: the clock can show them, and no call has come with
a reading from before an earlier call's. -/
structure InOrder (l : Ledger) : Prop where
  shown : ∀ t ∈ l.readings, t.Shown
  sorted : l.readings.Pairwise (· ≤ ·)

/-- The held times of a ledger in order are shown by the clock, and sorted. -/
theorem InOrder.held {maxRequests : Nat} {window : Duration} {l : Ledger} (horder : l.InOrder)
    (h : l.Remembers maxRequests window) (identity : String) :
    (∀ t ∈ l.limiter.times identity, t.Shown) ∧
      (l.limiter.times identity).Pairwise (· ≤ ·) := by
  obtain ⟨forgotten, hsplit, -⟩ := h.held identity
  have hsublist := admittedTimes_sublist identity l.past
  rw [hsplit] at hsublist
  have hheld : (l.limiter.times identity).Sublist l.readings :=
    (List.sublist_append_right _ _).trans hsublist
  exact ⟨fun t ht => horder.shown t (hheld.subset ht), horder.sorted.sublist hheld⟩

/-- In order, the held times that count against a request are the admitted times behind the beginning
of its window. -/
theorem Remembers.counting_eq {maxRequests : Nat} {window : Duration} {l : Ledger}
    (h : l.Remembers maxRequests window) (horder : l.InOrder) {now : Moment} (hnow : now.Shown)
    (hlast : ∀ t ∈ l.readings, t ≤ now) (identity : String) :
    l.limiter.counting identity now =
      recentTimes window now (admittedTimes identity l.past) := by
  obtain ⟨forgotten, hsplit, hforgotten⟩ := h.held identity
  obtain ⟨hshown, hsorted⟩ := horder.held h identity
  have hnone : recentTimes window now forgotten = [] := by
    refine recentTimes_eq_nil fun t ht => ?_
    obtain ⟨e, he, hleft⟩ := hforgotten t ht
    exact Int.le_trans hleft (hlast _ (List.mem_map_of_mem he))
  unfold counting
  rw [h.window_eq, drain_eq_recentTimes window hnow hshown hsorted, hsplit, recentTimes_append,
    hnone, List.nil_append]

/-- The admitted times of an identity do not lie behind a moment that no reading lies behind. -/
theorem le_of_mem_admittedTimes {l : Ledger} {now : Moment} (hlast : ∀ t ∈ l.readings, t ≤ now)
    {identity : String} : ∀ t ∈ admittedTimes identity l.past, t ≤ now := by
  intro t ht
  exact hlast t ((admittedTimes_sublist identity l.past).subset ht)

/-- In order, the held times that count against a request are as many as the admitted times that lie
in its window. -/
theorem Remembers.length_counting {maxRequests : Nat} {window : Duration} {l : Ledger}
    (h : l.Remembers maxRequests window) (horder : l.InOrder) {now : Moment} (hnow : now.Shown)
    (hlast : ∀ t ∈ l.readings, t ≤ now) (identity : String) :
    (l.limiter.counting identity now).length =
      countIn window now (admittedTimes identity l.past) := by
  rw [h.counting_eq horder hnow hlast]
  exact length_recentTimes (le_of_mem_admittedTimes hlast)

/-- A ledger that follows the law. -/
structure Follows (maxRequests : Nat) (window : Duration) (l : Ledger) : Prop where
  remembers : l.Remembers maxRequests window
  inOrder : l.InOrder
  lawful : ∀ earlier e later, l.past = earlier ++ e :: later → e.Lawful maxRequests window earlier

/-- An empty ledger follows the law. -/
theorem follows_fresh (maxRequests : Nat) (window : Duration) :
    (fresh maxRequests window).Follows maxRequests window where
  remembers := remembers_fresh maxRequests window
  inOrder := ⟨by simp, by simp⟩
  lawful := by
    intro earlier e later hpast
    have hnil : [] = earlier ++ e :: later := hpast
    simp at hnil

/-- A call whose reading is the latest so far is answered by the law. -/
theorem Follows.enter {maxRequests : Nat} {window : Duration} {l : Ledger}
    (h : l.Follows maxRequests window) {call : Call} (hnow : call.now.Shown)
    (hlast : ∀ t ∈ l.readings, t ≤ call.now) : (l.enter call).Follows maxRequests window where
  remembers := h.remembers.enter call
  inOrder := by
    constructor
    · intro t ht
      rw [readings_enter] at ht
      cases List.mem_append.mp ht with
      | inl hold => exact h.inOrder.shown t hold
      | inr hnew => exact List.mem_singleton.mp hnew ▸ hnow
    · rw [readings_enter, List.pairwise_append]
      refine ⟨h.inOrder.sorted, List.pairwise_singleton _ _, ?_⟩
      intro t ht last hnew
      exact List.mem_singleton.mp hnew ▸ hlast t ht
  lawful := by
    intro earlier e later hpast
    have hpast' : l.past ++ [⟨call, (l.limiter.answer call).1⟩] = earlier ++ e :: later := hpast
    cases List.eq_nil_or_concat later with
    | inl hnil =>
        -- The exchange is the new one, and what was admitted before it is what the ledger says.
        subst hnil
        obtain ⟨hearlier, he⟩ := List.append_inj' hpast' rfl
        subst hearlier
        cases he
        intro identity hasker
        rw [admits_iff _ _ hasker, h.remembers.length_counting h.inOrder hnow hlast,
          h.remembers.maxRequests_eq]
    | inr hconcat =>
        obtain ⟨front, last, hlater⟩ := hconcat
        subst hlater
        have hsplit : l.past ++ [⟨call, (l.limiter.answer call).1⟩] =
            (earlier ++ e :: front) ++ [last] := by
          rw [hpast']
          simp
        exact h.lawful earlier e front (List.append_inj' hsplit rfl).1

/-- What a call that comes with the latest reading so far keeps true, any number of calls that come in
order keep true. -/
theorem run_induction {P : Ledger → Prop}
    (step : ∀ l call, P l → call.now.Shown → (∀ t ∈ l.readings, t ≤ call.now) → P (l.enter call))
    {l : Ledger} (h : P l) {calls : List Call} (hshown : ∀ call ∈ calls, call.now.Shown)
    (hordered : calls.Pairwise fun earlier later => earlier.now ≤ later.now)
    (hlast : ∀ t ∈ l.readings, ∀ call ∈ calls, t ≤ call.now) : P (l.run calls) := by
  induction calls generalizing l with
  | nil => exact h
  | cons call rest ih =>
      obtain ⟨hfirst, hrest⟩ := List.pairwise_cons.mp hordered
      have hstep := step l call h (hshown call List.mem_cons_self)
        fun t ht => hlast t ht call List.mem_cons_self
      refine ih hstep (fun other hother => hshown other (List.mem_cons_of_mem _ hother)) hrest ?_
      intro t ht other hother
      rw [readings_enter] at ht
      cases List.mem_append.mp ht with
      | inl hold => exact hlast t hold other (List.mem_cons_of_mem _ hother)
      | inr hnew => exact List.mem_singleton.mp hnew ▸ hfirst other hother

/-- Calls that come in order are answered by the law. -/
theorem Follows.run {maxRequests : Nat} {window : Duration} {l : Ledger}
    (h : l.Follows maxRequests window) {calls : List Call}
    (hshown : ∀ call ∈ calls, call.now.Shown)
    (hordered : calls.Pairwise fun earlier later => earlier.now ≤ later.now)
    (hlast : ∀ t ∈ l.readings, ∀ call ∈ calls, t ≤ call.now) :
    (l.run calls).Follows maxRequests window :=
  run_induction (fun _ _ hfollows hnow hlatest => hfollows.enter hnow hlatest) h hshown hordered
    hlast

/-- The calls of a run are in the ledger afterwards. -/
theorem calls_run (l : Ledger) (calls : List Call) :
    (l.run calls).past.map Exchange.call = l.past.map Exchange.call ++ calls := by
  induction calls generalizing l with
  | nil => simp [run]
  | cons call rest ih =>
      show ((l.enter call).run rest).past.map Exchange.call = _
      rw [ih (l.enter call)]
      simp [Ledger.enter]

/-- The readings of a run come behind those that were there. -/
theorem readings_run (l : Ledger) (calls : List Call) :
    (l.run calls).readings = l.readings ++ calls.map Call.now := by
  have hcalls := congrArg (List.map Call.now) (calls_run l calls)
  rw [List.map_append, List.map_map, List.map_map] at hcalls
  exact hcalls

/-- No reading lies behind a moment after a run if none did before and no call of the run does. -/
theorem le_of_mem_readings_run {l : Ledger} {calls : List Call} {now : Moment}
    (hlast : ∀ t ∈ l.readings, t ≤ now) (hlatest : ∀ call ∈ calls, call.now ≤ now) :
    ∀ t ∈ (l.run calls).readings, t ≤ now := by
  intro t ht
  rw [readings_run, List.mem_append] at ht
  cases ht with
  | inl hold => exact hlast t hold
  | inr hnew =>
      obtain ⟨call, hcall, rfl⟩ := List.mem_map.mp hnew
      exact hlatest call hcall

end Ledger

/-! ## Decisions -/

/-- The decisions of the law on the requests of one identity at some times, in the order of the
requests, after those at `admitted` have been admitted.  Nothing is ever dropped. -/
def lawfulDecisions (maxRequests : Nat) (window : Duration) : List Moment → List Moment → List Bool
  | _, [] => []
  | admitted, now :: later =>
    if countIn window now admitted < maxRequests then
      true :: lawfulDecisions maxRequests window (admitted ++ [now]) later
    else false :: lawfulDecisions maxRequests window admitted later

/-- When an identity has asked. -/
def requestTimes (identity : String) (calls : List Call) : List Moment :=
  (calls.filter fun call => call.asker? = some identity).map Call.now

/-- What an identity was told. -/
def decisionsFor (identity : String) (past : List Exchange) : List Bool :=
  (past.filter fun e => e.call.asker? = some identity).map (·.reply.admits)

/-- Exchanges that follow the law decide on the requests of an identity as the law does on these
requests alone. -/
theorem decisionsFor_eq {maxRequests : Nat} {window : Duration} (identity : String)
    (past rest : List Exchange)
    (hlawful : ∀ earlier e later, past ++ rest = earlier ++ e :: later →
      e.Lawful maxRequests window earlier) :
    decisionsFor identity rest =
      lawfulDecisions maxRequests window (admittedTimes identity past)
        (requestTimes identity (rest.map Exchange.call)) := by
  induction rest generalizing past with
  | nil => rfl
  | cons e rest ih =>
      have hnext := ih (past ++ [e]) (by simpa using hlawful)
      have hcharged : admittedTimes identity (past ++ [e]) =
          admittedTimes identity past ++ e.charge identity := by
        simp [admittedTimes]
      rw [hcharged] at hnext
      unfold decisionsFor requestTimes at hnext ⊢
      by_cases hasker : e.call.asker? = some identity
      · have hlaw := hlawful past e rest rfl identity hasker
        rw [List.map_cons, List.filter_cons_of_pos (by simpa using hasker),
          List.filter_cons_of_pos (by simpa using hasker), List.map_cons, List.map_cons,
          lawfulDecisions]
        by_cases hroom : countIn window e.call.now (admittedTimes identity past) < maxRequests
        · have hadmits := hlaw.mpr hroom
          rw [Exchange.charge, if_pos ⟨hasker, hadmits⟩] at hnext
          rw [if_pos hroom, hadmits, hnext]
        · have hrefuses : e.reply.admits = false :=
            Bool.eq_false_iff.mpr fun hadmits => hroom (hlaw.mp hadmits)
          rw [Exchange.charge, if_neg fun h => hroom (hlaw.mp h.2), List.append_nil] at hnext
          rw [if_neg hroom, hrefuses, hnext]
      · -- Neither a purge nor somebody else's request is seen on either side.
        rw [Exchange.charge, if_neg fun h => hasker h.1, List.append_nil] at hnext
        rw [List.map_cons, List.filter_cons_of_neg (by simpa using hasker),
          List.filter_cons_of_neg (by simpa using hasker)]
        exact hnext

/-- A limiter refines the sliding window that forgets nothing.  Whatever it is asked, if the readings
of the clock never decrease, each request of an identity is admitted if and only if fewer than the
permitted number of requests admitted to the same identity before lie in the window that ends with
it.  So the decisions on an identity's requests are those of the law on these requests alone: no
purge, no other identity and, in the law, no refused request plays a part in them. -/
theorem run_refines_sliding_window (maxRequests : Nat) (window : Duration) (calls : List Call)
    (hshown : ∀ call ∈ calls, call.now.Shown)
    (hordered : calls.Pairwise fun earlier later => earlier.now ≤ later.now) :
    ((Ledger.fresh maxRequests window).run calls).past.map Exchange.call = calls ∧
      (∀ earlier e later identity,
        ((Ledger.fresh maxRequests window).run calls).past = earlier ++ e :: later →
          e.call.asker? = some identity →
            (e.reply.admits = true ↔
              countIn window e.call.now (admittedTimes identity earlier) < maxRequests)) ∧
      ∀ identity,
        decisionsFor identity ((Ledger.fresh maxRequests window).run calls).past =
          lawfulDecisions maxRequests window [] (requestTimes identity calls) := by
  have hcalls : ((Ledger.fresh maxRequests window).run calls).past.map Exchange.call = calls :=
    Ledger.calls_run _ calls
  have hfollows := (Ledger.follows_fresh maxRequests window).run hshown hordered
    (by simp)
  refine ⟨hcalls, ?_, ?_⟩
  · intro earlier e later identity hpast
    exact hfollows.lawful earlier e later hpast identity
  · intro identity
    have hdecisions := decisionsFor_eq identity []
      ((Ledger.fresh maxRequests window).run calls).past hfollows.lawful
    rw [hcalls] at hdecisions
    exact hdecisions

/-- One request in ten seconds, from the first moment of the clock on: a purge and another caller
come in between, and the beginning of the window cannot be shown until ten seconds have passed. -/
theorem run_refines_sliding_window_first_moment :
    ∃ calls : List Call,
      (∀ call ∈ calls, call.now.Shown) ∧
        (calls.Pairwise fun earlier later => earlier.now ≤ later.now) ∧
        (⟨-Moment.limit + 2⟩ : Moment).sub? (.ofSeconds 10) = none ∧
        requestTimes "a" calls =
          [⟨-Moment.limit⟩, ⟨-Moment.limit + 2⟩, ⟨-Moment.limit + 10000000000⟩] ∧
        decisionsFor "a" ((Ledger.fresh 1 (.ofSeconds 10)).run calls).past = [true, false, true] := by
  have hshown : ∀ call ∈ ([.check "a" ⟨-Moment.limit⟩, .allow "b" ⟨-Moment.limit⟩,
      .purgeIdle ⟨-Moment.limit + 1⟩, .check "a" ⟨-Moment.limit + 2⟩,
      .allow "a" ⟨-Moment.limit + 10000000000⟩] : List Call), call.now.Shown := by decide
  have hordered : ([.check "a" ⟨-Moment.limit⟩, .allow "b" ⟨-Moment.limit⟩,
      .purgeIdle ⟨-Moment.limit + 1⟩, .check "a" ⟨-Moment.limit + 2⟩,
      .allow "a" ⟨-Moment.limit + 10000000000⟩] : List Call).Pairwise
        fun earlier later => earlier.now ≤ later.now := by decide
  refine ⟨_, hshown, hordered, by decide, by decide, ?_⟩
  rw [(run_refines_sliding_window 1 (.ofSeconds 10) _ hshown hordered).2.2 "a"]
  decide

end NetRedact.RateLimiter
