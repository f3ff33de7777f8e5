import NetRedact.Proofs.Windows

/-!
# A limiter in use

Requests and purges reach a limiter one after the other, each with the reading of the clock that its
caller has taken.  A `Ledger` is a limiter with all that it was asked and all that it replied.  The
limiter forgets, and the ledger does not.

What the limiter still knows of its ledger is said by `Ledger.Remembers`: the times that it holds for
an identity are the last ones admitted, and any other admitted time had left the window by the
reading of some call.  Nothing is said about the order of the readings.
-/

namespace NetRedact.RateLimiter

/-! ## Calls and replies -/

/-- What a limiter is asked for, at a reading of the clock. -/
inductive Call where
  | check (identity : String) (now : Moment)
  | allow (identity : String) (now : Moment)
  | purgeIdle (now : Moment)
  deriving DecidableEq

/-- What a limiter replies. -/
inductive Reply where
  | decided (decision : RateDecision)
  | admitted (yes : Bool)
  | purged (count : Nat)
  deriving DecidableEq

/-- The reading of the clock that comes with a call. -/
def Call.now : Call → Moment
  | .check _ now => now
  | .allow _ now => now
  | .purgeIdle now => now

/-- The identity whose request a call is.  A purge is nobody's. -/
def Call.asker? : Call → Option String
  | .check identity _ => some identity
  | .allow identity _ => some identity
  | .purgeIdle _ => none

/-- Whether a request has been admitted. -/
def Reply.admits : Reply → Bool
  | .decided decision => decision.isAllowed
  | .admitted yes => yes
  | .purged _ => false

/-- Does what a call asks for. -/
def answer (limiter : RateLimiter) : Call → Reply × RateLimiter
  | .check identity now =>
    let (decision, limiter) := limiter.check identity now
    (.decided decision, limiter)
  | .allow identity now =>
    let (yes, limiter) := limiter.allow identity now
    (.admitted yes, limiter)
  | .purgeIdle now =>
    let (count, limiter) := limiter.purgeIdle now
    (.purged count, limiter)

/-- A call and the reply to it. -/
structure Exchange where
  call : Call
  reply : Reply

/-- The time that an exchange adds to the admitted times of an identity, if it adds one. -/
def Exchange.charge (identity : String) (e : Exchange) : List Moment :=
  if e.call.asker? = some identity ∧ e.reply.admits = true then [e.call.now] else []

/-- The admitted times of an identity, in the order in which they were admitted. -/
def admittedTimes (identity : String) (past : List Exchange) : List Moment :=
  past.flatMap (Exchange.charge identity)

/-- The window that ends at a moment begins its length earlier; its end belongs to it, and its
beginning does not. -/
def InWindow (window : Duration) (now t : Moment) : Prop :=
  now.nanos - window.nanos < t.nanos ∧ t.nanos ≤ now.nanos

instance (window : Duration) (now t : Moment) : Decidable (InWindow window now t) :=
  inferInstanceAs (Decidable (_ ∧ _))

/-- How many of some times lie in the window that ends at a moment. -/
def countIn (window : Duration) (now : Moment) (times : List Moment) : Nat :=
  times.countP fun t => decide (InWindow window now t)

/-- Times are counted one by one. -/
theorem countIn_append (window : Duration) (now : Moment) (first second : List Moment) :
    countIn window now (first ++ second) = countIn window now first + countIn window now second :=
  List.countP_append

/-- One time counts if it lies in the window. -/
theorem countIn_singleton (window : Duration) (now t : Moment) :
    countIn window now [t] = if InWindow window now t then 1 else 0 := by
  unfold countIn
  rw [List.countP_singleton]
  simp only [decide_eq_true_eq]

/-- Times that have left the window do not lie in it. -/
theorem countIn_eq_zero {window : Duration} {now : Moment} {times : List Moment}
    (hleft : ∀ t ∈ times, t.nanos + window.nanos ≤ now.nanos) : countIn window now times = 0 := by
  unfold countIn
  rw [List.countP_eq_zero]
  intro t ht hin
  have hgone := hleft t ht
  have hbehind := (of_decide_eq_true hin).1
  omega

/-! ## One call -/

/-- A request is answered as `check` answers it. -/
theorem answer_of_asker (limiter : RateLimiter) {call : Call} {identity : String}
    (hasker : call.asker? = some identity) :
    (limiter.answer call).1.admits = (limiter.check identity call.now).1.isAllowed ∧
      (limiter.answer call).2 = (limiter.check identity call.now).2 := by
  cases call with
  | check asker now =>
      cases hasker
      exact ⟨rfl, rfl⟩
  | allow asker now =>
      cases hasker
      exact ⟨rfl, rfl⟩
  | purgeIdle now => cases hasker

/-- A request is admitted if there is room among the times that count. -/
theorem admits_iff (limiter : RateLimiter) (call : Call) {identity : String}
    (hasker : call.asker? = some identity) :
    (limiter.answer call).1.admits = true ↔
      (limiter.counting identity call.now).length < limiter.maxRequests := by
  rw [(answer_of_asker limiter hasker).1]
  by_cases hroom : (limiter.counting identity call.now).length < limiter.maxRequests
  · rw [(check_of_room hroom).1]
    exact ⟨fun _ => hroom, fun _ => rfl⟩
  · rw [(check_of_full (Nat.not_lt.mp hroom)).1]
    exact ⟨fun hallowed => Bool.noConfusion hallowed, fun h => absurd h hroom⟩

/-- A request is charged if and only if it is admitted. -/
theorem charges_answer (limiter : RateLimiter) {call : Call} {identity : String}
    (hasker : call.asker? = some identity) :
    Charges identity call.now (Exchange.charge identity ⟨call, (limiter.answer call).1⟩) limiter
      (limiter.answer call).2 := by
  unfold Exchange.charge
  rw [(answer_of_asker limiter hasker).2]
  by_cases hroom : (limiter.counting identity call.now).length < limiter.maxRequests
  · rw [if_pos ⟨hasker, (admits_iff limiter call hasker).mpr hroom⟩]
    exact (check_of_room hroom).2
  · rw [if_neg fun h => hroom ((admits_iff limiter call hasker).mp h.2)]
    exact (check_of_full (Nat.not_lt.mp hroom)).2

/-- A purge drains the times of every identity. -/
theorem times_purgeIdle (limiter : RateLimiter) (now : Moment) (identity : String) :
    (limiter.purgeIdle now).2.times identity =
      drain limiter.window now (limiter.times identity) := by
  have hnothing : drain limiter.window now [] = [] := by
    unfold drain
    cases now.sub? limiter.window with
    | none => rfl
    | some cutoff => rfl
  show (((limiter.windows.map (drain limiter.window now)).filter
    fun _ times => !times.isEmpty).find? identity).getD [] = _
  rw [Table.find?_filter, Table.find?_map]
  unfold times
  cases limiter.windows.find? identity with
  | none => exact hnothing.symm
  | some held =>
      rw [Option.map_some, Option.filter_some, Option.getD_some]
      cases hdrained : drain limiter.window now held with
      | nil => rfl
      | cons t ts => rfl

/-- A call keeps the settings of a limiter. -/
theorem settings_answer (limiter : RateLimiter) (call : Call) :
    (limiter.answer call).2.maxRequests = limiter.maxRequests ∧
      (limiter.answer call).2.window = limiter.window := by
  cases hasker : call.asker? with
  | some identity =>
      have hcharges := charges_answer limiter hasker
      exact ⟨hcharges.maxRequests, hcharges.window⟩
  | none =>
      cases call with
      | check identity now => cases hasker
      | allow identity now => cases hasker
      | purgeIdle now => exact ⟨rfl, rfl⟩

/-- What one call does to the times of an identity: a front part is forgotten, all of which has left
the window at the reading of the call, and what the call charges is put behind the rest. -/
theorem exists_times_answer (limiter : RateLimiter) (call : Call) (identity : String) :
    ∃ expired kept, limiter.times identity = expired ++ kept ∧
      (limiter.answer call).2.times identity =
        kept ++ Exchange.charge identity ⟨call, (limiter.answer call).1⟩ ∧
      ∀ t ∈ expired, t.nanos + limiter.window.nanos ≤ call.now.nanos := by
  by_cases hasker : call.asker? = some identity
  · have hcharges := charges_answer limiter hasker
    obtain ⟨expired, hsplit, hexpired⟩ := hcharges.forgotten
    exact ⟨expired, _, hsplit, hcharges.own, hexpired⟩
  · have hnothing : Exchange.charge identity ⟨call, (limiter.answer call).1⟩ = [] :=
      if_neg fun h => hasker h.1
    rw [hnothing]
    cases hother : call.asker? with
    | some asker =>
        -- Somebody else's request touches nothing of this identity.
        have hne : identity ≠ asker := by
          intro hsame
          exact hasker (hsame ▸ hother)
        have hkept : (limiter.answer call).2.times identity = limiter.times identity :=
          congrArg (Option.getD · [])
            ((charges_answer limiter hother).others identity hne)
        refine ⟨[], limiter.times identity, rfl, ?_, by simp⟩
        rw [hkept, List.append_nil]
    | none =>
        cases call with
        | check asker now => cases hother
        | allow asker now => cases hother
        | purgeIdle now =>
            obtain ⟨expired, hsplit, hexpired⟩ :=
              exists_drain_eq limiter.window now (limiter.times identity)
            refine ⟨expired, _, hsplit, ?_, hexpired⟩
            rw [List.append_nil]
            exact times_purgeIdle limiter now identity

/-! ## Any number of calls -/

/-- A limiter with all calls that have reached it and the replies to them, oldest first. -/
structure Ledger where
  limiter : RateLimiter
  past : List Exchange

namespace Ledger

/-- A limiter that nobody has called. -/
def fresh (maxRequests : Nat) (window : Duration) : Ledger :=
  ⟨.fresh maxRequests window, []⟩

/-- A call reaches the limiter. -/
def enter (l : Ledger) (call : Call) : Ledger :=
  let (reply, limiter) := l.limiter.answer call
  ⟨limiter, l.past ++ [⟨call, reply⟩]⟩

/-- Calls reach the limiter one after the other. -/
def run (l : Ledger) (calls : List Call) : Ledger :=
  calls.foldl enter l

/-- A call adds its charge to the admitted times. -/
theorem admittedTimes_enter (l : Ledger) (call : Call) (identity : String) :
    admittedTimes identity (l.enter call).past =
      admittedTimes identity l.past ++
        Exchange.charge identity ⟨call, (l.limiter.answer call).1⟩ := by
  unfold admittedTimes enter
  rw [List.flatMap_append, List.flatMap_singleton]

/-- What a limiter with these settings still knows of its ledger. -/
structure Remembers (maxRequests : Nat) (window : Duration) (l : Ledger) : Prop where
  maxRequests_eq : l.limiter.maxRequests = maxRequests
  window_eq : l.limiter.window = window
  /-- The held times are the last admitted ones, and each one before them had left the window by
  the reading of some call. -/
  held : ∀ identity, ∃ forgotten,
    admittedTimes identity l.past = forgotten ++ l.limiter.times identity ∧
      ∀ t ∈ forgotten, ∃ e ∈ l.past, t.nanos + window.nanos ≤ e.call.now.nanos

/-- Of an empty ledger there is nothing to know. -/
theorem remembers_fresh (maxRequests : Nat) (window : Duration) :
    (fresh maxRequests window).Remembers maxRequests window where
  maxRequests_eq := rfl
  window_eq := rfl
  held := fun _ => ⟨[], rfl, by simp⟩

/-- A call is remembered. -/
theorem Remembers.enter {maxRequests : Nat} {window : Duration} {l : Ledger}
    (h : l.Remembers maxRequests window) (call : Call) :
    (l.enter call).Remembers maxRequests window where
  maxRequests_eq := (settings_answer l.limiter call).1.trans h.maxRequests_eq
  window_eq := (settings_answer l.limiter call).2.trans h.window_eq
  held := by
    intro identity
    obtain ⟨forgotten, hbefore, hforgotten⟩ := h.held identity
    obtain ⟨expired, kept, hsplit, hafter, hexpired⟩ :=
      exists_times_answer l.limiter call identity
    refine ⟨forgotten ++ expired, ?_, ?_⟩
    · have htimes : (l.enter call).limiter.times identity =
          kept ++ Exchange.charge identity ⟨call, (l.limiter.answer call).1⟩ := hafter
      rw [admittedTimes_enter, htimes, hbefore, hsplit]
      simp only [List.append_assoc]
    · intro t ht
      cases List.mem_append.mp ht with
      | inl hold =>
          obtain ⟨e, he, hle⟩ := hforgotten t hold
          exact ⟨e, List.mem_append_left _ he, hle⟩
      | inr hnew =>
          refine ⟨⟨call, (l.limiter.answer call).1⟩, by simp [Ledger.enter], ?_⟩
          have hleft := hexpired t hnew
          rw [h.window_eq] at hleft
          exact hleft

end Ledger

end NetRedact.RateLimiter
