import Mathlib.Data.List.TakeWhile
import Mathlib.Logic.Relation
import NetRedact.Proofs.LimiterRuns

/-!
# Calls that come late

A client reads the clock first and gets to the limiter later.  Others may have been served with later
readings in between, so that the readings reach the limiter out of order.  `Traffic` is a limiter
with any number of such clients.

A limiter drops a time once that has left the window at the reading of some call.  For a call that
comes later with an earlier reading the time may still lie in the window, and then a window comes to
hold more admitted requests than it may.  What is lost is the lateness.  If no client takes longer
than some delay to get to the limiter, the limit holds for windows that are shorter by this delay,
and for no longer ones.
-/

namespace NetRedact.RateLimiter

/-! ## Clients at work -/

/-- A limiter and its clients. -/
structure Traffic where
  clock : Moment
  /-- The calls of the clients that have read the clock and have not got to the limiter yet. -/
  pending : List Call
  ledger : Ledger

namespace Traffic

/-- A limiter to which nobody has come yet. -/
def start (maxRequests : Nat) (window : Duration) (clock : Moment) : Traffic :=
  ⟨clock, [], .fresh maxRequests window⟩

/-- Time passes. -/
def advance (w : Traffic) (d : Duration) : Traffic :=
  { w with clock := ⟨w.clock.nanos + d.nanos⟩ }

/-- A client has read the clock and is on its way. -/
def read (w : Traffic) (call : Call) : Traffic :=
  { w with pending := call :: w.pending }

/-- A client gets to the limiter; the others are still on their way. -/
def serve (w : Traffic) (call : Call) (others : List Call) : Traffic :=
  { w with pending := others, ledger := w.ledger.enter call }

/-- One thing that happens.  Of the clients on their way any one may be the next. -/
inductive Step (w : Traffic) : Traffic → Prop where
  | advance (d : Duration) : Step w (w.advance d)
  | read (call : Call) (hclock : call.now = w.clock) : Step w (w.read call)
  | serve {call : Call} {others : List Call} (hpending : w.pending.Perm (call :: others)) :
      Step w (w.serve call others)

/-- Any number of things that happen, one after the other. -/
abbrev Run : Traffic → Traffic → Prop :=
  Relation.ReflTransGen Step

/-- Nobody has been on the way for longer than a delay. -/
def Prompt (delay : Duration) (w : Traffic) : Prop :=
  ∀ call ∈ w.pending, w.clock.nanos ≤ call.now.nanos + delay.nanos

instance (delay : Duration) (w : Traffic) : Decidable (w.Prompt delay) :=
  inferInstanceAs (Decidable (∀ call ∈ w.pending, _))

/-- A run in which nobody is ever on the way for longer than a delay. -/
abbrev PromptRun (delay : Duration) : Traffic → Traffic → Prop :=
  Relation.ReflTransGen fun w w' => Step w w' ∧ w'.Prompt delay

end Traffic

/-! ## The limit -/

/-- If no reading so far is later than the present one by more than a delay, the admitted times that
lie in a shortened window together with the present reading are all held and count. -/
theorem Ledger.Remembers.countIn_le_counting {maxRequests : Nat} {window delay : Duration}
    {l : Ledger} (h : l.Remembers maxRequests window) {now stop : Moment}
    (hpast : ∀ e ∈ l.past, e.call.now.nanos ≤ now.nanos + delay.nanos)
    (hnow : InWindow ⟨window.nanos - delay.nanos⟩ stop now) (identity : String) :
    countIn ⟨window.nanos - delay.nanos⟩ stop (admittedTimes identity l.past) ≤
      (l.limiter.counting identity now).length := by
  obtain ⟨forgotten, hsplit, hforgotten⟩ := h.held identity
  obtain ⟨expired, hheld, hexpired⟩ :=
    exists_drain_eq l.limiter.window now (l.limiter.times identity)
  rw [h.window_eq] at hexpired
  obtain ⟨hbegin, hend⟩ := hnow
  simp only at hbegin
  -- Both what calls before this one have dropped and what this one drops lies before the window.
  have hforgottenOut : countIn ⟨window.nanos - delay.nanos⟩ stop forgotten = 0 := by
    refine countIn_eq_zero fun t ht => ?_
    obtain ⟨e, he, hleft⟩ := hforgotten t ht
    have hlate := hpast e he
    simp only
    omega
  have hexpiredOut : countIn ⟨window.nanos - delay.nanos⟩ stop expired = 0 := by
    refine countIn_eq_zero fun t ht => ?_
    have hleft := hexpired t ht
    simp only
    omega
  rw [hsplit, hheld, countIn_append, countIn_append, hforgottenOut, hexpiredOut, Nat.zero_add,
    Nat.zero_add]
  exact List.countP_le_length

namespace Traffic

/-- The invariant of a prompt run. -/
structure Limited (maxRequests : Nat) (window delay : Duration) (w : Traffic) : Prop where
  remembers : w.ledger.Remembers maxRequests window
  /-- No reading comes from the future. -/
  past : ∀ e ∈ w.ledger.past, e.call.now ≤ w.clock
  pending : ∀ call ∈ w.pending, call.now ≤ w.clock
  prompt : w.Prompt delay
  limit : ∀ identity stop,
    countIn ⟨window.nanos - delay.nanos⟩ stop (admittedTimes identity w.ledger.past) ≤ maxRequests

/-- At the beginning nothing has been admitted. -/
theorem limited_start (maxRequests : Nat) (window delay : Duration) (clock : Moment) :
    (start maxRequests window clock).Limited maxRequests window delay where
  remembers := Ledger.remembers_fresh maxRequests window
  past := by
    intro e he
    cases he
  pending := by
    intro call hcall
    cases hcall
  prompt := by
    intro call hcall
    cases hcall
  limit := fun _ _ => Nat.zero_le _

/-- A client that is served keeps the limit.  It is late by no more than the delay, and therefore no
reading that was served before is later than its own by more than that. -/
theorem Limited.limit_enter {maxRequests : Nat} {window delay : Duration} {w : Traffic}
    (h : w.Limited maxRequests window delay) {call : Call} (hcall : call ∈ w.pending)
    (identity : String) (stop : Moment) :
    countIn ⟨window.nanos - delay.nanos⟩ stop (admittedTimes identity (w.ledger.enter call).past) ≤
      maxRequests := by
  have hbefore := h.limit identity stop
  rw [Ledger.admittedTimes_enter]
  unfold Exchange.charge
  by_cases hcharged : call.asker? = some identity ∧
      (w.ledger.limiter.answer call).1.admits = true
  · rw [if_pos hcharged]
    have hroom := (admits_iff _ _ hcharged.1).mp hcharged.2
    rw [h.remembers.maxRequests_eq] at hroom
    rw [countIn_append, countIn_singleton]
    by_cases hin : InWindow ⟨window.nanos - delay.nanos⟩ stop call.now
    · have hpast : ∀ e ∈ w.ledger.past, e.call.now.nanos ≤ call.now.nanos + delay.nanos :=
        fun e he => Int.le_trans (h.past e he) (h.prompt call hcall)
      have hcounting := h.remembers.countIn_le_counting hpast hin identity
      rw [if_pos hin]
      omega
    · rw [if_neg hin]
      exact hbefore
  · rw [if_neg hcharged, List.append_nil]
    exact hbefore

/-- Everything that happens promptly keeps the invariant. -/
theorem Limited.step {maxRequests : Nat} {window delay : Duration} {w w' : Traffic}
    (h : w.Limited maxRequests window delay) (hstep : Step w w') (hprompt : w'.Prompt delay) :
    w'.Limited maxRequests window delay := by
  cases hstep with
  | advance d =>
      have hlater : w.clock ≤ (w.advance d).clock :=
        Int.le_add_of_nonneg_right (Int.natCast_nonneg _)
      exact ⟨h.remembers, fun e he => Int.le_trans (h.past e he) hlater,
        fun call hcall => Int.le_trans (h.pending call hcall) hlater, hprompt, h.limit⟩
  | read call hclock =>
      refine ⟨h.remembers, h.past, ?_, hprompt, h.limit⟩
      intro other hother
      cases List.mem_cons.mp hother with
      | inl hnew =>
          subst hnew
          exact Int.le_of_eq (congrArg Moment.nanos hclock)
      | inr hold => exact h.pending other hold
  | @serve call others hpending =>
      have hcall : call ∈ w.pending := hpending.mem_iff.mpr List.mem_cons_self
      refine ⟨h.remembers.enter call, ?_, ?_, hprompt, h.limit_enter hcall⟩
      · intro e he
        cases List.mem_append.mp he with
        | inl hold => exact h.past e hold
        | inr hnew => exact List.mem_singleton.mp hnew ▸ h.pending call hcall
      · intro other hother
        exact h.pending other (hpending.mem_iff.mpr (List.mem_cons_of_mem _ hother))

/-- A prompt run keeps the invariant. -/
theorem Limited.run {maxRequests : Nat} {window delay : Duration} {w w' : Traffic}
    (h : w.Limited maxRequests window delay) (hrun : PromptRun delay w w') :
    w'.Limited maxRequests window delay := by
  induction hrun with
  | refl => exact h
  | tail _ hstep ih => exact ih.step hstep.1 hstep.2

end Traffic

/-! ## A run of clients that are as late as they may be -/

/-- A shorter window holds no more times than a longer one with the same end. -/
theorem countIn_mono {short long : Duration} (hle : short.nanos ≤ long.nanos) (stop : Moment)
    (times : List Moment) : countIn short stop times ≤ countIn long stop times := by
  unfold countIn
  apply List.countP_mono_left
  intro t _ hin
  obtain ⟨hbehind, hbefore⟩ := of_decide_eq_true hin
  refine decide_eq_true ⟨?_, hbefore⟩
  omega

/-- A limiter counts no more times against a request than it has ever admitted. -/
theorem Ledger.Remembers.length_counting_le {maxRequests : Nat} {window : Duration} {l : Ledger}
    (h : l.Remembers maxRequests window) (identity : String) (now : Moment) :
    (l.limiter.counting identity now).length ≤ (admittedTimes identity l.past).length := by
  obtain ⟨forgotten, hsplit, -⟩ := h.held identity
  obtain ⟨expired, hheld, -⟩ :=
    exists_drain_eq l.limiter.window now (l.limiter.times identity)
  have htimes := congrArg List.length hsplit
  have hcounting := congrArg List.length hheld
  rw [List.length_append] at htimes hcounting
  unfold counting
  omega

/-- A request is admitted behind a purge at whose reading all admitted times of its identity have
left the window, whatever its own reading. -/
theorem Ledger.Remembers.admittedTimes_behind_purge {maxRequests : Nat} {window : Duration}
    {l : Ledger} (h : l.Remembers maxRequests window) (hmax : 1 ≤ maxRequests) {identity : String}
    (call : Call) (hasker : call.asker? = some identity) {now cutoff : Moment}
    (hcutoff : now.sub? window = some cutoff)
    (hleft : ∀ t ∈ admittedTimes identity l.past, t ≤ cutoff) :
    admittedTimes identity ((l.enter (.purgeIdle now)).enter call).past =
      admittedTimes identity l.past ++ [call.now] := by
  obtain ⟨forgotten, hsplit, -⟩ := h.held identity
  have hpurged : (l.enter (.purgeIdle now)).limiter.times identity = [] := by
    show (l.limiter.purgeIdle now).2.times identity = []
    rw [times_purgeIdle, h.window_eq]
    unfold drain
    rw [hcutoff]
    show (l.limiter.times identity).dropWhile (fun t => decide (t ≤ cutoff)) = []
    rw [List.dropWhile_eq_nil_iff]
    intro t ht
    refine decide_eq_true (hleft t ?_)
    rw [hsplit]
    exact List.mem_append_right _ ht
  have hnone : (l.enter (.purgeIdle now)).limiter.counting identity call.now = [] := by
    obtain ⟨expired, hheld, -⟩ := exists_drain_eq (l.enter (.purgeIdle now)).limiter.window
      call.now ((l.enter (.purgeIdle now)).limiter.times identity)
    rw [hpurged] at hheld
    unfold counting
    rw [hpurged]
    exact (List.append_eq_nil_iff.mp hheld.symm).2
  have hadmits : ((l.enter (.purgeIdle now)).limiter.answer call).1.admits = true := by
    rw [admits_iff _ _ hasker, hnone, (h.enter _).maxRequests_eq]
    exact hmax
  have hpurge : Exchange.charge identity
      ⟨.purgeIdle now, (l.limiter.answer (.purgeIdle now)).1⟩ = [] :=
    if_neg (by simp [Call.asker?])
  rw [Ledger.admittedTimes_enter, Ledger.admittedTimes_enter, hpurge, List.append_nil,
    Exchange.charge, if_pos ⟨hasker, hadmits⟩]

namespace Traffic

/-- Clients of one identity that read the clock one after the other and are served at once. -/
def rush (w : Traffic) (identity : String) : Nat → Traffic
  | 0 => w
  | count + 1 =>
    ((rush w identity count).read (.check identity (rush w identity count).clock)).serve
      (.check identity (rush w identity count).clock) (rush w identity count).pending

/-- A rush takes no time and leaves nobody waiting who did not wait before. -/
theorem rush_frame (w : Traffic) (identity : String) (count : Nat) :
    (w.rush identity count).clock = w.clock ∧ (w.rush identity count).pending = w.pending := by
  induction count with
  | zero => exact ⟨rfl, rfl⟩
  | succ count ih => exact ih

/-- A rush is a prompt run. -/
theorem promptRun_rush {delay : Duration} {w : Traffic} (hprompt : w.Prompt delay)
    (identity : String) (count : Nat) : PromptRun delay w (w.rush identity count) := by
  induction count with
  | zero => exact .refl
  | succ count ih =>
      obtain ⟨hclock, hpending⟩ := rush_frame w identity count
      have hbefore : (w.rush identity count).Prompt delay := by
        intro call hcall
        rw [hpending] at hcall
        rw [hclock]
        exact hprompt call hcall
      refine (ih.tail ⟨.read _ rfl, ?_⟩).tail ⟨.serve (.refl _), hbefore⟩
      intro call hcall
      cases List.mem_cons.mp hcall with
      | inl hnew =>
          subst hnew
          exact Int.le_add_of_nonneg_right (Int.natCast_nonneg _)
      | inr hold => exact hbefore call hold

/-- Up to the limit all clients of a rush are admitted. -/
theorem admittedTimes_rush {maxRequests : Nat} (window : Duration) (clock : Moment)
    (identity : String) {count : Nat} (hcount : count ≤ maxRequests) :
    ((start maxRequests window clock).rush identity count).ledger.Remembers maxRequests window ∧
      admittedTimes identity ((start maxRequests window clock).rush identity count).ledger.past =
        List.replicate count clock := by
  induction count with
  | zero => exact ⟨Ledger.remembers_fresh maxRequests window, rfl⟩
  | succ count ih =>
      obtain ⟨hremembers, hadmitted⟩ := ih (Nat.le_of_succ_le hcount)
      have hclock := (rush_frame (start maxRequests window clock) identity count).1
      refine ⟨hremembers.enter
        (.check identity ((start maxRequests window clock).rush identity count).clock), ?_⟩
      have hfew := hremembers.length_counting_le identity
        ((start maxRequests window clock).rush identity count).clock
      rw [hadmitted, List.length_replicate] at hfew
      have hadmits := (admits_iff ((start maxRequests window clock).rush identity
        count).ledger.limiter (.check identity ((start maxRequests window clock).rush
          identity count).clock) rfl).mpr (by
            rw [hremembers.maxRequests_eq]
            exact Nat.lt_of_le_of_lt hfew hcount)
      show admittedTimes identity (((start maxRequests window clock).rush identity
        count).ledger.enter (.check identity _)).past = _
      rw [Ledger.admittedTimes_enter, hadmitted, Exchange.charge, if_pos ⟨rfl, hadmits⟩,
        List.replicate_succ']
      exact congrArg (fun now => List.replicate count clock ++ [now]) hclock

/-- A client reads the clock, and `delay` later a purge gets to the limiter before it. -/
def overtake (w : Traffic) (early delay : Duration) (identity : String) : Traffic :=
  let reading : Moment := ⟨w.clock.nanos + early.nanos⟩
  let purge : Call := .purgeIdle ⟨reading.nanos + delay.nanos⟩
  let waiting := ((w.advance early).read (.check identity reading)).advance delay
  ((waiting.read purge).serve purge waiting.pending).serve (.check identity reading) w.pending

/-- The client that is overtaken is late by the delay. -/
theorem promptRun_overtake {w : Traffic} (hnobody : w.pending = []) (early delay : Duration)
    (identity : String) : PromptRun delay w (w.overtake early delay identity) := by
  let reading : Moment := ⟨w.clock.nanos + early.nanos⟩
  let waiting := ((w.advance early).read (.check identity reading)).advance delay
  have hempty : (w.advance early).Prompt delay := by
    intro call hcall
    have hnone : call ∈ w.pending := hcall
    rw [hnobody] at hnone
    cases hnone
  have honly : ∀ now : Moment, now.nanos ≤ reading.nanos + delay.nanos →
      Prompt delay ⟨now, .check identity reading :: w.pending, w.ledger⟩ := by
    intro now hnow call hcall
    cases List.mem_cons.mp hcall with
    | inl hsame =>
        subst hsame
        exact hnow
    | inr hother => exact absurd hother (by simp [hnobody])
  have hread : PromptRun delay w waiting :=
    ((Relation.ReflTransGen.single ⟨.advance early, hempty⟩).tail ⟨.read _ rfl, honly _
      (Int.le_add_of_nonneg_right (Int.natCast_nonneg _))⟩).tail
      ⟨.advance delay, honly _ (Int.le_refl _)⟩
  refine ((hread.tail ⟨.read (.purgeIdle ⟨reading.nanos + delay.nanos⟩) rfl, ?_⟩).tail
    ⟨.serve (.refl _), ?_⟩).tail ⟨.serve (.refl _), ?_⟩
  · intro call hcall
    cases List.mem_cons.mp hcall with
    | inl hsame =>
        subst hsame
        exact Int.le_add_of_nonneg_right (Int.natCast_nonneg _)
    | inr hother => exact honly _ (Int.le_refl _) call hother
  · exact honly _ (Int.le_refl _)
  · intro call hcall
    have hnone : call ∈ w.pending := hcall
    rw [hnobody] at hnone
    cases hnone

end Traffic

/-- Clients that are late by up to a delay can be admitted once more than permitted within one
window's length less the delay.  The permitted number comes at once; then a client reads the clock,
and before it gets to the limiter a purge forgets them all. -/
theorem exists_promptRun_exceeding {maxRequests : Nat} {window delay : Duration}
    (hmax : 1 ≤ maxRequests) (hdelay : delay.nanos ≤ window.nanos) (identity : String) :
    ∃ w, Traffic.PromptRun delay (Traffic.start maxRequests window ⟨0⟩) w ∧
      admittedTimes identity w.ledger.past =
        List.replicate maxRequests ⟨0⟩ ++ [⟨((window.nanos - delay.nanos : Nat) : Int)⟩] := by
  let full : Traffic := (Traffic.start maxRequests window ⟨0⟩).rush identity maxRequests
  obtain ⟨hclock, hnobody⟩ : full.clock = ⟨0⟩ ∧ full.pending = [] :=
    Traffic.rush_frame _ identity maxRequests
  obtain ⟨hremembers, hadmitted⟩ :=
    Traffic.admittedTimes_rush window ⟨0⟩ identity (Nat.le_refl maxRequests)
  have hrush : Traffic.PromptRun delay (Traffic.start maxRequests window ⟨0⟩) full :=
    Traffic.promptRun_rush (by intro call hcall; cases hcall) identity maxRequests
  have hover := Traffic.promptRun_overtake hnobody ⟨window.nanos - delay.nanos⟩ delay identity
  refine ⟨_, hrush.trans hover, ?_⟩
  have hzero : full.clock.nanos = 0 := congrArg Moment.nanos hclock
  have hcutoff : (⟨full.clock.nanos + ((window.nanos - delay.nanos : Nat) : Int) +
      (delay.nanos : Int)⟩ : Moment).sub? window = some ⟨0⟩ := by
    have hback : full.clock.nanos + ((window.nanos - delay.nanos : Nat) : Int) +
        (delay.nanos : Int) - window.nanos = 0 := by omega
    unfold Moment.sub? Moment.ofNanos?
    rw [hback]
    exact if_pos (by decide)
  have hleft : ∀ t ∈ admittedTimes identity full.ledger.past, t ≤ ⟨0⟩ := by
    intro t ht
    rw [hadmitted] at ht
    exact Int.le_of_eq (congrArg Moment.nanos (List.eq_of_mem_replicate ht))
  have hbehind := hremembers.admittedTimes_behind_purge hmax
    (.check identity ⟨full.clock.nanos + ((window.nanos - delay.nanos : Nat) : Int)⟩) rfl
    hcutoff hleft
  rw [hadmitted] at hbehind
  refine hbehind.trans ?_
  show _ ++ [(⟨full.clock.nanos + _⟩ : Moment)] = _
  rw [hzero, Int.zero_add]

/-- How late clients may be is how much of the window is lost.  If no client takes longer than some
delay from reading the clock to the limiter, no window that is shorter by this delay ever holds more
admitted times of one identity than permitted, in whatever order the clients get there; and a window
that is any longer may. -/
theorem prompt_runs_keep_limit_iff (maxRequests : Nat) (window delay length : Duration)
    (hmax : 1 ≤ maxRequests) (hdelay : delay.nanos ≤ window.nanos) :
    (∀ clock w, Traffic.PromptRun delay (Traffic.start maxRequests window clock) w →
        ∀ identity stop,
          countIn length stop (admittedTimes identity w.ledger.past) ≤ maxRequests) ↔
      length.nanos + delay.nanos ≤ window.nanos := by
  constructor
  · intro hlimit
    refine Decidable.byContradiction fun hlong => ?_
    obtain ⟨w, hrun, hadmitted⟩ := exists_promptRun_exceeding hmax hdelay "caller"
    have hcount := hlimit ⟨0⟩ w hrun "caller" ⟨((window.nanos - delay.nanos : Nat) : Int)⟩
    have hfirst : InWindow length ⟨((window.nanos - delay.nanos : Nat) : Int)⟩ ⟨0⟩ := by
      unfold InWindow
      simp only
      omega
    have hlast : InWindow length ⟨((window.nanos - delay.nanos : Nat) : Int)⟩
        ⟨((window.nanos - delay.nanos : Nat) : Int)⟩ := by
      unfold InWindow
      simp only
      omega
    rw [hadmitted, countIn_append, countIn_singleton, if_pos hlast, countIn,
      List.countP_replicate, if_pos (decide_eq_true hfirst)] at hcount
    omega
  · intro hshort clock w hrun identity stop
    have hlimited := (Traffic.limited_start maxRequests window delay clock).run hrun
    exact Nat.le_trans (countIn_mono (by show _ ≤ window.nanos - delay.nanos; omega) stop _)
      (hlimited.limit identity stop)

/-- Two requests in ten seconds, and clients that are late by up to one second: nine seconds never
hold more than two, and ten seconds may. -/
theorem prompt_runs_keep_limit_one_second :
    1 ≤ 2 ∧ (Duration.ofSeconds 1).nanos ≤ (Duration.ofSeconds 10).nanos ∧
      (∀ clock w, Traffic.PromptRun (.ofSeconds 1) (Traffic.start 2 (.ofSeconds 10) clock) w →
        ∀ identity stop,
          countIn (.ofSeconds 9) stop (admittedTimes identity w.ledger.past) ≤ 2) ∧
      ¬∀ clock w, Traffic.PromptRun (.ofSeconds 1) (Traffic.start 2 (.ofSeconds 10) clock) w →
        ∀ identity stop,
          countIn (.ofSeconds 10) stop (admittedTimes identity w.ledger.past) ≤ 2 := by
  refine ⟨by decide, by decide, ?_, ?_⟩
  · exact (prompt_runs_keep_limit_iff 2 (.ofSeconds 10) (.ofSeconds 1) (.ofSeconds 9)
      (by decide) (by decide)).mpr (by decide)
  · intro hlimit
    have hshort := (prompt_runs_keep_limit_iff 2 (.ofSeconds 10) (.ofSeconds 1) (.ofSeconds 10)
      (by decide) (by decide)).mp hlimit
    exact absurd hshort (by decide)

/-- Without a bound on the delay the limit does not hold.  Two requests are permitted in ten seconds.
Two are admitted at five seconds, and one at fifteen, whose check drops the first two; then one comes
that has read the clock at six. -/
theorem late_check_exceeds_limit :
    ¬∀ (maxRequests : Nat) (window : Duration) (clock : Moment) (w : Traffic), 1 ≤ maxRequests →
      Traffic.Run (Traffic.start maxRequests window clock) w → ∀ identity stop,
        countIn window stop (admittedTimes identity w.ledger.past) ≤ maxRequests := by
  intro hlimit
  let check (seconds : Nat) : Call := .check "caller" ⟨(Duration.ofSeconds seconds).nanos⟩
  let served : Traffic := ((((Traffic.start 2 (.ofSeconds 10) ⟨5000000000⟩).read (check 5)).serve
    (check 5) []).read (check 5)).serve (check 5) []
  let w : Traffic := (((((served.advance (.ofSeconds 1)).read (check 6)).advance
    (.ofSeconds 9)).read (check 15)).serve (check 15) [check 6]).serve (check 6) []
  have hserved : Traffic.Run (Traffic.start 2 (.ofSeconds 10) ⟨5000000000⟩) served :=
    (((Relation.ReflTransGen.single (.read (check 5) rfl)).tail (.serve (.refl _))).tail
      (.read (check 5) rfl)).tail (.serve (.refl _))
  have hrun : Traffic.Run (Traffic.start 2 (.ofSeconds 10) ⟨5000000000⟩) w :=
    (((((hserved.tail (.advance (.ofSeconds 1))).tail (.read (check 6) rfl)).tail
      (.advance (.ofSeconds 9))).tail (.read (check 15) rfl)).tail (.serve (.refl _))).tail
      (.serve (.refl _))
  have hthree : countIn (.ofSeconds 10) ⟨6000000000⟩ (admittedTimes "caller" w.ledger.past) = 3 := by
    decide
  have htwo := hlimit 2 (.ofSeconds 10) ⟨5000000000⟩ w (by decide) hrun "caller" ⟨6000000000⟩
  rw [hthree] at htwo
  exact absurd htwo (by decide)

end NetRedact.RateLimiter
