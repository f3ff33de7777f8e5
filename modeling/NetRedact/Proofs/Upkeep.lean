import Mathlib.Logic.Relation
import NetRedact.Maintenance
import NetRedact.Proofs.Stores
import NetRedact.Proofs.TrackedIdentities

/-!
# How long dead state lingers

A loop sweeps the records and the limiter once in every period, while requests fill both.  As long as
the loop runs, a record that is still held expired at most one period ago, and an identity that is
still tracked was admitted at a time whose window ended at most one period ago.  What was dead before
the loop started is counted from the start, since the first sweep comes one period later.

Two things are taken for granted.  The loop is served promptly, so the clock does not go beyond a
moment at which a sweep is due before that sweep; and a sweep takes no time.
-/

namespace NetRedact

open RateLimiter

/-- The records and the limiter, with the loop that sweeps them while it runs. -/
structure Premises where
  clock : Moment
  loop : Option MaintenanceLoop
  records : MemoryStore
  /-- The limiter with all calls that have reached it, sweeps among them. -/
  ledger : Ledger

namespace Premises

/-- The loop is polled.  A sweep that is due is one more call of the limiter. -/
def polled (p : Premises) (l : MaintenanceLoop) : Premises :=
  let (l', limiter, records) := l.poll .memory p.clock p.ledger.limiter p.records
  let purged := Reply.purged (p.ledger.limiter.purgeIdle p.clock).1
  let sweeps := if l.isDue p.clock then [Exchange.mk (.purgeIdle p.clock) purged] else []
  ⟨p.clock, some l', records, ⟨limiter, p.ledger.past ++ sweeps⟩⟩

/-- One event on the premises. -/
inductive Step : Premises → Premises → Prop
  /-- Time passes, but not beyond a moment at which a sweep is due. -/
  | advance {p : Premises} {later : Moment} : p.clock ≤ later → later.Shown →
      (∀ l due, p.loop = some l → l.due = some due → later ≤ due) →
      Step p { p with clock := later }
  | put {p : Premises} (record : MappingRecord) :
      Step p { p with records := (MemoryStore.put p.clock record p.records).2 }
  | get {p : Premises} (handle : Handle) :
      Step p { p with records := (MemoryStore.get p.clock handle p.records).2 }
  /-- A call reaches the limiter, with a reading of the clock that is not from before an earlier
  one. -/
  | call {p : Premises} (call : Call) : call.now.Shown → call.now ≤ p.clock →
      (∀ t ∈ p.ledger.readings, t ≤ call.now) → Step p { p with ledger := p.ledger.enter call }
  | poll {p : Premises} {l : MaintenanceLoop} : p.loop = some l → Step p (p.polled l)
  /-- A value comes over the shutdown channel. -/
  | signal {p : Premises} {l : MaintenanceLoop} (stop : Bool) : p.loop = some l →
      Step p { p with loop := l.signalled stop }

/-- Any number of events. -/
abbrev Run : Premises → Premises → Prop :=
  Relation.ReflTransGen Step

/-- The premises before the loop is started: some records, and a limiter that nobody has called. -/
def opened (clock : Moment) (records : MemoryStore) (maxRequests : Nat) (window : Duration) :
    Premises :=
  ⟨clock, none, records, .fresh maxRequests window⟩

/-- The loop is started. -/
def started (p : Premises) (every : Duration) : Premises :=
  { p with loop := MaintenanceLoop.start? every p.clock }

/-! ## What a poll does -/

theorem polled_of_due {p : Premises} {l : MaintenanceLoop} {due : Moment}
    (hdue : l.due = some due) (hle : due ≤ p.clock) :
    p.polled l = ⟨p.clock, some (l.served due p.clock),
      (MemoryStore.evictExpired p.clock p.records).2, p.ledger.enter (.purgeIdle p.clock)⟩ := by
  have hisDue : l.isDue p.clock = true := by
    unfold MaintenanceLoop.isDue
    rw [hdue]
    exact decide_eq_true hle
  unfold polled MaintenanceLoop.poll
  simp only [hdue, if_pos hle, hisDue, if_true]
  rfl

theorem polled_of_not_due {p : Premises} {l : MaintenanceLoop} (hdue : l.isDue p.clock = false) :
    p.polled l = { p with loop := some l } := by
  have hpoll : l.poll .memory p.clock p.ledger.limiter p.records =
      (l, p.ledger.limiter, p.records) := by
    unfold MaintenanceLoop.poll
    unfold MaintenanceLoop.isDue at hdue
    cases hmoment : l.due with
    | none => rfl
    | some due =>
        rw [hmoment] at hdue
        exact if_neg (of_decide_eq_false hdue)
  unfold polled
  rw [hpoll, hdue]
  simp

theorem exists_due {p : Premises} {l : MaintenanceLoop} (hdue : l.isDue p.clock = true) :
    ∃ due, l.due = some due ∧ due ≤ p.clock := by
  unfold MaintenanceLoop.isDue at hdue
  split at hdue
  · rename_i due hmoment
    exact ⟨due, hmoment, of_decide_eq_true hdue⟩
  · cases hdue

/-- A sweep that is served in time puts the next one a period behind it. -/
theorem served_due {l : MaintenanceLoop} {due now : Moment} (hle : now ≤ due) :
    (l.served due now).due = due.add? l.every := by
  have hlate : ¬due.nanos + MaintenanceLoop.tolerance.nanos < now.nanos := by
    have hle' : now.nanos ≤ due.nanos := hle
    omega
  simp [MaintenanceLoop.served, hlate]

/-- A record that is accepted takes its handle. -/
theorem step_put {p : Premises} {record : MappingRecord} {deadline : Moment}
    (hdeadline : p.clock.add? record.ttl = some deadline)
    (hfree : p.records.find? record.handle = none) :
    Step p { p with records := p.records.insert record.handle ⟨record, deadline⟩ } := by
  have hstep := Step.put (p := p) record
  have haccepted := MemoryStore.put_eq_ok_iff.mpr ⟨deadline, hdeadline, hfree, rfl, rfl⟩
  rw [haccepted] at hstep
  exact hstep

/-- A signal not to stop changes nothing. -/
theorem step_signal_false {p : Premises} {l : MaintenanceLoop} (hloop : p.loop = some l) :
    Step p p := by
  have hstep := Step.signal false hloop
  have hsame : ({ p with loop := l.signalled false } : Premises) = p := by
    obtain ⟨clock, loop, records, ledger⟩ := p
    cases hloop
    rfl
  rw [hsame] at hstep
  exact hstep

/-! ## Bookkeeping -/

/-- What holds with or without a loop: the limiter follows its law, the clock is not behind any
reading, and no identity is tracked without a time. -/
structure Kept (maxRequests : Nat) (window : Duration) (p : Premises) : Prop where
  shown : p.clock.Shown
  follows : p.ledger.Follows maxRequests window
  noneIdle : p.ledger.limiter.NoneIdle
  readings_le : ∀ t ∈ p.ledger.readings, t ≤ p.clock

theorem kept_opened {clock : Moment} (hshown : clock.Shown) (records : MemoryStore)
    (maxRequests : Nat) (window : Duration) :
    (opened clock records maxRequests window).Kept maxRequests window where
  shown := hshown
  follows := Ledger.follows_fresh maxRequests window
  noneIdle := noneIdle_fresh maxRequests window
  readings_le := by simp [opened, Ledger.readings, Ledger.fresh]

/-- A call leaves the books in order. -/
theorem Kept.enter {maxRequests : Nat} {window : Duration} {p : Premises}
    (h : p.Kept maxRequests window) (hmax : 1 ≤ maxRequests) (call : Call)
    (hshown : call.now.Shown) (hnow : call.now ≤ p.clock)
    (hlast : ∀ t ∈ p.ledger.readings, t ≤ call.now) (loop : Option MaintenanceLoop)
    (records : MemoryStore) :
    (⟨p.clock, loop, records, p.ledger.enter call⟩ : Premises).Kept maxRequests window where
  shown := h.shown
  follows := h.follows.enter hshown hlast
  noneIdle := h.noneIdle.answer (h.follows.remembers.maxRequests_eq ▸ hmax) call
  readings_le := by
    intro t ht
    have ht' : t ∈ (p.ledger.enter call).readings := ht
    rw [Ledger.readings_enter] at ht'
    cases List.mem_append.mp ht' with
    | inl hold => exact h.readings_le t hold
    | inr hnew => exact List.mem_singleton.mp hnew ▸ hnow

theorem Kept.step {maxRequests : Nat} {window : Duration} {p p' : Premises}
    (h : p.Kept maxRequests window) (hmax : 1 ≤ maxRequests) (hstep : Step p p') :
    p'.Kept maxRequests window := by
  cases hstep with
  | advance hle hshown hprompt =>
      exact ⟨hshown, h.follows, h.noneIdle, fun t ht => Int.le_trans (h.readings_le t ht) hle⟩
  | put record => exact ⟨h.shown, h.follows, h.noneIdle, h.readings_le⟩
  | get handle => exact ⟨h.shown, h.follows, h.noneIdle, h.readings_le⟩
  | call call hshown hnow hlast => exact h.enter hmax call hshown hnow hlast _ _
  | @poll l hloop =>
      cases hdue : l.isDue p.clock with
      | false =>
          rw [polled_of_not_due hdue]
          exact ⟨h.shown, h.follows, h.noneIdle, h.readings_le⟩
      | true =>
          obtain ⟨due, hmoment, hle⟩ := exists_due hdue
          rw [polled_of_due hmoment hle]
          exact h.enter hmax (.purgeIdle p.clock) h.shown (Int.le_refl _) h.readings_le _ _
  | signal stop hloop => exact ⟨h.shown, h.follows, h.noneIdle, h.readings_le⟩

theorem Kept.run {maxRequests : Nat} {window : Duration} {p p' : Premises}
    (h : p.Kept maxRequests window) (hmax : 1 ≤ maxRequests) (hrun : Run p p') :
    p'.Kept maxRequests window := by
  induction hrun with
  | refl => exact h
  | tail _ hstep ih => exact ih.step hmax hstep

/-! ## What a sweep leaves -/

/-- What is held was alive at a moment at which the limiter was purged. -/
structure AliveAt (m : Moment) (p : Premises) : Prop where
  records : ∀ handle stored, p.records.find? handle = some stored → m ≤ stored.deadline
  purged : m ∈ p.ledger.readings
  entries : p.ledger.RecentSince m

/-- What a sweep leaves is alive. -/
theorem aliveAt_sweep {maxRequests : Nat} {window : Duration} {p : Premises}
    (h : p.Kept maxRequests window) (loop : Option MaintenanceLoop) :
    (⟨p.clock, loop, (MemoryStore.evictExpired p.clock p.records).2,
      p.ledger.enter (.purgeIdle p.clock)⟩ : Premises).AliveAt p.clock where
  records := by
    intro handle stored hfind
    have halive := (MemoryStore.find?_evictExpired_eq_some_iff.mp hfind).2
    exact Int.le_of_lt halive
  purged := by
    show p.clock ∈ (p.ledger.enter (.purgeIdle p.clock)).readings
    rw [Ledger.readings_enter]
    exact List.mem_append_right _ (List.mem_singleton.mpr rfl)
  entries := Ledger.recentSince_purge h.follows.inOrder h.follows.remembers h.shown

/-- A record that comes in expires after the moment. -/
theorem AliveAt.put {m : Moment} {p : Premises} (h : p.AliveAt m) (hclock : m ≤ p.clock)
    (record : MappingRecord) :
    ({ p with records := (MemoryStore.put p.clock record p.records).2 } : Premises).AliveAt m where
  records := by
    intro handle stored hfind
    have hfind' : (MemoryStore.put p.clock record p.records).2.find? handle = some stored := hfind
    cases hput : MemoryStore.put p.clock record p.records with
    | mk result after =>
        rw [hput] at hfind'
        cases result with
        | error e =>
            rw [MemoryStore.put_error hput] at hfind'
            exact h.records handle stored hfind'
        | ok key =>
            -- Only the new record has a deadline that was not held before.
            obtain ⟨deadline, hdeadline, -, -, rfl⟩ := MemoryStore.put_eq_ok_iff.mp hput
            by_cases hsame : handle = record.handle
            · rw [hsame, Table.find?_insert_self] at hfind'
              obtain rfl := Option.some.inj hfind'
              have hnanos := Moment.nanos_of_add? hdeadline
              have hclock' : m.nanos ≤ p.clock.nanos := hclock
              show m.nanos ≤ deadline.nanos
              omega
            · rw [Table.find?_insert_ne _ hsame] at hfind'
              exact h.records handle stored hfind'
  purged := h.purged
  entries := h.entries

/-- A request for a record brings nothing in. -/
theorem AliveAt.get {m : Moment} {p : Premises} (h : p.AliveAt m) (handle : Handle) :
    ({ p with records := (MemoryStore.get p.clock handle p.records).2 } : Premises).AliveAt m where
  records := by
    intro other stored hfind
    exact h.records other stored
      ((MemoryStore.thins_get p.clock handle p.records).find?_eq_some hfind)
  purged := h.purged
  entries := h.entries

/-- A call of the limiter comes with a reading from after the purge. -/
theorem AliveAt.call {m : Moment} {maxRequests : Nat} {window : Duration} {p : Premises}
    (h : p.AliveAt m) (hkept : p.Kept maxRequests window) (hmax : 1 ≤ maxRequests) {call : Call}
    (hshown : call.now.Shown) (hlast : ∀ t ∈ p.ledger.readings, t ≤ call.now) :
    ({ p with ledger := p.ledger.enter call } : Premises).AliveAt m where
  records := h.records
  purged := by
    show m ∈ (p.ledger.enter call).readings
    rw [Ledger.readings_enter]
    exact List.mem_append_left _ h.purged
  entries := h.entries.enter hkept.follows.inOrder hkept.follows.remembers hmax hshown
    (hlast m h.purged)

/-! ## The last sweep -/

/-- A loop that was started at `start` with a period has last swept at `swept`; before its first
sweep that is its start. -/
structure SweptAt (start : Moment) (every : Duration) (clock : Moment) (l : MaintenanceLoop)
    (swept : Moment) : Prop where
  shown : swept.Shown
  start_le : start ≤ swept
  le_clock : swept ≤ clock
  every_eq : l.every = every
  due_eq : l.due = swept.add? every
  /-- The next sweep has not been missed. -/
  not_late : ∀ due, l.due = some due → clock ≤ due

/-- A sweep now is one period before the next one. -/
theorem SweptAt.of_due {start clock : Moment} {every : Duration} {l : MaintenanceLoop}
    (hshown : clock.Shown) (hstart : start ≤ clock) (hevery : l.every = every)
    (hdue : l.due = clock.add? every) : SweptAt start every clock l clock where
  shown := hshown
  start_le := hstart
  le_clock := Int.le_refl _
  every_eq := hevery
  due_eq := hdue
  not_late := by
    intro due hnext
    have hnanos := Moment.nanos_of_add? (hdue.symm.trans hnext)
    show clock.nanos ≤ due.nanos
    omega

/-- The last sweep, or the start, is at most one period ago. -/
theorem SweptAt.clock_le {start clock swept : Moment} {every : Duration} {l : MaintenanceLoop}
    (h : SweptAt start every clock l swept) (hclock : clock.Shown) :
    clock.nanos ≤ swept.nanos + every.nanos := by
  cases hdue : swept.add? every with
  | some due =>
      have hle : clock.nanos ≤ due.nanos := h.not_late due (h.due_eq.trans hdue)
      have hnanos := Moment.nanos_of_add? hdue
      omega
  | none =>
      -- The next sweep lies beyond all moments that the clock can show.
      unfold Moment.add? Moment.ofNanos? at hdue
      split at hdue
      · cases hdue
      · rename_i hout
        have hlow := h.shown.1
        have hhigh := hclock.2
        omega

/-- A loop that is running has swept in time, and what is held was alive then.  Before the first
sweep nothing is known of what is held. -/
def Tidy (start : Moment) (every : Duration) (p : Premises) : Prop :=
  ∀ l, p.loop = some l →
    ∃ swept, SweptAt start every p.clock l swept ∧ (swept = start ∨ p.AliveAt swept)

theorem tidy_started {p : Premises} (hclock : p.clock.Shown) (every : Duration) :
    (p.started every).Tidy p.clock every := by
  intro l hloop
  have hstart : MaintenanceLoop.start? every p.clock = some l := hloop
  unfold MaintenanceLoop.start? at hstart
  split at hstart
  · cases hstart
  · cases hstart
    exact ⟨p.clock, SweptAt.of_due hclock (Int.le_refl _) rfl rfl, .inl rfl⟩

/-- An event that is no sweep and takes no time leaves the last sweep where it was, if it brings in
nothing that was dead then. -/
theorem Tidy.keep {start : Moment} {every : Duration} {p p' : Premises} (h : p.Tidy start every)
    (hclock : p'.clock = p.clock) (hloop : ∀ l, p'.loop = some l → p.loop = some l)
    (halive : ∀ m, m ≤ p.clock → p.AliveAt m → p'.AliveAt m) : p'.Tidy start every := by
  intro l hrunning
  obtain ⟨swept, hswept, hthen⟩ := h l (hloop l hrunning)
  rw [hclock]
  exact ⟨swept, hswept, hthen.imp_right (halive swept hswept.le_clock)⟩

/-- A poll serves a sweep that is due at its own moment. -/
theorem Tidy.polled {start : Moment} {every : Duration} {maxRequests : Nat} {window : Duration}
    {p : Premises} {l : MaintenanceLoop} (h : p.Tidy start every)
    (hkept : p.Kept maxRequests window) (hloop : p.loop = some l) :
    (p.polled l).Tidy start every := by
  cases hdue : l.isDue p.clock with
  | false =>
      rw [polled_of_not_due hdue]
      refine h.keep rfl ?_ ?_
      · intro l' hloop'
        cases hloop'
        exact hloop
      · intro m _ halive
        exact ⟨halive.records, halive.purged, halive.entries⟩
  | true =>
      -- What was alive at the last sweep is of no use here: the new sweep takes its place.
      obtain ⟨swept, hswept, -⟩ := h l hloop
      obtain ⟨due, hmoment, hle⟩ := exists_due hdue
      -- The clock has come to the due moment and has not gone beyond it.
      have hnot : p.clock ≤ due := hswept.not_late due hmoment
      have hnow : due = p.clock := congrArg Moment.mk (Int.le_antisymm hle hnot)
      have hnext : (l.served due p.clock).due = p.clock.add? every := by
        rw [served_due hnot, hswept.every_eq, hnow]
      have hstart : start ≤ p.clock := Int.le_trans hswept.start_le hswept.le_clock
      rw [polled_of_due hmoment hle]
      intro l' hloop'
      cases hloop'
      exact ⟨p.clock, SweptAt.of_due hkept.shown hstart hswept.every_eq hnext,
        .inr (aliveAt_sweep hkept _)⟩

/-- Whatever happens on the premises, the loop has swept in time.  No event but a sweep moves the
last sweep, and none brings in what was dead at that time. -/
theorem Tidy.step {start : Moment} {every : Duration} {maxRequests : Nat} {window : Duration}
    {p p' : Premises} (h : p.Tidy start every) (hkept : p.Kept maxRequests window)
    (hmax : 1 ≤ maxRequests) (hstep : Step p p') : p'.Tidy start every := by
  cases hstep with
  | @advance later hle hshown hprompt =>
      intro l hloop
      obtain ⟨swept, hswept, halive⟩ := h l hloop
      have hlater : SweptAt start every later l swept :=
        { hswept with
          le_clock := Int.le_trans hswept.le_clock hle
          not_late := fun due hdue => hprompt l due hloop hdue }
      exact ⟨swept, hlater, halive.imp_right fun h => ⟨h.records, h.purged, h.entries⟩⟩
  | put record => exact h.keep rfl (fun _ => id) fun m hm halive => halive.put hm record
  | get handle => exact h.keep rfl (fun _ => id) fun m _ halive => halive.get handle
  | call call hshown hnow hlast =>
      exact h.keep rfl (fun _ => id) fun m _ halive => halive.call hkept hmax hshown hlast
  | poll hloop => exact h.polled hkept hloop
  | @signal l stop hloop =>
      refine h.keep rfl ?_ ?_
      · intro l' hsignalled
        have hsame : l.signalled stop = some l' := hsignalled
        unfold MaintenanceLoop.signalled at hsame
        split at hsame
        · cases hsame
        · rw [hloop]
          exact hsame
      · intro m _ halive
        exact ⟨halive.records, halive.purged, halive.entries⟩

theorem Tidy.run {start : Moment} {every : Duration} {maxRequests : Nat} {window : Duration}
    {p p' : Premises} (h : p.Tidy start every) (hkept : p.Kept maxRequests window)
    (hmax : 1 ≤ maxRequests) (hrun : Run p p') : p'.Tidy start every := by
  induction hrun with
  | refl => exact h
  | tail hearlier hstep ih => exact ih.step (hkept.run hmax hearlier) hmax hstep

/-- While the loop runs, no record is held longer than one period behind its deadline. -/
theorem Tidy.clock_le_deadline {start : Moment} {every : Duration} {p : Premises}
    (h : p.Tidy start every) (hshown : p.clock.Shown) (hrunning : p.loop ≠ none) {handle : Handle}
    {stored : StoredRecord} (hfind : p.records.find? handle = some stored) :
    p.clock.nanos ≤ max stored.deadline.nanos start.nanos + every.nanos := by
  obtain ⟨l, hloop⟩ := Option.ne_none_iff_exists'.mp hrunning
  obtain ⟨swept, hswept, halive⟩ := h l hloop
  have hclock := hswept.clock_le hshown
  cases halive with
  | inl hstart =>
      rw [hstart] at hclock
      omega
  | inr halive =>
      have halive' : swept.nanos ≤ stored.deadline.nanos := halive.records handle stored hfind
      omega

/-- While the loop runs, a tracked identity has been admitted at a time whose window ended at most one
period ago. -/
theorem Tidy.clock_le_window {start : Moment} {every : Duration} {maxRequests : Nat}
    {window : Duration} {p : Premises} (h : p.Tidy start every)
    (hkept : p.Kept maxRequests window) (hrunning : p.loop ≠ none) {identity : String}
    (htracks : p.ledger.limiter.Tracks identity) :
    ∃ t ∈ admittedTimes identity p.ledger.past,
      p.clock.nanos ≤ max (t.nanos + window.nanos) start.nanos + every.nanos := by
  obtain ⟨l, hloop⟩ := Option.ne_none_iff_exists'.mp hrunning
  obtain ⟨swept, hswept, halive⟩ := h l hloop
  have hclock := hswept.clock_le hkept.shown
  -- A held time is the time of an admitted request, since the past splits at what is forgotten.
  have hadmitted : ∀ t ∈ p.ledger.limiter.times identity,
      t ∈ admittedTimes identity p.ledger.past := by
    intro t ht
    obtain ⟨forgotten, hsplit, -⟩ := hkept.follows.remembers.held identity
    rw [hsplit]
    exact List.mem_append_right _ ht
  cases halive with
  | inl hstart =>
      -- Nothing has been swept yet, and any time of the entry will do.
      obtain ⟨t, rest, htimes⟩ := List.exists_cons_of_ne_nil (hkept.noneIdle identity htracks)
      refine ⟨t, hadmitted t (htimes ▸ List.mem_cons_self), ?_⟩
      rw [hstart] at hclock
      omega
  | inr halive =>
      obtain ⟨t, ht, hrecent⟩ := halive.entries identity htracks
      rw [hkept.follows.remembers.window_eq] at hrecent
      refine ⟨t, hadmitted t ht, ?_⟩
      omega

/-- The loop bounds how long dead state lingers.  The premises are opened with any records and used
for a while; then the loop is started, and anything may happen beside it.  As long as it runs, no
record is held longer than one period behind its deadline, and an identity is tracked only if it has
been admitted at a time whose window ended at most one period ago; for what was dead before the start
the period is counted from the start. -/
theorem run_lingers_at_most {maxRequests : Nat} {window every : Duration} {clock : Moment}
    {records : MemoryStore} {p p' : Premises} (hmax : 1 ≤ maxRequests) (hevery : every ≠ .zero)
    (hshown : clock.Shown) (hbefore : Run (opened clock records maxRequests window) p)
    (hrun : Run (p.started every) p') (hrunning : p'.loop ≠ none) :
    (p.started every).loop ≠ none ∧
      (∀ handle stored, p'.records.find? handle = some stored →
        p'.clock.nanos ≤ max stored.deadline.nanos p.clock.nanos + every.nanos) ∧
      ∀ identity, p'.ledger.limiter.Tracks identity →
        ∃ t ∈ admittedTimes identity p'.ledger.past,
          p'.clock.nanos ≤ max (t.nanos + window.nanos) p.clock.nanos + every.nanos := by
  have hkept := (kept_opened hshown records maxRequests window).run hmax hbefore
  have hkeptStarted : (p.started every).Kept maxRequests window :=
    ⟨hkept.shown, hkept.follows, hkept.noneIdle, hkept.readings_le⟩
  have hkept' := hkeptStarted.run hmax hrun
  have htidy' := (tidy_started hkept.shown every).run hkeptStarted hmax hrun
  refine ⟨?_, ?_, ?_⟩
  · show MaintenanceLoop.start? every p.clock ≠ none
    rw [MaintenanceLoop.start?, if_neg hevery]
    exact Option.some_ne_none _
  · intro handle stored hfind
    exact htidy'.clock_le_deadline hkept'.shown hrunning hfind
  · intro identity htracks
    exact htidy'.clock_le_window hkept' hrunning htracks

/-- A loop with a period of ten seconds, seen after fifteen.  A record and a request came in one
second before its only sweep, and died two and three seconds behind it; both are still there. -/
theorem run_lingers_at_most_ten_seconds :
    ∃ p p' : Premises, Run (opened ⟨0⟩ .empty 1 (.ofSeconds 2)) p ∧
      Run (p.started (.ofSeconds 10)) p' ∧ p'.loop ≠ none ∧ p'.clock = ⟨15000000000⟩ ∧
      (∃ handle stored, p'.records.find? handle = some stored ∧
        stored.deadline = ⟨12000000000⟩ ∧
        p'.clock.nanos ≤ max stored.deadline.nanos p.clock.nanos + (Duration.ofSeconds 10).nanos) ∧
      p'.ledger.limiter.Tracks "a" ∧
      ∃ t ∈ admittedTimes "a" p'.ledger.past,
        p'.clock.nanos ≤ max (t.nanos + (Duration.ofSeconds 2).nanos) p.clock.nanos +
          (Duration.ofSeconds 10).nanos := by
  let record : MappingRecord := ⟨⟨Vector.replicate 16 0⟩, [], ⟨0, 0⟩, ⟨3, 0⟩⟩
  let loop : MaintenanceLoop := ⟨.ofSeconds 10, some ⟨10000000000⟩⟩
  let p : Premises := opened ⟨0⟩ .empty 1 (.ofSeconds 2)
  let p₁ : Premises := { p with clock := ⟨9000000000⟩, loop := some loop }
  let p₂ : Premises := { p₁ with ledger := p₁.ledger.enter (.check "a" p₁.clock) }
  let stored : StoredRecord := ⟨record, ⟨12000000000⟩⟩
  let p₃ : Premises := { p₂ with records := p₂.records.insert record.handle stored }
  let p₄ : Premises := { p₃ with clock := ⟨10000000000⟩ }
  let p₅ : Premises := ⟨⟨15000000000⟩, some (loop.served p₄.clock p₄.clock),
    (MemoryStore.evictExpired p₄.clock p₄.records).2, p₄.ledger.enter (.purgeIdle p₄.clock)⟩
  have hadvance : Step (p.started (.ofSeconds 10)) p₁ := by
    refine .advance (by decide) (by decide) ?_
    intro l due hl hdue
    cases hl
    cases hdue
    decide
  have hcall : Step p₁ p₂ := by
    refine .call (.check "a" p₁.clock) ?_ (Int.le_refl _) ?_
    · show Moment.Shown ⟨9000000000⟩
      decide
    · intro t ht
      cases ht
  have hput : Step p₂ p₃ := step_put (by decide +kernel) rfl
  have hsignal : Step p₃ p₃ := step_signal_false rfl
  have hadvance' : Step p₃ p₄ := by
    refine .advance (by decide) (by decide) ?_
    intro l due hl hdue
    cases hl
    cases hdue
    decide
  have hpoll : Step p₄ (p₄.polled loop) := .poll rfl
  have hpolled : p₄.polled loop = ⟨p₄.clock, some (loop.served p₄.clock p₄.clock),
      (MemoryStore.evictExpired p₄.clock p₄.records).2, p₄.ledger.enter (.purgeIdle p₄.clock)⟩ :=
    polled_of_due (show loop.due = some p₄.clock from rfl) (Int.le_refl _)
  have hnext : (loop.served p₄.clock p₄.clock).due = some ⟨20000000000⟩ := by decide +kernel
  have hadvance'' : Step (p₄.polled loop) p₅ := by
    rw [hpolled]
    refine .advance (by decide) (by decide) ?_
    intro l due hl hdue
    cases hl
    rw [hnext] at hdue
    cases hdue
    decide
  have hrun : Run (p.started (.ofSeconds 10)) p₅ :=
    ((((((Relation.ReflTransGen.single hadvance).tail hcall).tail hput).tail hsignal).tail
      hadvance').tail hpoll).tail hadvance''
  have hrunning : p₅.loop ≠ none := Option.some_ne_none _
  have htracks : p₅.ledger.limiter.Tracks "a" := by decide +kernel
  have hfind : p₅.records.find? record.handle = some stored := by
    refine MemoryStore.find?_evictExpired_eq_some_iff.mpr ⟨?_, by decide⟩
    exact Table.find?_insert_self _ _ _
  have hbound := run_lingers_at_most (by decide) (by decide) (by decide) .refl hrun hrunning
  exact ⟨p, p₅, .refl, hrun, hrunning, rfl,
    ⟨record.handle, stored, hfind, rfl, hbound.2.1 record.handle stored hfind⟩, htracks,
    hbound.2.2 "a" htracks⟩

end Premises

end NetRedact
