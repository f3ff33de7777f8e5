import Mathlib.Algebra.GroupWithZero.Nat
import NetRedact.Proofs.Moments
import NetRedact.Proofs.StoreRuns

/-!
# A map that is written once and forgets in time

What the store in memory replies can be told from what was put into it: a record is given back if it
is the last one put under its handle and its lifetime has not passed.  When the record is taken out
of the table, by a request or by a sweep, makes no difference to that.  And no record is lost: each
one that was put is in the table, or a sweep has counted it, or a request has met it expired.
-/

namespace NetRedact

/-! ## Counting records -/

namespace MemoryStore

/-- Whether a request for a record meets one that has expired. -/
def meetsExpired (now : Moment) (handle : Handle) (s : MemoryStore) : Bool :=
  (s.find? handle).any fun stored => decide (stored.deadline ≤ now)

/-- How many records have expired. -/
def countExpired (now : Moment) (s : MemoryStore) : Nat :=
  s.entries.countP fun entry => decide (entry.2.deadline ≤ now)

/-- A record has expired if it is not live. -/
theorem not_live (now : Moment) (stored : StoredRecord) :
    (!live now stored) = decide (stored.deadline ≤ now) := by
  unfold live
  rw [← decide_not]
  exact decide_eq_decide.mpr Int.not_lt

/-- A request removes the record that it meets expired, and no other one. -/
theorem size_get (now : Moment) (handle : Handle) (s : MemoryStore) :
    s.size = (get now handle s).2.size + (meetsExpired now handle s).toNat := by
  unfold get meetsExpired
  cases hfind : s.find? handle with
  | none => rfl
  | some stored =>
      rw [Option.any_some, ← not_live]
      cases hlive : live now stored with
      | true =>
          simp only [hlive, if_true]
          rfl
      | false =>
          simp only [hlive, removeExpired_eq_erase hfind hlive, Bool.false_eq_true, if_false]
          exact Table.size_erase hfind

/-- A sweep counts the expired records. -/
theorem evictExpired_fst (now : Moment) (s : MemoryStore) :
    (evictExpired now s).1 = countExpired now s := by
  have hsplit := Table.size_eq_size_filter_add (fun _ stored => live now stored) s
  unfold evictExpired countExpired
  simp only [not_live] at hsplit
  simp only
  omega

/-- A sweep removes as many records as it counts. -/
theorem size_evictExpired (now : Moment) (s : MemoryStore) :
    s.size = (evictExpired now s).2.size + (evictExpired now s).1 := by
  have hsplit := Table.size_eq_size_filter_add (fun _ stored => live now stored) s
  unfold evictExpired
  simp only
  omega

end MemoryStore

namespace MappingStore

variable {σ : Type}

/-- How many records an event has swept out. -/
def Event.swept (e : Event σ) : Nat :=
  match e.reply with
  | .evicted (.ok count) => count
  | _ => 0

/-- Whether an event is a request that has met an expired record. -/
def Event.metExpired (e : Event MemoryStore) : Bool :=
  match e.act with
  | .get handle => MemoryStore.meetsExpired e.now handle e.found
  | _ => false

/-! ## The last record put under a handle -/

/-- The record that an event has put under a handle, and when, if it has put one there. -/
def Event.put? (handle : Handle) (e : Event σ) : Option (MappingRecord × Moment) :=
  match e.act, e.reply with
  | .put record, .put (.ok _) => if record.handle = handle then some (record, e.now) else none
  | _, _ => none

/-- The record that was put last under a handle, and when. -/
def lastPut? (handle : Handle) (past : List (Event σ)) : Option (MappingRecord × Moment) :=
  (past.filterMap (Event.put? handle)).getLast?

/-- The last event counts more than all before it. -/
theorem lastPut?_concat (handle : Handle) (past : List (Event σ)) (e : Event σ) :
    lastPut? handle (past ++ [e]) = (e.put? handle).or (lastPut? handle past) := by
  unfold lastPut?
  rw [List.filterMap_append, List.getLast?_append]
  cases hput : e.put? handle with
  | none => simp [hput]
  | some entry => simp [hput]

/-! ## One act -/

/-- The store in memory accepts a record under a free handle, or it stays as it is. -/
theorem answer_put_cases (now : Moment) (record : MappingRecord) (s : MemoryStore) :
    (∃ deadline, now.add? record.ttl = some deadline ∧ s.find? record.handle = none ∧
      memory.answer now s (.put record) =
        (.put (.ok record.handle), s.insert record.handle ⟨record, deadline⟩)) ∨
    ∃ e, memory.answer now s (.put record) = (.put (.error e), s) := by
  cases hput : MemoryStore.put now record s with
  | mk result after =>
      have hanswer : memory.answer now s (.put record) = (.put result, after) :=
        congrArg (fun answered => (Response.put answered.1, answered.2)) hput
      rw [hanswer]
      cases result with
      | ok handle =>
          obtain ⟨deadline, hdeadline, hfree, hhandle, hafter⟩ := MemoryStore.put_eq_ok_iff.mp hput
          exact .inl ⟨deadline, hdeadline, hfree, by rw [hhandle, hafter]⟩
      | error e => exact .inr ⟨e, by rw [MemoryStore.put_error hput]⟩

/-- What one act does to the store in memory: either it puts a record under a handle that was free,
or it puts none anywhere and at most removes expired ones. -/
theorem answer_cases (w : Session MemoryStore) (act : Act) :
    (∃ record deadline, w.clock.add? record.ttl = some deadline ∧
      (∀ handle, (w.event memory act).put? handle =
        if record.handle = handle then some (record, w.clock) else none) ∧
      (w.perform memory act).state = w.state.insert record.handle ⟨record, deadline⟩) ∨
    ((∀ handle, (w.event memory act).put? handle = none) ∧
      w.state.Thins w.clock (w.perform memory act).state) := by
  unfold Session.event Session.perform
  cases act with
  | put record =>
      cases answer_put_cases w.clock record w.state with
      | inl haccepted =>
          obtain ⟨deadline, hdeadline, -, hanswer⟩ := haccepted
          refine .inl ⟨record, deadline, hdeadline, ?_⟩
          rw [hanswer]
          exact ⟨fun _ => rfl, rfl⟩
      | inr hrefused =>
          obtain ⟨e, hanswer⟩ := hrefused
          rw [hanswer]
          exact .inr ⟨fun _ => rfl, fun _ => .inl rfl⟩
  | get handle => exact .inr ⟨fun _ => rfl, MemoryStore.thins_get w.clock handle w.state⟩
  | evictExpired => exact .inr ⟨fun _ => rfl, MemoryStore.thins_evictExpired w.clock w.state⟩
  | advance d => exact .inr ⟨fun _ => rfl, fun _ => .inl rfl⟩

/-- What one act does to the number of records. -/
theorem size_perform (w : Session MemoryStore) (act : Act) :
    w.state.size + (w.event memory act).reply.accepts.toNat =
      (w.perform memory act).state.size + (w.event memory act).swept +
        (w.event memory act).metExpired.toNat := by
  cases act with
  | put record =>
      unfold Session.event Session.perform
      cases answer_put_cases w.clock record w.state with
      | inl haccepted =>
          obtain ⟨deadline, -, hfree, hanswer⟩ := haccepted
          rw [hanswer]
          exact (Table.size_insert ⟨record, deadline⟩ hfree).symm
      | inr hrefused =>
          obtain ⟨e, hanswer⟩ := hrefused
          rw [hanswer]
          rfl
  | get handle => exact MemoryStore.size_get w.clock handle w.state
  | evictExpired => exact MemoryStore.size_evictExpired w.clock w.state
  | advance d => rfl

/-! ## The invariant -/

/-- The table agrees with what was put into the store: under a handle there is nothing if nothing was
put there, and else the record put last is in its place.  And the number of its records comes out. -/
structure Session.Accounts (w : Session MemoryStore) : Prop where
  absent : ∀ handle, lastPut? handle w.past = none → w.state.find? handle = none
  present : ∀ handle record stored, lastPut? handle w.past = some (record, stored) →
    record.handle = handle ∧ ∃ deadline, deadline.nanos = stored.nanos + record.ttl.nanos ∧
      w.state.Holds w.clock ⟨record, deadline⟩
  balance : w.past.countP (·.reply.accepts) =
    w.state.size + (w.past.map Event.swept).sum + w.past.countP Event.metExpired

/-- At the beginning there is nothing to account for. -/
theorem Session.accounts_start (clock : Moment) :
    (start clock (.empty : MemoryStore)).Accounts where
  absent := fun _ _ => rfl
  present := by
    intro handle record stored hlast
    cases hlast
  balance := rfl

/-- An act keeps the account. -/
theorem Session.Accounts.perform {w : Session MemoryStore} (h : w.Accounts) (act : Act) :
    (w.perform memory act).Accounts where
  absent := by
    intro handle hlast
    have hsplit : ((w.event memory act).put? handle).or (lastPut? handle w.past) = none :=
      (lastPut?_concat handle w.past _).symm.trans hlast
    obtain ⟨hevent, hpast⟩ := Option.or_eq_none_iff.mp hsplit
    have hfree := h.absent handle hpast
    cases answer_cases w act with
    | inl hput =>
        obtain ⟨record, deadline, -, hputs, hstate⟩ := hput
        have hne : handle ≠ record.handle := by
          intro hsame
          rw [hputs, if_pos hsame.symm] at hevent
          cases hevent
        rw [hstate, Table.find?_insert_ne _ hne, hfree]
    | inr hkept => exact hkept.2.find?_eq_none hfree
  present := by
    intro handle record stored hlast
    have hsplit : ((w.event memory act).put? handle).or (lastPut? handle w.past) =
        some (record, stored) := (lastPut?_concat handle w.past _).symm.trans hlast
    cases answer_cases w act with
    | inl hput =>
        obtain ⟨added, deadline, hdeadline, hputs, hstate⟩ := hput
        rw [hputs] at hsplit
        by_cases hsame : added.handle = handle
        · -- The record has just been put.
          rw [if_pos hsame, Option.some_or] at hsplit
          cases hsplit
          refine ⟨hsame, deadline, Moment.nanos_of_add? hdeadline, .inl ?_⟩
          rw [hstate]
          exact Table.find?_insert_self _ _ _
        · rw [if_neg hsame, Option.none_or] at hsplit
          obtain ⟨hhandle, before, hbefore, hholds⟩ := h.present handle record stored hsplit
          refine ⟨hhandle, before, hbefore, ?_⟩
          rw [hstate]
          have hne : record.handle ≠ added.handle := fun heq => hsame (heq.symm.trans hhandle)
          exact (hholds.insert ⟨added, deadline⟩ hne).later (clock_le_perform memory w act)
    | inr hkept =>
        obtain ⟨hputs, hthins⟩ := hkept
        rw [hputs, Option.none_or] at hsplit
        obtain ⟨hhandle, deadline, hdeadline, hholds⟩ := h.present handle record stored hsplit
        exact ⟨hhandle, deadline, hdeadline,
          (hholds.thins hthins).later (clock_le_perform memory w act)⟩
  balance := by
    have hbefore := h.balance
    have hact := size_perform w act
    have hone (test : Event MemoryStore → Bool) (e : Event MemoryStore) :
        [e].countP test = (test e).toNat := by
      rw [List.countP_singleton]
      cases test e with
      | true => rfl
      | false => rfl
    show (w.past ++ [w.event memory act]).countP (·.reply.accepts) = _ +
      ((w.past ++ [w.event memory act]).map Event.swept).sum +
        (w.past ++ [w.event memory act]).countP Event.metExpired
    simp only [List.countP_append, hone, List.map_append, List.sum_append,
      List.map_cons, List.map_nil, List.sum_cons, List.sum_nil]
    omega

/-- An account is kept through any run. -/
theorem Session.Accounts.run {w : Session MemoryStore} (h : w.Accounts) (acts : List Act) :
    (w.run memory acts).Accounts := by
  induction acts generalizing w with
  | nil => exact h
  | cons act rest ih => exact ih (h.perform act)

/-! ## The law -/

/-- The record that is to be seen under a handle at a reading of the clock: the last one put there,
until its lifetime has passed. -/
def visible? (handle : Handle) (now : Moment) (past : List (Event σ)) : Option MappingRecord :=
  match lastPut? handle past with
  | some (record, stored) =>
    if now.nanos < stored.nanos + record.ttl.nanos then some record else none
  | none => none

/-- The law of a map that is written once and forgets in time. -/
structure Session.IsExpiringMap (w : Session MemoryStore) : Prop where
  /-- A request gets the visible record, and if there is none, it is told so. -/
  get : ∀ handle, (memory.get w.clock handle w.state).1 =
    match visible? handle w.clock w.past with
    | some record => .ok record
    | none => .error .notFound
  /-- What is held is the record put last, with a deadline one lifetime after it was put. -/
  held : ∀ handle stored, w.state.find? handle = some stored →
    ∃ since, lastPut? handle w.past = some (stored.record, since) ∧
      stored.deadline.nanos = since.nanos + stored.record.ttl.nanos
  /-- A record is accepted if the clock can show its deadline and nothing is held under its
  handle. -/
  accepts : ∀ record, (memory.put w.clock record w.state).1 = .ok record.handle ↔
    (∃ deadline, w.clock.add? record.ttl = some deadline) ∧ w.state.find? record.handle = none
  /-- A refused record leaves all records and deadlines as they are. -/
  refuses : ∀ record e, (memory.put w.clock record w.state).1 = .error e →
    (memory.put w.clock record w.state).2 = w.state
  /-- A sweep tells how many records have reached their deadline. -/
  sweepCounts : (memory.evictExpired w.clock w.state).1 =
    .ok (w.state.entries.countP fun entry => decide (entry.2.deadline ≤ w.clock))
  /-- A sweep leaves the records that have not reached it, as they are. -/
  sweepKeeps : ∀ handle stored,
    (memory.evictExpired w.clock w.state).2.find? handle = some stored ↔
      w.state.find? handle = some stored ∧ w.clock < stored.deadline
  /-- Every record put is held, or was counted by a sweep, or was met expired by a request. -/
  balance : w.past.countP (·.reply.accepts) =
    w.state.size + (w.past.map Event.swept).sum + w.past.countP Event.metExpired

/-- What is held was put last under its handle. -/
theorem Session.Accounts.held {w : Session MemoryStore} (h : w.Accounts) {handle : Handle}
    {stored : StoredRecord} (hfind : w.state.find? handle = some stored) :
    ∃ since, lastPut? handle w.past = some (stored.record, since) ∧
      stored.deadline.nanos = since.nanos + stored.record.ttl.nanos := by
  cases hlast : lastPut? handle w.past with
  | none =>
      rw [h.absent handle hlast] at hfind
      cases hfind
  | some entry =>
      obtain ⟨record, since⟩ := entry
      obtain ⟨hhandle, deadline, hdeadline, hholds⟩ := h.present handle record since hlast
      subst hhandle
      cases hholds with
      | inl hplace =>
          cases hplace.symm.trans hfind
          exact ⟨since, rfl, hdeadline⟩
      | inr hgone =>
          cases hgone.2.symm.trans hfind

/-- A request is answered by what was put into the store. -/
theorem Session.Accounts.get {w : Session MemoryStore} (h : w.Accounts) (handle : Handle) :
    (memory.get w.clock handle w.state).1 =
      match visible? handle w.clock w.past with
      | some record => .ok record
      | none => .error .notFound := by
  unfold visible?
  cases hlast : lastPut? handle w.past with
  | none =>
      show (MemoryStore.get w.clock handle w.state).1 = _
      rw [MemoryStore.get_fst, MemoryStore.shows, h.absent handle hlast]
      rfl
  | some entry =>
      obtain ⟨record, stored⟩ := entry
      obtain ⟨hhandle, deadline, hdeadline, hholds⟩ := h.present handle record stored hlast
      have hget := hholds.get_fst
      simp only [hhandle] at hget
      show (MemoryStore.get w.clock handle w.state).1 = _
      rw [hget]
      show (if w.clock.nanos < deadline.nanos then _ else _) = _
      rw [hdeadline]
      by_cases hvisible : w.clock.nanos < stored.nanos + record.ttl.nanos
      · simp only [hvisible, if_true]
      · simp only [hvisible, if_false]

/-- The store in memory is a map that is written once and forgets in time: whatever is done to it,
and at whatever intervals, the law of such a map holds. -/
theorem memory_run_expiringMap (clock : Moment) (acts : List Act) :
    ((Session.start clock .empty).run memory acts).IsExpiringMap := by
  have haccounts := (Session.accounts_start clock).run acts
  generalize (Session.start clock .empty).run memory acts = w at haccounts
  exact {
    get := haccounts.get
    held := fun _ _ => haccounts.held
    accepts := fun _ => MemoryStore.put_fst_eq_ok_iff
    refuses := fun _ _ hput => MemoryStore.put_error (Prod.ext hput rfl)
    sweepCounts := congrArg Except.ok (MemoryStore.evictExpired_fst w.clock w.state)
    sweepKeeps := fun _ _ => MemoryStore.find?_evictExpired_eq_some_iff
    balance := haccounts.balance }

/-- A record of five seconds that is put again after five seconds.  It can be, since a request has
met the first one expired. -/
example :
    let record : MappingRecord := ⟨⟨.replicate 16 0⟩, [], ⟨0, 0⟩, ⟨5, 0⟩⟩
    let w := (Session.start ⟨0⟩ .empty).run memory
      [.put record, .put record, .advance (.ofSeconds 5), .get record.handle, .put record]
    visible? record.handle w.clock w.past = some record ∧
      w.past.countP (·.reply.accepts) = 2 ∧ w.state.size = 1 ∧ w.past.countP Event.metExpired = 1 := by
  decide

end MappingStore

end NetRedact
