import NetRedact.Proofs.StoreRuns
import NetRedact.Store.RedisServer

/-!
# What a sweep changes for clients

A record whose time is up is not shown any more, and it is a matter of housekeeping when it is taken
out.  `Hides` says of a store that such housekeeping goes unseen, because a state and the swept state
stay related whatever clients do.

A server with expiry of its own hides it always.  The store in memory hides it with one exception: a
record whose handle is still held by an expired one is refused, and after a sweep it is accepted.
-/

namespace NetRedact

namespace MappingStore

variable {σ : Type}

/-! ## What clients see -/

/-- The acts that are no sweeps. -/
def withoutSweeps (acts : List Act) : List Act :=
  acts.filter fun act => act ≠ .evictExpired

/-- What clients see of an event.  They do not see sweeps. -/
def Event.seen? (e : Event σ) : Option (Act × Response) :=
  if e.act = .evictExpired then none else some (e.act, e.reply)

/-- What clients see of a session. -/
def Session.seen (w : Session σ) : List (Act × Response) :=
  w.past.filterMap Event.seen?

/-- A sweep takes no time. -/
theorem Session.clock_perform_sweep (store : MappingStore σ) (w : Session σ) :
    (w.perform store .evictExpired).clock = w.clock :=
  congrArg Moment.mk (Int.add_zero _)

/-- Clients do not see a sweep. -/
theorem Session.seen_perform_sweep (store : MappingStore σ) (w : Session σ) :
    (w.perform store .evictExpired).seen = w.seen := by
  unfold seen perform
  rw [List.filterMap_append]
  exact List.append_nil _

/-- Clients see every other act and the reply to it. -/
theorem Session.seen_perform (store : MappingStore σ) (w : Session σ) {act : Act}
    (hact : act ≠ .evictExpired) :
    (w.perform store act).seen = w.seen ++ [(act, (store.answer w.clock w.state act).1)] := by
  have hseen : (w.event store act).seen? = some (act, (store.answer w.clock w.state act).1) :=
    if_neg hact
  unfold seen perform
  rw [List.filterMap_append]
  simp [hseen]

/-- What has been seen stays so. -/
theorem Session.seen_prefix_run (store : MappingStore σ) (w : Session σ) (acts : List Act) :
    w.seen <+: (w.run store acts).seen := by
  obtain ⟨events, hpast, -⟩ := w.exists_past_run store acts
  unfold seen
  rw [hpast, List.filterMap_append]
  exact List.prefix_append _ _

/-! ## Housekeeping that goes unseen -/

/-- The sweeps of one store go unseen next to another one without sweeps, as long as all events of
the latter are harmless: related states give the same replies and stay related, and a sweep of the
second one keeps them related. -/
structure Hides (store swept : MappingStore σ) (related : Moment → σ → σ → Prop)
    (harmless : Event σ → Prop) : Prop where
  sweep : ∀ {now s t}, related now s t → related now s (swept.evictExpired now t).2
  act : ∀ {now s t act}, related now s t → act ≠ .evictExpired →
    harmless ⟨now, s, act, (store.answer now s act).1⟩ →
      (swept.answer now t act).1 = (store.answer now s act).1 ∧
        related now (store.answer now s act).2 (swept.answer now t act).2
  later : ∀ {now later s t}, now ≤ later → related now s t → related later s t

/-- Hidden sweeps go unseen in a whole run. -/
theorem Hides.seen_run {store swept : MappingStore σ} {related : Moment → σ → σ → Prop}
    {harmless : Event σ → Prop} (h : Hides store swept related harmless) (acts : List Act)
    {w w' : Session σ} (hclock : w'.clock = w.clock) (hrelated : related w.clock w.state w'.state)
    (hseen : w'.seen = w.seen)
    (hharmless : ∀ e ∈ (w.run store (withoutSweeps acts)).past, harmless e) :
    (w'.run swept acts).seen = (w.run store (withoutSweeps acts)).seen := by
  induction acts generalizing w w' with
  | nil => exact hseen
  | cons act rest ih =>
      obtain ⟨clock, t, past⟩ := w'
      obtain rfl : clock = w.clock := hclock
      by_cases hsweep : act = .evictExpired
      · -- Only the swept store moves.
        subst hsweep
        refine ih (Session.clock_perform_sweep swept _) (h.sweep hrelated) ?_ hharmless
        rw [Session.seen_perform_sweep, hseen]
      · have hplain : withoutSweeps (act :: rest) = act :: withoutSweeps rest :=
          List.filter_cons_of_pos (by simpa using hsweep)
        rw [hplain] at hharmless ⊢
        -- Both stores move.  The event is one of the whole run, hence harmless.
        have hevent : harmless (w.event store act) := by
          obtain ⟨events, hpast, -⟩ := (w.perform store act).exists_past_run store
            (withoutSweeps rest)
          refine hharmless _ ?_
          show w.event store act ∈ ((w.perform store act).run store (withoutSweeps rest)).past
          rw [hpast]
          simp [Session.perform]
        obtain ⟨hreply, hafter⟩ := h.act hrelated hsweep hevent
        refine ih rfl (h.later (w.clock_le_perform store act) hafter) ?_ hharmless
        rw [Session.seen_perform _ _ hsweep, Session.seen_perform _ _ hsweep, hseen, hreply]

end MappingStore

/-! ## The server -/

namespace Redis.Server

/-- Whether a value is live at a reading of the clock. -/
def live (now : Moment) (stored : ServerValue) : Bool :=
  stored.deadline.all fun deadline => decide (now < deadline)

/-- The server without its expired values. -/
def purge (now : Moment) (s : Server) : Server :=
  s.filter fun _ stored => live now stored

/-- From a reading of the clock on, two servers show the same values. -/
def Agrees (now : Moment) (s t : Server) : Prop :=
  ∀ key later, now ≤ later → t.live? later key = s.live? later key

/-- A server shows the values that are live. -/
theorem live?_eq (now : Moment) (key : List Char) (s : Server) :
    s.live? now key = ((s.find? key).filter (live now)).map ServerValue.value := by
  unfold live? live
  cases s.find? key with
  | none => rfl
  | some stored =>
      obtain ⟨value, deadline⟩ := stored
      cases deadline with
      | none => rfl
      | some deadline =>
          by_cases hlive : now < deadline
          · simp [hlive, Option.filter]
          · simp [hlive, Option.filter]

/-- What is live later is live now. -/
theorem live_of_le {now later : Moment} (hle : now ≤ later) {stored : ServerValue}
    (hlive : live later stored = true) : live now stored = true := by
  unfold live at hlive ⊢
  rw [Option.all_eq_true] at hlive ⊢
  intro deadline hdeadline
  exact decide_eq_true (Int.lt_of_le_of_lt hle (of_decide_eq_true (hlive deadline hdeadline)))

/-- A purge changes nothing that is shown from then on. -/
theorem agrees_purge (now : Moment) (s : Server) : Agrees now s (s.purge now) := by
  intro key later hle
  rw [live?_eq, live?_eq]
  unfold purge
  rw [Table.find?_filter, Option.filter_filter]
  congr 2
  funext stored
  rw [Bool.and_eq_right_iff_imp]
  exact live_of_le hle

/-- Servers that show the same values do the same. -/
theorem Agrees.execute {now : Moment} {s t : Server} (h : Agrees now s t) (command : Command) :
    (t.execute now command).1 = (s.execute now command).1 ∧
      Agrees now (s.execute now command).2 (t.execute now command).2 := by
  have hnow (key : List Char) : t.live? now key = s.live? now key := h key now (Int.le_refl _)
  cases command with
  | ping => exact ⟨rfl, h⟩
  | get key =>
      unfold Server.execute
      simp only [hnow]
      cases s.live? now key with
      | none => exact ⟨rfl, h⟩
      | some value => exact ⟨rfl, h⟩
  | setFresh key value milliseconds =>
      unfold Server.execute
      by_cases hrange : milliseconds = 0 ∨ lifetimeBound ≤ milliseconds
      · simp only [hrange, if_true]
        exact ⟨trivial, h⟩
      · simp only [hrange, if_false, hnow]
        cases s.live? now key with
        | some _ => exact ⟨rfl, h⟩
        | none =>
            refine ⟨rfl, ?_⟩
            intro other later hle
            by_cases hother : other = key
            · subst hother
              simp only [live?_eq, Table.find?_insert_self]
            · have hsame := h other later hle
              simp only [live?_eq] at hsame
              simp only [live?_eq, Table.find?_insert_ne _ hother]
              exact hsame

end Redis.Server

/-- The store in a server that removes its expired values whenever it is swept. -/
def Redis.purgingStore (nameSpace : List Char) : MappingStore Redis.Server :=
  { Redis.serverStore nameSpace with
    evictExpired := fun now server => (.ok 0, server.purge now) }

/-- A server hides when it removes its expired values. -/
theorem MappingStore.serverStore_hides (nameSpace : List Char) :
    Hides (Redis.serverStore nameSpace) (Redis.purgingStore nameSpace) Redis.Server.Agrees
      fun _ => True where
  sweep := by
    intro now s t hagrees key later hle
    exact (Redis.Server.agrees_purge now t key later hle).trans (hagrees key later hle)
  act := by
    intro now s t act hagrees hact _
    cases act with
    | put record =>
        obtain ⟨hreply, hafter⟩ := hagrees.execute (Redis.putCommand nameSpace record)
        refine ⟨?_, hafter⟩
        exact congrArg (fun reply => Response.put (Redis.putResult record.handle (some reply)))
          hreply
    | get handle =>
        obtain ⟨hreply, hafter⟩ := hagrees.execute (.get (Redis.keyOf nameSpace handle))
        exact ⟨congrArg (fun reply => Response.got (Redis.getResult (some reply))) hreply, hafter⟩
    | evictExpired => exact absurd rfl hact
    | advance d => exact ⟨rfl, hagrees⟩
  later := fun hle hagrees key later hlater => hagrees key later (Int.le_trans hle hlater)

/-! ## The store in memory -/

namespace MemoryStore

/-- What is not shown any more is not shown later. -/
theorem shows_eq_none_of_le {now later : Moment} {s : MemoryStore} {handle : Handle}
    (hle : now ≤ later) (hnone : shows now s handle = none) : shows later s handle = none := by
  unfold shows at hnone ⊢
  rw [Option.filter_eq_none_iff] at hnone ⊢
  intro stored hfind hlive
  exact hnone stored hfind
    (decide_eq_true (Int.lt_of_le_of_lt hle (of_decide_eq_true hlive)))

/-- Thinning out changes nothing under a handle, or it removes what is not shown. -/
theorem Thins.same_or_gone {now : Moment} {s t : MemoryStore} (h : Thins now s t)
    (handle : Handle) : t.find? handle = s.find? handle ∨
      t.find? handle = none ∧ shows now s handle = none := by
  cases h handle with
  | inl hsame => exact .inl hsame
  | inr hshown =>
      cases hvisible : shows now s handle with
      | none => exact .inr ⟨hshown.trans hvisible, rfl⟩
      | some stored =>
          have hfind : s.find? handle = some stored := (Option.filter_eq_some_iff.mp hvisible).1
          exact .inl (hshown.trans (hvisible.trans hfind.symm))

/-- Thinning out changes nothing that is shown. -/
theorem Thins.shows_eq {now : Moment} {s t : MemoryStore} (h : Thins now s t) (handle : Handle) :
    shows now t handle = shows now s handle := by
  cases h.same_or_gone handle with
  | inl hsame =>
      unfold shows
      rw [hsame]
  | inr hgone =>
      rw [hgone.2]
      unfold shows
      rw [hgone.1]
      rfl

/-- What has been removed as expired has expired later, too. -/
theorem Thins.later {now later : Moment} {s t : MemoryStore} (h : Thins now s t)
    (hle : now ≤ later) : Thins later s t := by
  intro handle
  cases h.same_or_gone handle with
  | inl hsame => exact .inl hsame
  | inr hgone => exact .inr (hgone.1.trans (shows_eq_none_of_le hle hgone.2).symm)

/-- A sweep thins out further. -/
theorem Thins.evictExpired {now : Moment} {s t : MemoryStore} (h : Thins now s t) :
    Thins now s (evictExpired now t).2 :=
  fun handle => .inr ((evictExpired_snd now t handle).trans (h.shows_eq handle))

/-- A request for a record gets the same from a table that was thinned out. -/
theorem Thins.get {now : Moment} {s t : MemoryStore} (h : Thins now s t) (handle : Handle) :
    (get now handle t).1 = (get now handle s).1 ∧
      Thins now (get now handle s).2 (get now handle t).2 := by
  refine ⟨?_, ?_⟩
  · rw [get_fst, get_fst, h.shows_eq]
  · intro other
    unfold shows
    rw [get_snd, get_snd]
    by_cases hother : other = handle
    · rw [if_pos hother, if_pos hother]
      exact .inl (h.shows_eq handle)
    · rw [if_neg hother, if_neg hother]
      exact h other

/-- A record meets the same fate in a table that was thinned out, unless it is refused because of
one that is not shown. -/
theorem Thins.put {now : Moment} {s t : MemoryStore} (h : Thins now s t) {record : MappingRecord}
    (hshown : (put now record s).1 = .error (.alreadyExists record.handle) →
      shows now s record.handle ≠ none) :
    (put now record t).1 = (put now record s).1 ∧
      Thins now (put now record s).2 (put now record t).2 := by
  unfold MemoryStore.put at hshown ⊢
  cases hdeadline : now.add? record.ttl with
  | none => exact ⟨rfl, h⟩
  | some deadline =>
      rw [hdeadline] at hshown
      unfold occupy at hshown ⊢
      cases hfind : s.find? record.handle with
      | none =>
          simp only [hfind, h.find?_eq_none hfind]
          refine ⟨trivial, ?_⟩
          intro other
          unfold shows
          by_cases hother : other = record.handle
          · subst hother
            rw [Table.find?_insert_self, Table.find?_insert_self]
            exact .inl rfl
          · rw [Table.find?_insert_ne _ hother, Table.find?_insert_ne _ hother]
            exact h other
      | some stored =>
          -- The record in the way is shown, so it has not been taken out.
          simp only [hfind, ne_eq, forall_const] at hshown
          have hsame : t.find? record.handle = some stored := by
            cases h.same_or_gone record.handle with
            | inl hsame => exact hsame.trans hfind
            | inr hgone => exact absurd hgone.2 hshown
          simp only [hfind, hsame]
          exact ⟨trivial, h⟩

end MemoryStore

namespace MappingStore

/-- Whether a record has been refused because of one that is not shown any more. -/
def Event.Stale (e : Event MemoryStore) : Prop :=
  ∃ record, e.act = .put record ∧ e.reply = .put (.error (.alreadyExists record.handle)) ∧
    MemoryStore.shows e.now e.found record.handle = none

/-- The store in memory hides its sweeps as long as no record is refused because of an expired
one. -/
theorem memory_hides : Hides memory memory MemoryStore.Thins fun e => ¬e.Stale where
  sweep := MemoryStore.Thins.evictExpired
  act := by
    intro now s t act hthins hact hharmless
    cases act with
    | put record =>
        have hshown (hrefused : (MemoryStore.put now record s).1 =
            .error (.alreadyExists record.handle)) : MemoryStore.shows now s record.handle ≠ none :=
          fun hnone => hharmless ⟨record, rfl, congrArg Response.put hrefused, hnone⟩
        obtain ⟨hreply, hafter⟩ := hthins.put hshown
        exact ⟨congrArg Response.put hreply, hafter⟩
    | get handle =>
        obtain ⟨hreply, hafter⟩ := hthins.get handle
        exact ⟨congrArg Response.got hreply, hafter⟩
    | evictExpired => exact absurd rfl hact
    | advance d => exact ⟨rfl, hthins⟩
  later := fun hle hthins => hthins.later hle

/-- After a sweep a record is accepted that was refused because of an expired one. -/
theorem Event.Stale.accepted_after_sweep {w : Session MemoryStore} {act : Act}
    (hstale : (w.event memory act).Stale) :
    ∃ record, act = .put record ∧
      (memory.answer w.clock w.state act).1 = .put (.error (.alreadyExists record.handle)) ∧
      (memory.answer w.clock (memory.evictExpired w.clock w.state).2 act).1 =
        .put (.ok record.handle) := by
  obtain ⟨record, hact, hreply, hunseen⟩ := hstale
  have hact' : act = .put record := hact
  subst hact'
  refine ⟨record, rfl, hreply, ?_⟩
  have hrefused : (MemoryStore.put w.clock record w.state).1 =
      .error (.alreadyExists record.handle) := Response.put.inj hreply
  cases hdeadline : w.clock.add? record.ttl with
  | none =>
      unfold MemoryStore.put at hrefused
      rw [hdeadline] at hrefused
      cases hrefused
  | some deadline =>
      have hfree : (MemoryStore.evictExpired w.clock w.state).2.find? record.handle = none :=
        (MemoryStore.evictExpired_snd _ _ _).trans hunseen
      have hput := MemoryStore.put_fst_eq_ok_iff.mpr ⟨⟨deadline, hdeadline⟩, hfree⟩
      exact congrArg Response.put hput

/-! ## When sweeps go unseen -/

/-- Every event of a run is what some act of the run came to. -/
theorem Session.exists_of_mem_past_run {store : MappingStore σ} {w : Session σ} {acts : List Act}
    {e : Event σ} (he : e ∈ (w.run store acts).past) :
    e ∈ w.past ∨ ∃ before act after, acts = before ++ act :: after ∧
      e = (w.run store before).event store act := by
  induction acts generalizing w with
  | nil => exact .inl he
  | cons act rest ih =>
      cases ih he with
      | inl hpast =>
          cases List.mem_append.mp hpast with
          | inl hold => exact .inl hold
          | inr hnew => exact .inr ⟨[], act, rest, rfl, List.mem_singleton.mp hnew⟩
      | inr hlater =>
          obtain ⟨before, other, after, hrest, hevent⟩ := hlater
          exact .inr ⟨act :: before, other, after, by rw [hrest]; rfl, hevent⟩

/-- Leaving out the sweeps of acts without sweeps changes nothing. -/
theorem withoutSweeps_withoutSweeps (acts : List Act) :
    withoutSweeps (withoutSweeps acts) = withoutSweeps acts := by
  unfold withoutSweeps
  rw [List.filter_filter]
  simp only [Bool.and_self]

/-- Where a record has been refused because of an expired one, a sweep just before would have been
seen. -/
theorem Session.exists_sweep_seen {w : Session MemoryStore} {acts : List Act}
    {e : Event MemoryStore} (he : e ∈ (w.run memory acts).past) (hpast : e ∉ w.past)
    (hstale : e.Stale) :
    ∃ swept, withoutSweeps swept = withoutSweeps acts ∧
      (w.run memory swept).seen ≠ (w.run memory acts).seen := by
  obtain ⟨before, act, after, hacts, hevent⟩ := (exists_of_mem_past_run he).resolve_left hpast
  subst hevent
  obtain ⟨record, hact, hrefused, haccepted⟩ := hstale.accepted_after_sweep
  have hvisible : act ≠ .evictExpired := by
    rw [hact]
    exact Act.noConfusion
  refine ⟨before ++ .evictExpired :: act :: after, ?_, ?_⟩
  · rw [hacts]
    simp [withoutSweeps]
  · intro hsame
    rw [hacts, run_append, run_append] at hsame
    generalize w.run memory before = v at hsame hrefused haccepted
    have hplain : (v.perform memory act).seen <+: (v.run memory (act :: after)).seen :=
      seen_prefix_run memory _ after
    have hswept : ((v.perform memory .evictExpired).perform memory act).seen <+:
        (v.run memory (.evictExpired :: act :: after)).seen := seen_prefix_run memory _ after
    rw [seen_perform memory _ hvisible] at hplain hswept
    rw [seen_perform_sweep, clock_perform_sweep, hsame] at hswept
    -- Up to the record both runs are seen alike, so the replies to it would have to be the same.
    have hprefix := (List.prefix_of_prefix_length_le hplain hswept (by simp)).eq_of_length (by simp)
    have hreplies := congrArg Prod.snd (List.singleton_inj.mp (List.append_cancel_left hprefix))
    have hdiffer := hrefused.symm.trans (hreplies.trans haccepted)
    cases hdiffer

/-- Sweeps of the store in memory go unseen, wherever they are put in, if and only if the same acts
without sweeps have no record refused because of an expired one.  Of a server it is never seen when
it removes its expired values. -/
theorem sweeps_unseen_iff (clock : Moment) (acts : List Act) :
    (∀ state : MemoryStore,
      (∀ swept, withoutSweeps swept = withoutSweeps acts →
        ((Session.start clock state).run memory swept).seen =
          ((Session.start clock state).run memory (withoutSweeps acts)).seen) ↔
        ∀ e ∈ ((Session.start clock state).run memory (withoutSweeps acts)).past, ¬e.Stale) ∧
      ∀ (nameSpace : List Char) (server : Redis.Server) (swept : List Act),
        withoutSweeps swept = withoutSweeps acts →
          ((Session.start clock server).run (Redis.purgingStore nameSpace) swept).seen =
            ((Session.start clock server).run (Redis.serverStore nameSpace)
              (withoutSweeps acts)).seen := by
  refine ⟨?_, ?_⟩
  · intro state
    constructor
    · intro hunseen e he hstale
      obtain ⟨swept, hsame, hseen⟩ := Session.exists_sweep_seen he List.not_mem_nil hstale
      exact hseen (hunseen swept (hsame.trans (withoutSweeps_withoutSweeps acts)))
    · intro hfresh swept hsame
      rw [← hsame] at hfresh ⊢
      exact memory_hides.seen_run swept rfl (fun _ => .inl rfl) rfl hfresh
  · intro nameSpace server swept hsame
    rw [← hsame]
    exact (serverStore_hides nameSpace).seen_run swept rfl (fun _ _ _ => rfl) rfl
      fun _ _ => trivial

/-- Sweeps do not always go unseen.  A record of five seconds is put again after six: without a sweep
it is refused, and after a sweep it is accepted. -/
theorem sweep_frees_expired_handle :
    ¬∀ (clock : Moment) (swept acts : List Act), withoutSweeps swept = withoutSweeps acts →
      ((Session.start clock .empty).run memory swept).seen =
        ((Session.start clock .empty).run memory acts).seen := by
  intro hunseen
  let record : MappingRecord := ⟨⟨.replicate 16 0⟩, [], ⟨0, 0⟩, ⟨5, 0⟩⟩
  have hseen := hunseen ⟨0⟩
    [.put record, .advance (.ofSeconds 6), .evictExpired, .put record]
    [.put record, .advance (.ofSeconds 6), .put record] rfl
  have haccepted := congrArg (List.map fun entry => entry.2.accepts) hseen
  exact absurd haccepted (by decide)

end MappingStore

end NetRedact
