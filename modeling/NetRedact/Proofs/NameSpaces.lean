import NetRedact.Proofs.ExpiringMap
import NetRedact.Proofs.ServedRecords

/-!
# Many clients of one server

Any number of clients keep their records in one server, each under a name space that it may share
with others.  To each of them its name space is a map of its own that is written once and forgets in
time: what it is told can be told from what was done in the name space, and it makes no difference
what happens in any other one, however the names are chosen.  The server may be any one that keeps the
law `KeepsValues`.

A request gets the record that was put, up to leap seconds within a minute, which no text can tell.

A client hands over one command for each act, so the acts of all clients come in one row.
-/

namespace NetRedact.Redis

open NetRedact.Text NetRedact.MappingStore

/-! ## What a name space shows -/

/-- The record that is to be seen under a handle at a reading of the clock: the last one put there,
for as long as it is kept. -/
def shown? {σ : Type} (handle : Handle) (now : Moment) (past : List (Event σ)) :
    Option MappingRecord :=
  match lastPut? handle past with
  | some (record, since) => if now.nanos < since.nanos + keptNanos record then some record else none
  | none => none

/-- A server in its state, the clock, and all that its clients have done, oldest first.  Clients do
not see what state an act has found. -/
structure Tenants (ι σ : Type) where
  clock : Moment
  server : σ
  past : List (ι × Event Unit)

namespace Tenants

variable {ι σ : Type} (serve : Moment → Command → σ → Option Reply × σ)
  (live? : Moment → List Char → σ → Option (List Char)) (nameSpace : ι → List Char)

/-- A server to which nobody has come yet. -/
def start (clock : Moment) (server : σ) : Tenants ι σ :=
  ⟨clock, server, []⟩

/-- What comes of an act of a client. -/
def answer (w : Tenants ι σ) (call : ι × Act) : Response × σ :=
  (MappingStore.redis (nameSpace call.1) serve).answer w.clock w.server call.2

/-- The event that an act comes to. -/
def event (w : Tenants ι σ) (call : ι × Act) : Event Unit :=
  ⟨w.clock, (), call.2, (w.answer serve nameSpace call).1⟩

/-- A client acts.  The passing of time is put down to one of them, no matter which. -/
def perform (w : Tenants ι σ) (call : ι × Act) : Tenants ι σ where
  clock := ⟨w.clock.nanos + call.2.elapsed.nanos⟩
  server := (w.answer serve nameSpace call).2
  past := w.past ++ [(call.1, w.event serve nameSpace call)]

/-- Clients act one after the other. -/
def run (w : Tenants ι σ) (calls : List (ι × Act)) : Tenants ι σ :=
  calls.foldl (perform serve nameSpace) w

/-- What has been done in one name space. -/
def pastOf (w : Tenants ι σ) (name : List Char) : List (Event Unit) :=
  (w.past.filter fun entry => nameSpace entry.1 = name).map Prod.snd

/-- The same calls with those in other name spaces left out: their clients only let as much time
pass. -/
def quiet (name : List Char) (calls : List (ι × Act)) : List (ι × Act) :=
  calls.map fun call =>
    if nameSpace call.1 = name then call else (call.1, .advance call.2.elapsed)

theorem pastOf_perform (w : Tenants ι σ) (call : ι × Act) (name : List Char) :
    (w.perform serve nameSpace call).pastOf nameSpace name = w.pastOf nameSpace name ++
      if nameSpace call.1 = name then [w.event serve nameSpace call] else [] := by
  unfold pastOf perform
  rw [List.filter_append, List.map_append]
  by_cases hname : nameSpace call.1 = name
  · simp [hname]
  · simp [hname]

theorem clock_le_perform (w : Tenants ι σ) (call : ι × Act) :
    w.clock ≤ (w.perform serve nameSpace call).clock := by
  show w.clock.nanos ≤ w.clock.nanos + call.2.elapsed.nanos
  omega

/-! ## One act -/

/-- The record that an act puts under a handle in a name space, and when, if it puts one there. -/
def added? (w : Tenants ι σ) (call : ι × Act) (name : List Char) (handle : Handle) :
    Option (MappingRecord × Moment) :=
  if nameSpace call.1 = name then (w.event serve nameSpace call).put? handle else none

theorem lastPut?_perform (w : Tenants ι σ) (call : ι × Act) (name : List Char) (handle : Handle) :
    lastPut? handle ((w.perform serve nameSpace call).pastOf nameSpace name) =
      (w.added? serve nameSpace call name handle).or (lastPut? handle (w.pastOf nameSpace name)) := by
  rw [pastOf_perform]
  unfold added?
  by_cases hname : nameSpace call.1 = name
  · rw [if_pos hname, if_pos hname, lastPut?_concat]
  · rw [if_neg hname, if_neg hname, List.append_nil, Option.none_or]

/-- What one act does: it puts a record under a key where no value lives, or it puts none anywhere and
the same values live as before. -/
theorem answer_cases (hserver : KeepsValues serve live?) (w : Tenants ι σ) (call : ι × Act)
    (hvalid : ∀ record, call.2 = .put record → record.IsValid) :
    (∃ record key, key = keyOf (nameSpace call.1) record.handle ∧ record.IsValid ∧
      live? w.clock key w.server = none ∧
      (∀ name handle, w.added? serve nameSpace call name handle =
        if keyOf name handle = key then some (record, w.clock) else none) ∧
      Writes live? w.clock key record.toJson (keptNanos record) w.server
        (w.answer serve nameSpace call).2) ∨
    ((∀ name handle, w.added? serve nameSpace call name handle = none) ∧
      SameFrom live? w.clock w.server (w.answer serve nameSpace call).2) := by
  obtain ⟨client, act⟩ := call
  unfold added? event
  cases act with
  | put record =>
      have hrecord := hvalid record rfl
      cases hlive : live? w.clock (keyOf (nameSpace client) record.handle) w.server with
      | some other =>
          obtain ⟨hreply, hsame⟩ := hserver.put_of_live hrecord hlive
          have hanswer : (w.answer serve nameSpace (client, .put record)).1 =
              .put (.error (.alreadyExists record.handle)) := congrArg Response.put hreply
          rw [hanswer]
          exact .inr ⟨fun name handle => ite_self _, hsame⟩
      | none =>
          obtain ⟨hreply, hwrites⟩ := hserver.put_of_free hrecord hlive
          have hanswer : (w.answer serve nameSpace (client, .put record)).1 =
              .put (.ok record.handle) := congrArg Response.put hreply
          rw [hanswer]
          refine .inl ⟨record, _, rfl, hrecord, hlive, ?_, hwrites⟩
          intro name handle
          simp only [keyOf_inj, ite_and, eq_comm (a := name), eq_comm (a := handle)]
          rfl
  | get handle => exact .inr ⟨fun name handle => ite_self _, hserver.get_keeps⟩
  | evictExpired => exact .inr ⟨fun name handle => ite_self _, fun _ _ _ => rfl⟩
  | advance d => exact .inr ⟨fun name handle => ite_self _, fun _ _ _ => rfl⟩

/-! ## The invariant -/

theorem shown?_eq_some_iff {σ : Type} {handle : Handle} {now : Moment} {past : List (Event σ)}
    {record : MappingRecord} :
    shown? handle now past = some record ↔ ∃ since, lastPut? handle past = some (record, since) ∧
      now.nanos < since.nanos + keptNanos record := by
  unfold shown?
  cases lastPut? handle past with
  | none => simp
  | some entry =>
      obtain ⟨last, since⟩ := entry
      by_cases hnow : now.nanos < since.nanos + keptNanos last
      · simp only [hnow, if_true, Option.some.injEq, Prod.mk.injEq]
        constructor
        · rintro rfl
          exact ⟨since, ⟨rfl, rfl⟩, hnow⟩
        · rintro ⟨_, ⟨rfl, rfl⟩, -⟩
          rfl
      · simp only [hnow, if_false, Option.some.injEq, Prod.mk.injEq, reduceCtorEq, false_iff]
        rintro ⟨_, ⟨rfl, rfl⟩, hkept⟩
        exact hnow hkept

/-- The server agrees with what was done in each name space: from now on, what lives under a key is the
text of the record that is shown there. -/
structure Sound (w : Tenants ι σ) : Prop where
  live : ∀ name handle later, w.clock ≤ later → live? later (keyOf name handle) w.server =
    (shown? handle later (w.pastOf nameSpace name)).map MappingRecord.toJson
  valid : ∀ name handle record since,
    lastPut? handle (w.pastOf nameSpace name) = some (record, since) → record.IsValid
  kept : ∀ name handle e record since, e ∈ w.pastOf nameSpace name →
    e.put? handle = some (record, since) →
      lastPut? handle (w.pastOf nameSpace name) = some (record, since) ∨
        since.nanos + keptNanos record ≤ w.clock.nanos

theorem sound_start {clock : Moment} {server : σ}
    (hfree : ∀ name handle later, clock ≤ later → live? later (keyOf name handle) server = none) :
    (start clock server : Tenants ι σ).Sound live? nameSpace where
  live := hfree
  valid := by
    intro name handle record since hlast
    cases hlast
  kept := by
    intro name handle e record since he
    cases he

variable {serve live? nameSpace}

/-- An act leaves the last record under a handle as it was, or it puts one there when none is to be
seen. -/
theorem Sound.lastPut?_cases (hserver : KeepsValues serve live?) {w : Tenants ι σ}
    (h : w.Sound live? nameSpace) (call : ι × Act)
    (hvalid : ∀ record, call.2 = .put record → record.IsValid) (name : List Char)
    (handle : Handle) :
    lastPut? handle ((w.perform serve nameSpace call).pastOf nameSpace name) =
        lastPut? handle (w.pastOf nameSpace name) ∨
      ∃ record, record.IsValid ∧ shown? handle w.clock (w.pastOf nameSpace name) = none ∧
        lastPut? handle ((w.perform serve nameSpace call).pastOf nameSpace name) =
          some (record, w.clock) := by
  rw [lastPut?_perform]
  rcases answer_cases serve live? nameSpace hserver w call hvalid with
    ⟨record, key, -, hrecord, hfree, hadded, -⟩ | ⟨hadded, -⟩
  · rw [hadded]
    by_cases hsame : keyOf name handle = key
    · rw [← hsame, h.live name handle w.clock (Int.le_refl _), Option.map_eq_none_iff] at hfree
      rw [if_pos hsame]
      exact .inr ⟨record, hrecord, hfree, rfl⟩
    · rw [if_neg hsame]
      exact .inl rfl
  · rw [hadded]
    exact .inl rfl

/-- A record is put in the place of another one only when that one is kept no longer. -/
theorem Sound.last_or_over (hserver : KeepsValues serve live?) {w : Tenants ι σ}
    (h : w.Sound live? nameSpace) (call : ι × Act)
    (hvalid : ∀ record, call.2 = .put record → record.IsValid) {name : List Char} {handle : Handle}
    {record : MappingRecord} {since : Moment}
    (hlast : lastPut? handle (w.pastOf nameSpace name) = some (record, since)) :
    lastPut? handle ((w.perform serve nameSpace call).pastOf nameSpace name) =
        some (record, since) ∨
      since.nanos + keptNanos record ≤ w.clock.nanos := by
  rcases h.lastPut?_cases hserver call hvalid name handle with hsame | ⟨added, -, hfree, -⟩
  · exact .inl (hsame.trans hlast)
  · refine .inr ?_
    by_contra hkept
    have hshown := shown?_eq_some_iff.mpr ⟨since, hlast, Int.not_le.mp hkept⟩
    rw [hfree] at hshown
    cases hshown

/-- An act keeps the server in agreement. -/
theorem Sound.perform (hserver : KeepsValues serve live?) {w : Tenants ι σ}
    (h : w.Sound live? nameSpace) (call : ι × Act)
    (hvalid : ∀ record, call.2 = .put record → record.IsValid) :
    (w.perform serve nameSpace call).Sound live? nameSpace where
  live := by
    intro name handle later hle
    have hclock := Int.le_trans (clock_le_perform serve nameSpace w call) hle
    have hbefore := h.live name handle later hclock
    have hlast := lastPut?_perform serve nameSpace w call name handle
    change live? later (keyOf name handle) (w.answer serve nameSpace call).2 = _
    unfold shown? at hbefore ⊢
    rw [hlast]
    rcases answer_cases serve live? nameSpace hserver w call hvalid with
      ⟨record, key, hkey, -, hfree, hadded, hwrites⟩ | ⟨hadded, hsame⟩
    · rw [hadded, hwrites (keyOf name handle) later hclock]
      by_cases hsame : keyOf name handle = key
      · -- The record has just been put.
        rw [if_pos hsame, if_pos hsame, Option.some_or]
        by_cases hlater : later.nanos < w.clock.nanos + keptNanos record
        · simp [hlater]
        · simp [hlater]
      · rw [if_neg hsame, if_neg hsame, Option.none_or]
        exact hbefore
    · rw [hadded, Option.none_or, hsame (keyOf name handle) later hclock]
      exact hbefore
  valid := by
    intro name handle record since hlast
    rcases h.lastPut?_cases hserver call hvalid name handle with hsame | ⟨added, hadded, -, hnew⟩
    · exact h.valid name handle record since (hsame.symm.trans hlast)
    · rw [hnew] at hlast
      cases hlast
      exact hadded
  kept := by
    intro name handle e record since he hput
    have hclock : w.clock.nanos ≤ (w.perform serve nameSpace call).clock.nanos :=
      clock_le_perform serve nameSpace w call
    rw [pastOf_perform, List.mem_append] at he
    rcases he with hold | hnew
    · rcases h.kept name handle e record since hold hput with hlast | hover
      · rcases h.last_or_over hserver call hvalid hlast with hlast | hover
        · exact .inl hlast
        · exact .inr (Int.le_trans hover hclock)
      · exact .inr (Int.le_trans hover hclock)
    · have hname : nameSpace call.1 = name := by
        by_contra hne
        rw [if_neg hne] at hnew
        cases hnew
      rw [if_pos hname, List.mem_singleton] at hnew
      refine .inl ?_
      rw [lastPut?_perform, added?, if_pos hname, ← hnew, hput, Option.some_or]

/-- A run keeps the server in agreement. -/
theorem Sound.run (hserver : KeepsValues serve live?) {w : Tenants ι σ}
    (h : w.Sound live? nameSpace) (calls : List (ι × Act))
    (hvalid : ∀ client record, (client, .put record) ∈ calls → record.IsValid) :
    (w.run serve nameSpace calls).Sound live? nameSpace := by
  induction calls generalizing w with
  | nil => exact h
  | cons call rest ih =>
      have hcall : ∀ record, call.2 = .put record → record.IsValid := by
        rintro record hput
        exact hvalid call.1 record (by simp [← hput])
      exact ih (h.perform hserver call hcall)
        fun client record hmem => hvalid client record (by simp [hmem])

/-! ## What clients are told -/

variable {w w' : Tenants ι σ}

theorem Sound.put (hserver : KeepsValues serve live?) (h : w.Sound live? nameSpace) (client : ι)
    {record : MappingRecord} (hrecord : record.IsValid) :
    ((MappingStore.redis (nameSpace client) serve).put w.clock record w.server).1 =
      match shown? record.handle w.clock (w.pastOf nameSpace (nameSpace client)) with
      | some _ => .error (.alreadyExists record.handle)
      | none => .ok record.handle := by
  have hlive := h.live (nameSpace client) record.handle w.clock (Int.le_refl _)
  cases hshown : shown? record.handle w.clock (w.pastOf nameSpace (nameSpace client)) with
  | none =>
      rw [hshown] at hlive
      exact (hserver.put_of_free hrecord hlive).1
  | some other =>
      rw [hshown] at hlive
      exact (hserver.put_of_live hrecord hlive).1

theorem Sound.get (hserver : KeepsValues serve live?) (h : w.Sound live? nameSpace) (client : ι)
    (handle : Handle) :
    ((MappingStore.redis (nameSpace client) serve).get w.clock handle w.server).1 =
      match shown? handle w.clock (w.pastOf nameSpace (nameSpace client)) with
      | some record => .ok record.told
      | none => .error .notFound := by
  have hlive := h.live (nameSpace client) handle w.clock (Int.le_refl _)
  cases hshown : shown? handle w.clock (w.pastOf nameSpace (nameSpace client)) with
  | none =>
      rw [hshown] at hlive
      exact hserver.get_of_free hlive
  | some record =>
      obtain ⟨since, hlast, -⟩ := shown?_eq_some_iff.mp hshown
      rw [hshown] at hlive
      exact hserver.get_of_live (h.valid _ _ _ _ hlast) hlive

/-- A client is told the same wherever the same was done in its name space. -/
theorem Sound.answer_eq (hserver : KeepsValues serve live?) (h : w.Sound live? nameSpace)
    (h' : w'.Sound live? nameSpace) {call : ι × Act} (hclock : w'.clock = w.clock)
    (hpast : w'.pastOf nameSpace (nameSpace call.1) = w.pastOf nameSpace (nameSpace call.1))
    (hvalid : ∀ record, call.2 = .put record → record.IsValid) :
    (w'.answer serve nameSpace call).1 = (w.answer serve nameSpace call).1 := by
  obtain ⟨client, act⟩ := call
  change w'.pastOf nameSpace (nameSpace client) = w.pastOf nameSpace (nameSpace client) at hpast
  cases act with
  | put record =>
      have hrecord := hvalid record rfl
      have hsame : ((MappingStore.redis (nameSpace client) serve).put w'.clock record w'.server).1 =
          ((MappingStore.redis (nameSpace client) serve).put w.clock record w.server).1 := by
        rw [h'.put hserver client hrecord, h.put hserver client hrecord, hclock, hpast]
      exact congrArg Response.put hsame
  | get handle =>
      have hsame : ((MappingStore.redis (nameSpace client) serve).get w'.clock handle w'.server).1 =
          ((MappingStore.redis (nameSpace client) serve).get w.clock handle w.server).1 := by
        rw [h'.get hserver client handle, h.get hserver client handle, hclock, hpast]
      exact congrArg Response.got hsame
  | evictExpired => rfl
  | advance d => rfl

/-- In a name space the same is done and told if the calls in all others are left out. -/
theorem Sound.pastOf_quiet (hserver : KeepsValues serve live?) (h : w.Sound live? nameSpace)
    (h' : w'.Sound live? nameSpace) {name : List Char} (hclock : w'.clock = w.clock)
    (hpast : w'.pastOf nameSpace name = w.pastOf nameSpace name) (calls : List (ι × Act))
    (hvalid : ∀ client record, (client, .put record) ∈ calls → record.IsValid) :
    (w'.run serve nameSpace (quiet nameSpace name calls)).pastOf nameSpace name =
      (w.run serve nameSpace calls).pastOf nameSpace name := by
  induction calls generalizing w w' with
  | nil => exact hpast
  | cons call rest ih =>
      have hcall : ∀ record, call.2 = .put record → record.IsValid := by
        rintro record hput
        exact hvalid call.1 record (by simp [← hput])
      have hrest : ∀ client record, (client, Act.put record) ∈ rest → record.IsValid :=
        fun client record hmem => hvalid client record (by simp [hmem])
      by_cases hname : nameSpace call.1 = name
      · -- The call takes place in both runs.
        have hquiet : quiet nameSpace name (call :: rest) = call :: quiet nameSpace name rest := by
          simp [quiet, hname]
        rw [hquiet]
        refine ih (h.perform hserver call hcall) (h'.perform hserver call hcall) ?_ ?_ hrest
        · exact congrArg (fun clock => Moment.mk (clock.nanos + call.2.elapsed.nanos)) hclock
        · have hanswer : (w'.answer serve nameSpace call).1 = (w.answer serve nameSpace call).1 :=
            h.answer_eq hserver h' hclock (by rw [hname, hpast]) hcall
          rw [pastOf_perform, pastOf_perform, hpast]
          unfold event
          rw [hanswer, hclock]
      · -- In one of the runs only time passes, and in neither anything is done in the name space.
        have hquiet : quiet nameSpace name (call :: rest) =
            (call.1, .advance call.2.elapsed) :: quiet nameSpace name rest := by
          simp [quiet, hname]
        rw [hquiet]
        refine ih (h.perform hserver call hcall) (h'.perform hserver _ ?_) ?_ ?_ hrest
        · rintro record hput
          cases hput
        · exact congrArg (fun clock => Moment.mk (clock.nanos + call.2.elapsed.nanos)) hclock
        · rw [pastOf_perform, pastOf_perform, if_neg hname, if_neg hname, List.append_nil,
            List.append_nil, hpast]

/-! ## The law -/

variable (serve live? nameSpace) in
/-- The law of a map for each name space that is written once and forgets in time. -/
structure IsWriteOnce (w : Tenants ι σ) : Prop where
  /-- Every command that writes a record asks for a lifetime that the server takes, and the server
  does not object. -/
  takes : ∀ client record, record.IsValid →
    0 < lifetime record.ttl ∧ lifetime record.ttl < Server.lifetimeBound ∧
      ∀ text, (serve w.clock (putCommand (nameSpace client) record) w.server).1 ≠
        some (.error text)
  /-- A record is refused if one is to be seen under its handle, and else accepted. -/
  put : ∀ client record, record.IsValid →
    ((MappingStore.redis (nameSpace client) serve).put w.clock record w.server).1 =
      match shown? record.handle w.clock (w.pastOf nameSpace (nameSpace client)) with
      | some _ => .error (.alreadyExists record.handle)
      | none => .ok record.handle
  /-- A refused record changes nothing. -/
  refuses : ∀ client record e, record.IsValid →
    ((MappingStore.redis (nameSpace client) serve).put w.clock record w.server).1 = .error e →
      SameFrom live? w.clock w.server
        ((MappingStore.redis (nameSpace client) serve).put w.clock record w.server).2
  /-- A request gets the record that is to be seen, as its text tells it, or is told that there is
  none. -/
  get : ∀ client handle,
    ((MappingStore.redis (nameSpace client) serve).get w.clock handle w.server).1 =
      match shown? handle w.clock (w.pastOf nameSpace (nameSpace client)) with
      | some record => .ok record.told
      | none => .error .notFound
  /-- It gets just the record that was put, if the leap seconds of this one end minutes, and only
  then. -/
  same : ∀ client handle record,
    shown? handle w.clock (w.pastOf nameSpace (nameSpace client)) = some record →
      (((MappingStore.redis (nameSpace client) serve).get w.clock handle w.server).1 = .ok record ↔
        record.LeapsEndMinutes)
  /-- A request changes nothing. -/
  get_keeps : ∀ client handle, SameFrom live? w.clock w.server
    ((MappingStore.redis (nameSpace client) serve).get w.clock handle w.server).2
  /-- Every record that was put is to be seen for as long as it is kept. -/
  keeps : ∀ name handle e record since, e ∈ w.pastOf nameSpace name →
    e.put? handle = some (record, since) → w.clock.nanos < since.nanos + keptNanos record →
      shown? handle w.clock (w.pastOf nameSpace name) = some record

theorem Sound.isWriteOnce (hserver : KeepsValues serve live?) (h : w.Sound live? nameSpace) :
    w.IsWriteOnce serve live? nameSpace where
  takes := by
    intro client record hrecord
    obtain ⟨-, hpos, hbound⟩ := lifetime_ttl hrecord
    exact ⟨hpos, hbound, hserver.reply_ne_error hrecord⟩
  put := fun client _ hrecord => h.put hserver client hrecord
  refuses := by
    intro client record e hrecord hrefused
    cases hlive : live? w.clock (keyOf (nameSpace client) record.handle) w.server with
    | none =>
        rw [(hserver.put_of_free hrecord hlive).1] at hrefused
        cases hrefused
    | some other => exact (hserver.put_of_live hrecord hlive).2
  get := h.get hserver
  same := by
    intro client handle record hshown
    rw [h.get hserver, hshown, ← MappingRecord.told_eq_self_iff]
    exact ⟨Except.ok.inj, congrArg Except.ok⟩
  get_keeps := fun _ _ => hserver.get_keeps
  keeps := by
    intro name handle e record since he hput hkept
    rcases h.kept name handle e record since he hput with hlast | hover
    · exact shown?_eq_some_iff.mpr ⟨since, hlast, hkept⟩
    · exact absurd hkept (Int.not_lt.mpr hover)

/-- Whatever clients do in one server that keeps the law of values, and however their name spaces are
called, each name space is a map of its own that is written once and forgets in time.  What happens in
it, replies included, is the same if the clients of all others do nothing.  The server need not be
empty at first, only without values under keys of records. -/
theorem run_isWriteOnce (hserver : KeepsValues serve live?) (nameSpace : ι → List Char)
    (clock : Moment) (server : σ)
    (hfree : ∀ name handle later, clock ≤ later → live? later (keyOf name handle) server = none)
    (calls : List (ι × Act))
    (hvalid : ∀ client record, (client, .put record) ∈ calls → record.IsValid) :
    ((start clock server).run serve nameSpace calls).IsWriteOnce serve live? nameSpace ∧
      ∀ name, ((start clock server).run serve nameSpace (quiet nameSpace name calls)).pastOf
          nameSpace name =
        ((start clock server).run serve nameSpace calls).pastOf nameSpace name := by
  have hstart := sound_start live? nameSpace hfree
  refine ⟨(hstart.run hserver calls hvalid).isWriteOnce hserver, ?_⟩
  intro name
  exact hstart.pastOf_quiet hserver hstart rfl rfl calls hvalid

/-- Two name spaces of which one goes on where the other ends, in a server with a table.  A record of
five seconds is put into both, a second later into the second one.  In the first one it is refused a
nanosecond before its time is up and accepted at that moment, and in the second one it is still
there. -/
theorem run_isWriteOnce_nested_names :
    let record : MappingRecord :=
      ⟨⟨.replicate 16 0⟩, [⟨['"', '\\', '\n'], ['\u00e4'], .mac⟩], ⟨0, 0⟩, ⟨5, 0⟩⟩
    let names : Bool → List Char := fun nested => if nested then ['a', ':', 'b'] else ['a']
    let calls : List (Bool × Act) :=
      [(false, .put record), (true, .advance ⟨1000000000⟩), (true, .put record),
        (true, .advance ⟨3999999999⟩), (false, .put record), (false, .advance ⟨1⟩),
        (false, .put record)]
    let first : Tenants Bool Server := start ⟨0⟩ .empty
    let w := first.run Server.serve names calls
    KeepsValues Server.serve Server.live? ∧
      (∀ name handle later, ⟨0⟩ ≤ later →
        Server.live? later (keyOf name handle) first.server = none) ∧
      (∀ client other, (client, Act.put other) ∈ calls → other.IsValid) ∧
      w.IsWriteOnce Server.serve Server.live? names ∧
      (∀ name, (first.run Server.serve names (quiet names name calls)).pastOf names name =
        w.pastOf names name) ∧
      (w.pastOf names ['a']).map (fun e => e.reply.accepts) = [true, false, false, true] ∧
      shown? record.handle w.clock (w.pastOf names ['a', ':', 'b']) = some record := by
  intro record names calls first w
  have hvalid : ∀ client other, (client, Act.put other) ∈ calls → other.IsValid := by
    intro client other hmem
    have hother : other = record := by
      simp only [calls, List.mem_cons, List.not_mem_nil, or_false, Prod.mk.injEq, Act.put.injEq,
        reduceCtorEq, and_false, false_or] at hmem
      rcases hmem with h | h | h | h <;> exact h.2
    rw [hother]
    decide
  obtain ⟨hlaw, hquiet⟩ := run_isWriteOnce Server.keepsValues names ⟨0⟩ .empty
    (fun _ _ _ _ => rfl) calls hvalid
  exact ⟨Server.keepsValues, fun _ _ _ _ => rfl, hvalid, hlaw, hquiet, by decide, by decide⟩

/-- A request does not always get the record that was put.  One that was made in a leap second behind
the first second of 1970 is accepted, and a request at the same moment gets it with the second behind,
so that it has lived for a second less. -/
theorem get_ne_record_put :
    let record : MappingRecord := ⟨⟨.replicate 16 0⟩, [], ⟨0, 1500000000⟩, ⟨30, 0⟩⟩
    let told : MappingRecord := { record with createdAt := ⟨1, 500000000⟩ }
    let names : Unit → List Char := fun _ => ['a']
    let w : Tenants Unit Server := (start ⟨0⟩ .empty).run Server.serve names [((), .put record)]
    record.IsValid ∧ (w.pastOf names ['a']).map (fun e => e.reply.accepts) = [true] ∧
      ((serverStore ['a']).get w.clock record.handle w.server).1 = .ok told ∧ told ≠ record ∧
      record.ttl = ⟨29500000000⟩ ∧ told.ttl = ⟨28500000000⟩ := by
  intro record told names w
  have hvalid : record.IsValid := by decide
  have hsound : w.Sound Server.live? names := by
    refine (sound_start Server.live? names fun _ _ _ _ => rfl).run Server.keepsValues _ ?_
    intro client other hmem
    rw [List.mem_singleton] at hmem
    cases hmem
    exact hvalid
  have hshown : shown? record.handle w.clock (w.pastOf names ['a']) = some record := by decide
  have htold : record.told = told := by decide
  have hget : ((serverStore ['a']).get w.clock record.handle w.server).1 = _ :=
    hsound.get Server.keepsValues () record.handle
  rw [hshown] at hget
  dsimp only at hget
  rw [htold] at hget
  exact ⟨hvalid, by decide, hget, by decide, by decide, by decide⟩

end Tenants

end NetRedact.Redis
