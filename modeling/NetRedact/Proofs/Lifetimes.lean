import Mathlib.Logic.Relation
import NetRedact.Maintenance
import NetRedact.Proofs.Admission
import NetRedact.Proofs.Moments

/-!
# The lifetime of a handle

A gateway with its store in memory serves any number of requests at once, while sweeps run, records
are asked for, and time passes.  `Step` is one event in the life of such a gateway.  A request is two
events, its arrival and its answer, so that anything may happen to the limiter and to the store while
its text is being redacted.

The invariant is about the answers.  The record of a completed request is in the table until its
deadline, and from then on it may be there or not, but it is not shown.  And a handle that occupies
the table has been handed out.
-/

namespace NetRedact

open NetRedact.Text

/-! ## A gateway at work -/

/-- The gateway that keeps its records in memory. -/
def Gateway.inMemory (key : Option Key) (policy : AdmissionPolicy) : Gateway MemoryStore :=
  ⟨.memory, key, policy⟩

/-- A request that has been answered. -/
structure Answer where
  body : List UInt8
  mode : RedactMode
  /-- What the request has met, the moment among it at which it turned to the store. -/
  occasion : Occasion
  outcome : Outcome

/-- A gateway at work. -/
structure World where
  clock : Moment
  state : GatewayState MemoryStore
  /-- The requests that were admitted and have not been answered yet. -/
  pending : List (List UInt8 × RedactMode)
  /-- The answers given to admitted requests, last first. -/
  answers : List Answer

namespace World

/-- A gateway that has not done anything yet. -/
def start (clock : Moment) (limiter : RateLimiter) : World :=
  ⟨clock, ⟨limiter, .empty⟩, [], []⟩

/-- A handle that has been handed out with a redacted text. -/
def HandedOut (w : World) (handle : Handle) : Prop :=
  ∃ answer ∈ w.answers, ∃ completion,
    answer.outcome = .completed completion ∧ completion.handle = handle

/-- Time passes. -/
def advance (w : World) (d : Duration) : World :=
  { w with clock := ⟨w.clock.nanos + d.nanos⟩ }

/-- A request arrives.  It is pending if it passes the checks. -/
def arrive (g : Gateway MemoryStore) (w : World) (body : List UInt8) (mode : RedactMode)
    (identity : String) : World :=
  let (verdict, limiter) := g.screen body identity w.clock w.state.limiter
  let pending := match verdict with
    | .ok () => (body, mode) :: w.pending
    | .error _ => w.pending
  { w with state := ⟨limiter, w.state.records⟩, pending }

/-- A pending request is answered; the others stay pending. -/
def answered (g : Gateway MemoryStore) (w : World) (body : List UInt8) (mode : RedactMode)
    (o : Occasion) (others : List (List UInt8 × RedactMode)) : World :=
  let (outcome, records) := g.redactAndStore body mode o w.state.records
  { w with
    state := ⟨w.state.limiter, records⟩
    pending := others
    answers := ⟨body, mode, o, outcome⟩ :: w.answers }

/-- The expired records and the idle windows are swept out. -/
def swept (g : Gateway MemoryStore) (w : World) : World :=
  let (_, limiter, records) := sweep g.store w.clock w.state.limiter w.state.records
  { w with state := ⟨limiter, records⟩ }

/-- A record is asked for. -/
def asked (g : Gateway MemoryStore) (w : World) (handle : Handle) : World :=
  { w with state := ⟨w.state.limiter, (g.store.get w.clock handle w.state.records).2⟩ }

end World

/-- One event in the life of a gateway.  The handle drawn for a request is none of those handed out
before. -/
inductive Step (g : Gateway MemoryStore) (w : World) : World → Prop where
  | advance (d : Duration) : Step g w (w.advance d)
  | arrive (body : List UInt8) (mode : RedactMode) (identity : String) :
      Step g w (w.arrive g body mode identity)
  | answer {body : List UInt8} {mode : RedactMode} {others : List (List UInt8 × RedactMode)}
      (o : Occasion) (hpending : w.pending.Perm ((body, mode) :: others))
      (hclock : o.storedAt = w.clock) (hfresh : ¬w.HandedOut o.handle) :
      Step g w (w.answered g body mode o others)
  | sweep : Step g w (w.swept g)
  | get (handle : Handle) : Step g w (w.asked g handle)

/-- Any number of events, one after the other. -/
abbrev Run (g : Gateway MemoryStore) : World → World → Prop :=
  Relation.ReflTransGen (Step g)

/-- A whole passage is a run: the request arrives, time passes, and if it was admitted it is
answered.  What `process` says of one request therefore holds of requests in a run. -/
theorem exists_run_process {g : Gateway MemoryStore} {w : World} (body : List UInt8)
    (mode : RedactMode) (identity : String) {o : Occasion} (hchecked : o.checkedAt = w.clock)
    (hstored : o.checkedAt ≤ o.storedAt) (hfresh : ¬w.HandedOut o.handle) :
    ∃ w', Run g w w' ∧ w'.clock = o.storedAt ∧
      w'.state = (g.process body mode identity o w.state).2 ∧
      ∀ completion, (g.process body mode identity o w.state).1 = .completed completion →
        ⟨body, mode, o, .completed completion⟩ ∈ w'.answers := by
  have hclock : ((w.arrive g body mode identity).advance (o.storedAt.since o.checkedAt)).clock =
      o.storedAt := by
    have hle : o.checkedAt.nanos ≤ o.storedAt.nanos := hstored
    have hnanos : w.clock.nanos + ((o.storedAt.nanos - o.checkedAt.nanos).toNat : Int) =
        o.storedAt.nanos := by
      rw [← hchecked]
      omega
    exact congrArg Moment.mk hnanos
  have hwaited : Run g w
      ((w.arrive g body mode identity).advance (o.storedAt.since o.checkedAt)) :=
    (Relation.ReflTransGen.single (.arrive body mode identity)).tail (.advance _)
  rw [Gateway.process_eq, hchecked]
  cases hverdict : (g.screen body identity w.clock w.state.limiter).1 with
  | error rejection =>
      refine ⟨_, hwaited, hclock, rfl, ?_⟩
      intro completion houtcome
      cases houtcome
  | ok _ =>
      have hpending : ((w.arrive g body mode identity).advance
          (o.storedAt.since o.checkedAt)).pending = (body, mode) :: w.pending := by
        show (match (g.screen body identity w.clock w.state.limiter).1 with
          | .ok () => (body, mode) :: w.pending
          | .error _ => w.pending) = (body, mode) :: w.pending
        rw [hverdict]
      refine ⟨_, hwaited.tail (.answer o (.of_eq hpending) hclock.symm hfresh),
        hclock, rfl, ?_⟩
      intro completion houtcome
      refine List.mem_cons.mpr (.inl ?_)
      exact congrArg (Answer.mk body mode o) houtcome.symm

/-! ## The invariant -/

/-- A completed request is honoured: its redaction was handed out, and the record of it is in its
place, with a deadline one lifetime after it was stored. -/
structure Honours (g : Gateway MemoryStore) (clock : Moment) (records : MemoryStore)
    (answer : Answer) (completion : Completion) (redaction : Redaction) (deadline : Moment) :
    Prop where
  redacts : g.Redacts answer.body answer.mode answer.occasion redaction
  completion_eq :
    completion = ⟨redaction.text, answer.occasion.handle, redaction.entries.length⟩
  past : answer.occasion.storedAt ≤ clock
  deadline_eq : deadline.nanos =
    answer.occasion.storedAt.nanos + (g.recordOf answer.occasion redaction).ttl.nanos
  holds : records.Holds clock ⟨g.recordOf answer.occasion redaction, deadline⟩

/-- The invariant of a gateway at work: all completed requests are honoured, and nothing else is
stored. -/
structure Sound (g : Gateway MemoryStore) (w : World) : Prop where
  honours : ∀ answer ∈ w.answers, ∀ completion, answer.outcome = .completed completion →
    ∃ redaction deadline,
      Honours g w.clock w.state.records answer completion redaction deadline
  owned : ∀ handle stored, w.state.records.find? handle = some stored → w.HandedOut handle

/-- At the beginning there is nothing to be honoured. -/
theorem sound_start (g : Gateway MemoryStore) (clock : Moment) (limiter : RateLimiter) :
    Sound g (World.start clock limiter) where
  honours := by
    intro answer hanswer
    cases hanswer
  owned := by
    intro handle stored hfind
    cases hfind

/-- Honouring goes on while time passes and the table is thinned out. -/
theorem Honours.mono {g : Gateway MemoryStore} {clock later : Moment}
    {records thinned : MemoryStore} {answer : Answer} {completion : Completion}
    {redaction : Redaction} {deadline : Moment}
    (h : Honours g clock records answer completion redaction deadline) (hle : clock ≤ later)
    (hthins : records.Thins clock thinned) :
    Honours g later thinned answer completion redaction deadline :=
  { h with
    past := Int.le_trans h.past hle
    holds := (h.holds.thins hthins).later hle }

/-- An event that completes no request keeps the invariant if it only thins out the table. -/
theorem Sound.of_thins {g : Gateway MemoryStore} {w w' : World} (h : Sound g w)
    (hclock : w.clock ≤ w'.clock) (hthins : w.state.records.Thins w.clock w'.state.records)
    (hanswers : ∀ answer completion, answer.outcome = .completed completion →
      (answer ∈ w'.answers ↔ answer ∈ w.answers)) : Sound g w' where
  honours := by
    intro answer hanswer completion houtcome
    have hbefore : answer ∈ w.answers := (hanswers answer completion houtcome).mp hanswer
    obtain ⟨redaction, deadline, hhonours⟩ := h.honours answer hbefore completion houtcome
    exact ⟨redaction, deadline, hhonours.mono hclock hthins⟩
  owned := by
    intro handle stored hfind
    obtain ⟨answer, hbefore, completion, houtcome, hhandle⟩ :=
      h.owned handle stored (hthins.find?_eq_some hfind)
    have hafter : answer ∈ w'.answers := (hanswers answer completion houtcome).mpr hbefore
    exact ⟨answer, hafter, completion, houtcome, hhandle⟩

/-- An event that completes one request keeps the invariant if it adds the record of that request,
under a handle that no completed request has. -/
theorem Sound.of_insert {g : Gateway MemoryStore} {w w' : World} {answer : Answer}
    {redaction : Redaction} {deadline : Moment} (h : Sound g w) (hclock : w'.clock = w.clock)
    (hanswers : w'.answers = answer :: w.answers)
    (houtcome : answer.outcome =
      .completed ⟨redaction.text, answer.occasion.handle, redaction.entries.length⟩)
    (hrecords : w'.state.records = w.state.records.insert answer.occasion.handle
      ⟨g.recordOf answer.occasion redaction, deadline⟩)
    (hfresh : ¬w.HandedOut answer.occasion.handle)
    (hstored : answer.occasion.storedAt = w.clock)
    (hredacts : g.Redacts answer.body answer.mode answer.occasion redaction)
    (hdeadline : deadline.nanos =
      answer.occasion.storedAt.nanos + (g.recordOf answer.occasion redaction).ttl.nanos) :
    Sound g w' where
  honours := by
    intro other hother completion hcompleted
    rw [hclock, hrecords]
    rw [hanswers] at hother
    cases List.mem_cons.mp hother with
    | inl hnew =>
        subst hnew
        have hcompletion := Outcome.completed.inj (hcompleted.symm.trans houtcome)
        have hpast : other.occasion.storedAt ≤ w.clock := hstored ▸ Int.le_refl _
        have hplace : MemoryStore.Holds w.clock
            (w.state.records.insert other.occasion.handle
              ⟨g.recordOf other.occasion redaction, deadline⟩)
            ⟨g.recordOf other.occasion redaction, deadline⟩ :=
          .inl (Table.find?_insert_self _ _ _)
        exact ⟨redaction, deadline, hredacts, hcompletion, hpast, hdeadline, hplace⟩
    | inr hold =>
        obtain ⟨earlier, due, hhonours⟩ := h.honours other hold completion hcompleted
        -- The handle of the earlier request has been handed out, and the new one has not.
        have hne : other.occasion.handle ≠ answer.occasion.handle := by
          intro hsame
          apply hfresh
          refine ⟨other, hold, completion, hcompleted, ?_⟩
          rw [hhonours.completion_eq]
          exact hsame
        have hholds := hhonours.holds.insert
          ⟨g.recordOf answer.occasion redaction, deadline⟩ hne
        exact ⟨earlier, due, { hhonours with holds := hholds }⟩
  owned := by
    intro handle stored hfind
    by_cases hhandle : handle = answer.occasion.handle
    · have hnew : answer ∈ w'.answers := by
        rw [hanswers]
        exact List.mem_cons_self
      exact ⟨answer, hnew, _, houtcome, hhandle.symm⟩
    · have hbefore : w.state.records.find? handle = some stored := by
        rw [hrecords, Table.find?_insert_ne _ hhandle] at hfind
        exact hfind
      obtain ⟨other, hold, hcompleted⟩ := h.owned handle stored hbefore
      have hafter : other ∈ w'.answers := by
        rw [hanswers]
        exact List.mem_cons_of_mem _ hold
      exact ⟨other, hafter, hcompleted⟩

/-- A request without a result leaves the records as they are, or hands a completion out with one
record more.  This is `Gateway.served` for the store in memory. -/
theorem served_inMemory {key : Option Key} {policy : AdmissionPolicy} {body : List UInt8}
    {mode : RedactMode} {o : Occasion} {records records' : MemoryStore} {outcome : Outcome}
    (hserved : (Gateway.inMemory key policy).Served body mode o records outcome records') :
    (records' = records ∧ ∀ completion, outcome ≠ .completed completion) ∨
      ∃ redaction deadline, (Gateway.inMemory key policy).Redacts body mode o redaction ∧
        outcome = .completed ⟨redaction.text, o.handle, redaction.entries.length⟩ ∧
        deadline.nanos = o.storedAt.nanos +
          ((Gateway.inMemory key policy).recordOf o redaction).ttl.nanos ∧
        records' = records.insert o.handle
          ⟨(Gateway.inMemory key policy).recordOf o redaction, deadline⟩ := by
  cases hserved with
  | malformed => exact .inl ⟨rfl, by simp⟩
  | unavailable => exact .inl ⟨rfl, by simp⟩
  | timedOut => exact .inl ⟨rfl, by simp⟩
  | lost => exact .inl ⟨rfl, by simp⟩
  | notStored _ _ _ hput => exact .inl ⟨MemoryStore.put_error hput, by simp⟩
  | completed _ _ hredacts hput =>
      obtain ⟨deadline, hdeadline, -, rfl, rfl⟩ := MemoryStore.put_eq_ok_iff.mp hput
      exact .inr ⟨_, deadline, hredacts, rfl, Moment.nanos_of_add? hdeadline, rfl⟩

/-- An answer keeps the invariant. -/
theorem Sound.answered {key : Option Key} {policy : AdmissionPolicy} {w : World}
    {body : List UInt8} {mode : RedactMode} {o : Occasion}
    {others : List (List UInt8 × RedactMode)} (h : Sound (Gateway.inMemory key policy) w)
    (hclock : o.storedAt = w.clock) (hfresh : ¬w.HandedOut o.handle) :
    Sound (Gateway.inMemory key policy)
      (w.answered (Gateway.inMemory key policy) body mode o others) := by
  have hserved := served_inMemory
    ((Gateway.inMemory key policy).served body mode o w.state.records)
  cases hserved with
  | inl hnothing =>
      obtain ⟨hrecords, hincomplete⟩ := hnothing
      have hnow : w.clock ≤
          (w.answered (Gateway.inMemory key policy) body mode o others).clock := Int.le_refl _
      apply h.of_thins hnow
      · exact fun handle => .inl (congrArg (Table.find? · handle) hrecords)
      · intro answer completion houtcome
        have hne : answer ≠ ⟨body, mode, o, ((Gateway.inMemory key policy).redactAndStore
            body mode o w.state.records).1⟩ := by
          intro hnew
          subst hnew
          exact hincomplete completion houtcome
        exact List.mem_cons.trans (or_iff_right hne)
  | inr hadded =>
      obtain ⟨redaction, deadline, hredacts, houtcome, hdeadline, hrecords⟩ := hadded
      exact h.of_insert rfl rfl houtcome hrecords hfresh hclock hredacts hdeadline

/-- Every event keeps the invariant. -/
theorem Sound.step {key : Option Key} {policy : AdmissionPolicy} {w w' : World}
    (h : Sound (Gateway.inMemory key policy) w) (hstep : Step (Gateway.inMemory key policy) w w') :
    Sound (Gateway.inMemory key policy) w' := by
  have hsame : w.state.records.Thins w.clock w.state.records := fun _ => .inl rfl
  have hnow : w.clock ≤ w.clock := Int.le_refl _
  have hnone : ∀ (answer : Answer) (completion : Completion),
      answer.outcome = .completed completion → (answer ∈ w.answers ↔ answer ∈ w.answers) :=
    fun _ _ _ => Iff.rfl
  cases hstep with
  | advance d =>
      have hlater : w.clock ≤ (w.advance d).clock := Int.le_add_of_nonneg_right (Int.natCast_nonneg _)
      exact h.of_thins hlater hsame hnone
  | arrive body mode identity => exact h.of_thins hnow hsame hnone
  | answer o _ hclock hfresh => exact h.answered hclock hfresh
  | sweep => exact h.of_thins hnow (MemoryStore.thins_evictExpired w.clock _) hnone
  | get handle => exact h.of_thins hnow (MemoryStore.thins_get w.clock handle _) hnone

/-- A run keeps the invariant. -/
theorem Sound.run {key : Option Key} {policy : AdmissionPolicy} {w w' : World}
    (h : Sound (Gateway.inMemory key policy) w) (hrun : Run (Gateway.inMemory key policy) w w') :
    Sound (Gateway.inMemory key policy) w' := by
  induction hrun with
  | refl => exact h
  | tail _ hstep ih => exact ih.step hstep

/-! ## Handles -/

/-- Every handle that was handed out is good for the lifetime of its record, and nothing else is
stored.  At any point of any run, a completed request has been given the redaction of its text and a
handle under which, until a lifetime has passed since the record was stored, a record with the
entries of that redaction is found, and nothing from then on.  And whatever is found is found under
a handle that was handed out. -/
theorem run_honours_handles (key : Option Key) (policy : AdmissionPolicy) (clock : Moment)
    (limiter : RateLimiter) {w : World}
    (hrun : Run (Gateway.inMemory key policy) (World.start clock limiter) w) :
    (∀ answer ∈ w.answers, ∀ completion, answer.outcome = .completed completion →
      ∃ redaction record,
        (Gateway.inMemory key policy).Redacts answer.body answer.mode answer.occasion redaction ∧
        completion.redactedText = redaction.text ∧
        completion.entryCount = redaction.entries.length ∧
        record = (Gateway.inMemory key policy).recordOf answer.occasion redaction ∧
        record.entries = redaction.entries ∧ record.handle = completion.handle ∧
        answer.occasion.storedAt ≤ w.clock ∧
        (MemoryStore.get w.clock completion.handle w.state.records).1 =
          if w.clock.nanos < answer.occasion.storedAt.nanos + record.ttl.nanos then .ok record
          else .error .notFound) ∧
      ∀ handle record, (MemoryStore.get w.clock handle w.state.records).1 = .ok record →
        w.HandedOut handle := by
  have hsound := (sound_start (Gateway.inMemory key policy) clock limiter).run hrun
  refine ⟨?_, ?_⟩
  · intro answer hanswer completion houtcome
    obtain ⟨redaction, deadline, hhonours⟩ := hsound.honours answer hanswer completion houtcome
    have hcompletion := hhonours.completion_eq
    subst hcompletion
    refine ⟨redaction, _, hhonours.redacts, rfl, rfl, rfl, rfl, rfl, hhonours.past, ?_⟩
    have hget := hhonours.holds.get_fst
    have hdeadline : w.clock < deadline ↔ w.clock.nanos < answer.occasion.storedAt.nanos +
        ((Gateway.inMemory key policy).recordOf answer.occasion redaction).ttl.nanos := by
      rw [← hhonours.deadline_eq]
      exact Iff.rfl
    simp only [hdeadline] at hget
    exact hget
  · intro handle record hget
    obtain ⟨stored, hfind, -⟩ := MemoryStore.find?_of_get hget
    exact hsound.owned handle stored hfind

/-- One text with one address: the handle is good at first, and no longer a minute later. -/
theorem run_honours_handles_minute :
    ∃ policy limiter w w',
      Run (Gateway.inMemory none policy) (World.start ⟨0⟩ limiter) w ∧
        w' = w.advance (.ofSeconds 60) ∧
        ∃ handle record, record.entries.length = 1 ∧
          (MemoryStore.get w.clock handle w.state.records).1 = .ok record ∧
          (MemoryStore.get w'.clock handle w'.state.records).1 = .error .notFound ∧
          w.HandedOut handle := by
  obtain ⟨policy, limiter, o, hchecked, hstored, houtcome, httl⟩ :
      ∃ (policy : AdmissionPolicy) (limiter : RateLimiter) (o : Occasion),
        o.checkedAt = ⟨0⟩ ∧ o.storedAt = ⟨0⟩ ∧
          ((Gateway.inMemory none policy).process (utf8 "10.0.0.1".toList) .random "caller" o
            (World.start ⟨0⟩ limiter).state).1 = .completed ⟨"0.0.0.0".toList, o.handle, 1⟩ ∧
          ∀ redaction, ((Gateway.inMemory none policy).recordOf o redaction).ttl = .ofSeconds 60 :=
    ⟨⟨10, .ofSeconds 5, .ofSeconds 60, .stable⟩, .fresh 1 (.ofSeconds 1),
      ⟨⟨0⟩, ⟨0⟩, ⟨0, 0⟩, ⟨Vector.replicate 16 0⟩, Vector.replicate 16 0,
        fun _ => Vector.replicate 16 0, none, none⟩,
      rfl, rfl, by decide +kernel, fun _ =>
        (by decide +kernel : ((⟨0, 0⟩ : Timestamp).addCapped (.ofSeconds 60)).since ⟨0, 0⟩ =
          .ofSeconds 60)⟩
  have hfresh : ¬(World.start ⟨0⟩ limiter).HandedOut o.handle := by
    intro hhanded
    obtain ⟨answer, hanswer, -⟩ := hhanded
    cases hanswer
  obtain ⟨w, hrun, hclock, -, hanswers⟩ := exists_run_process _ .random "caller" hchecked
    (hchecked ▸ hstored ▸ Int.le_refl _) hfresh
  have hanswer := hanswers _ houtcome
  have hlater := hrun.tail (.advance (.ofSeconds 60))
  obtain ⟨redaction, record, -, -, hcount, hrecord, hentries, -, -, hget⟩ :=
    (run_honours_handles none policy ⟨0⟩ limiter hrun).1 _ hanswer _ rfl
  obtain ⟨redaction', record', -, -, -, hrecord', -, -, -, hget'⟩ :=
    (run_honours_handles none policy ⟨0⟩ limiter hlater).1 _ hanswer _ rfl
  have hnow : w.clock.nanos = 0 := by rw [hclock, hstored]
  refine ⟨policy, limiter, w, _, hrun, rfl, o.handle, record, ?_, ?_, ?_, _, hanswer, _, rfl, rfl⟩
  · rw [hentries]
    exact hcount.symm
  · rw [hget, if_pos]
    rw [hnow, hstored, hrecord, httl]
    decide
  · rw [hget', if_neg]
    show ¬w.clock.nanos + (Duration.ofSeconds 60).nanos < o.storedAt.nanos + record'.ttl.nanos
    rw [hnow, hstored, hrecord', httl]
    decide

end NetRedact
