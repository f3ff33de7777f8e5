import NetRedact.Admission.Gateway
import NetRedact.Proofs.Stores
import NetRedact.Proofs.Utf8Texts
import NetRedact.Proofs.Weaving
import NetRedact.Proofs.Windows

/-!
# One request through the gateway

A request leaves the gateway at one of several exits, and behind it may leave a charge with the
limiter and a record in the store.  `Gateway.Passage` lists the exits in the order in which they are
tried.  Each says when it is taken, what the outcome tells, and what the limiter and the store are
afterwards.  A record is stored at one exit only, and that is the one at which the redacted text is
handed out.

The exits behind the rate check are listed by `Gateway.Served`.  They are the ones that a request
reaches at a later time than the first two, when other requests may have come in between.
-/

namespace NetRedact

open NetRedact.Text NetRedact.Scan

namespace Gateway

variable {σ : Type}

/-! ## The stages -/

/-- The size check and the rate check. -/
def screen (g : Gateway σ) (body : List UInt8) (identity : String) (now : Moment)
    (limiter : RateLimiter) : Except Rejection Unit × RateLimiter :=
  let limit := g.policy.maxPayloadBytes
  if limit < body.length then (.error (.payloadTooLarge body.length limit), limiter)
  else
    let (decision, limiter) := limiter.check identity now
    match decision with
    | .limited retryAfter => (.error (.rateLimited retryAfter), limiter)
    | .allowed => (.ok (), limiter)

/-- A passage consists of the two checks and, if they are passed, of the part behind them. -/
theorem process_eq (g : Gateway σ) (body : List UInt8) (mode : RedactMode) (identity : String)
    (o : Occasion) (state : GatewayState σ) :
    g.process body mode identity o state =
      match (g.screen body identity o.checkedAt state.limiter).1 with
      | .error rejection =>
        (.rejected rejection,
          ⟨(g.screen body identity o.checkedAt state.limiter).2, state.records⟩)
      | .ok () =>
        ((g.redactAndStore body mode o state.records).1,
          ⟨(g.screen body identity o.checkedAt state.limiter).2,
            (g.redactAndStore body mode o state.records).2⟩) := by
  unfold process screen
  by_cases hlarge : g.policy.maxPayloadBytes < body.length
  · simp only [hlarge, if_true]
  · simp only [hlarge, if_false]
    cases (state.limiter.check identity o.checkedAt).1 with
    | limited retryAfter => rfl
    | allowed => rfl

/-- Why a body is no text to be redacted, as the message tells it. -/
inductive Malformed : List UInt8 → String → Prop where
  | empty : Malformed [] "empty text"
  | notUtf8 {body : List UInt8} {offset : Nat} (hnone : ∀ text, utf8 text ≠ body)
      (hoffset : decodeUtf8 body = .error offset) :
      Malformed body ("invalid utf-8 at byte " ++ toString offset)

/-- A body is read as the text that it spells. -/
theorem readText_eq_ok_iff {body : List UInt8} {text : List Char} :
    readText body = .ok text ↔ utf8 text = body ∧ text ≠ [] := by
  rw [← decodeUtf8_eq_ok_iff]
  unfold readText
  cases hdecode : decodeUtf8 body with
  | error offset => simp
  | ok read =>
      cases read with
      | nil =>
          constructor
          · intro h
            cases h
          · rintro ⟨h, hne⟩
            cases h
            exact absurd rfl hne
      | cons c cs =>
          constructor
          · intro h
            cases h
            exact ⟨rfl, by simp⟩
          · intro h
            exact congrArg Except.ok (Except.ok.inj h.1)

/-- A body that is not read is malformed. -/
theorem malformed_of_readText {body : List UInt8} {rejection : Rejection}
    (h : readText body = .error rejection) :
    ∃ detail, rejection = .malformedInput detail ∧ Malformed body detail := by
  unfold readText at h
  cases hdecode : decodeUtf8 body with
  | error offset =>
      rw [hdecode] at h
      cases h
      refine ⟨_, rfl, .notUtf8 ?_ hdecode⟩
      intro text htext
      rw [decodeUtf8_eq_ok_iff.mpr htext] at hdecode
      cases hdecode
  | ok read =>
      rw [hdecode] at h
      cases read with
      | nil =>
          cases h
          have hbody : body = [] := (decodeUtf8_eq_ok_iff.mp hdecode).symm
          subst hbody
          exact ⟨_, rfl, .empty⟩
      | cons c cs => cases h

/-- The source of surrogates that a mode is served from.  Only deterministic mode looks at the key,
and only there a salt is taken. -/
inductive Chosen (g : Gateway σ) (o : Occasion) : RedactMode → Source → Prop where
  | random : Chosen g o .random (.random o.draws)
  | deterministic {key : Key} (hkey : g.key = some key) :
      Chosen g o .deterministic (.keyed key (g.policy.saltPolicy.salt o.saltDraw))

/-- A mode that can be served is served from the source chosen for it. -/
theorem chosen_of_sourceFor {g : Gateway σ} {o : Occasion} {mode : RedactMode} {source : Source}
    (h : g.sourceFor mode o = .ok source) : g.Chosen o mode source := by
  unfold sourceFor Source.forMode at h
  cases mode with
  | random =>
      cases h
      exact .random
  | deterministic =>
      cases hkey : g.key with
      | none =>
          rw [hkey] at h
          cases h
      | some key =>
          rw [hkey] at h
          cases h
          exact .deterministic hkey

/-- Deterministic mode without a key is the only one that cannot be served. -/
theorem unavailable_of_sourceFor {g : Gateway σ} {o : Occasion} {mode : RedactMode}
    {rejection : Rejection} (h : g.sourceFor mode o = .error rejection) :
    mode = .deterministic ∧ g.key = none ∧ rejection = .modeUnavailable .deterministic := by
  unfold sourceFor Source.forMode at h
  cases mode with
  | random => cases h
  | deterministic =>
      cases hkey : g.key with
      | none =>
          rw [hkey] at h
          cases h
          exact ⟨rfl, rfl, rfl⟩
      | some key =>
          rw [hkey] at h
          cases h

/-- `redaction` is what the engine makes of the whole text of a body if it is never told to stop. -/
def Redacts (g : Gateway σ) (body : List UInt8) (mode : RedactMode) (o : Occasion)
    (redaction : Redaction) : Prop :=
  ∃ text source, utf8 text = body ∧ text ≠ [] ∧ g.Chosen o mode source ∧
    Redaction.run source text = .ok redaction

/-- The record that is made of a redaction. -/
def recordOf (g : Gateway σ) (o : Occasion) (redaction : Redaction) : MappingRecord :=
  MappingRecord.make o.handle redaction.entries o.stampedAt g.policy.mappingTtl

/-! ## The exits behind the rate check -/

/-- How a request leaves that was admitted: with which outcome, and with what in the store.  A text
always has a redaction, so the engine fails only if it runs out of time or is lost, and it does not
matter how far it has come by then. -/
inductive Served (g : Gateway σ) (body : List UInt8) (mode : RedactMode) (o : Occasion)
    (records : σ) : Outcome → σ → Prop where
  /-- There is no text in the body. -/
  | malformed {detail : String} (hbody : Malformed body detail) :
      Served g body mode o records (.rejected (.malformedInput detail)) records
  /-- There is a text, but no key for the mode. -/
  | unavailable {text : List Char} (htext : utf8 text = body) (hne : text ≠ [])
      (hmode : mode = .deterministic) (hkey : g.key = none) :
      Served g body mode o records (.rejected (.modeUnavailable .deterministic)) records
  /-- There is a text and a source of surrogates, but not enough time. -/
  | timedOut {text : List Char} {source : Source} {checks : Nat} (htext : utf8 text = body)
      (hne : text ≠ []) (hsource : g.Chosen o mode source) (hexpiry : o.expiry = some checks) :
      Served g body mode o records (.failed (.timeout g.policy.requestTimeout)) records
  /-- There is a text, a source of surrogates and time enough, but the redaction was lost. -/
  | lost {text : List Char} {source : Source} {report : String} (htext : utf8 text = body)
      (hne : text ≠ []) (hsource : g.Chosen o mode source) (hexpiry : o.expiry = none)
      (hloss : o.loss = some report) :
      Served g body mode o records (.failed (.engine report)) records
  /-- The text was redacted, but the store did not take the record. -/
  | notStored {redaction : Redaction} {e : StoreError} {records' : σ} (hexpiry : o.expiry = none)
      (hloss : o.loss = none) (hredacts : g.Redacts body mode o redaction)
      (hput : g.store.put o.storedAt (g.recordOf o redaction) records = (.error e, records')) :
      Served g body mode o records (.failed (.storeUnavailable e.message)) records'
  /-- The text was redacted, and the store took the record. -/
  | completed {redaction : Redaction} {handle : Handle} {records' : σ} (hexpiry : o.expiry = none)
      (hloss : o.loss = none) (hredacts : g.Redacts body mode o redaction)
      (hput : g.store.put o.storedAt (g.recordOf o redaction) records = (.ok handle, records')) :
      Served g body mode o records
        (.completed ⟨redaction.text, handle, redaction.entries.length⟩) records'

/-- Within its time, a redaction that is not lost is that of the whole text. -/
theorem exists_redactWithin (limit : Duration) (source : Source) (text : List Char) :
    ∃ redaction, Redaction.run source text = .ok redaction ∧
      redactWithin limit source text none none = .ok redaction := by
  obtain ⟨redaction, pieces, tail, hrun, -⟩ := exists_woven source text
  refine ⟨redaction, hrun, ?_⟩
  unfold redactWithin
  rw [hrun]

/-- With a redaction, a request leaves by one of the last two exits. -/
theorem persist_served (g : Gateway σ) {body : List UInt8} {mode : RedactMode} {o : Occasion}
    {redaction : Redaction} (hexpiry : o.expiry = none) (hloss : o.loss = none)
    (hredacts : g.Redacts body mode o redaction) (records : σ) :
    g.Served body mode o records (g.persist o redaction records).1
      (g.persist o redaction records).2 := by
  unfold persist
  cases hput : g.store.put o.storedAt (g.recordOf o redaction) records with
  | mk result records' =>
      have hput' := hput
      unfold recordOf at hput'
      simp only [hput']
      cases result with
      | ok handle => exact .completed hexpiry hloss hredacts hput
      | error e => exact .notStored hexpiry hloss hredacts hput

/-- Every admitted request leaves by one of the exits. -/
theorem served (g : Gateway σ) (body : List UInt8) (mode : RedactMode) (o : Occasion)
    (records : σ) :
    g.Served body mode o records (g.redactAndStore body mode o records).1
      (g.redactAndStore body mode o records).2 := by
  unfold redactAndStore
  cases hread : readText body with
  | error rejection =>
      obtain ⟨detail, rfl, hbody⟩ := malformed_of_readText hread
      exact .malformed hbody
  | ok text =>
      obtain ⟨htext, hne⟩ := readText_eq_ok_iff.mp hread
      cases hsourceFor : g.sourceFor mode o with
      | error rejection =>
          obtain ⟨hmode, hkey, rfl⟩ := unavailable_of_sourceFor hsourceFor
          exact .unavailable htext hne hmode hkey
      | ok source =>
          have hsource := chosen_of_sourceFor hsourceFor
          cases hexpiry : o.expiry with
          | some checks => exact .timedOut htext hne hsource hexpiry
          | none =>
              cases hloss : o.loss with
              | some report => exact .lost htext hne hsource hexpiry hloss
              | none =>
                  obtain ⟨redaction, hrun, hwithin⟩ :=
                    exists_redactWithin g.policy.requestTimeout source text
                  have hredacts : g.Redacts body mode o redaction :=
                    ⟨text, source, htext, hne, hsource, hrun⟩
                  simp only [hwithin]
                  exact g.persist_served hexpiry hloss hredacts records

/-! ## All exits -/

/-- How a request passes the gateway: with which outcome, and with what left behind. -/
inductive Passage (g : Gateway σ) (body : List UInt8) (mode : RedactMode) (identity : String)
    (o : Occasion) (state : GatewayState σ) : Outcome → GatewayState σ → Prop where
  /-- The body is too large.  Nobody gets to know of the request. -/
  | tooLarge (hsize : g.policy.maxPayloadBytes < body.length) :
      Passage g body mode identity o state
        (.rejected (.payloadTooLarge body.length g.policy.maxPayloadBytes)) state
  /-- The caller has asked too often.  The request is not counted. -/
  | rateLimited {limiter : RateLimiter} (hsize : body.length ≤ g.policy.maxPayloadBytes)
      (hfull : state.limiter.maxRequests ≤ (state.limiter.counting identity o.checkedAt).length)
      (hcharges : RateLimiter.Charges identity o.checkedAt [] state.limiter limiter) :
      Passage g body mode identity o state
        (.rejected (.rateLimited (RateLimiter.retryAfter state.limiter.window o.checkedAt
          (state.limiter.counting identity o.checkedAt))))
        ⟨limiter, state.records⟩
  /-- The request is admitted and counted once. -/
  | admitted {limiter : RateLimiter} {outcome : Outcome} {records : σ}
      (hsize : body.length ≤ g.policy.maxPayloadBytes)
      (hroom : (state.limiter.counting identity o.checkedAt).length < state.limiter.maxRequests)
      (hcharges : RateLimiter.Charges identity o.checkedAt [o.checkedAt] state.limiter limiter)
      (hserved : g.Served body mode o state.records outcome records) :
      Passage g body mode identity o state outcome ⟨limiter, records⟩

/-- Every request passes the gateway in one of these ways. -/
theorem passage (g : Gateway σ) (body : List UInt8) (mode : RedactMode) (identity : String)
    (o : Occasion) (state : GatewayState σ) :
    g.Passage body mode identity o state (g.process body mode identity o state).1
      (g.process body mode identity o state).2 := by
  rw [process_eq]
  unfold screen
  by_cases hsize : g.policy.maxPayloadBytes < body.length
  · simp only [hsize, if_true]
    exact .tooLarge hsize
  · have hle : body.length ≤ g.policy.maxPayloadBytes := Nat.not_lt.mp hsize
    by_cases hroom :
        (state.limiter.counting identity o.checkedAt).length < state.limiter.maxRequests
    · obtain ⟨hallowed, hcharges⟩ := RateLimiter.check_of_room hroom
      simp only [hsize, if_false, hallowed]
      exact .admitted hle hroom hcharges (g.served body mode o state.records)
    · have hfull := Nat.not_lt.mp hroom
      obtain ⟨hlimited, hcharges⟩ := RateLimiter.check_of_full hfull
      simp only [hsize, if_false, hlimited]
      exact .rateLimited hle hfull hcharges

/-! ## What the outcome tells about the store -/

end Gateway

end NetRedact
