import NetRedact.Http.Service
import NetRedact.Proofs.Admission
import NetRedact.Proofs.JsonValues

/-!
# Two forms of a request

A text is sent for redaction as it is, or as a member of a JSON object.  Both forms come to the same
passage through the gateway, and the gateway measures the text.  But the limit on bodies is laid on
what is sent, and a text grows when it is written as a JSON string: a quote or a line end takes two
bytes, and some control characters take six.

So the two forms have the same status and the same effect unless the text grows by more than the
allowance.  In that case the plain form is served, and the JSON form is refused for its size although
the text is within the limit.  There are such texts as soon as the limit is above a fifth of the
allowance.
-/

namespace NetRedact

open NetRedact.Text

/-! ## How a text grows -/

theorem Text.byteLength_replicate (n : Nat) (c : Char) :
    byteLength (List.replicate n c) = n * c.utf8Size := by
  induction n with
  | zero => simp
  | succ n ih =>
      rw [List.replicate_succ, byteLength_cons, ih, Nat.succ_mul]
      omega

namespace Json

/-- A written character has at least its own bytes, and at most six times as many. -/
theorem byteLength_escape (c : Char) :
    c.utf8Size ≤ byteLength (escape c) ∧ byteLength (escape c) ≤ 6 * c.utf8Size := by
  by_cases hcontrol : c.toNat < 32
  · have hall : ∀ n : Fin 32, (Char.ofNat n.val).utf8Size ≤ byteLength (escape (Char.ofNat n.val)) ∧
        byteLength (escape (Char.ofNat n.val)) ≤ 6 * (Char.ofNat n.val).utf8Size := by decide
    have hc := hall ⟨c.toNat, hcontrol⟩
    rw [Char.ofNat_toNat] at hc
    exact hc
  · by_cases hquote : c = '"'
    · rw [hquote]
      decide
    · by_cases hbackslash : c = '\\'
      · rw [hbackslash]
        decide
      · -- The character stands as it is, for the letters are for control characters.
        have hescape : escape c = [c] := by
          unfold escape
          rw [if_neg hquote, if_neg hbackslash, if_neg, if_neg, if_neg, if_neg, if_neg, if_neg hcontrol]
          all_goals
            rintro rfl
            exact hcontrol (by decide)
        rw [hescape, byteLength_cons, byteLength_nil]
        omega

theorem byteLength_flatMap_escape (cs : List Char) :
    byteLength cs ≤ byteLength (cs.flatMap escape) ∧
      byteLength (cs.flatMap escape) ≤ 6 * byteLength cs := by
  induction cs with
  | nil => exact ⟨Nat.le_refl _, Nat.le_refl _⟩
  | cons c cs ih =>
      have hc := byteLength_escape c
      rw [List.flatMap_cons, byteLength_append, byteLength_cons]
      omega

theorem byteLength_flatMap_escape_replicate (n : Nat) (c : Char) :
    byteLength ((List.replicate n c).flatMap escape) = n * byteLength (escape c) := by
  induction n with
  | zero => simp
  | succ n ih =>
      rw [List.replicate_succ, List.flatMap_cons, byteLength_append, ih, Nat.succ_mul]
      omega

end Json

namespace Http

/-- A text as the only member of a JSON object. -/
def jsonBody (text : List Char) : List Char :=
  Json.object [("text", Json.quote text)]

theorem byteLength_jsonBody (text : List Char) :
    byteLength (jsonBody text) = byteLength (text.flatMap Json.escape) + 11 := by
  have hkey : byteLength (Json.quote "text".toList) = 6 := by decide
  have hquote : byteLength (Json.quote text) = byteLength (text.flatMap Json.escape) + 2 := by
    simp only [Json.quote, byteLength_cons, byteLength_append, byteLength_nil]
    have hsize : '"'.utf8Size = 1 := by decide
    omega
  simp only [jsonBody, Json.object, List.map_cons, List.map_nil, Scan.joinWith_singleton,
    byteLength_cons, byteLength_append, byteLength_nil, hkey, hquote]
  have hsizes : '\x7b'.utf8Size = 1 ∧ '\x7d'.utf8Size = 1 ∧ ':'.utf8Size = 1 := by decide
  omega

/-- A JSON body is read as the text in it, to be redacted in random mode. -/
theorem readRequest?_jsonBody (text : List Char) :
    readRequest? (utf8 (jsonBody text)) = some (text, .random) := by
  let member : Json.Member := ⟨"text", Json.quote text, .text (some text)⟩
  have hmember : ∀ m ∈ [member], Json.Spells m.text m.value := by
    intro m hm
    rw [List.mem_singleton.mp hm]
    exact Json.spells_quote text
  have hspells : Json.Spells (jsonBody text) (.object [member.read]) := Json.spells_object hmember
  have hfields : (Json.Value.object [member.read]).fields? ["text", "mode"] =
      some [some member.value, none] := by
    simp [Json.Value.fields?, Json.Value.members?, Json.Member.read, member]
  simp only [readRequest?, Json.read?_of_spells hspells, Option.bind_eq_bind, Option.bind_some,
    hfields]
  rfl

/-! ## Requests for redaction -/

/-- A request that asks for a text to be redacted in random mode. -/
structure Asks (request : Request) (text : List Char) : Prop where
  method_eq : request.method = "POST"
  path_eq : String.ofList (pathOf request.target) = "/redact"
  reads : (isJson request.headers = true ∧ readRequest? request.body = some (text, .random)) ∨
    (isJson request.headers = false ∧ request.body = utf8 text)

variable {σ : Type} {request : Request} {text : List Char} (g : Gateway σ) (o : Occasion)
  (idDraw : Octets 16) (state : ServiceState σ)

/-- A body beyond the limit for bodies does not reach the gateway. -/
theorem Asks.handle_of_large (h : Asks request text)
    (hlarge : g.policy.maxPayloadBytes + envelopeAllowance < request.body.length) :
    handle g request o idDraw state = (bodyTooLarge, state) := by
  simp [handle, h.path_eq, h.method_eq, hlarge]

/-- Any other body is answered as its text passes the gateway, whatever form it has. -/
theorem Asks.handle_of_small (h : Asks request text)
    (hsmall : request.body.length ≤ g.policy.maxPayloadBytes + envelopeAllowance) :
    let passed := g.process (utf8 text) .random (clientIdentity request.headers request.peer) o
      state.gateway
    (handle g request o idDraw state).1.status = (outcomeResponse passed.1).status ∧
      (handle g request o idDraw state).2 = { state with gateway := passed.2 } := by
  have hnot : ¬g.policy.maxPayloadBytes + envelopeAllowance < request.body.length :=
    Nat.not_lt.mpr hsmall
  simp only [handle, h.path_eq, h.method_eq, hnot, ne_eq, not_true_eq_false, if_true, if_false,
    redact]
  rcases h.reads with ⟨hjson, hread⟩ | ⟨hplain, hbody⟩
  · simp only [hjson, hread, if_true]
    exact ⟨trivial, trivial⟩
  · simp only [hplain, hbody, Bool.false_eq_true, if_false]
    exact ⟨trivial, trivial⟩

/-- A text beyond the limit for texts is refused, and nothing has happened. -/
theorem process_of_long (mode : RedactMode) (identity : String) (gateway : GatewayState σ)
    (hlong : g.policy.maxPayloadBytes < byteLength text) :
    (outcomeResponse (g.process (utf8 text) mode identity o gateway).1).status = 413 ∧
      (g.process (utf8 text) mode identity o gateway).2 = gateway := by
  rw [← length_utf8] at hlong
  unfold Gateway.process
  rw [if_pos hlong]
  exact ⟨rfl, rfl⟩

/-- A text within the limit for texts is not refused for its size. -/
theorem status_process_ne (mode : RedactMode) (identity : String) (gateway : GatewayState σ)
    (hfits : byteLength text ≤ g.policy.maxPayloadBytes) :
    (outcomeResponse (g.process (utf8 text) mode identity o gateway).1).status ≠ 413 := by
  rw [← length_utf8] at hfits
  have hpassage := g.passage (utf8 text) mode identity o gateway
  -- The outcome and the state behind it are made variables, so that the ways to pass can be split.
  generalize (g.process (utf8 text) mode identity o gateway).1 = outcome at hpassage ⊢
  generalize (g.process (utf8 text) mode identity o gateway).2 = after at hpassage
  cases hpassage with
  | tooLarge hsize => omega
  | rateLimited => simp [outcomeResponse, errorResponse, jsonResponse, rejectionStatus]
  | admitted hsize hroom hcharges hserved =>
      cases hserved <;>
        simp [outcomeResponse, errorResponse, jsonResponse, rejectionStatus, failureStatus]

/-- A text beyond the limit is refused in any form. -/
theorem Asks.handle_of_long (h : Asks request text)
    (hlong : g.policy.maxPayloadBytes < byteLength text) :
    (handle g request o idDraw state).1.status = 413 ∧
      (handle g request o idDraw state).2 = state := by
  by_cases hlarge : g.policy.maxPayloadBytes + envelopeAllowance < request.body.length
  · rw [h.handle_of_large g o idDraw state hlarge]
    exact ⟨rfl, rfl⟩
  · obtain ⟨hstatus, hstate⟩ := h.handle_of_small g o idDraw state (Nat.not_lt.mp hlarge)
    obtain ⟨hrefused, hsame⟩ := process_of_long g o .random
      (clientIdentity request.headers request.peer) state.gateway hlong
    rw [hstatus, hstate, hrefused, hsame]
    exact ⟨rfl, rfl⟩

/-! ## The two forms -/

/-- A text sent as it is. -/
def plainRequest (headers : List Header) (peer : Option SocketAddress) (text : List Char) :
    Request :=
  ⟨"POST", "/redact".toList, ⟨"content-type", utf8 "text/plain".toList⟩ :: headers, utf8 text, peer⟩

/-- A text sent as a member of a JSON object. -/
def jsonRequest (headers : List Header) (peer : Option SocketAddress) (text : List Char) :
    Request :=
  ⟨"POST", "/redact".toList, ⟨"content-type", utf8 "application/json".toList⟩ :: headers,
    utf8 (jsonBody text), peer⟩

/-- The path of both forms is the one that is served. -/
private theorem redactPath_eq : String.ofList (pathOf "/redact".toList) = "/redact" := by
  decide +kernel

theorem asks_plainRequest (headers : List Header) (peer : Option SocketAddress)
    (text : List Char) : Asks (plainRequest headers peer text) text where
  method_eq := rfl
  path_eq := redactPath_eq
  reads := by
    have hname : ("content-type".toLower == "content-type") = true := by decide +kernel
    right
    constructor
    · simp only [plainRequest, isJson, headerOf?, List.find?_cons, hname, Option.bind_eq_bind,
        Option.bind_some]
      decide
    · rfl

theorem asks_jsonRequest (headers : List Header) (peer : Option SocketAddress)
    (text : List Char) : Asks (jsonRequest headers peer text) text where
  method_eq := rfl
  path_eq := redactPath_eq
  reads := by
    have hname : ("content-type".toLower == "content-type") = true := by decide +kernel
    left
    constructor
    · simp only [jsonRequest, isJson, headerOf?, List.find?_cons, hname, Option.bind_eq_bind,
        Option.bind_some]
      decide
    · exact readRequest?_jsonBody text

/-- The type of the content does not tell who calls. -/
theorem clientIdentity_contentType (value : List UInt8) (headers : List Header)
    (peer : Option SocketAddress) :
    clientIdentity (⟨"content-type", value⟩ :: headers) peer = clientIdentity headers peer := by
  have hname : ("content-type".toLower == "x-forwarded-for") = false := by decide +kernel
  simp only [clientIdentity, headerOf?, List.find?_cons, hname]

/-- The two forms of a request have the same status and the same effect. -/
def FormsAgree (g : Gateway σ) (headers : List Header) (peer : Option SocketAddress) (o : Occasion)
    (idDraw : Octets 16) (state : ServiceState σ) (text : List Char) : Prop :=
  (handle g (plainRequest headers peer text) o idDraw state).1.status =
      (handle g (jsonRequest headers peer text) o idDraw state).1.status ∧
    (handle g (plainRequest headers peer text) o idDraw state).2 =
      (handle g (jsonRequest headers peer text) o idDraw state).2

/-- A text within the limit for texts whose JSON form is beyond the one for bodies. -/
def Outgrows (policy : AdmissionPolicy) (text : List Char) : Prop :=
  byteLength text ≤ policy.maxPayloadBytes ∧
    policy.maxPayloadBytes + envelopeAllowance < byteLength (jsonBody text)

/-- Some text outgrows its form if the limit is above a fifth of the allowance: one of control
characters takes almost six times its bytes. -/
theorem exists_outgrows_iff (policy : AdmissionPolicy) :
    (∃ text, Outgrows policy text) ↔ envelopeAllowance < 5 * policy.maxPayloadBytes + 11 := by
  constructor
  · rintro ⟨text, hfits, hlarge⟩
    have hgrowth := (Json.byteLength_flatMap_escape text).2
    rw [byteLength_jsonBody] at hlarge
    omega
  · intro hlimit
    have hsize : '\x01'.utf8Size = 1 ∧ byteLength (Json.escape '\x01') = 6 := by decide
    refine ⟨List.replicate policy.maxPayloadBytes '\x01', ?_, ?_⟩
    · rw [byteLength_replicate, hsize.1]
      omega
    · rw [byteLength_jsonBody, Json.byteLength_flatMap_escape_replicate, hsize.2]
      omega

/-- The forms of a text that outgrows the limit for bodies come apart: one is refused, and the other
is served. -/
theorem handle_of_outgrows (headers : List Header) (peer : Option SocketAddress)
    (h : Outgrows g.policy text) :
    handle g (jsonRequest headers peer text) o idDraw state = (bodyTooLarge, state) ∧
      (handle g (plainRequest headers peer text) o idDraw state).1.status ≠ 413 := by
  constructor
  · apply (asks_jsonRequest headers peer text).handle_of_large
    show _ < (utf8 (jsonBody text)).length
    rw [length_utf8]
    exact h.2
  · have hsmall : (plainRequest headers peer text).body.length ≤
        g.policy.maxPayloadBytes + envelopeAllowance := by
      show (utf8 text).length ≤ _
      have hfits := h.1
      rw [length_utf8]
      omega
    rw [((asks_plainRequest headers peer text).handle_of_small g o idDraw state hsmall).1]
    exact status_process_ne g o _ _ _ h.1

/-- The forms of any other text agree: both are refused for the length of the text, or both come to
the same passage through the gateway. -/
theorem formsAgree_of_not_outgrows (headers : List Header)
    (peer : Option SocketAddress) (h : ¬Outgrows g.policy text) :
    FormsAgree g headers peer o idDraw state text := by
  have hplain := asks_plainRequest headers peer text
  have hjson := asks_jsonRequest headers peer text
  unfold FormsAgree
  by_cases hlong : g.policy.maxPayloadBytes < byteLength text
  · have hplainHandled := hplain.handle_of_long g o idDraw state hlong
    have hjsonHandled := hjson.handle_of_long g o idDraw state hlong
    rw [hplainHandled.1, hplainHandled.2, hjsonHandled.1, hjsonHandled.2]
    exact ⟨rfl, rfl⟩
  · -- Both bodies come to the gateway, with the same text and for the same caller.
    have hfits := Nat.not_lt.mp hlong
    have hgrowth : byteLength (jsonBody text) ≤ g.policy.maxPayloadBytes + envelopeAllowance :=
      Nat.not_lt.mp fun hlarge => h ⟨hfits, hlarge⟩
    have hplainHandled := hplain.handle_of_small g o idDraw state (by
      show (utf8 text).length ≤ _
      rw [length_utf8]
      omega)
    have hjsonHandled := hjson.handle_of_small g o idDraw state (by
      show (utf8 (jsonBody text)).length ≤ _
      rw [length_utf8]
      exact hgrowth)
    have hidentity : clientIdentity (plainRequest headers peer text).headers
        (plainRequest headers peer text).peer =
          clientIdentity (jsonRequest headers peer text).headers
            (jsonRequest headers peer text).peer := by
      show clientIdentity (_ :: headers) peer = clientIdentity (_ :: headers) peer
      rw [clientIdentity_contentType, clientIdentity_contentType]
    rw [hplainHandled.1, hplainHandled.2, hjsonHandled.1, hjsonHandled.2, hidentity]
    exact ⟨rfl, rfl⟩

/-- The two forms of a request agree exactly on the texts that do not outgrow the limit for bodies.
Where they come apart, the JSON form is refused for its size and nothing has happened, while the plain
form is not refused for its size.  There is no such text exactly if five times the limit for texts,
with the eleven bytes of the object around a text, fits into the allowance. -/
theorem formsAgree_iff (g : Gateway σ) (headers : List Header) (peer : Option SocketAddress)
    (o : Occasion) (idDraw : Octets 16) (state : ServiceState σ) :
    (∀ text, FormsAgree g headers peer o idDraw state text ↔ ¬Outgrows g.policy text) ∧
      (∀ text, Outgrows g.policy text →
        handle g (jsonRequest headers peer text) o idDraw state = (bodyTooLarge, state) ∧
          (handle g (plainRequest headers peer text) o idDraw state).1.status ≠ 413) ∧
      ((∀ text, FormsAgree g headers peer o idDraw state text) ↔
        5 * g.policy.maxPayloadBytes + 11 ≤ envelopeAllowance) := by
  have hagree : ∀ text, FormsAgree g headers peer o idDraw state text ↔ ¬Outgrows g.policy text := by
    intro text
    constructor
    · intro hagree houtgrows
      obtain ⟨hrefused, hserved⟩ := handle_of_outgrows g o idDraw state headers peer houtgrows
      apply hserved
      rw [hagree.1, hrefused]
      rfl
    · exact formsAgree_of_not_outgrows g o idDraw state headers peer
  refine ⟨hagree, fun text => handle_of_outgrows g o idDraw state headers peer, ?_⟩
  rw [← Nat.not_lt, ← exists_outgrows_iff, not_exists]
  exact forall_congr' hagree

/-- An address and 65526 line ends, at a limit of just their length.  As it is the text is served,
and as JSON it is two bytes for each line end and one byte too long. -/
theorem formsAgree_fails_line_ends :
    let policy : AdmissionPolicy := ⟨65534, .ofSeconds 5, .ofSeconds 300, .stable⟩
    let text := "10.0.0.1".toList ++ List.replicate 65526 '\n'
    byteLength text ≤ policy.maxPayloadBytes ∧
      ∀ (o : Occasion) (idDraw : Octets 16) (state : ServiceState MemoryStore),
        ¬FormsAgree ⟨.memory, none, policy⟩ [] none o idDraw state text := by
  intro policy text
  -- The text is too long to be evaluated, so its sizes are found from those of its parts.
  have hsize : '\n'.utf8Size = 1 ∧ byteLength (Json.escape '\n') = 2 ∧
      byteLength "10.0.0.1".toList = 8 ∧
      byteLength ("10.0.0.1".toList.flatMap Json.escape) = 8 := by decide
  have hplain : byteLength text = 65534 := by
    show byteLength ("10.0.0.1".toList ++ List.replicate 65526 '\n') = 65534
    rw [byteLength_append, byteLength_replicate, hsize.1, hsize.2.2.1]
  have hescaped : byteLength (text.flatMap Json.escape) = 131060 := by
    show byteLength (("10.0.0.1".toList ++ List.replicate 65526 '\n').flatMap Json.escape) =
      131060
    rw [List.flatMap_append, byteLength_append,
      Json.byteLength_flatMap_escape_replicate, hsize.2.1, hsize.2.2.2]
  have houtgrows : Outgrows policy text := by
    constructor
    · show byteLength text ≤ 65534
      omega
    · show 65534 + 65536 < byteLength (jsonBody text)
      rw [byteLength_jsonBody]
      omega
  refine ⟨houtgrows.1, ?_⟩
  intro o idDraw state hagree
  obtain ⟨hrefused, hserved⟩ :=
    handle_of_outgrows ⟨.memory, none, policy⟩ o idDraw state [] none houtgrows
  apply hserved
  rw [hagree.1, hrefused]
  rfl

end Http

end NetRedact
