import NetRedact.Startup
import NetRedact.Proofs.Admission
import NetRedact.Proofs.SocketSpelling

/-!
# What a valid configuration is good for

The checks of a configuration run one after the other and stop at the first that fails.
`Config.Usable` says without them what a gateway needs to run: an address to listen at, numbers in
their ranges, a Redis server with a name space if there is to be one, and a secret of sufficient length
if keyed surrogates are wanted.  The checks pass for these configurations and for no others.

What they are made for is said as well.  Where they pass, the address and the key are there, so no
later step of the start finds fault with the configuration; and the gateway that is built from it
refuses a deterministic request for want of a key only where keyed surrogates are not wanted.
-/

namespace NetRedact

open NetRedact.Text

/-! ## Checks in a row -/

theorem bind_eq_ok_iff {ε α β : Type} {x : Except ε α} {f : α → Except ε β} {b : β} :
    (x >>= f) = .ok b ↔ ∃ a, x = .ok a ∧ f a = .ok b := by
  cases x <;> simp [bind, Except.bind]

theorem seq_eq_ok_iff {ε β : Type} {x : Except ε Unit} {y : Except ε β} {b : β} :
    (x >>= fun _ => y) = .ok b ↔ x = .ok () ∧ y = .ok b := by
  cases x <;> simp [bind, Except.bind]

theorem mapError_eq_ok_iff {ε ε' α : Type} {x : Except ε α} {f : ε → ε'} {a : α} :
    x.mapError f = .ok a ↔ x = .ok a := by
  cases x <;> simp [Except.mapError]

theorem ite_error_eq_ok_iff {ε α : Type} {p : Prop} [Decidable p] {e : ε} {x : Except ε α} {a : α} :
    (if p then .error e else x) = .ok a ↔ ¬ p ∧ x = .ok a := by
  by_cases h : p <;> simp [h]

/-- A row of checks passes exactly if each of them does. -/
theorem forM_eq_ok_iff {ε α : Type} {xs : List α} {check : α → Except ε Unit} :
    xs.forM check = .ok () ↔ ∀ x ∈ xs, check x = .ok () := by
  induction xs with
  | nil => simp [List.forM, pure, Except.pure]
  | cons x xs ih =>
      change (check x >>= fun _ => xs.forM check) = .ok () ↔ _
      rw [seq_eq_ok_iff, List.forall_mem_cons, ih]

theorem Bounded.check_eq_ok_iff {b : Bounded} : b.check = .ok () ↔ b.value ∈ Set.Icc b.min b.max := by
  simp [Bounded.check]

namespace Config

/-! ## What a gateway needs -/

/-- A configuration that a gateway can run with.  Where a number may be as large as one likes, its
largest value is that of the words in which it is kept. -/
structure Usable (c : Config) : Prop where
  bind : ∃ address, SocketAddress.Spells c.server.bind.toList address
  maxPayloadBytes : c.limits.maxPayloadBytes ∈ Set.Icc 1024 8388608
  rateLimitRequests : c.limits.rateLimitRequests ∈ Set.Icc 1 maxWord32
  rateLimitWindowSecs : c.limits.rateLimitWindowSecs ∈ Set.Icc 1 maxWord64
  requestTimeoutSecs : c.limits.requestTimeoutSecs ∈ Set.Icc 1 maxWord64
  ttlSecs : c.mapping.ttlSecs ∈ Set.Icc 60 maxWord64
  cleanupIntervalSecs : c.mapping.cleanupIntervalSecs ∈ Set.Icc 30 maxWord64
  redis : c.mapping.backend = .redis →
    (∃ url ≠ "", c.mapping.redisUrl = some url) ∧ c.mapping.redisNamespace ≠ ""
  secret : c.deterministic.enabled = true →
    ∃ secret, c.deterministic.secret = some secret ∧ 32 ≤ secret.bytes.length

theorem bindAddress_eq_ok_iff {c : Config} {address : SocketAddress} :
    c.bindAddress = .ok address ↔ SocketAddress.Spells c.server.bind.toList address := by
  rw [← SocketAddress.read?_eq_some_iff, bindAddress]
  cases SocketAddress.read? c.server.bind.toList <;> simp

theorem checkBackend_eq_ok_iff {c : Config} :
    c.checkBackend = .ok () ↔ (c.mapping.backend = .redis →
      (∃ url ≠ "", c.mapping.redisUrl = some url) ∧ c.mapping.redisNamespace ≠ "") := by
  unfold checkBackend
  cases c.mapping.backend with
  | memory => simp
  | redis =>
      cases c.mapping.redisUrl with
      | none => simp
      | some url =>
          simp only [ite_error_eq_ok_iff, Option.getD_some, String.isEmpty_iff, ne_eq,
            Option.some.injEq, exists_eq_right', and_true, true_imp_iff]

theorem checkSecret_eq_ok_iff {c : Config} :
    c.checkSecret = .ok () ↔ (c.deterministic.enabled = true →
      ∃ secret, c.deterministic.secret = some secret ∧ 32 ≤ secret.bytes.length) := by
  unfold checkSecret
  cases c.deterministic.enabled with
  | false => simp
  | true =>
      cases c.deterministic.secret with
      | none => simp
      | some secret =>
          have hsize : secret.size = secret.bytes.length := (length_utf8 secret.text).symm
          simp only [↓reduceIte, ite_error_eq_ok_iff, and_true, true_imp_iff, Option.some.injEq,
            exists_eq_left', hsize, Secret.minSize]
          omega

/-- The checks pass for the configurations that a gateway can run with and for no others. -/
theorem validate_eq_ok_iff {c : Config} : c.validate = .ok () ↔ c.Usable := by
  rw [validate, bind_eq_ok_iff]
  simp only [seq_eq_ok_iff, forM_eq_ok_iff, Bounded.check_eq_ok_iff, bindAddress_eq_ok_iff,
    checkBackend_eq_ok_iff, checkSecret_eq_ok_iff]
  constructor
  · rintro ⟨address, hbind, hnumbers, hredis, hsecret⟩
    simp only [numbers, List.forall_mem_cons] at hnumbers
    obtain ⟨h₁, h₂, h₃, h₄, h₅, h₆, -⟩ := hnumbers
    exact ⟨⟨address, hbind⟩, h₁, h₂, h₃, h₄, h₅, h₆, hredis, hsecret⟩
  · rintro ⟨⟨address, hbind⟩, h₁, h₂, h₃, h₄, h₅, h₆, hredis, hsecret⟩
    refine ⟨address, hbind, ?_, hredis, hsecret⟩
    simp only [numbers, List.forall_mem_cons]
    exact ⟨h₁, h₂, h₃, h₄, h₅, h₆, List.forall_mem_nil _⟩

/-- The defaults lack a secret. -/
example : ({} : Config).validate = .error .missingSecret := by decide

/-! ## The key -/

/-- A secret with bytes in it gives a key. -/
theorem exists_key {secret : Secret} (h : secret.bytes ≠ []) :
    ∃ key, Key.ofSecret secret = .ok key :=
  ⟨⟨secret.bytes, h⟩, dif_neg h⟩

/-- There is a key for a usable configuration just where keyed surrogates are wanted. -/
theorem Usable.deterministicKey {c : Config} (h : c.Usable) :
    ∃ key, c.deterministicKey = .ok key ∧ (key.isSome = true ↔ c.deterministic.enabled = true) := by
  unfold Config.deterministicKey
  cases henabled : c.deterministic.enabled with
  | false => exact ⟨none, rfl, by simp⟩
  | true =>
      obtain ⟨secret, hsecret, hlong⟩ := h.secret henabled
      have hne : secret.bytes ≠ [] := List.ne_nil_of_length_pos (by omega)
      obtain ⟨key, hkey⟩ := exists_key hne
      exact ⟨some key, by simp only [hsecret, hkey, ↓reduceIte], by simp⟩

/-- The start comes to a key exactly for the usable configurations, and to the same one. -/
theorem validKey_eq_ok_iff {c : Config} {key : Option Key} :
    Startup.validKey c = .ok key ↔ c.Usable ∧ c.deterministicKey = .ok key := by
  rw [Startup.validKey, seq_eq_ok_iff, mapError_eq_ok_iff, mapError_eq_ok_iff, validate_eq_ok_iff]

end Config

/-! ## The start -/

namespace Startup

variable {σ : Type}

/-- Reaching the store fails for the server only. -/
theorem openStore_error {s : Surroundings σ} {c : Config} {e : StartupError}
    (h : (openStore s c).1 = .error e) : ∃ cause, e = .redis cause := by
  unfold openStore at h
  cases hbackend : c.mapping.backend with
  | memory =>
      rw [hbackend] at h
      cases h
  | redis =>
      rw [hbackend] at h
      dsimp only at h
      split at h
      · exact ⟨_, (Except.error.inj h).symm⟩
      · split at h
        · cases h
        · exact ⟨_, (Except.error.inj h).symm⟩

/-- The log is set up first, then the configuration is checked and its key made, and then the store is
reached.  The start ends at the first of these that fails. -/
theorem start_cases (s : Surroundings σ) (c : Config) :
    (∃ cause, (start s c).1 = .error (.logging cause)) ∨
      (∃ e, validKey c = .error e ∧ (start s c).1 = .error e) ∨
      ∃ key, validKey c = .ok key ∧ ((∃ backing, (start s c).1 = .ok ⟨c, key, backing⟩) ∨
        ∃ cause, (start s c).1 = .error (.redis cause)) := by
  unfold start
  rcases Logging.start false s.today s.working c.logging.directory s.files with ⟨_ | _, files⟩
  · exact .inl ⟨_, rfl⟩
  · cases hkey : validKey c with
    | error e => exact .inr (.inl ⟨e, rfl, rfl⟩)
    | ok key =>
        refine .inr (.inr ⟨key, rfl, ?_⟩)
        cases hstore : (openStore s c).1 with
        | error e =>
            obtain ⟨cause, rfl⟩ := openStore_error hstore
            exact .inr ⟨cause, by simp [hstore, Except.map]⟩
        | ok backing => exact .inl ⟨backing, by simp [hstore, Except.map]⟩

end Startup

/-! ## Refusals for want of a key -/

namespace Gateway

variable {σ : Type} {g : Gateway σ} {body : List UInt8} {mode : RedactMode} {o : Occasion}

/-- The body is a text with something in it. -/
def IsText (body : List UInt8) : Prop :=
  ∃ text, text ≠ [] ∧ utf8 text = body

theorem Malformed.not_isText {detail : String} (h : Malformed body detail) : ¬ IsText body := by
  rintro ⟨text, hne, htext⟩
  cases h with
  | empty =>
      have hread : decodeUtf8 [] = .ok text := decodeUtf8_eq_ok_iff.mpr htext
      exact hne (Except.ok.inj hread).symm
  | notUtf8 hnone _ => exact hnone text htext

theorem Chosen.key_ne_none {source : Source} (h : g.Chosen o .deterministic source) :
    g.key ≠ none := by
  cases h with
  | deterministic hkey => simp [hkey]

/-- Of the exits behind the rate check, one is for want of a key. -/
theorem Served.modeUnavailable_iff {records records' : σ} {outcome : Outcome}
    (h : g.Served body .deterministic o records outcome records') :
    outcome = .rejected (.modeUnavailable .deterministic) ↔ g.key = none ∧ IsText body := by
  cases h with
  | malformed hbody => simp [hbody.not_isText]
  | unavailable htext hne _ hkey => simpa [hkey] using ⟨_, hne, htext⟩
  | timedOut _ _ hsource _ => simp [hsource.key_ne_none]
  | lost _ _ hsource _ _ => simp [hsource.key_ne_none]
  | notStored _ _ hredacts _ =>
      obtain ⟨_, _, _, _, hsource, _⟩ := hredacts
      simp [hsource.key_ne_none]
  | completed _ _ hredacts _ =>
      obtain ⟨_, _, _, _, hsource, _⟩ := hredacts
      simp [hsource.key_ne_none]

/-- A deterministic request is refused for want of a key where there is none and the request is a
text that passes the checks of its size and of the rate. -/
theorem process_modeUnavailable_iff (g : Gateway σ) (body : List UInt8) (identity : String)
    (o : Occasion) (state : GatewayState σ) :
    (g.process body .deterministic identity o state).1 =
        .rejected (.modeUnavailable .deterministic) ↔
      g.key = none ∧ body.length ≤ g.policy.maxPayloadBytes ∧
        (state.limiter.check identity o.checkedAt).1 = .allowed ∧ IsText body := by
  have hpassage := g.passage body .deterministic identity o state
  generalize (g.process body .deterministic identity o state).1 = outcome at hpassage
  generalize (g.process body .deterministic identity o state).2 = state' at hpassage
  cases hpassage with
  | tooLarge hsize => simp [Nat.not_le.mpr hsize]
  | rateLimited _ hfull _ => simp [(RateLimiter.check_of_full hfull).1]
  | admitted hsize hroom _ hserved =>
      simp [hserved.modeUnavailable_iff, hsize, (RateLimiter.check_of_room hroom).1]

end Gateway

namespace Config

/-- The gateway starts with usable configurations only, and with these it does unless its log or its
Redis server is missing. -/
theorem Usable.start {ρ : Type} {c : Config} (h : c.Usable) {key : Option Key}
    (hkey : c.deterministicKey = .ok key) (s : Surroundings ρ) :
    (∃ backing, (Startup.start s c).1 = .ok ⟨c, key, backing⟩) ∨
      (∃ cause, (Startup.start s c).1 = .error (.logging cause)) ∨
      ∃ cause, (Startup.start s c).1 = .error (.redis cause) := by
  have hvalid : Startup.validKey c = .ok key := validKey_eq_ok_iff.mpr ⟨h, hkey⟩
  rcases Startup.start_cases s c with hlog | ⟨e, he, -⟩ | ⟨key', hkey', hstarted | hserver⟩
  · exact .inr (.inl hlog)
  · rw [hvalid] at he
    cases he
  · obtain rfl : key = key' := Except.ok.inj (hvalid.symm.trans hkey')
    exact .inl hstarted
  · exact .inr (.inr hserver)

theorem usable_of_start {ρ : Type} {c : Config} {s : Surroundings ρ} {started : Started ρ}
    (h : (Startup.start s c).1 = .ok started) : c.Usable := by
  rcases Startup.start_cases s c with ⟨_, hlog⟩ | ⟨_, -, he⟩ | ⟨_, hkey, -⟩
  · rw [h] at hlog
    cases hlog
  · rw [h] at he
    cases he
  · exact (validKey_eq_ok_iff.mp hkey).1

/-- A configuration is valid exactly if a gateway can run with it, and a gateway starts with no other.
If it is valid then there is an address to listen at, there is a key exactly where keyed surrogates are
wanted, and the start can fail for the log and the Redis server only.  The gateway that is built from
it refuses a deterministic request for want of a key only where keyed surrogates are not wanted, and
there it refuses every text that passes the checks of its size and of the rate. -/
theorem validate_exact {σ ρ : Type} (store : MappingStore σ) (s : Surroundings ρ) (c : Config) :
    (c.validate = .ok () ↔ c.Usable) ∧
    (∀ started, (Startup.start s c).1 = .ok started → c.validate = .ok ()) ∧
    (c.validate = .ok () →
      (∃ address, c.bindAddress = .ok address) ∧
      ∃ key, c.deterministicKey = .ok key ∧ (key.isSome = true ↔ c.deterministic.enabled = true) ∧
        ((∃ backing, (Startup.start s c).1 = .ok ⟨c, key, backing⟩) ∨
          (∃ cause, (Startup.start s c).1 = .error (.logging cause)) ∨
          ∃ cause, (Startup.start s c).1 = .error (.redis cause)) ∧
        ∃ g, Gateway.ofConfig store c = .ok g ∧ ∀ body identity o state,
          (g.process body .deterministic identity o state).1 =
              .rejected (.modeUnavailable .deterministic) ↔
            c.deterministic.enabled = false ∧ body.length ≤ c.limits.maxPayloadBytes ∧
              (state.limiter.check identity o.checkedAt).1 = .allowed ∧ Gateway.IsText body) := by
  refine ⟨validate_eq_ok_iff, fun _ h => validate_eq_ok_iff.mpr (usable_of_start h),
    fun hvalid => ?_⟩
  have husable := validate_eq_ok_iff.mp hvalid
  obtain ⟨address, haddress⟩ := husable.bind
  obtain ⟨key, hkey, hsome⟩ := husable.deterministicKey
  have hgateway : Gateway.ofConfig store c = .ok ⟨store, key, .ofConfig c⟩ := by
    rw [Gateway.ofConfig, hkey]
  refine ⟨⟨address, bindAddress_eq_ok_iff.mpr haddress⟩, key, hkey, hsome, husable.start hkey s, _,
    hgateway, fun body identity o state => ?_⟩
  rw [Gateway.process_modeUnavailable_iff]
  have hnone : key = none ↔ c.deterministic.enabled = false := by
    rw [← Option.not_isSome_iff_eq_none, hsome, Bool.not_eq_true]
  exact and_congr_left' hnone

/-- With the defaults and without keyed surrogates the gateway starts, and a deterministic request is
refused. -/
theorem validate_exact_unkeyed :
    ∃ (s : Surroundings Unit) (c : Config) (started : Started Unit) (g : Gateway MemoryStore)
        (o : Occasion),
      (Startup.start s c).1 = .ok started ∧ c.validate = .ok () ∧ c.Usable ∧
        Gateway.ofConfig .memory c = .ok g ∧
        (g.process (utf8 "10.0.0.1".toList) .deterministic "caller" o
          ⟨.ofConfig c, .empty⟩).1 = .rejected (.modeUnavailable .deterministic) := by
  let c : Config := { deterministic := { enabled := false } }
  let s : Surroundings Unit := ⟨fun _ => none, [], default, ⟨1970, 1, 1⟩, ⟨0⟩, fun _ => none,
    fun _ _ server => (none, server)⟩
  let o : Occasion := ⟨⟨0⟩, ⟨0⟩, ⟨0, 0⟩, ⟨Vector.replicate 16 0⟩, Vector.replicate 16 0,
    fun _ => Vector.replicate 16 0, none, none⟩
  have hvalid : c.validate = .ok () := by decide
  obtain ⟨husable, -, hserves⟩ := validate_exact .memory s c
  have hkey : Startup.validKey c = .ok none := validKey_eq_ok_iff.mpr ⟨husable.mp hvalid, rfl⟩
  have hstart : (Startup.start s c).1 = .ok ⟨c, none, .memory⟩ := by
    rw [Startup.start, hkey]
    rfl
  obtain ⟨-, key, -, -, -, g, hg, hrefuses⟩ := hserves hvalid
  refine ⟨s, c, _, g, o, hstart, hvalid, husable.mp hvalid, hg, (hrefuses _ _ _ _).mpr ?_⟩
  exact ⟨rfl, by decide, by decide, "10.0.0.1".toList, by decide, rfl⟩

end Config

end NetRedact
