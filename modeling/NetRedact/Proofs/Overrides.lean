import NetRedact.Config.Override
import NetRedact.Proofs.NumberTexts
import Mathlib.Logic.Function.Basic

/-!
# Settings layered under an environment

Fifteen settings have fourteen variables.  `settings` is the table of them: for each setting the name
of its variable, what a text in that variable says, and where the configuration keeps the value.  Under
an environment, each setting is what its own variable says; where that is absent or says nothing, it is
what it was before.

The table does not say how texts are read, only which texts say what.  That it leaves out no setting is
part of the main statement: there is just one configuration in which all of its settings are layered
so.  From this it follows that a text that cannot be read is as good as none, and that it makes no
difference to apply an environment twice.
-/

namespace NetRedact

open NetRedact.Text

/-! ## The table of settings -/

/-- A setting of the configuration. -/
structure Setting where
  Value : Type
  /-- The variable that the setting has. -/
  name : String
  /-- What a text in the variable says.  A text that says nothing is unreadable. -/
  Reads : String → Value → Prop
  /-- The value in a configuration. -/
  get : Config → Value

namespace Setting

/-- A setting that takes any text as it stands; `keep` is the form in which it is kept. -/
def verbatim {α : Type} (name : String) (keep : String → α) (get : Config → α) : Setting :=
  ⟨α, name, fun text v => v = keep text, get⟩

/-- A setting that takes a word with white space around it. -/
def ofWord {α : Type} (name : String) (Word : List Char → α → Prop) (get : Config → α) : Setting :=
  ⟨α, name, fun text v => ∃ word, Padded word text.toList ∧ Word word v, get⟩

/-- A number with its limit. -/
def number (name : String) (limit : Nat) (get : Config → Nat) : Setting :=
  ofWord name (SignedNumberWord limit) get

end Setting

/-- The word for a truth value. -/
def TruthWord (word : List Char) (b : Bool) : Prop :=
  word = (if b then "true" else "false").toList

/-- The word for a salt policy. -/
def SaltWord (word : List Char) (policy : SaltPolicy) : Prop :=
  word = policy.label.toList

/-- Every setting.  The backend has no variable of its own: that for the address of the Redis server
selects it, whatever it says. -/
def settings : List Setting :=
  [.verbatim "NETVEIL_BIND" id (·.server.bind),
    .number "NETVEIL_MAX_PAYLOAD_BYTES" maxWord64 (·.limits.maxPayloadBytes),
    .number "NETVEIL_RATE_LIMIT_REQUESTS" maxWord32 (·.limits.rateLimitRequests),
    .number "NETVEIL_RATE_LIMIT_WINDOW_SECS" maxWord64 (·.limits.rateLimitWindowSecs),
    .number "NETVEIL_REQUEST_TIMEOUT_SECS" maxWord64 (·.limits.requestTimeoutSecs),
    .number "NETVEIL_MAPPING_TTL_SECS" maxWord64 (·.mapping.ttlSecs),
    .number "NETVEIL_CLEANUP_INTERVAL_SECS" maxWord64 (·.mapping.cleanupIntervalSecs),
    .verbatim "NETVEIL_REDIS_URL" (fun _ => MappingBackend.redis) (·.mapping.backend),
    .verbatim "NETVEIL_REDIS_URL" some (·.mapping.redisUrl),
    .verbatim "NETVEIL_REDIS_NAMESPACE" id (·.mapping.redisNamespace),
    .verbatim "NETVEIL_DETERMINISTIC_SECRET" (fun text => some ⟨text.toList⟩)
      (·.deterministic.secret),
    .ofWord "NETVEIL_DETERMINISTIC_ENABLED" TruthWord (·.deterministic.enabled),
    .ofWord "NETVEIL_SALT_POLICY" SaltWord (·.deterministic.salt),
    .verbatim "NETVEIL_LOG_LEVEL" id (·.logging.level),
    .verbatim "NETVEIL_LOG_DIR" some (·.logging.directory)]

/-- Two configurations with the same settings are the same. -/
theorem ext_settings {c d : Config} (h : ∀ s ∈ settings, s.get c = s.get d) : c = d := by
  obtain ⟨⟨_⟩, ⟨_, _, _, _⟩, ⟨_, _, _, _, _⟩, ⟨_, _, _⟩, ⟨_, _⟩⟩ := c
  obtain ⟨⟨_⟩, ⟨_, _, _, _⟩, ⟨_, _, _, _, _⟩, ⟨_, _, _⟩, ⟨_, _⟩⟩ := d
  simp only [settings, Setting.verbatim, Setting.number, Setting.ofWord, List.forall_mem_cons] at h
  obtain ⟨rfl, rfl, rfl, rfl, rfl, rfl, rfl, rfl, rfl, rfl, rfl, rfl, rfl, rfl, rfl, -⟩ := h
  rfl

/-! ## Layers -/

namespace Setting

variable {env : Environment} {before after : Config}

/-- What an environment says about a setting, in its own variable. -/
def Says (s : Setting) (env : Environment) (v : s.Value) : Prop :=
  ∃ text, env s.name = some text ∧ s.Reads text v

/-- The setting is what the environment says, and as before where that says nothing. -/
structure Layers (s : Setting) (env : Environment) (before after : Config) : Prop where
  said : ∀ v, s.Says env v → s.get after = v
  unsaid : (∀ v, ¬ s.Says env v) → s.get after = s.get before

/-- A reader that takes just the texts that say something layers the setting. -/
theorem layers_iff {s : Setting} {read : String → Option s.Value}
    (hread : ∀ text v, read text = some v ↔ s.Reads text v) :
    s.Layers env before after ↔ s.get after = ((env s.name).bind read).getD (s.get before) := by
  have hvalue (v : s.Value) : s.Says env v ↔ (env s.name).bind read = some v := by
    simp only [Says, Option.bind_eq_some_iff, hread]
  constructor
  · rintro ⟨hsaid, hunsaid⟩
    cases hv : (env s.name).bind read with
    | none => exact hunsaid fun v h => by simp [(hvalue v).mp h] at hv
    | some v => exact hsaid v ((hvalue v).mpr hv)
  · intro h
    refine ⟨fun v hv => ?_, fun hnone => ?_⟩
    · rw [h, (hvalue v).mp hv, Option.getD_some]
    · have hv : (env s.name).bind read = none :=
        Option.eq_none_iff_forall_ne_some.mpr fun v hv => hnone v ((hvalue v).mpr hv)
      rw [h, hv, Option.getD_none]

theorem layers_verbatim_iff {α : Type} {name : String} {keep : String → α} {get : Config → α} :
    (verbatim name keep get).Layers env before after ↔
      get after = ((env name).map keep).getD (get before) := by
  have hread (text : String) (v : α) : some (keep text) = some v ↔ v = keep text := by
    rw [Option.some.injEq, eq_comm]
  rw [layers_iff (s := verbatim name keep get) hread, Option.map_eq_bind]
  rfl

theorem layers_ofWord_iff {α : Type} {name : String} {Word : List Char → α → Prop}
    {get : Config → α} (parse : List Char → Option α)
    (hparse : ∀ word v, parse word = some v ↔ Word word v)
    (hsolid : ∀ word v, Word word v → Solid word) :
    (ofWord name Word get).Layers env before after ↔
      get after = env.setting name (fun text => parse (trim text.toList)) (get before) :=
  layers_iff (s := ofWord name Word get) fun _ _ => parse_trim_eq_some_iff hparse hsolid

theorem layers_number_iff {name : String} {limit : Nat} {get : Config → Nat} :
    (number name limit get).Layers env before after ↔
      get after = env.setting name (trimmedNumber? limit) (get before) :=
  layers_ofWord_iff (unsigned? limit) (fun _ _ => unsigned?_eq_some_iff)
    fun _ _ => SignedNumberWord.solid

end Setting

/-! ## Truth values and salt policies -/

theorem TruthWord.solid {word : List Char} {b : Bool} (h : TruthWord word b) : Solid word := by
  subst h
  cases b <;> decide

theorem SaltWord.solid {word : List Char} {policy : SaltPolicy} (h : SaltWord word policy) :
    Solid word := by
  subst h
  cases policy <;> decide

theorem ofLabel?_eq_some_iff {word : List Char} {policy : SaltPolicy} :
    SaltPolicy.ofLabel? (String.ofList word) = some policy ↔ SaltWord word policy := by
  constructor
  · intro h
    have hlabel : policy.label = String.ofList word := by simpa using List.find?_some h
    rw [SaltWord, hlabel, String.toList_ofList]
  · rintro rfl
    rw [String.ofList_toList]
    cases policy <;> rfl

theorem layers_truth_iff {env : Environment} {before after : Config} {name : String}
    {get : Config → Bool} :
    (Setting.ofWord name TruthWord get).Layers env before after ↔
      get after = env.setting name trimmedBool? (get before) := by
  refine Setting.layers_ofWord_iff
    (fun cs => if cs = ['t', 'r', 'u', 'e'] then some true
      else if cs = ['f', 'a', 'l', 's', 'e'] then some false else none)
    (fun word b => ?_) fun _ _ => TruthWord.solid
  constructor
  · intro h
    split_ifs at h with htrue hfalse
    · rw [TruthWord, htrue, ← Option.some.inj h]; rfl
    · rw [TruthWord, hfalse, ← Option.some.inj h]; rfl
  · rintro rfl
    cases b <;> rfl

theorem layers_salt_iff {env : Environment} {before after : Config} {name : String}
    {get : Config → SaltPolicy} :
    (Setting.ofWord name SaltWord get).Layers env before after ↔
      get after = env.setting name trimmedSaltPolicy? (get before) :=
  Setting.layers_ofWord_iff (fun cs => SaltPolicy.ofLabel? (String.ofList cs))
    (fun _ _ => ofLabel?_eq_some_iff) fun _ _ => SaltWord.solid

/-! ## The configuration under an environment -/

namespace Config

/-- Every setting is layered. -/
theorem layers_override (env : Environment) (c : Config) :
    ∀ s ∈ settings, s.Layers env c (override env c) := by
  have htext (name previous : String) :
      env.verbatim name previous = ((env name).map id).getD previous := by
    rw [Option.map_id_fun]; rfl
  have hoptional (given previous : Option String) :
      given.or previous = (given.map some).getD previous := by
    cases given <;> rfl
  have hsecret (given : Option String) (previous : Option Secret) :
      (given.map fun text => ⟨text.toList⟩).or previous =
        (given.map fun text => some ⟨text.toList⟩).getD previous := by
    cases given <;> rfl
  have hbackend (given : Option String) (previous : MappingBackend) :
      (if given.isSome then .redis else previous) =
        (given.map fun _ => MappingBackend.redis).getD previous := by
    cases given <;> rfl
  simp only [settings, List.forall_mem_cons, Setting.layers_verbatim_iff,
    Setting.layers_number_iff, layers_truth_iff, layers_salt_iff]
  exact ⟨htext _ _, rfl, rfl, rfl, rfl, rfl, rfl, hbackend _ _, hoptional _ _, htext _ _,
    hsecret _ _, rfl, rfl, htext _ _, hoptional _ _, List.forall_mem_nil _⟩

/-- There is one configuration only in which every setting is layered. -/
theorem eq_of_layers {env : Environment} {c d e : Config} (hd : ∀ s ∈ settings, s.Layers env c d)
    (he : ∀ s ∈ settings, s.Layers env c e) : d = e := by
  refine ext_settings fun s hs => ?_
  by_cases hsaid : ∃ v, s.Says env v
  · obtain ⟨v, hv⟩ := hsaid
    rw [(hd s hs).said v hv, (he s hs).said v hv]
  · have hunsaid (v : s.Value) : ¬ s.Says env v := fun hv => hsaid ⟨v, hv⟩
    rw [(hd s hs).unsaid hunsaid, (he s hs).unsaid hunsaid]

theorem eq_override_iff {env : Environment} {c d : Config} :
    d = override env c ↔ ∀ s ∈ settings, s.Layers env c d := by
  constructor
  · rintro rfl
    exact layers_override env c
  · exact fun h => eq_of_layers h (layers_override env c)

/-- Environments that say the same make the same of a configuration. -/
theorem override_congr {env env' : Environment} (c : Config)
    (h : ∀ s ∈ settings, ∀ v, s.Says env v ↔ s.Says env' v) : override env c = override env' c := by
  rw [eq_override_iff]
  intro s hs
  have hlayers := layers_override env c s hs
  exact ⟨fun v hv => hlayers.said v ((h s hs v).mpr hv),
    fun hnone => hlayers.unsaid fun v hv => hnone v ((h s hs v).mp hv)⟩

/-- A text that cannot be read is as good as none. -/
theorem override_unreadable {name text : String}
    (h : ∀ s ∈ settings, s.name = name → ∀ v, ¬ s.Reads text v) (env : Environment) (c : Config) :
    override (Function.update env name (some text)) c =
      override (Function.update env name none) c := by
  refine override_congr c fun s hs v => ?_
  by_cases hname : s.name = name
  · constructor
    · rintro ⟨text', htext', hreads⟩
      rw [hname, Function.update_self, Option.some.injEq] at htext'
      exact absurd (htext' ▸ hreads) (h s hs hname v)
    · rintro ⟨text', htext', -⟩
      rw [hname, Function.update_self] at htext'
      exact absurd htext' (by simp)
  · simp only [Setting.Says, Function.update_of_ne hname]

/-- Only the variables of settings matter. -/
theorem override_eq_of_variables {env env' : Environment} (c : Config)
    (h : ∀ name ∈ variableNames, env name = env' name) : override env c = override env' c := by
  have hnames : ∀ s ∈ settings, s.name ∈ variableNames := by
    simp only [settings, List.forall_mem_cons, Setting.verbatim, Setting.number, Setting.ofWord]
    decide
  refine override_congr c fun s hs v => ?_
  rw [Setting.Says, Setting.Says, h s.name (hnames s hs)]

/-- What an environment says, it says again. -/
theorem override_override (env : Environment) (c : Config) :
    override env (override env c) = override env c := by
  refine (eq_override_iff.mpr fun s hs => ?_).symm
  exact ⟨(layers_override env c s hs).said, fun _ => rfl⟩

/-- The configuration under an environment is the one in which each setting is what its own variable
says, or as it was where that is absent or says nothing.  So a text that cannot be read changes
nothing, neither for the setting that its variable has nor for another; Redis is selected by the
presence of its variable alone; and the environment may be applied again without effect. -/
theorem override_layered (env : Environment) (c : Config) :
    (∀ d, d = override env c ↔ ∀ s ∈ settings, s.Layers env c d) ∧
    (∀ name text, (∀ s ∈ settings, s.name = name → ∀ v, ¬ s.Reads text v) →
      override (Function.update env name (some text)) c =
        override (Function.update env name none) c) ∧
    (override env c).mapping.backend =
      (if (env "NETVEIL_REDIS_URL").isSome then .redis else c.mapping.backend) ∧
    override env (override env c) = override env c :=
  ⟨fun _ => eq_override_iff, fun _ _ h => override_unreadable h env c, rfl,
    override_override env c⟩

/-- A number with a unit is no number, while white space and a plus sign do no harm. -/
theorem override_layered_unit :
    override (Function.update (fun name => if name = "NETVEIL_RATE_LIMIT_REQUESTS" then some " +50\n"
        else none) "NETVEIL_MAPPING_TTL_SECS" (some "24h")) {} =
      { limits := { rateLimitRequests := 50 } } := by
  have hnumber (v : Nat) :
      ¬ ∃ word, Padded word "24h".toList ∧ SignedNumberWord maxWord64 word v := by
    rw [← parse_trim_eq_some_iff (fun _ _ => unsigned?_eq_some_iff)
      fun _ _ => SignedNumberWord.solid, show unsigned? maxWord64 (trim "24h".toList) = none
        from by decide]
    exact Option.some_ne_none v ∘ Eq.symm
  have hunread : ∀ s ∈ settings, s.name = "NETVEIL_MAPPING_TTL_SECS" → ∀ v, ¬ s.Reads "24h" v := by
    simpa [settings, Setting.verbatim, Setting.number, Setting.ofWord] using hnumber
  rw [(override_layered _ {}).2.1 _ _ hunread]
  decide

end Config

end NetRedact
