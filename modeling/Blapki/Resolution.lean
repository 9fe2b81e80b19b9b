/-
Whether a name means at run time what it means in the settings.

`Settings::ca` and `Settings::profile` find the first declaration of a name, `build_state`
inserts all of them into a map and so keeps the last, and `validate` does not look for
duplicates. `names_resolve_iff` says what that comes to: every declaration is in the
running state under its name, and is what its name resolves to, just when no two
declarations of one name differ. What a declaration stands for is read off the settings,
the variables of the process and its key file (`CaConfig.configured`,
`ProfileConfig.validator`).
-/
import Blapki.App
import Blapki.Signing

set_option autoImplicit false

namespace Blapki

open Effect FirstMatch

/-- The challenge mode a validator implements. -/
def ChallengeValidator.mode : ChallengeValidator → ChallengeMode
  | .StaticSecretValidator _ => .Static
  | .IntuneValidator _ => .Intune
  | .NoneValidator => .None

/-- The variables of a process do not change while it starts. -/
def Variables (env : String → Option String) (tr : Trace) : Prop :=
  ∀ name value, ⟨Op.env_var name, value⟩ ∈ tr → value = env name

theorem Variables.mono {env : String → Option String} {tr t : Trace} (h : Variables env tr)
    (ht : t ⊆ tr) : Variables env t :=
  fun name value hmem => h name value (ht hmem)

/-! ## What a declaration stands for -/

/-- What is found for a CA that is not configured inline: the bundle in its key file, or no
such file, and then what is drawn for a new CA. -/
inductive Found where
  | bundle (bytes : Bytes)
  | missing (seed : Seed) (octets : { b : Bytes // b.length = 16 }) (now : SystemTime)

/-- The answers it is found by. -/
def Found.Answered (key_file : String) (t : Trace) : Found → Prop
  | .bundle bytes =>
      ⟨Op.path_exists key_file, true⟩ ∈ t ∧ ⟨Op.read_file key_file, .ok bytes⟩ ∈ t
  | .missing seed octets now =>
      ⟨Op.path_exists key_file, false⟩ ∈ t ∧ ⟨Op.thread_rng, seed⟩ ∈ t ∧
        ⟨Op.fill_bytes 16, octets⟩ ∈ t ∧ ⟨Op.now, now⟩ ∈ t

/-- The CA of a key file. -/
def Found.authority (X : Crates) (id : String) (password : Option String) :
    Found → AppResult CertificateAuthority
  | .bundle bytes => do
      let (cert, key) ← keystore.InlineKeyStore.load X ⟨bytes, bytes, password⟩
      pure (CertificateAuthority.new id cert key)
  | .missing seed octets now =>
      CertificateAuthority.self_signed X id s!"blapki CA {id}" 3072 seed
        (serial_of octets) now

/-- The CA that a declaration stands for: of its inline material, and else of its key file. -/
def CaConfig.configured (X : Crates) (env : String → Option String) (cfg : CaConfig)
    (found : Option Found) : AppResult CertificateAuthority :=
  let password := cfg.key_password_env.bind env
  match cfg.cert_pem.or (cfg.cert_pem_env.bind env), cfg.key_pem.or (cfg.key_pem_env.bind env) with
  | some cert, some key => do
      let store ← keystore.InlineKeyStore.from_material X cert key password
      let (cert, key) ← store.load X
      pure (CertificateAuthority.new cfg.id cert key)
  | none, none => do
      let found ← ok_or_else found (.Config s!"ca '{cfg.id}' has no key material configured")
      found.authority X cfg.id password
  | _, _ => throw (.Config s!"ca '{cfg.id}': provide both cert and key inline, or neither")

/-- The validator that a declaration stands for, with the secret of its variable. -/
def ProfileConfig.validator (env : String → Option String) (intune : Option IntuneConfig)
    (p : ProfileConfig) : Option ChallengeValidator :=
  match p.challenge with
  | .Static => (p.static_secret_env.bind env).map .StaticSecretValidator
  | .Intune => intune.bind fun cfg =>
      (env cfg.client_secret_env).map fun secret => .IntuneValidator (app.intune_client cfg secret)
  | .None => some .NoneValidator

namespace app

variable {X : Crates} {settings : Settings} {env : String → Option String} {tr : Trace}
  {state : AppState} {loaded : List CertificateAuthority} {validators : List ChallengeValidator}

theorem env_var_of_variables (henv : Variables env tr) {name value : String} {e : AppError}
    (h : Returns (env_var name e) tr (.ok value)) : env name = some value := by
  obtain ⟨answer, rfl, hvalue⟩ := returns_request_lift.mp h
  rw [← henv name answer List.mem_cons_self]
  exact ok_or_else_eq_ok.mp hvalue.symm

theorem resolve_value_of_variables (henv : Variables env tr) {inline env_name : Option String}
    {field : String} {value : Option String}
    (h : Returns (resolve_value inline env_name field) tr (.ok value)) :
    value = inline.or (env_name.bind env) := by
  rcases inline with _ | v
  · rcases env_name with _ | name
    · exact Except.ok.inj (returns_pure.mp h).2
    · obtain ⟨v, t₁, t₂, rfl, hv, hpure⟩ := returns_bind_ok.mp h
      have hread := env_var_of_variables (henv.mono (List.subset_append_left t₁ t₂)) hv
      rw [Except.ok.inj (returns_pure.mp hpure).2]
      exact hread.symm
  · exact Except.ok.inj (returns_pure.mp h).2

theorem inline_material_of_variables (henv : Variables env tr) {cfg : CaConfig}
    {material : Option (String × String)} (h : Returns cfg.inline_material tr (.ok material)) :
    cfg.cert_pem.or (cfg.cert_pem_env.bind env) = material.map Prod.fst ∧
      cfg.key_pem.or (cfg.key_pem_env.bind env) = material.map Prod.snd := by
  obtain ⟨cert, t₁, _, rfl, hcert, h₁⟩ := returns_bind_ok.mp h
  obtain ⟨key, t₂, t₃, rfl, hkey, h₂⟩ := returns_bind_ok.mp h₁
  have henv₁ := henv.mono (List.subset_append_right t₁ (t₂ ++ t₃))
  rw [← resolve_value_of_variables (henv.mono (List.subset_append_left _ _)) hcert,
    ← resolve_value_of_variables (henv₁.mono (List.subset_append_left t₂ t₃)) hkey]
  rcases cert with _ | cert <;> rcases key with _ | key
  · rw [Except.ok.inj (returns_pure.mp h₂).2]
    exact ⟨rfl, rfl⟩
  · cases (returns_throw.mp h₂).2
  · cases (returns_throw.mp h₂).2
  · rw [Except.ok.inj (returns_pure.mp h₂).2]
    exact ⟨rfl, rfl⟩

theorem key_password_of_variables (henv : Variables env tr) {cfg : CaConfig}
    {password : Option String} (h : Returns (key_password cfg) tr (.ok password)) :
    password = cfg.key_password_env.bind env := by
  unfold key_password at h
  rcases hname : cfg.key_password_env with _ | name
  · rw [hname] at h
    exact Except.ok.inj (returns_pure.mp h).2
  · rw [hname] at h
    obtain ⟨value, hvalue, rfl⟩ := returns_request.mp h
    rw [Except.ok.inj hvalue]
    exact henv name value List.mem_cons_self

/-- A load from a key file reads the bundle that is found there. -/
theorem load_bundle {key_file id : String} {password : Option String} {t : Trace}
    {pair : Certificate × RsaPrivateKey}
    (h : Returns (keystore.FileKeyStore.load X ⟨key_file, password⟩) t (.ok pair)) :
    ∃ bytes, ⟨Op.read_file key_file, .ok bytes⟩ ∈ t ∧
      (Found.bundle bytes).authority X id password
        = .ok (CertificateAuthority.new id pair.1 pair.2) := by
  obtain ⟨read, t', rfl, h₁⟩ := returns_request_bind.mp h
  obtain ⟨bytes, hread, h₂⟩ := returns_lift_bind_ok.mp h₁
  obtain ⟨cert, hcert, h₃⟩ := returns_lift_bind_ok.mp h₂
  obtain ⟨key, hkey, h₄⟩ := returns_lift_bind_ok.mp h₃
  obtain rfl : read = .ok bytes := map_err_eq_ok.mp hread
  rw [Except.ok.inj (returns_pure.mp h₄).2]
  refine ⟨bytes, List.mem_cons_self, ?_⟩
  rw [Found.authority, keystore.InlineKeyStore.load, hcert, hkey]
  rfl

/-- A bootstrap makes the CA of the draws that were found for a missing key file. -/
theorem bootstrap_missing {key_file id : String} (password : Option String) {t : Trace}
    {ca : CertificateAuthority} (h : Returns (bootstrap_ca X id key_file) t (.ok ca)) :
    ∃ seed octets now, ⟨Op.thread_rng, seed⟩ ∈ t ∧ ⟨Op.fill_bytes 16, octets⟩ ∈ t ∧
      ⟨Op.now, now⟩ ∈ t ∧ (Found.missing seed octets now).authority X id password = .ok ca := by
  obtain ⟨ca', t₁, t₂, rfl, hgen, h₁⟩ := returns_bind_ok.mp h
  obtain rfl : ca' = ca := by
    rcases hparent : path.parent key_file with _ | parent
    · rw [hparent] at h₁
      obtain ⟨_, _, _, _, _, h₂⟩ := returns_bind_ok.mp h₁
      exact (Except.ok.inj (returns_pure.mp h₂).2).symm
    · rw [hparent] at h₁
      obtain ⟨_, _, _, h₂⟩ := returns_request_bind.mp h₁
      obtain ⟨_, _, _, _, _, h₃⟩ := returns_bind_ok.mp h₂
      exact (Except.ok.inj (returns_pure.mp h₃).2).symm
  obtain ⟨seed, octets, now, rfl, hca⟩ := CertificateAuthority.generate_self_signed_asks hgen
  refine ⟨seed, octets, now, ?_, ?_, ?_, hca⟩ <;> simp

/-- **What is loaded for a CA** is what its declaration stands for. -/
theorem load_configured (henv : Variables env tr) {cfg : CaConfig} {ca : CertificateAuthority}
    (h : Returns (load_or_bootstrap_ca X cfg) tr (.ok ca)) :
    ∃ found, (∀ f ∈ found, ∃ key_file, cfg.key_file = some key_file ∧ Found.Answered key_file tr f) ∧
      cfg.configured X env found = .ok ca := by
  obtain ⟨password, t₁, _, rfl, hpassword, h₁⟩ := returns_bind_ok.mp h
  obtain ⟨material, t₂, t₃, rfl, hmaterial, h₂⟩ := returns_bind_ok.mp h₁
  have henv₁ := henv.mono (List.subset_append_right t₁ (t₂ ++ t₃))
  have hpw := key_password_of_variables (henv.mono (List.subset_append_left _ _)) hpassword
  obtain ⟨hcert, hkey⟩ :=
    inline_material_of_variables (henv₁.mono (List.subset_append_left t₂ t₃)) hmaterial
  simp only [CaConfig.configured, hcert, hkey, ← hpw]
  rcases material with _ | ⟨cert_pem, key_pem⟩
  · -- nothing is configured inline, and the key file decides
    obtain ⟨key_file, hfile, h₃⟩ := returns_lift_bind_ok.mp h₂
    obtain ⟨there, t₄, rfl, h₄⟩ := returns_request_bind.mp h₃
    have hsub : t₄ ⊆ t₁ ++ (t₂ ++ ⟨Op.path_exists key_file, there⟩ :: t₄) := fun e he =>
      List.mem_append_right _ (List.mem_append_right _ (List.mem_cons_of_mem _ he))
    have hthere : ⟨Op.path_exists key_file, there⟩
        ∈ t₁ ++ (t₂ ++ ⟨Op.path_exists key_file, there⟩ :: t₄) :=
      List.mem_append_right _ (List.mem_append_right _ List.mem_cons_self)
    cases there with
    | true =>
        obtain ⟨pair, t₅, t₆, rfl, hload, hpure⟩ := returns_bind_ok.mp h₄
        obtain ⟨bytes, hread, hauthority⟩ := load_bundle hload
        rw [Except.ok.inj (returns_pure.mp hpure).2]
        refine ⟨some (.bundle bytes), ?_, hauthority⟩
        rintro f ⟨⟩
        exact ⟨key_file, ok_or_else_eq_ok.mp hfile, hthere, hsub (List.mem_append_left _ hread)⟩
    | false =>
        obtain ⟨seed, octets, now, hseed, hoctets, hnow, hauthority⟩ :=
          bootstrap_missing password h₄
        refine ⟨some (.missing seed octets now), ?_, hauthority⟩
        rintro f ⟨⟩
        exact ⟨key_file, ok_or_else_eq_ok.mp hfile, hthere, hsub hseed, hsub hoctets, hsub hnow⟩
  · -- inline material is all there is to it
    obtain ⟨store, hstore, h₃⟩ := returns_lift_bind_ok.mp h₂
    obtain ⟨⟨cert, key⟩, hload, h₄⟩ := returns_lift_bind_ok.mp h₃
    rw [Except.ok.inj (returns_pure.mp h₄).2]
    refine ⟨none, fun f hf => absurd hf (Option.not_mem_none f), ?_⟩
    simp only [Option.map_some, hstore, bind_eq_ok]
    exact ⟨store, rfl, (cert, key), hload, rfl⟩

theorem build_intune_of_variables (henv : Variables env tr) {intune : Option IntuneConfig}
    {client : Option IntuneClient} (h : Returns (build_intune intune) tr (.ok client)) :
    client = intune.bind fun cfg => (env cfg.client_secret_env).map (intune_client cfg) := by
  rcases intune with _ | cfg
  · exact Except.ok.inj (returns_pure.mp h).2
  · obtain ⟨secret, t₁, t₂, rfl, hsecret, hpure⟩ := returns_bind_ok.mp h
    have hread := env_var_of_variables (henv.mono (List.subset_append_left t₁ t₂)) hsecret
    rw [Except.ok.inj (returns_pure.mp hpure).2, Option.bind_some, hread, Option.map_some]

/-- **The validator of a profile** is the one its declaration stands for. -/
theorem build_validator_configured (henv : Variables env tr) {intune : Option IntuneConfig}
    {client : Option IntuneClient}
    (hclient : client = intune.bind fun cfg => (env cfg.client_secret_env).map (intune_client cfg))
    {p : ProfileConfig} {v : ChallengeValidator}
    (h : Returns (build_validator p client) tr (.ok v)) : p.validator env intune = some v := by
  rw [build_validator] at h
  cases hmode : p.challenge with
  | Static =>
      rw [hmode] at h
      obtain ⟨name, hname, h₁⟩ := returns_lift_bind_ok.mp h
      obtain ⟨secret, t₁, t₂, rfl, hsecret, hpure⟩ := returns_bind_ok.mp h₁
      have hread := env_var_of_variables (henv.mono (List.subset_append_left t₁ t₂)) hsecret
      rw [Except.ok.inj (returns_pure.mp hpure).2, ProfileConfig.validator, hmode]
      simp only [ok_or_else_eq_ok.mp hname, Option.bind_some, hread, Option.map_some]
  | Intune =>
      rw [hmode] at h
      obtain ⟨client', hopen, hpure⟩ := returns_lift_bind_ok.mp h
      rw [ok_or_else_eq_ok.mp hopen] at hclient
      obtain ⟨cfg, rfl, hcfg⟩ := Option.bind_eq_some_iff.mp hclient.symm
      obtain ⟨secret, hsecret, rfl⟩ := Option.map_eq_some_iff.mp hcfg
      rw [Except.ok.inj (returns_pure.mp hpure).2, ProfileConfig.validator, hmode]
      simp only [Option.bind_some, hsecret, Option.map_some]
  | None =>
      rw [hmode] at h
      rw [Except.ok.inj (returns_pure.mp h).2, ProfileConfig.validator, hmode]

/-- The validator a declaration stands for has the mode of the declaration. -/
theorem mode_of_validator {intune : Option IntuneConfig} {p : ProfileConfig}
    {v : ChallengeValidator} (h : p.validator env intune = some v) : v.mode = p.challenge := by
  rw [ProfileConfig.validator] at h
  cases hmode : p.challenge with
  | Static =>
      rw [hmode] at h
      obtain ⟨_, _, rfl⟩ := Option.map_eq_some_iff.mp h
      rfl
  | Intune =>
      rw [hmode] at h
      obtain ⟨_, _, h⟩ := Option.bind_eq_some_iff.mp h
      obtain ⟨_, _, rfl⟩ := Option.map_eq_some_iff.mp h
      rfl
  | None =>
      rw [hmode] at h
      rw [← Option.some.inj h]
      rfl

/-! ## Runtime and declaration -/

/-- The runtime profile has the CA, the challenge mode, the validity and the usages of the
declaration, and its validator is the declared one, with its secret. -/
structure Realizes (env : String → Option String) (intune : Option IntuneConfig)
    (p : ProfileConfig) (rt : ProfileRuntime) : Prop where
  ca : rt.ca_id = p.ca
  challenge : rt.validator.mode = p.challenge
  validator : p.validator env intune = some rt.validator
  validity_days : rt.validity_days = p.validity_days
  key_usage : rt.key_usage = p.key_usage
  extended_key_usage : rt.extended_key_usage = p.extended_key_usage

/-- Two declarations that agree in these: static ones have the same secret in their
variables. -/
structure SameProfile (env : String → Option String) (p p' : ProfileConfig) : Prop where
  ca : p.ca = p'.ca
  challenge : p.challenge = p'.challenge
  secret : p.challenge = .Static → p.static_secret_env.bind env = p'.static_secret_env.bind env
  validity_days : p.validity_days = p'.validity_days
  key_usage : p.key_usage = p'.key_usage
  extended_key_usage : p.extended_key_usage = p'.extended_key_usage

theorem SameProfile.refl (env : String → Option String) (p : ProfileConfig) : SameProfile env p p :=
  ⟨rfl, rfl, fun _ => rfl, rfl, rfl, rfl⟩

theorem Built.realizes (h : Built X settings tr state loaded validators) (henv : Variables env tr)
    {p : ProfileConfig} {v : ChallengeValidator}
    (hzip : (p, v) ∈ settings.profile.zip validators) :
    Realizes env settings.intune p (runtime p v) := by
  obtain ⟨t, t₀, t₁, client, rfl, hintune, heach⟩ := h.each_profile
  have henv₁ := henv.mono (List.subset_append_right t₀ (t₁ ++ t))
  have hclient := build_intune_of_variables (henv₁.mono (List.subset_append_left t₁ t)) hintune
  obtain ⟨t', ht', hrun⟩ := heach.mem_zip hzip
  have henv' := (henv₁.mono (List.subset_append_right t₁ t)).mono ht'.subset
  have hvalidator := build_validator_configured henv' hclient hrun
  exact ⟨rfl, mode_of_validator hvalidator, hvalidator, rfl, rfl, rfl⟩

section Same

variable {intune : Option IntuneConfig} {p p' : ProfileConfig} {rt : ProfileRuntime}

theorem SameProfile.validator_eq (h : SameProfile env p p') :
    p.validator env intune = p'.validator env intune := by
  have hchallenge := h.challenge
  have hsecret := h.secret
  unfold ProfileConfig.validator
  rw [← hchallenge]
  cases hmode : p.challenge with
  | Static => simp only [hsecret hmode]
  | Intune => rfl
  | None => rfl

theorem Realizes.same (h : Realizes env intune p rt) (h' : Realizes env intune p' rt) :
    SameProfile env p p' := by
  have hchallenge := h.challenge.symm.trans h'.challenge
  refine ⟨h.ca.symm.trans h'.ca, hchallenge, fun hstatic => ?_,
    h.validity_days.symm.trans h'.validity_days, h.key_usage.symm.trans h'.key_usage,
    h.extended_key_usage.symm.trans h'.extended_key_usage⟩
  -- the one secret of the runtime is that of either variable
  have hvalidator := h.validator
  have hvalidator' := h'.validator
  rw [ProfileConfig.validator, hstatic] at hvalidator
  rw [ProfileConfig.validator, ← hchallenge, hstatic] at hvalidator'
  obtain ⟨secret, hsecret, heq⟩ := Option.map_eq_some_iff.mp hvalidator
  obtain ⟨secret', hsecret', heq'⟩ := Option.map_eq_some_iff.mp hvalidator'
  obtain rfl := ChallengeValidator.StaticSecretValidator.inj (heq.trans heq'.symm)
  rw [hsecret, hsecret']

theorem Realizes.of_same (h : Realizes env intune p rt) (hsame : SameProfile env p p') :
    Realizes env intune p' rt :=
  ⟨h.ca.trans hsame.ca, h.challenge.trans hsame.challenge,
    hsame.validator_eq.symm.trans h.validator, h.validity_days.trans hsame.validity_days,
    h.key_usage.trans hsame.key_usage, h.extended_key_usage.trans hsame.extended_key_usage⟩

end Same

/-! ## Names -/

/-- The first declaration of an id, with what was loaded for it. -/
def first_loaded (settings : Settings) (loaded : List CertificateAuthority) (id : String) :
    Option (CaConfig × CertificateAuthority) :=
  (settings.ca.zip loaded).find? fun e => e.1.id = id

/-- `Settings::ca` finds that declaration. -/
theorem find_ca_of_loaded (hlength : loaded.length = settings.ca.length) (id : String) :
    settings.find_ca id = (first_loaded settings loaded id).map Prod.fst := by
  have hfst : (settings.ca.zip loaded).map Prod.fst = settings.ca :=
    List.map_fst_zip (Nat.le_of_eq hlength.symm)
  have hfind : ((settings.ca.zip loaded).map Prod.fst).find? (fun c => c.id = id)
      = (first_loaded settings loaded id).map Prod.fst := List.find?_map
  rwa [hfst] at hfind

/-- Every declared CA and profile is in the running state under its name, and a name means
there what it means in the settings. -/
structure NamesResolve (env : String → Option String) (settings : Settings)
    (loaded : List CertificateAuthority) (state : AppState) : Prop where
  declared_cas : ∀ e ∈ settings.ca.zip loaded, state.cas.lookup e.1.id = some e.2
  declared_profiles : ∀ p ∈ settings.profile,
    ∃ rt, state.profiles.lookup p.name = some rt ∧ Realizes env settings.intune p rt
  ca : ∀ id, settings.find_ca id = (first_loaded settings loaded id).map Prod.fst ∧
    state.cas.lookup id = (first_loaded settings loaded id).map Prod.snd
  profile : ∀ name, Option.Rel (Realizes env settings.intune) (settings.find_profile name)
    (state.profiles.lookup name)

/-- No two declarations of one name differ in what they stand for. -/
structure Unambiguous (X : Crates) (env : String → Option String) (settings : Settings)
    (found : List (Option Found)) : Prop where
  cas : ∀ e ∈ settings.ca.zip found, ∀ e' ∈ settings.ca.zip found, e.1.id = e'.1.id →
    e.1.configured X env e.2 = e'.1.configured X env e'.2
  profiles : ∀ p ∈ settings.profile, ∀ p' ∈ settings.profile, p.name = p'.name →
    SameProfile env p p'

/-- Settings in which no name is declared twice are unambiguous. -/
theorem unambiguous_of_nodup {found : List (Option Found)}
    (hcas : (settings.ca.map CaConfig.id).Nodup)
    (hprofiles : (settings.profile.map ProfileConfig.name).Nodup)
    (hlength : found.length = settings.ca.length) : Unambiguous X env settings found := by
  have hids : ((settings.ca.zip found).map fun e => e.1.id).Nodup := by
    have hfst : (settings.ca.zip found).map Prod.fst = settings.ca :=
      List.map_fst_zip (Nat.le_of_eq hlength.symm)
    rw [← hfst, List.map_map] at hcas
    exact hcas
  refine ⟨fun e he e' he' hid => ?_, fun p hp p' hp' hname => ?_⟩
  · rw [List.inj_on_of_nodup_map hids he he' hid]
  · rw [List.inj_on_of_nodup_map hprofiles hp hp' hname]
    exact .refl env p'

/-- What was found for a CA, and what it was loaded as, in its part of the run. -/
structure FoundIn (X : Crates) (env : String → Option String) (tr : Trace) (cfg : CaConfig)
    (found : Option Found) (ca : CertificateAuthority) : Prop where
  answered : ∃ t, t <:+: tr ∧ Returns (load_or_bootstrap_ca X cfg) t (.ok ca) ∧
    ∀ f ∈ found, ∃ key_file, cfg.key_file = some key_file ∧ Found.Answered key_file t f
  configured : cfg.configured X env found = .ok ca

theorem FoundIn.mono {t : Trace} {cfg : CaConfig} {found : Option Found}
    {ca : CertificateAuthority} (h : FoundIn X env t cfg found ca) (ht : t <:+: tr) :
    FoundIn X env tr cfg found ca := by
  obtain ⟨t', ht', hrun⟩ := h.answered
  exact ⟨⟨t', ht'.trans ht, hrun⟩, h.configured⟩

/-- Something was found for every CA that was loaded. -/
theorem found_each {cfgs : List CaConfig} (henv : Variables env tr)
    (h : Each (load_or_bootstrap_ca X) cfgs tr loaded) :
    ∃ found, found.length = cfgs.length ∧
      List.Forall₂ (fun e ca => FoundIn X env tr e.1 e.2 ca) (cfgs.zip found) loaded := by
  induction h with
  | nil => exact ⟨[], rfl, .nil⟩
  | @cons cfg cfgs t₁ t₂ ca loaded hhead _ ih =>
      obtain ⟨f, hanswered, hconfigured⟩ :=
        load_configured (henv.mono (List.subset_append_left t₁ t₂)) hhead
      obtain ⟨found, hlength, hfound⟩ := ih (henv.mono (List.subset_append_right t₁ t₂))
      have hfirst : FoundIn X env (t₁ ++ t₂) cfg f ca :=
        ⟨⟨t₁, (List.prefix_append t₁ t₂).isInfix, hhead, hanswered⟩, hconfigured⟩
      refine ⟨f :: found, by rw [List.length_cons, List.length_cons, hlength], .cons hfirst ?_⟩
      exact hfound.imp fun _ _ hin => hin.mono (List.suffix_append t₁ t₂).isInfix

/-- Two CAs are loaded alike just when their declarations stand for the same. -/
theorem loaded_alike {cfgs : List CaConfig} {found : List (Option Found)}
    (hlength : found.length = cfgs.length)
    (h : List.Forall₂ (fun e ca => FoundIn X env tr e.1 e.2 ca) (cfgs.zip found) loaded) :
    (cfgs.zip loaded).map (fun e => (e.1, (.ok e.2 : AppResult CertificateAuthority)))
      = (cfgs.zip found).map fun e => (e.1, e.1.configured X env e.2) := by
  induction cfgs generalizing found loaded with
  | nil => rfl
  | cons cfg cfgs ih =>
      rcases found with _ | ⟨f, found⟩
      · cases hlength
      rw [List.zip_cons_cons] at h
      rcases h with _ | ⟨hhead, htail⟩
      rw [List.zip_cons_cons, List.zip_cons_cons, List.map_cons, List.map_cons, hhead.configured,
        ih (Nat.succ.inj hlength) htail]

namespace Built

theorem declared_cas_iff (h : Built X settings tr state loaded validators) :
    (∀ e ∈ settings.ca.zip loaded, state.cas.lookup e.1.id = some e.2) ↔
      ∀ e ∈ settings.ca.zip loaded, ∀ e' ∈ settings.ca.zip loaded, e.1.id = e'.1.id → e.2 = e'.2 := by
  have hiff := last_of_mem_iff (l := (settings.ca.zip loaded).map ca_entry)
  simp only [List.forall_mem_map, ca_entry] at hiff
  simp only [h.lookup_ca]
  exact hiff

/-- Where none differ the first one of an id is as good as the last. -/
theorem resolve_ca (h : Built X settings tr state loaded validators)
    (hcas : ∀ e ∈ settings.ca.zip loaded, state.cas.lookup e.1.id = some e.2) (id : String) :
    state.cas.lookup id = (first_loaded settings loaded id).map Prod.snd := by
  rcases hfirst : first_loaded settings loaded id with _ | e
  · -- Nothing of this id is declared.
    rcases hlookup : state.cas.lookup id with _ | ca
    · rfl
    · obtain ⟨cfg, hzip, hid⟩ := h.ca_origin hlookup
      exact absurd (decide_eq_true hid) (List.find?_eq_none.mp hfirst _ hzip)
  · have hid := List.find?_some hfirst
    rw [decide_eq_true_eq] at hid
    rw [Option.map_some, ← hid]
    exact hcas e (List.mem_of_find?_eq_some hfirst)

theorem declared_profiles_iff (h : Built X settings tr state loaded validators)
    (henv : Variables env tr) :
    (∀ p ∈ settings.profile, ∃ rt, state.profiles.lookup p.name = some rt ∧
        Realizes env settings.intune p rt) ↔
      ∀ p ∈ settings.profile, ∀ p' ∈ settings.profile, p.name = p'.name →
        SameProfile env p p' := by
  constructor
  · intro hall p hp p' hp' hname
    obtain ⟨rt, hrt, hrealizes⟩ := hall p hp
    obtain ⟨rt', hrt', hrealizes'⟩ := hall p' hp'
    rw [← hname, hrt] at hrt'
    rw [← Option.some.inj hrt'] at hrealizes'
    exact hrealizes.same hrealizes'
  · intro hall p hp
    obtain ⟨rt, hrt⟩ := h.exists_profile hp
    obtain ⟨p', v, hzip, hname, rfl⟩ := h.profile_origin hrt
    exact ⟨_, hrt, (h.realizes henv hzip).of_same (hall p' (List.of_mem_zip hzip).1 p hp hname)⟩

theorem resolve_profile (h : Built X settings tr state loaded validators)
    (hprofiles : ∀ p ∈ settings.profile,
      ∃ rt, state.profiles.lookup p.name = some rt ∧ Realizes env settings.intune p rt)
    (name : String) :
    Option.Rel (Realizes env settings.intune) (settings.find_profile name)
      (state.profiles.lookup name) := by
  rcases hfirst : settings.find_profile name with _ | p
  · rcases hlookup : state.profiles.lookup name with _ | rt
    · exact .none
    · obtain ⟨p, v, hzip, hname, _⟩ := h.profile_origin hlookup
      have hno := List.find?_eq_none.mp hfirst p (List.of_mem_zip hzip).1
      exact absurd (decide_eq_true hname) hno
  · -- the first one of the name is one of those that are realized
    have hname := List.find?_some hfirst
    rw [decide_eq_true_eq] at hname
    obtain ⟨rt, hrt, hrealizes⟩ := hprofiles p (List.mem_of_find?_eq_some hfirst)
    rw [← hname, hrt]
    exact .some hrealizes

theorem names_resolve (h : Built X settings tr state loaded validators) (henv : Variables env tr)
    {found : List (Option Found)} (hlength : found.length = settings.ca.length)
    (hfound : List.Forall₂ (fun e ca => FoundIn X env tr e.1 e.2 ca) (settings.ca.zip found)
      loaded) :
    NamesResolve env settings loaded state ↔ Unambiguous X env settings found := by
  -- that no two CAs differ says the same of what was loaded and of what was declared
  have hcas_iff : (∀ e ∈ settings.ca.zip loaded, ∀ e' ∈ settings.ca.zip loaded,
        e.1.id = e'.1.id → e.2 = e'.2) ↔
      ∀ e ∈ settings.ca.zip found, ∀ e' ∈ settings.ca.zip found, e.1.id = e'.1.id →
        e.1.configured X env e.2 = e'.1.configured X env e'.2 := by
    have halike := loaded_alike hlength hfound
    have hiff : (∀ e ∈ (settings.ca.zip loaded).map (fun e =>
          (e.1, (.ok e.2 : AppResult CertificateAuthority))), ∀ e' ∈ (settings.ca.zip loaded).map
            (fun e => (e.1, (.ok e.2 : AppResult CertificateAuthority))),
          e.1.id = e'.1.id → e.2 = e'.2) ↔
        ∀ e ∈ (settings.ca.zip found).map (fun e => (e.1, e.1.configured X env e.2)),
          ∀ e' ∈ (settings.ca.zip found).map (fun e => (e.1, e.1.configured X env e.2)),
            e.1.id = e'.1.id → e.2 = e'.2 := by
      rw [halike]
    simpa only [List.forall_mem_map, Except.ok.injEq] using hiff
  constructor
  · intro hresolve
    exact ⟨hcas_iff.mp (h.declared_cas_iff.mp hresolve.declared_cas),
      (h.declared_profiles_iff henv).mp hresolve.declared_profiles⟩
  · intro hsame
    have hcas := h.declared_cas_iff.mpr (hcas_iff.mpr hsame.cas)
    have hprofiles := (h.declared_profiles_iff henv).mpr hsame.profiles
    obtain ⟨_, _, _, _, _, heach⟩ := h.each_ca
    exact ⟨hcas, hprofiles, fun id => ⟨find_ca_of_loaded heach.length_eq id, h.resolve_ca hcas id⟩,
      h.resolve_profile hprofiles⟩

end Built

/-- **Resolution of names.** In a run that builds a state, with what was found of the key
files and what was loaded for each declared CA: names resolve to what was declared just when
no two declarations of one name differ, and so they do where none is declared twice. -/
theorem names_resolve_iff (h : Returns (build_state X settings) tr (.ok state))
    (henv : Variables env tr) :
    ∃ found loaded, (∃ t t₀ t₁, tr = t₀ ++ (t ++ t₁) ∧ t₀.length = 1 ∧
        Each (load_or_bootstrap_ca X) settings.ca t loaded) ∧
      found.length = settings.ca.length ∧
      List.Forall₂ (fun e ca => FoundIn X env tr e.1 e.2 ca) (settings.ca.zip found) loaded ∧
      (NamesResolve env settings loaded state ↔ Unambiguous X env settings found) ∧
      ((settings.ca.map CaConfig.id).Nodup → (settings.profile.map ProfileConfig.name).Nodup →
        NamesResolve env settings loaded state) := by
  obtain ⟨loaded, validators, hbuilt⟩ := build_state_built h
  obtain ⟨t, t₀, t₁, rfl, hone, heach⟩ := hbuilt.each_ca
  have hinfix : t <:+: t₀ ++ (t ++ t₁) := ⟨t₀, t₁, List.append_assoc t₀ t t₁⟩
  obtain ⟨found, hlength, hfound⟩ := found_each (henv.mono hinfix.subset) heach
  have hfound' := hfound.imp fun _ _ hin => hin.mono hinfix
  have hiff := hbuilt.names_resolve henv hlength hfound'
  refine ⟨found, loaded, hbuilt.each_ca, hlength, hfound', hiff, fun hcas hprofiles => ?_⟩
  exact hiff.mpr (unambiguous_of_nodup hcas hprofiles hlength)

end app

namespace Device

/-- A profile of the CA with this challenge mode. -/
def profile_config (challenge : ChallengeMode) : ProfileConfig where
  name := "device"
  ca := "root"
  challenge := challenge
  static_secret_env := some "SCEP_SECRET"
  validity_days := default_validity_days
  key_usage := default_key_usage
  extended_key_usage := default_eku

/-- The variables of the process. -/
def secrets (name : String) : Option String :=
  if name = "SCEP_SECRET" then some "s3cret" else none

theorem secrets_of (url : String) : Variables secrets
    (⟨Op.connect url, .ok ()⟩ :: ([⟨Op.env_var "SCEP_SECRET", some "s3cret"⟩] ++ [])) := by
  intro name value hmem
  rcases List.mem_cons.mp hmem with hno | hmem
  · cases hno
  · cases List.mem_singleton.mp hmem
    rfl

/-- The secret is read from its variable. -/
theorem static_validator :
    Returns (app.build_validator (profile_config .Static) none)
      [⟨Op.env_var "SCEP_SECRET", some "s3cret"⟩] (.ok (.StaticSecretValidator "s3cret")) := by
  refine returns_lift_bind.mpr (.inr ⟨"SCEP_SECRET", rfl, ?_⟩)
  have hread : Returns
      (env_var "SCEP_SECRET" (.Config "static challenge secret env 'SCEP_SECRET' is not set"))
      [⟨Op.env_var "SCEP_SECRET", some "s3cret"⟩] (.ok "s3cret") :=
    returns_request_lift.mpr ⟨some "s3cret", rfl, rfl⟩
  exact returns_bind_ok.mpr ⟨"s3cret", _, [], (List.append_nil _).symm, hread,
    returns_pure.mpr ⟨rfl, rfl⟩⟩

theorem none_validator : Returns (app.build_validator (profile_config .None) none) []
    (.ok .NoneValidator) := returns_pure.mpr ⟨rfl, rfl⟩

/-- A profile with a static challenge, and the same followed by one without any. -/
def once : Settings := app.with_profiles (ca_config ca_key) [profile_config .Static]

def twice : Settings :=
  app.with_profiles (ca_config ca_key) [profile_config .Static, profile_config .None]

theorem once_validates : once.validate = .ok () := by
  decide +kernel

theorem twice_validates : twice.validate = .ok () := by
  decide +kernel

end Device

namespace app

/-- Declared once, the profile is what its name resolves to. -/
theorem device_names_resolve : ∃ tr state loaded,
    Returns (build_state Reference.crates Device.once) tr (.ok state) ∧
      NamesResolve Device.secrets Device.once loaded state := by
  have heach : Each (fun p => build_validator p none) [Device.profile_config .Static]
      ([⟨Op.env_var "SCEP_SECRET", some "s3cret"⟩] ++ []) [.StaticSecretValidator "s3cret"] :=
    .cons Device.static_validator .nil
  obtain ⟨state, hbuild, _⟩ := build_with_profiles Device.ca_pair_loads heach
  obtain ⟨_, loaded, _, _, _, _, hnodup⟩ := names_resolve_iff hbuild (Device.secrets_of _)
  exact ⟨_, state, loaded, hbuild, hnodup (List.nodup_singleton _) (List.nodup_singleton _)⟩

/-- **A profile is replaced by another one of its name**: the settings are accepted and
resolve it to the one that checks a secret, at run time it is the one that checks nothing. -/
theorem device_profile_replaced : Device.twice.validate = .ok () ∧ ∃ tr state,
    Returns (build_state Reference.crates Device.twice) tr (.ok state) ∧
    Device.twice.find_profile "device" = some (Device.profile_config .Static) ∧
    (∃ rt, state.profiles.lookup "device" = some rt ∧ rt.validator = .NoneValidator) ∧
    ∀ env loaded, ¬ NamesResolve env Device.twice loaded state := by
  have heach : Each (fun p => build_validator p none)
      [Device.profile_config .Static, Device.profile_config .None]
      ([⟨Op.env_var "SCEP_SECRET", some "s3cret"⟩] ++ ([] ++ []))
      [.StaticSecretValidator "s3cret", .NoneValidator] :=
    .cons Device.static_validator (.cons Device.none_validator .nil)
  obtain ⟨state, hbuild, hprofiles, _⟩ := build_with_profiles Device.ca_pair_loads heach
  have hfind : Device.twice.find_profile "device" = some (Device.profile_config .Static) := by
    decide
  have hlookup : state.profiles.lookup "device"
      = some (runtime (Device.profile_config .None) .NoneValidator) := by
    rw [hprofiles, lookup_insert_all]
    decide
  refine ⟨Device.twice_validates, _, state, hbuild, hfind, ⟨_, hlookup, rfl⟩,
    fun env loaded hno => ?_⟩
  have hrel := hno.profile "device"
  rw [hfind, hlookup] at hrel
  cases hrel with
  | some hrealizes => exact absurd hrealizes.challenge (by decide)

end app

end Blapki
