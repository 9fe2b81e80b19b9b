/-
Application wiring (`app.rs`): turn `Settings` into a running `AppState`.

A CA is loaded from inline material, or from its key file, or generated where the
file does not exist. The certificate and the key of a generated CA are a pair
(`Generated`), those of a loaded one are whatever was configured (`Loaded`).
-/
import Blapki.Config
import Blapki.FirstMatch
import Blapki.Keystore
import Blapki.Scep

set_option autoImplicit false

namespace Blapki

open Effect

/-! ## Paths -/

namespace path

/-- The end of a path, read backwards, without separators and `.` components. -/
def trim_separators : List Char → List Char
  | '/' :: cs => trim_separators cs
  | '.' :: '/' :: cs => trim_separators cs
  | cs => cs

/-- `Path::parent`: the path without its final component, if there is one. -/
def parent (path : String) : Option String :=
  match trim_separators path.toList.reverse with
  | [] => none
  | cs =>
      match cs.dropWhile fun c => c ≠ '/' with
      | [] => some ""
      | rest =>
          match trim_separators rest with
          | [] => some "/"
          | rest => some (String.ofList rest.reverse)

example : parent "data/ca/root.pem" = some "data/ca" := by decide

end path

variable (X : Crates)

/-! ## Certificate authorities -/

namespace app

def write_ca_pem (ca : CertificateAuthority) (path : String) : Async Unit := do
  let cert_pem ← map_err (X.certificate_to_pem ca.cert) fun e =>
    .crypto s!"encode CA cert PEM: {e}"
  let key_pem ← map_err (X.rsa_private_key_to_pkcs8_pem ca.private_key) fun e =>
    .crypto s!"encode CA key PEM: {e}"
  let bundle := cert_pem ++ key_pem
  let written : Except String Unit ← request (Op.write_file path bundle.as_bytes)
  map_err written fun e => .Config s!"cannot write bootstrapped CA to {path}: {e}"

/-- Generate and persist a self-signed CA. -/
def bootstrap_ca (id key_file : String) : Async CertificateAuthority := do
  let ca ← CertificateAuthority.generate_self_signed X id s!"blapki CA {id}" 3072
  match path.parent key_file with
  | some parent => do
      let _ : Except String Unit ← request (Op.create_dir_all parent)
      pure ()
  | none => pure ()
  write_ca_pem X ca key_file
  pure ca

/-- The password of the key, if a variable is named and set. -/
def key_password (cfg : CaConfig) : Async (Option String) :=
  match cfg.key_password_env with
  | some env => request (Op.env_var env)
  | none => pure none

/-- Load a CA from inline base64 material or its key file, or generate and persist a
self-signed CA if a key file is configured but missing. -/
def load_or_bootstrap_ca (cfg : CaConfig) : Async CertificateAuthority := do
  let password ← key_password cfg
  let inline ← cfg.inline_material
  match inline with
  | some (cert, key) => do
      let store ← keystore.InlineKeyStore.from_material X cert key password
      let (cert, key) ← store.load X
      pure (CertificateAuthority.new cfg.id cert key)
  | none => do
      let key_file ← ok_or_else cfg.key_file (.Config s!"ca '{cfg.id}' has no key material configured")
      let exists_ : Bool ← request (Op.path_exists key_file)
      if exists_ then do
        let (cert, key) ← keystore.FileKeyStore.load X ⟨key_file, password⟩
        pure (CertificateAuthority.new cfg.id cert key)
      else bootstrap_ca X cfg.id key_file

/-! ## Where a CA comes from -/

/-- A CA of this configuration with the certificate and the key that were configured,
inline or in its key file. -/
inductive Loaded (cfg : CaConfig) (tr : Trace) : CertificateAuthority → Prop
  | inline {cert_pem key_pem : String} {password : Option String} {store : keystore.InlineKeyStore}
      {cert : Certificate} {key : RsaPrivateKey}
      (hmaterial : keystore.InlineKeyStore.from_material X cert_pem key_pem password = .ok store)
      (hload : store.load X = .ok (cert, key)) :
      Loaded cfg tr (CertificateAuthority.new cfg.id cert key)
  | file {key_file : String} {bytes : Bytes} {password : Option String} {cert : Certificate}
      {key : RsaPrivateKey} (hread : ⟨Op.read_file key_file, .ok bytes⟩ ∈ tr)
      (hcert : keystore.parse_certificate X bytes = .ok cert)
      (hkey : keystore.parse_private_key X bytes password = .ok key) :
      Loaded cfg tr (CertificateAuthority.new cfg.id cert key)

/-- A CA of this configuration that was generated: its certificate belongs to its key. -/
structure Generated (cfg : CaConfig) (tr : Trace) (ca : CertificateAuthority) : Prop where
  missing : ∃ key_file, ⟨Op.path_exists key_file, false⟩ ∈ tr
  id_eq : ca.id = cfg.id
  key_matches : X.X509Law → CertificateAuthority.KeyMatches X ca

variable {X}

/-- What a bootstrapped CA is. -/
theorem bootstrap_ca_matches {id key_file : String} {tr : Trace} {ca : CertificateAuthority}
    (h : Returns (bootstrap_ca X id key_file) tr (.ok ca)) :
    ca.id = id ∧ (X.X509Law → CertificateAuthority.KeyMatches X ca) := by
  obtain ⟨ca', t₁, t₂, _, hgen, h₁⟩ := returns_bind_ok.mp h
  obtain rfl : ca' = ca := by
    rcases hparent : path.parent key_file with _ | parent
    · rw [hparent] at h₁
      obtain ⟨_, _, _, _, _, h₂⟩ := returns_bind_ok.mp h₁
      exact (Except.ok.inj (returns_pure.mp h₂).2).symm
    · rw [hparent] at h₁
      obtain ⟨_, _, _, h₂⟩ := returns_request_bind.mp h₁
      obtain ⟨_, _, _, _, _, h₃⟩ := returns_bind_ok.mp h₂
      exact (Except.ok.inj (returns_pure.mp h₃).2).symm
  exact CertificateAuthority.generate_self_signed_matches (by decide) hgen

/-- A CA is loaded or generated. -/
theorem load_or_bootstrap_ca_origin {cfg : CaConfig} {tr : Trace} {ca : CertificateAuthority}
    (h : Returns (load_or_bootstrap_ca X cfg) tr (.ok ca)) :
    Loaded X cfg tr ca ∨ Generated X cfg tr ca := by
  obtain ⟨password, t₁, _, rfl, _, h₁⟩ := returns_bind_ok.mp h
  obtain ⟨inline, t₂, t₃, rfl, _, h₂⟩ := returns_bind_ok.mp h₁
  rcases inline with _ | ⟨cert_pem, key_pem⟩
  · obtain ⟨key_file, _, h₃⟩ := returns_lift_bind_ok.mp h₂
    obtain ⟨there, t₄, rfl, h₄⟩ := returns_request_bind.mp h₃
    cases there with
    | false =>
        obtain ⟨hid, hmatches⟩ := bootstrap_ca_matches h₄
        refine .inr ⟨⟨key_file, ?_⟩, hid, hmatches⟩
        exact List.mem_append_right _ (List.mem_append_right _ List.mem_cons_self)
    | true =>
        obtain ⟨⟨cert, key⟩, t₅, t₆, rfl, hload, h₅⟩ := returns_bind_ok.mp h₄
        obtain rfl : CertificateAuthority.new cfg.id cert key = ca :=
          (Except.ok.inj (returns_pure.mp h₅).2).symm
        obtain ⟨read, t₇, rfl, h₆⟩ := returns_request_bind.mp hload
        obtain ⟨bytes, hread, h₇⟩ := returns_lift_bind_ok.mp h₆
        obtain ⟨cert', hcert, h₈⟩ := returns_lift_bind_ok.mp h₇
        obtain ⟨key', hkey, h₉⟩ := returns_lift_bind_ok.mp h₈
        obtain ⟨rfl, rfl⟩ := Prod.mk.inj (Except.ok.inj (returns_pure.mp h₉).2)
        obtain rfl : read = .ok bytes := map_err_eq_ok.mp hread
        have hmem : ⟨Op.read_file key_file, .ok bytes⟩ ∈ t₁ ++ (t₂ ++
            ⟨Op.path_exists key_file, true⟩ :: (⟨Op.read_file key_file, .ok bytes⟩ :: t₇ ++ t₆)) := by
          simp only [List.mem_append, List.mem_cons, true_or, or_true]
        exact .inl (.file hmem hcert hkey)
  · obtain ⟨store, hstore, h₃⟩ := returns_lift_bind_ok.mp h₂
    obtain ⟨⟨cert, key⟩, hload, h₄⟩ := returns_lift_bind_ok.mp h₃
    obtain rfl : CertificateAuthority.new cfg.id cert key = ca :=
      (Except.ok.inj (returns_pure.mp h₄).2).symm
    exact .inl (.inline hstore hload)

/-- A CA carries the id it is configured under. -/
theorem load_or_bootstrap_ca_id {cfg : CaConfig} {tr : Trace} {ca : CertificateAuthority}
    (h : Returns (load_or_bootstrap_ca X cfg) tr (.ok ca)) : ca.id = cfg.id := by
  rcases load_or_bootstrap_ca_origin h with hloaded | hgenerated
  · cases hloaded with
    | inline => rfl
    | file => rfl
  · exact hgenerated.id_eq

variable (X)

/-! ## State -/

/-- `HashMap<String, Arc<CertificateAuthority>>`, with every CA under its own id. -/
structure Cas where
  map : AList fun _ : String => CertificateAuthority
  ids : ∀ ca_id ca, map.lookup ca_id = some ca → ca.id = ca_id

def Cas.empty : Cas := ⟨∅, fun ca_id ca h => by rw [AList.lookup_empty] at h; cases h⟩

def Cas.insert (cas : Cas) (id : String) (ca : CertificateAuthority) (hid : ca.id = id) : Cas where
  map := cas.map.insert id ca
  ids := by
    intro ca_id ca' h
    by_cases heq : ca_id = id
    · rw [heq, AList.lookup_insert] at h
      rw [heq, ← Option.some.inj h]
      exact hid
    · rw [AList.lookup_insert_ne heq] at h
      exact cas.ids ca_id ca' h

/-- The loop of `build_state` over the CAs. -/
def load_cas : List CaConfig → Cas → Async Cas
  | [], cas => pure cas
  | ca_cfg :: rest, cas => do
      let ca ← attach (load_or_bootstrap_ca X ca_cfg)
      load_cas rest (cas.insert ca_cfg.id ca.val
        (ca.property.elim fun _ h => load_or_bootstrap_ca_id h))

/-- `IntuneClient::new`. -/
def intune_client (cfg : IntuneConfig) (client_secret : String) : IntuneClient where
  tenant_id := cfg.tenant_id
  client_id := cfg.client_id
  client_secret := client_secret
  login_host := trim_end_slashes cfg.login_host
  intune_resource := cfg.resource

def build_intune (intune : Option IntuneConfig) : Async (Option IntuneClient) :=
  match intune with
  | some cfg => do
      let secret ← env_var cfg.client_secret_env
        (.Config s!"intune client secret env '{cfg.client_secret_env}' is not set")
      pure (some (intune_client cfg secret))
  | none => pure none

def build_validator (profile : ProfileConfig) (intune : Option IntuneClient) :
    Async ChallengeValidator :=
  match profile.challenge with
  | .Static => do
      let env ← ok_or_else profile.static_secret_env
        (.Config s!"profile '{profile.name}' missing static_secret_env")
      let secret ← env_var env (.Config s!"static challenge secret env '{env}' is not set")
      pure (.StaticSecretValidator secret)
  | .Intune => do
      let client ← ok_or_else intune (.Config "intune profile but [intune] not configured")
      pure (.IntuneValidator client)
  | .None => pure .NoneValidator

/-- The loop of `build_state` over the profiles. -/
def build_profiles (intune : Option IntuneClient) : List ProfileConfig →
    (AList fun _ : String => ProfileRuntime) → Async (AList fun _ : String => ProfileRuntime)
  | [], profiles => pure profiles
  | p :: rest, profiles => do
      let validator ← build_validator p intune
      build_profiles intune rest (profiles.insert p.name
        ⟨p.name, p.ca, validator, p.validity_days, p.key_usage, p.extended_key_usage⟩)

/-- Build shared application state from configuration. -/
def build_state (settings : Settings) : Async AppState := do
  let connected : Except String Unit ← request (Op.connect settings.server.database_url)
  map_err connected .Database
  let cas ← load_cas X settings.ca Cas.empty
  let intune ← build_intune settings.intune
  let profiles ← build_profiles intune settings.profile ∅
  pure ⟨cas.map, profiles, settings.server.base_url, cas.ids⟩

/-! ## What the state is built of -/

variable {X}

open FirstMatch

/-- A CA that was loaded, under the id of its configuration. -/
def ca_entry (e : CaConfig × CertificateAuthority) : String × CertificateAuthority := (e.1.id, e.2)

/-- What a profile is at run time. -/
def runtime (p : ProfileConfig) (validator : ChallengeValidator) : ProfileRuntime :=
  ⟨p.name, p.ca, validator, p.validity_days, p.key_usage, p.extended_key_usage⟩

def profile_entry (e : ProfileConfig × ChallengeValidator) : String × ProfileRuntime :=
  (e.1.name, runtime e.1 e.2)

/-- The CAs are loaded in turn, and inserted. -/
theorem load_cas_each {cfgs : List CaConfig} {cas cas' : Cas} {tr : Trace}
    (h : Returns (load_cas X cfgs cas) tr (.ok cas')) :
    ∃ loaded, Each (load_or_bootstrap_ca X) cfgs tr loaded ∧
      cas'.map = insert_all cas.map ((cfgs.zip loaded).map ca_entry) := by
  induction cfgs generalizing cas tr with
  | nil =>
      obtain ⟨htr, hcas⟩ := returns_pure.mp h
      rw [htr, Except.ok.inj hcas]
      exact ⟨[], .nil, rfl⟩
  | cons cfg cfgs ih =>
      obtain ⟨ca, t₁, t₂, htr, hload, h₁⟩ := returns_bind_ok.mp h
      obtain ⟨loaded, heach, hmap⟩ := ih h₁
      rw [htr]
      exact ⟨ca.val :: loaded, .cons (returns_attach.mp hload) heach, hmap⟩

/-- The validators are built in turn, and the profiles inserted. -/
theorem build_profiles_each {intune : Option IntuneClient} {configs : List ProfileConfig}
    {profiles profiles' : AList fun _ : String => ProfileRuntime} {tr : Trace}
    (h : Returns (build_profiles intune configs profiles) tr (.ok profiles')) :
    ∃ validators, Each (fun p => build_validator p intune) configs tr validators ∧
      profiles' = insert_all profiles ((configs.zip validators).map profile_entry) := by
  induction configs generalizing profiles tr with
  | nil =>
      obtain ⟨htr, hprofiles⟩ := returns_pure.mp h
      rw [htr, Except.ok.inj hprofiles]
      exact ⟨[], .nil, rfl⟩
  | cons p configs ih =>
      obtain ⟨validator, t₁, t₂, htr, hbuild, h₁⟩ := returns_bind_ok.mp h
      obtain ⟨validators, heach, hmap⟩ := ih h₁
      rw [htr]
      exact ⟨validator :: validators, .cons hbuild heach, hmap⟩

/-- A state was built from these CAs and these validators, one for each declaration. -/
structure Built (X : Crates) (settings : Settings) (tr : Trace) (state : AppState)
    (loaded : List CertificateAuthority) (validators : List ChallengeValidator) : Prop where
  each_ca : ∃ t t₀ t₁, tr = t₀ ++ (t ++ t₁) ∧ t₀.length = 1 ∧
    Each (load_or_bootstrap_ca X) settings.ca t loaded
  each_profile : ∃ t t₀ t₁ intune, tr = t₀ ++ (t₁ ++ t) ∧
    Returns (build_intune settings.intune) t₁ (.ok intune) ∧
    Each (fun p => build_validator p intune) settings.profile t validators
  cas_eq : state.cas = insert_all ∅ ((settings.ca.zip loaded).map ca_entry)
  profiles_eq : state.profiles = insert_all ∅ ((settings.profile.zip validators).map profile_entry)
  base_url_eq : state.base_url = settings.server.base_url

theorem build_state_built {settings : Settings} {tr : Trace} {state : AppState}
    (h : Returns (build_state X settings) tr (.ok state)) :
    ∃ loaded validators, Built X settings tr state loaded validators := by
  obtain ⟨connected, _, rfl, h₁⟩ := returns_request_bind.mp h
  obtain ⟨_, _, h₂⟩ := returns_lift_bind_ok.mp h₁
  obtain ⟨cas, t₂, _, rfl, hcas, h₃⟩ := returns_bind_ok.mp h₂
  obtain ⟨intune, t₃, _, rfl, hintune, h₄⟩ := returns_bind_ok.mp h₃
  obtain ⟨profiles, t₄, t₅, rfl, hprofiles, h₅⟩ := returns_bind_ok.mp h₄
  obtain ⟨rfl, hstate⟩ := returns_pure.mp h₅
  obtain ⟨loaded, hloaded, hmap⟩ := load_cas_each hcas
  obtain ⟨validators, hvalidators, hprofiles_map⟩ := build_profiles_each hprofiles
  rw [Except.ok.inj hstate]
  refine ⟨loaded, validators, ⟨t₂, [⟨_, connected⟩], t₃ ++ (t₄ ++ []), rfl, rfl, hloaded⟩,
    ⟨t₄, ⟨_, connected⟩ :: t₂, t₃, intune, ?_, hintune, hvalidators⟩, hmap, hprofiles_map, rfl⟩
  rw [List.append_nil, List.cons_append]

namespace Built

variable {settings : Settings} {tr : Trace} {state : AppState}
  {loaded : List CertificateAuthority} {validators : List ChallengeValidator}

/-- The CA under an id is the last one declared. -/
theorem lookup_ca (h : Built X settings tr state loaded validators) (ca_id : String) :
    state.cas.lookup ca_id = last ((settings.ca.zip loaded).map ca_entry) ca_id := by
  rw [h.cas_eq, lookup_insert_all, AList.lookup_empty, Option.or_none]

theorem lookup_profile (h : Built X settings tr state loaded validators) (name : String) :
    state.profiles.lookup name
      = last ((settings.profile.zip validators).map profile_entry) name := by
  rw [h.profiles_eq, lookup_insert_all, AList.lookup_empty, Option.or_none]

/-- Every CA of the state was loaded from a configuration with its id. -/
theorem ca_origin (h : Built X settings tr state loaded validators) {ca_id : String}
    {ca : CertificateAuthority} (hca : state.cas.lookup ca_id = some ca) :
    ∃ cfg, (cfg, ca) ∈ settings.ca.zip loaded ∧ cfg.id = ca_id := by
  rw [h.lookup_ca] at hca
  obtain ⟨⟨cfg, ca'⟩, hmem, heq⟩ := List.mem_map.mp (mem_of_last hca)
  obtain ⟨hid, rfl⟩ := Prod.mk.inj heq
  exact ⟨cfg, hmem, hid⟩

/-- Every profile of the state is that of a declaration with its name. -/
theorem profile_origin (h : Built X settings tr state loaded validators) {name : String}
    {rt : ProfileRuntime} (hrt : state.profiles.lookup name = some rt) :
    ∃ p v, (p, v) ∈ settings.profile.zip validators ∧ p.name = name ∧ rt = runtime p v := by
  rw [h.lookup_profile] at hrt
  obtain ⟨⟨p, v⟩, hmem, heq⟩ := List.mem_map.mp (mem_of_last hrt)
  obtain ⟨hname, hruntime⟩ := Prod.mk.inj heq
  exact ⟨p, v, hmem, hname, hruntime.symm⟩

/-- Under the id of a declared CA the state has a CA. -/
theorem exists_ca (h : Built X settings tr state loaded validators) {cfg : CaConfig}
    (hcfg : cfg ∈ settings.ca) : ∃ ca, state.cas.lookup cfg.id = some ca := by
  obtain ⟨_, _, _, _, _, heach⟩ := h.each_ca
  obtain ⟨ca, hca⟩ := heach.exists_zip hcfg
  rw [h.lookup_ca]
  exact exists_last (v := ca) (List.mem_map.mpr ⟨_, hca, rfl⟩)

/-- Under the name of a declared profile the state has a profile. -/
theorem exists_profile (h : Built X settings tr state loaded validators) {p : ProfileConfig}
    (hp : p ∈ settings.profile) : ∃ rt, state.profiles.lookup p.name = some rt := by
  obtain ⟨_, _, _, _, _, _, heach⟩ := h.each_profile
  obtain ⟨v, hv⟩ := heach.exists_zip hp
  rw [h.lookup_profile]
  exact exists_last (v := runtime p v) (List.mem_map.mpr ⟨_, hv, rfl⟩)

end Built

/-- Every CA of a built state was loaded from a configuration with its id. -/
theorem build_state_origin {settings : Settings} {tr : Trace} {state : AppState}
    (h : Returns (build_state X settings) tr (.ok state)) {ca_id : String}
    {ca : CertificateAuthority} (hca : state.cas.lookup ca_id = some ca) :
    ∃ cfg ∈ settings.ca, cfg.id = ca_id ∧ ∃ t, t <:+: tr ∧
      Returns (load_or_bootstrap_ca X cfg) t (.ok ca) := by
  obtain ⟨loaded, validators, hbuilt⟩ := build_state_built h
  obtain ⟨cfg, hzip, hid⟩ := hbuilt.ca_origin hca
  obtain ⟨t, t₀, t₁, rfl, _, heach⟩ := hbuilt.each_ca
  obtain ⟨t', ht', hrun⟩ := heach.mem_zip hzip
  exact ⟨cfg, (List.of_mem_zip hzip).1, hid, t',
    ht'.trans ((List.prefix_append t t₁).isInfix.trans (List.suffix_append t₀ _).isInfix), hrun⟩

/-- **Every profile has its CA** when the settings were validated: the handlers never
report that a profile has none. -/
theorem build_state_profiles {settings : Settings} (hvalid : settings.validate = .ok ())
    {tr : Trace} {state : AppState} (h : Returns (build_state X settings) tr (.ok state))
    {profile : String} {rt : ProfileRuntime} (hrt : state.profiles.lookup profile = some rt) :
    ∃ ca, state.cas.lookup rt.ca_id = some ca := by
  obtain ⟨loaded, validators, hbuilt⟩ := build_state_built h
  obtain ⟨p, v, hzip, _, rfl⟩ := hbuilt.profile_origin hrt
  obtain ⟨cfg, hcfg, hid⟩ := Settings.ca_of_profile hvalid (List.of_mem_zip hzip).1
  obtain ⟨ca, hca⟩ := hbuilt.exists_ca hcfg
  rw [hid] at hca
  exact ⟨ca, hca⟩

end app

end Blapki
