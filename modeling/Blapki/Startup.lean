/-
Whether a validated configuration runs.

`validate`, `inline_material`, `load_or_bootstrap_ca` and the helpers of `issue` read one
configuration three times. `Provided` says that the environment provides what the
configuration names. Under it `validated_runs_iff` says when the server starts and no
profile fails for its configuration: inline material is complete or not used at all, the
name of a CA that is generated can be parsed, and the options of every profile work.
Nothing of this is checked by `validate`.
-/
import Blapki.Issuable
import Blapki.Resolution

set_option autoImplicit false

namespace Blapki

open Effect

/-! ## What is configured -/

namespace CaConfig

/-- A certificate is configured inline. -/
def inline_cert (cfg : CaConfig) : Bool := cfg.cert_pem.isSome || cfg.cert_pem_env.isSome

/-- A key is configured inline. -/
def inline_key (cfg : CaConfig) : Bool := cfg.key_pem.isSome || cfg.key_pem_env.isSome

/-- Nothing is, so the key file is used. -/
def from_file (cfg : CaConfig) : Bool := !cfg.inline_cert && !cfg.inline_key

/-- The inline values where the variables are `env`, and the password. -/
def cert_value (cfg : CaConfig) (env : String → String) : Option String :=
  cfg.cert_pem.or (cfg.cert_pem_env.map env)

def key_value (cfg : CaConfig) (env : String → String) : Option String :=
  cfg.key_pem.or (cfg.key_pem_env.map env)

def password (cfg : CaConfig) (env : String → String) : Option String :=
  cfg.key_password_env.map env

theorem cert_value_isSome (cfg : CaConfig) (env : String → String) :
    (cfg.cert_value env).isSome = cfg.inline_cert := by
  rw [cert_value, inline_cert, Option.isSome_or, Option.isSome_map]

theorem key_value_isSome (cfg : CaConfig) (env : String → String) :
    (cfg.key_value env).isSome = cfg.inline_key := by
  rw [key_value, inline_key, Option.isSome_or, Option.isSome_map]

end CaConfig

/-! ## What the environment provides -/

/-- The answers on the existence of key files, in the order of the questions. -/
def existence (tr : Trace) : List Bool :=
  tr.filterMap fun ev =>
    match ev with
    | ⟨.path_exists _, there⟩ => some there
    | _ => none

theorem existence_append (t t' : Trace) : existence (t ++ t') = existence t ++ existence t' :=
  List.filterMap_append

/-- Every variable that is asked for is set, the material that is named is well formed, the
files can be read and written, the database can be reached, and the clock has a date. -/
structure Provided (X : Crates) (settings : Settings) (env : String → String) (tr : Trace) :
    Prop where
  vars : ∀ name value, ⟨Op.env_var name, value⟩ ∈ tr → value = some (env name)
  database : ∀ url res, ⟨Op.connect url, res⟩ ∈ tr → res = .ok ()
  certificates : ∀ cfg ∈ settings.ca, ∀ value, cfg.cert_value env = some value →
    ∃ bytes cert, keystore.material_to_bytes X value "CA certificate" = .ok bytes ∧
      keystore.parse_certificate X bytes = .ok cert
  keys : ∀ cfg ∈ settings.ca, ∀ value, cfg.key_value env = some value →
    ∃ bytes key, keystore.material_to_bytes X value "CA key" = .ok bytes ∧
      keystore.parse_private_key X bytes (cfg.password env) = .ok key
  bundles : ∀ cfg ∈ settings.ca, ∀ key_file read, cfg.key_file = some key_file →
    ⟨Op.read_file key_file, read⟩ ∈ tr → ∃ bytes cert key, read = .ok bytes ∧
      keystore.parse_certificate X bytes = .ok cert ∧
      keystore.parse_private_key X bytes (cfg.password env) = .ok key
  writable : ∀ path bytes res, ⟨Op.write_file path bytes, res⟩ ∈ tr → res = .ok ()
  clock : ∀ now, ⟨Op.now, now⟩ ∈ tr →
    DateTime.Representable now ∧ DateTime.Representable (now.add_secs (3650 * 86400))

theorem Provided.mono {X : Crates} {settings : Settings} {env : String → String} {tr t : Trace}
    (h : Provided X settings env tr) (ht : t ⊆ tr) : Provided X settings env t where
  vars := fun name value hmem => h.vars name value (ht hmem)
  database := fun url res hmem => h.database url res (ht hmem)
  certificates := h.certificates
  keys := h.keys
  bundles := fun cfg hcfg key_file read hfile hmem => h.bundles cfg hcfg key_file read hfile (ht hmem)
  writable := fun path bytes res hmem => h.writable path bytes res (ht hmem)
  clock := fun now hmem => h.clock now (ht hmem)

namespace app

variable {X : Crates} {settings : Settings} {env : String → String} {tr : Trace}

/-! ## Steps that go through -/

/-- A computed step that succeeds is passed. -/
theorem returns_lift_ok_bind {α β : Type} {x : AppResult α} {f : α → Async β} {r : AppResult β}
    (h : Returns (liftM x >>= f) tr r) (hx : ∃ a, x = .ok a) : ∃ a, x = .ok a ∧ Returns (f a) tr r := by
  obtain ⟨a, ha⟩ := hx
  rw [lift_bind_of_ok ha] at h
  exact ⟨a, ha, h⟩

/-- A step that goes through in a provided environment and asks for no key file leaves its
result, and the rest its environment. -/
theorem returns_quiet_bind {α β : Type} {m : Async α} {f : α → Async β} {r : AppResult β}
    {p : α → Prop} (h : Returns (m >>= f) tr r) (hprovided : Provided X settings env tr)
    (hquiet : ∀ t x, Provided X settings env t → Returns m t x →
      existence t = [] ∧ ∃ a, x = .ok a ∧ p a) :
    ∃ a t, p a ∧ existence tr = existence t ∧ Provided X settings env t ∧ Returns (f a) t r := by
  rcases returns_bind.mp h with ⟨e, _, herror⟩ | ⟨a, t₁, t₂, rfl, hrun, hrest⟩
  · obtain ⟨_, _, hno, _⟩ := hquiet tr _ hprovided herror
    cases hno
  · obtain ⟨hexistence, a', ha, hp⟩ :=
      hquiet t₁ _ (hprovided.mono (List.subset_append_left _ _)) hrun
    obtain rfl := Except.ok.inj ha
    refine ⟨a, t₂, hp, ?_, hprovided.mono (List.subset_append_right _ _), hrest⟩
    rw [existence_append, hexistence, List.nil_append]

/-- The same where nothing has to be said of its value. -/
theorem returns_quiet_bind' {α β : Type} {m : Async α} {f : α → Async β} {r : AppResult β}
    (h : Returns (m >>= f) tr r) (hprovided : Provided X settings env tr)
    (hquiet : ∀ t x, Provided X settings env t → Returns m t x →
      existence t = [] ∧ ∃ a, x = .ok a) :
    ∃ a t, existence tr = existence t ∧ Provided X settings env t ∧ Returns (f a) t r := by
  obtain ⟨a, t, _, hrest⟩ := returns_quiet_bind (p := fun _ => True) h hprovided
    fun t x hprovided' hrun => by
      obtain ⟨hexistence, a, ha⟩ := hquiet t x hprovided' hrun
      exact ⟨hexistence, a, ha, trivial⟩
  exact ⟨a, t, hrest⟩

/-! ## Values and variables -/

theorem env_var_provided (hprovided : Provided X settings env tr) {name : String} {e : AppError}
    {r : AppResult String} (h : Returns (env_var name e) tr r) :
    existence tr = [] ∧ ∃ value, r = .ok value ∧ value = env name := by
  obtain ⟨value, rfl, rfl⟩ := returns_request_lift.mp h
  rw [hprovided.vars name value List.mem_cons_self]
  exact ⟨rfl, _, rfl, rfl⟩

theorem resolve_value_provided (hprovided : Provided X settings env tr)
    {inline env_name : Option String} {field : String} {r : AppResult (Option String)}
    (h : Returns (resolve_value inline env_name field) tr r) :
    existence tr = [] ∧ ∃ value, r = .ok value ∧ value = inline.or (env_name.map env) := by
  rcases inline with _ | v
  · rcases env_name with _ | name
    · obtain ⟨rfl, rfl⟩ := returns_pure.mp h
      exact ⟨rfl, _, rfl, rfl⟩
    · obtain ⟨v, t, rfl, hexistence, _, hpure⟩ := returns_quiet_bind
        (p := fun value => value = env name) h hprovided fun _ _ h₁ h₂ => env_var_provided h₁ h₂
      obtain ⟨rfl, rfl⟩ := returns_pure.mp hpure
      exact ⟨hexistence, _, rfl, rfl⟩
  · obtain ⟨rfl, rfl⟩ := returns_pure.mp h
    exact ⟨rfl, _, rfl, rfl⟩

theorem key_password_provided (hprovided : Provided X settings env tr) {cfg : CaConfig}
    {r : AppResult (Option String)} (h : Returns (key_password cfg) tr r) :
    existence tr = [] ∧ ∃ password, r = .ok password ∧ password = cfg.password env := by
  unfold key_password at h
  unfold CaConfig.password
  rcases hname : cfg.key_password_env with _ | name
  · rw [hname] at h
    obtain ⟨rfl, rfl⟩ := returns_pure.mp h
    exact ⟨rfl, _, rfl, rfl⟩
  · rw [hname] at h
    obtain ⟨value, rfl, rfl⟩ := returns_request.mp h
    rw [hprovided.vars name value List.mem_cons_self]
    exact ⟨rfl, _, rfl, rfl⟩

/-- Both inline values, or neither, or an error. -/
inductive MaterialOutcome (cfg : CaConfig) (env : String → String) :
    AppResult (Option (String × String)) → Prop
  | both {cert key : String} (hcert : cfg.cert_value env = some cert)
      (hkey : cfg.key_value env = some key) : MaterialOutcome cfg env (.ok (some (cert, key)))
  | neither (hfile : cfg.from_file = true) : MaterialOutcome cfg env (.ok none)
  | mixed {e : AppError} (hne : cfg.inline_cert ≠ cfg.inline_key) :
      MaterialOutcome cfg env (.error e)

theorem inline_material_provided (hprovided : Provided X settings env tr) {cfg : CaConfig}
    {r : AppResult (Option (String × String))} (h : Returns cfg.inline_material tr r) :
    existence tr = [] ∧ MaterialOutcome cfg env r := by
  obtain ⟨cert, t₁, rfl, hexistence₁, hprovided₁, h₁⟩ := returns_quiet_bind
    (p := fun value => value = cfg.cert_value env) h hprovided
    fun _ _ h₁ h₂ => resolve_value_provided h₁ h₂
  obtain ⟨key, t₂, rfl, hexistence₂, _, h₂⟩ := returns_quiet_bind
    (p := fun value => value = cfg.key_value env) h₁ hprovided₁
    fun _ _ h₁ h₂ => resolve_value_provided h₁ h₂
  rw [hexistence₁, hexistence₂]
  have hinline_cert := cfg.cert_value_isSome env
  have hinline_key := cfg.key_value_isSome env
  rcases hcert : cfg.cert_value env with _ | cert <;> rcases hkey : cfg.key_value env with _ | key <;>
    rw [hcert, hkey] at h₂ <;> rw [hcert] at hinline_cert <;> rw [hkey] at hinline_key
  · obtain ⟨rfl, rfl⟩ := returns_pure.mp h₂
    refine ⟨rfl, .neither ?_⟩
    rw [CaConfig.from_file, ← hinline_cert, ← hinline_key]
    rfl
  · obtain ⟨rfl, rfl⟩ := returns_throw.mp h₂
    refine ⟨rfl, .mixed ?_⟩
    rw [← hinline_cert, ← hinline_key]
    exact Bool.false_ne_true
  · obtain ⟨rfl, rfl⟩ := returns_throw.mp h₂
    refine ⟨rfl, .mixed ?_⟩
    rw [← hinline_cert, ← hinline_key]
    exact Bool.false_ne_true.symm
  · obtain ⟨rfl, rfl⟩ := returns_pure.mp h₂
    exact ⟨rfl, .both hcert hkey⟩

/-! ## One CA -/

/-- The subject of a generated CA can be parsed. -/
def Named (X : Crates) (cfg : CaConfig) : Prop :=
  let common_name := s!"blapki CA {cfg.id}"
  ∃ name, X.name_from_str s!"CN={common_name}" = .ok name

/-- A CA is generated when its subject can be parsed. -/
theorem generate_provided (hissue : X.IssueLaw) (hboot : X.BootstrapLaw)
    (hprovided : Provided X settings env tr) {cfg : CaConfig} {r : AppResult CertificateAuthority}
    (h : Returns (CertificateAuthority.generate_self_signed X cfg.id s!"blapki CA {cfg.id}" 3072)
      tr r) :
    existence tr = [] ∧ ((∃ ca, r = .ok ca) ↔ Named X cfg) := by
  obtain ⟨seed, t₁, rfl, h₁⟩ := returns_request_bind.mp h
  obtain ⟨key, hkey, h₂⟩ := returns_lift_ok_bind h₁ ((hboot.key seed).imp fun _ => map_err_eq_ok.mpr)
  rcases returns_lift_bind.mp h₂ with ⟨e, hname, rfl, rfl⟩ | ⟨subject, hname, h₃⟩
  · -- The subject is not one.
    refine ⟨rfl, iff_of_false (fun ⟨_, hno⟩ => by cases hno) ?_⟩
    rintro ⟨name, hno⟩
    obtain ⟨_, herror, _⟩ := map_err_eq_error.mp hname
    cases herror.symm.trans hno
  · have hnamed : Named X cfg := ⟨subject, map_err_eq_ok.mp hname⟩
    rcases returns_bind.mp h₃ with ⟨e, _, hno⟩ | ⟨serial, t₂, t₃, rfl, hserial, h₄⟩
    · obtain ⟨_, _, _, hno⟩ := returns_request_bind.mp hno
      cases (returns_pure.mp hno).2
    obtain ⟨octets, t₄, rfl, hpure⟩ := returns_request_bind.mp hserial
    obtain ⟨rfl, _⟩ := returns_pure.mp hpure
    obtain ⟨now, t₅, rfl, h₅⟩ := returns_request_bind.mp h₄
    have hclock := hprovided.clock now (by simp)
    obtain ⟨validity, _, h₆⟩ := returns_lift_ok_bind h₅
      ((hissue.validity now _ hclock.1 hclock.2).imp fun _ => map_err_eq_ok.mpr)
    obtain ⟨spki, _, h₇⟩ := returns_lift_ok_bind h₆ ((hboot.spki _).imp fun _ => map_err_eq_ok.mpr)
    obtain ⟨b, hb, h₈⟩ := returns_lift_ok_bind h₇
      ((hissue.builder_new _ _ _ _ _ _).imp fun _ => map_err_eq_ok.mpr)
    have hsigner := hboot.signer _ _ _ _ _ _ _ (map_err_eq_ok.mp hb)
    obtain ⟨cert, _, h₉⟩ := returns_lift_ok_bind h₈
      ((hboot.build seed key b (map_err_eq_ok.mp hkey) hsigner).imp fun _ => map_err_eq_ok.mpr)
    obtain ⟨rfl, rfl⟩ := returns_pure.mp h₉
    exact ⟨rfl, iff_of_true ⟨_, rfl⟩ hnamed⟩

/-- A new CA is written to its file. -/
theorem write_provided (hboot : X.BootstrapLaw) (hprovided : Provided X settings env tr)
    {ca : CertificateAuthority} {key_file : String} {r : AppResult Unit}
    (h : Returns (write_ca_pem X ca key_file) tr r) : existence tr = [] ∧ ∃ u, r = .ok u := by
  obtain ⟨_, _, h₁⟩ := returns_lift_ok_bind h
    ((hboot.certificate_pem _).imp fun _ => map_err_eq_ok.mpr)
  obtain ⟨_, _, h₂⟩ := returns_lift_ok_bind h₁ ((hboot.key_pem _).imp fun _ => map_err_eq_ok.mpr)
  obtain ⟨written, rfl, rfl⟩ := returns_request_lift.mp h₂
  rw [hprovided.writable _ _ written List.mem_cons_self]
  exact ⟨rfl, _, rfl⟩

theorem written_provided (hboot : X.BootstrapLaw) (hprovided : Provided X settings env tr)
    {ca : CertificateAuthority} {key_file : String} {r : AppResult CertificateAuthority}
    (h : Returns (write_ca_pem X ca key_file >>= fun _ => pure ca) tr r) :
    existence tr = [] ∧ ∃ ca, r = .ok ca := by
  obtain ⟨_, t, hexistence, _, hpure⟩ :=
    returns_quiet_bind' h hprovided fun _ _ h₁ h₂ => write_provided hboot h₁ h₂
  obtain ⟨rfl, rfl⟩ := returns_pure.mp hpure
  exact ⟨hexistence, ca, rfl⟩

/-- With its directory, where it has one. -/
theorem bootstrap_provided (hissue : X.IssueLaw) (hboot : X.BootstrapLaw)
    (hprovided : Provided X settings env tr) {cfg : CaConfig} {key_file : String}
    {r : AppResult CertificateAuthority} (h : Returns (bootstrap_ca X cfg.id key_file) tr r) :
    existence tr = [] ∧ ((∃ ca, r = .ok ca) ↔ Named X cfg) := by
  rcases returns_bind.mp h with ⟨e, rfl, hgen⟩ | ⟨ca, t₁, t₂, rfl, hgen, h₁⟩
  · obtain ⟨hexistence, hiff⟩ := generate_provided hissue hboot hprovided hgen
    exact ⟨hexistence, iff_of_false (fun ⟨_, hno⟩ => by cases hno)
      fun hnamed => by obtain ⟨_, hno⟩ := hiff.mpr hnamed; cases hno⟩
  · obtain ⟨hexistence, hiff⟩ :=
      generate_provided hissue hboot (hprovided.mono (List.subset_append_left _ _)) hgen
    have hnamed := hiff.mp ⟨ca, rfl⟩
    have hprovided₂ := hprovided.mono (List.subset_append_right t₁ t₂)
    rw [existence_append, hexistence, List.nil_append]
    rcases hparent : path.parent key_file with _ | parent
    · rw [hparent] at h₁
      obtain ⟨hexistence₂, hok⟩ := written_provided hboot hprovided₂ h₁
      exact ⟨hexistence₂, iff_of_true hok hnamed⟩
    · rw [hparent] at h₁
      obtain ⟨created, t₃, rfl, h₂⟩ := returns_request_bind.mp h₁
      obtain ⟨hexistence₃, hok⟩ :=
        written_provided hboot (hprovided₂.mono (List.subset_cons_self _ _)) h₂
      exact ⟨hexistence₃, iff_of_true hok hnamed⟩

/-- How the load of a CA ends: by what is configured inline, or else by its key file and,
where that does not exist, by its name. -/
inductive LoadOutcome (X : Crates) (cfg : CaConfig) (tr : Trace) :
    AppResult CertificateAuthority → Prop
  | inline {ca : CertificateAuthority} (hcert : cfg.inline_cert = true)
      (hkey : cfg.inline_key = true) (hexistence : existence tr = []) : LoadOutcome X cfg tr (.ok ca)
  | mixed {e : AppError} (hne : cfg.inline_cert ≠ cfg.inline_key) : LoadOutcome X cfg tr (.error e)
  | file {ca : CertificateAuthority} (hfile : cfg.from_file = true)
      (hexistence : existence tr = [true]) : LoadOutcome X cfg tr (.ok ca)
  | bootstrap {ca : CertificateAuthority} (hfile : cfg.from_file = true)
      (hexistence : existence tr = [false]) (hnamed : Named X cfg) : LoadOutcome X cfg tr (.ok ca)
  | unnamed {e : AppError} (hfile : cfg.from_file = true) (hexistence : existence tr = [false])
      (hnamed : ¬ Named X cfg) : LoadOutcome X cfg tr (.error e)

theorem inline_provided (hprovided : Provided X settings env tr) {cfg : CaConfig}
    (hcfg : cfg ∈ settings.ca) {cert_pem key_pem : String}
    (hcert : cfg.cert_value env = some cert_pem) (hkey : cfg.key_value env = some key_pem) :
    ∃ store cert key, keystore.InlineKeyStore.from_material X cert_pem key_pem (cfg.password env)
        = .ok store ∧ store.load X = .ok (cert, key) := by
  obtain ⟨cert_bytes, cert, hcert_bytes, hparse_cert⟩ := hprovided.certificates cfg hcfg _ hcert
  obtain ⟨key_bytes, key, hkey_bytes, hparse_key⟩ := hprovided.keys cfg hcfg _ hkey
  refine ⟨⟨cert_bytes, key_bytes, cfg.password env⟩, cert, key, ?_, ?_⟩
  · rw [keystore.InlineKeyStore.from_material, hcert_bytes, hkey_bytes]
    rfl
  · rw [keystore.InlineKeyStore.load, hparse_cert, hparse_key]
    rfl

theorem file_provided (hprovided : Provided X settings env tr) {cfg : CaConfig}
    (hcfg : cfg ∈ settings.ca) {key_file : String} (hfile : cfg.key_file = some key_file)
    {r : AppResult (Certificate × RsaPrivateKey)}
    (h : Returns (keystore.FileKeyStore.load X ⟨key_file, cfg.password env⟩) tr r) :
    existence tr = [] ∧ ∃ pair, r = .ok pair := by
  obtain ⟨read, t, rfl, h₁⟩ := returns_request_bind.mp h
  obtain ⟨bytes, cert, key, rfl, hcert, hkey⟩ :=
    hprovided.bundles cfg hcfg key_file read hfile List.mem_cons_self
  obtain ⟨_, hread, h₂⟩ := returns_lift_ok_bind h₁ ⟨bytes, rfl⟩
  obtain rfl := Except.ok.inj hread
  obtain ⟨_, _, h₃⟩ := returns_lift_ok_bind h₂ ⟨cert, hcert⟩
  obtain ⟨_, _, h₄⟩ := returns_lift_ok_bind h₃ ⟨key, hkey⟩
  obtain ⟨rfl, rfl⟩ := returns_pure.mp h₄
  exact ⟨rfl, _, rfl⟩

/-- Without inline material a source is a key file. -/
theorem exists_key_file {cfg : CaConfig} (hsource : cfg.has_source = true)
    (hfile : cfg.from_file = true) : ∃ key_file, cfg.key_file = some key_file := by
  unfold CaConfig.from_file CaConfig.inline_cert CaConfig.inline_key at hfile
  unfold CaConfig.has_source at hsource
  rcases hkey_file : cfg.key_file with _ | key_file
  · rw [hkey_file] at hsource
    simp_all
  · exact ⟨key_file, rfl⟩

/-- What is done then. -/
theorem load_file_provided (hissue : X.IssueLaw) (hboot : X.BootstrapLaw)
    (hprovided : Provided X settings env tr) {cfg : CaConfig} (hcfg : cfg ∈ settings.ca)
    (hfile : cfg.from_file = true) {key_file : String} (hkey_file : cfg.key_file = some key_file)
    {there : Bool} {r : AppResult CertificateAuthority}
    (h : Returns (if there then do
        let (cert, key) ← keystore.FileKeyStore.load X ⟨key_file, cfg.password env⟩
        pure (CertificateAuthority.new cfg.id cert key)
      else bootstrap_ca X cfg.id key_file) tr r) {t : Trace}
    (ht : existence t = there :: existence tr) : LoadOutcome X cfg t r := by
  cases there with
  | true =>
      rw [if_pos rfl] at h
      obtain ⟨pair, t', hexistence, _, hpure⟩ := returns_quiet_bind' h hprovided
        fun _ _ h₁ h₂ => file_provided h₁ hcfg hkey_file h₂
      obtain ⟨rfl, rfl⟩ := returns_pure.mp hpure
      rw [hexistence] at ht
      exact .file hfile ht
  | false =>
      obtain ⟨hexistence, hiff⟩ := bootstrap_provided hissue hboot hprovided h
      rw [hexistence] at ht
      rcases r with e | ca
      · refine .unnamed hfile ht fun hnamed => ?_
        obtain ⟨_, hno⟩ := hiff.mpr hnamed
        cases hno
      · exact .bootstrap hfile ht (hiff.mp ⟨ca, rfl⟩)

theorem load_provided (hissue : X.IssueLaw) (hboot : X.BootstrapLaw)
    (hprovided : Provided X settings env tr) {cfg : CaConfig} (hcfg : cfg ∈ settings.ca)
    (hsource : cfg.has_source = true) {r : AppResult CertificateAuthority}
    (h : Returns (load_or_bootstrap_ca X cfg) tr r) : LoadOutcome X cfg tr r := by
  obtain ⟨_, t, rfl, hexistence, hprovided₁, h₁⟩ := returns_quiet_bind
    (p := fun password => password = cfg.password env) h hprovided
    fun _ _ h₁ h₂ => key_password_provided h₁ h₂
  rcases returns_bind.mp h₁ with ⟨e, rfl, hinline⟩ | ⟨inline, t₃, t₄, rfl, hinline, h₂⟩
  · obtain ⟨_, hmaterial⟩ := inline_material_provided hprovided₁ hinline
    cases hmaterial with
    | mixed hne => exact .mixed hne
  obtain ⟨hexistence₃, hmaterial⟩ :=
    inline_material_provided (hprovided₁.mono (List.subset_append_left _ _)) hinline
  have hprovided₄ := hprovided₁.mono (List.subset_append_right t₃ t₄)
  have hall : existence tr = existence t₄ := by
    rw [hexistence, existence_append, hexistence₃]
    rfl
  cases hmaterial with
  | neither hfile =>
      obtain ⟨key_file, hkey_file⟩ := exists_key_file hsource hfile
      obtain ⟨_, hopen, h₃⟩ := returns_lift_ok_bind h₂ ⟨key_file, ok_or_else_eq_ok.mpr hkey_file⟩
      obtain rfl := Option.some.inj (hkey_file.symm.trans (ok_or_else_eq_ok.mp hopen))
      obtain ⟨there, t₅, rfl, h₄⟩ := returns_request_bind.mp h₃
      exact load_file_provided hissue hboot (hprovided₄.mono (List.subset_cons_self _ _)) hcfg hfile
        hkey_file h₄ hall
  | both hcert hkey =>
      obtain ⟨store, cert, key, hstore, hload⟩ := inline_provided hprovided hcfg hcert hkey
      obtain ⟨_, hstore', h₃⟩ := returns_lift_ok_bind h₂ ⟨store, hstore⟩
      obtain rfl := Except.ok.inj (hstore.symm.trans hstore')
      obtain ⟨_, _, h₄⟩ := returns_lift_ok_bind h₃ ⟨(cert, key), hload⟩
      obtain ⟨rfl, rfl⟩ := returns_pure.mp h₄
      have hinline_cert := cfg.cert_value_isSome env
      have hinline_key := cfg.key_value_isSome env
      rw [hcert] at hinline_cert
      rw [hkey] at hinline_key
      exact .inline hinline_cert.symm hinline_key.symm hall

/-! ## All CAs -/

/-- Inline material is complete or not used, and where a key file was missing, as `answers`
says of the CAs that have one in their order, the CA can be named. -/
structure Loadable (X : Crates) (cfgs : List CaConfig) (answers : List Bool) : Prop where
  material : ∀ cfg ∈ cfgs, cfg.inline_cert = cfg.inline_key
  named : ∀ e ∈ (cfgs.filter CaConfig.from_file).zip answers, e.2 = false → Named X e.1

/-- A CA with inline material asks for no file. -/
theorem loadable_cons_inline {cfg : CaConfig} {cfgs : List CaConfig} {answers : List Bool}
    (hcert : cfg.inline_cert = true) (hkey : cfg.inline_key = true) :
    Loadable X (cfg :: cfgs) answers ↔ Loadable X cfgs answers := by
  have hfile : ¬ cfg.from_file = true := by
    rw [CaConfig.from_file, hcert]
    exact Bool.false_ne_true
  constructor
  · rintro ⟨hmaterial, hnamed⟩
    rw [List.filter_cons_of_neg hfile] at hnamed
    exact ⟨(List.forall_mem_cons.mp hmaterial).2, hnamed⟩
  · rintro ⟨hmaterial, hnamed⟩
    refine ⟨List.forall_mem_cons.mpr ⟨hcert.trans hkey.symm, hmaterial⟩, ?_⟩
    rw [List.filter_cons_of_neg hfile]
    exact hnamed

/-- A CA without inline material asks for its own file. -/
theorem loadable_cons_file {cfg : CaConfig} {cfgs : List CaConfig} {there : Bool}
    {answers : List Bool} (hfile : cfg.from_file = true) :
    Loadable X (cfg :: cfgs) (there :: answers) ↔
      (there = false → Named X cfg) ∧ Loadable X cfgs answers := by
  have hsame : cfg.inline_cert = cfg.inline_key := by
    unfold CaConfig.from_file at hfile
    simp_all
  constructor
  · rintro ⟨hmaterial, hnamed⟩
    rw [List.filter_cons_of_pos hfile, List.zip_cons_cons, List.forall_mem_cons] at hnamed
    exact ⟨hnamed.1, (List.forall_mem_cons.mp hmaterial).2, hnamed.2⟩
  · rintro ⟨hname, hmaterial, hnamed⟩
    refine ⟨List.forall_mem_cons.mpr ⟨hsame, hmaterial⟩, ?_⟩
    rw [List.filter_cons_of_pos hfile, List.zip_cons_cons, List.forall_mem_cons]
    exact ⟨hname, hnamed⟩

theorem load_cas_provided (hissue : X.IssueLaw) (hboot : X.BootstrapLaw) {cfgs : List CaConfig}
    (hcfgs : ∀ cfg ∈ cfgs, cfg ∈ settings.ca) (hsource : ∀ cfg ∈ cfgs, cfg.has_source = true)
    (hprovided : Provided X settings env tr) {cas : Cas} {r : AppResult Cas}
    (h : Returns (load_cas X cfgs cas) tr r) :
    (∃ cas', r = .ok cas') ↔ Loadable X cfgs (existence tr) := by
  induction cfgs generalizing cas tr with
  | nil =>
      obtain ⟨_, rfl⟩ := returns_pure.mp h
      refine iff_of_true ⟨cas, rfl⟩ ⟨fun _ hno => absurd hno List.not_mem_nil, ?_⟩
      exact fun _ hno => absurd hno List.not_mem_nil
  | cons cfg cfgs ih =>
      rw [List.forall_mem_cons] at hcfgs hsource
      rcases returns_bind.mp h with ⟨e, rfl, herror⟩ | ⟨ca, t₁, t₂, rfl, hload, h₁⟩
      · refine iff_of_false (fun ⟨_, hno⟩ => by cases hno) fun hloadable => ?_
        cases load_provided hissue hboot hprovided hcfgs.1 hsource.1 (returns_attach_error.mp herror) with
        | mixed hne => exact hne (hloadable.material cfg List.mem_cons_self)
        | unnamed hfile hexistence hnamed =>
            rw [hexistence] at hloadable
            exact hnamed (((loadable_cons_file hfile).mp hloadable).1 rfl)
      · have hrest := ih hcfgs.2 hsource.2 (hprovided.mono (List.subset_append_right _ _)) h₁
        have houtcome := load_provided hissue hboot (hprovided.mono (List.subset_append_left _ _))
          hcfgs.1 hsource.1 (returns_attach.mp hload)
        rw [existence_append]
        cases houtcome with
        | inline hcert hkey hexistence =>
            rw [hexistence, List.nil_append, loadable_cons_inline hcert hkey]
            exact hrest
        | file hfile hexistence =>
            rw [hexistence, List.singleton_append, loadable_cons_file hfile]
            exact hrest.trans (and_iff_right fun hno => absurd hno Bool.true_eq_false.mp).symm
        | bootstrap hfile hexistence hnamed =>
            rw [hexistence, List.singleton_append, loadable_cons_file hfile]
            exact hrest.trans (and_iff_right fun _ => hnamed).symm

/-! ## Validators -/

theorem build_intune_provided (hprovided : Provided X settings env tr)
    {r : AppResult (Option IntuneClient)} (h : Returns (build_intune settings.intune) tr r) :
    existence tr = [] ∧ ∃ intune, r = .ok intune ∧ (settings.intune ≠ none → intune ≠ none) := by
  unfold build_intune at h
  rcases hconfig : settings.intune with _ | cfg
  · rw [hconfig] at h
    obtain ⟨rfl, rfl⟩ := returns_pure.mp h
    exact ⟨rfl, none, rfl, fun hno => absurd rfl hno⟩
  · rw [hconfig] at h
    obtain ⟨secret, t, _, hexistence, _, hpure⟩ :=
      returns_quiet_bind h hprovided fun _ _ h₁ h₂ => env_var_provided h₁ h₂
    obtain ⟨rfl, rfl⟩ := returns_pure.mp hpure
    exact ⟨hexistence, _, rfl, fun _ => Option.some_ne_none _⟩

/-- In validated settings every profile has what its challenge mode needs. -/
theorem build_validator_provided (hvalid : settings.validate = .ok ())
    (hprovided : Provided X settings env tr) {p : ProfileConfig} (hp : p ∈ settings.profile)
    {intune : Option IntuneClient} (hintune : settings.intune ≠ none → intune ≠ none)
    {r : AppResult ChallengeValidator} (h : Returns (build_validator p intune) tr r) :
    existence tr = [] ∧ ∃ v, r = .ok v := by
  obtain ⟨hstatic, hneeds⟩ := Settings.mode_of_profile hvalid hp
  unfold build_validator at h
  cases hmode : p.challenge with
  | Static =>
      rw [hmode] at h
      obtain ⟨name, hname⟩ := Option.ne_none_iff_exists'.mp (hstatic hmode)
      obtain ⟨_, hread, h₁⟩ := returns_lift_ok_bind h ⟨name, ok_or_else_eq_ok.mpr hname⟩
      obtain rfl := Option.some.inj (hname.symm.trans (ok_or_else_eq_ok.mp hread))
      obtain ⟨secret, t, _, hexistence, _, hpure⟩ :=
        returns_quiet_bind h₁ hprovided fun _ _ h₁ h₂ => env_var_provided h₁ h₂
      obtain ⟨rfl, rfl⟩ := returns_pure.mp hpure
      exact ⟨hexistence, _, rfl⟩
  | Intune =>
      rw [hmode] at h
      obtain ⟨client, hclient⟩ := Option.ne_none_iff_exists'.mp (hintune (hneeds hmode))
      obtain ⟨_, _, h₁⟩ := returns_lift_ok_bind h ⟨client, ok_or_else_eq_ok.mpr hclient⟩
      obtain ⟨rfl, rfl⟩ := returns_pure.mp h₁
      exact ⟨rfl, _, rfl⟩
  | None =>
      rw [hmode] at h
      obtain ⟨rfl, rfl⟩ := returns_pure.mp h
      exact ⟨rfl, _, rfl⟩

theorem build_profiles_provided (hvalid : settings.validate = .ok ())
    {configs : List ProfileConfig} (hconfigs : ∀ p ∈ configs, p ∈ settings.profile)
    {intune : Option IntuneClient} (hintune : settings.intune ≠ none → intune ≠ none)
    (hprovided : Provided X settings env tr) {profiles : AList fun _ : String => ProfileRuntime}
    {r : AppResult (AList fun _ : String => ProfileRuntime)}
    (h : Returns (build_profiles intune configs profiles) tr r) :
    existence tr = [] ∧ ∃ profiles', r = .ok profiles' := by
  induction configs generalizing profiles tr with
  | nil =>
      obtain ⟨rfl, rfl⟩ := returns_pure.mp h
      exact ⟨rfl, _, rfl⟩
  | cons p configs ih =>
      rw [List.forall_mem_cons] at hconfigs
      obtain ⟨v, t, hexistence, hprovided', h₁⟩ := returns_quiet_bind' h hprovided
        fun _ _ h₁ h₂ => build_validator_provided hvalid h₁ hconfigs.1 hintune h₂
      rw [hexistence]
      exact ih hconfigs.2 hprovided' h₁

/-! ## The server -/

/-- The state is built just when every CA loads. -/
theorem build_state_provided (hissue : X.IssueLaw) (hboot : X.BootstrapLaw)
    (hvalid : settings.validate = .ok ()) (hprovided : Provided X settings env tr)
    {r : AppResult AppState} (h : Returns (build_state X settings) tr r) :
    (∃ state, r = .ok state) ↔ Loadable X settings.ca (existence tr) := by
  have hsource : ∀ cfg ∈ settings.ca, cfg.has_source = true := fun _ hcfg =>
    Settings.source_of_ca hvalid hcfg
  obtain ⟨connected, t₁, rfl, h₁⟩ := returns_request_bind.mp h
  have hconnected := hprovided.database _ connected List.mem_cons_self
  obtain ⟨_, _, h₂⟩ := returns_lift_ok_bind h₁ ⟨(), map_err_eq_ok.mpr hconnected⟩
  have hskip : existence (⟨Op.connect settings.server.database_url, connected⟩ :: t₁)
      = existence t₁ := rfl
  have hprovided₁ := hprovided.mono (List.subset_cons_self _ _)
  rw [hskip]
  rcases returns_bind.mp h₂ with ⟨e, rfl, hload⟩ | ⟨cas, t₂, t₃, rfl, hload, h₃⟩
  · rw [← load_cas_provided hissue hboot (fun _ hcfg => hcfg) hsource hprovided₁ hload]
    exact iff_of_false (fun ⟨_, hno⟩ => by cases hno) (fun ⟨_, hno⟩ => by cases hno)
  · have hloadable := (load_cas_provided hissue hboot (fun _ hcfg => hcfg) hsource
      (hprovided₁.mono (List.subset_append_left _ _)) hload).mp ⟨cas, rfl⟩
    have hprovided₃ := hprovided₁.mono (List.subset_append_right t₂ t₃)
    rw [existence_append]
    obtain ⟨intune, t₄, hneeds, hexistence₄, hprovided₄, h₄⟩ := returns_quiet_bind
      (p := fun intune => settings.intune ≠ none → intune ≠ none) h₃ hprovided₃
      fun _ _ h₁ h₂ => build_intune_provided h₁ h₂
    obtain ⟨profiles, t₅, hexistence₅, _, h₅⟩ := returns_quiet_bind' h₄ hprovided₄
      fun _ _ h₁ h₂ => build_profiles_provided hvalid (fun _ hp => hp) hneeds h₁ h₂
    obtain ⟨rfl, rfl⟩ := returns_pure.mp h₅
    rw [hexistence₄, hexistence₅]
    have hnil : existence t₂ ++ existence [] = existence t₂ := List.append_nil _
    rw [hnil]
    exact iff_of_true ⟨_, rfl⟩ hloadable

/-- At this time no well-formed CSR fails under the profile for the configuration. -/
def Issues (X : Crates) (state : AppState) (p : ProfileConfig) (now : SystemTime) : Prop :=
  ∀ validator ca, state.cas.lookup p.ca = some ca → ∀ csr : CertReq, csr.WellFormed X → ∀ t e,
    Returns (ca.issue X csr (Scep.issue_options state (runtime p validator))) t (.error e) →
    ⟨Op.now, now⟩ ∈ t → ¬ Misconfigured e

/-- The server starts, and so it is under every declared profile. -/
def Runs (X : Crates) (settings : Settings) (now : SystemTime) (r : AppResult AppState) : Prop :=
  ∃ state, r = .ok state ∧ ∀ p ∈ settings.profile, Issues X state p now

/-- The usages and the purposes of a profile are known, the URLs in its certificates are
ASCII, and their validity ends before the year 10000. -/
structure ProfileWorks (X : Crates) (base_url : String) (p : ProfileConfig) (now : SystemTime) :
    Prop where
  validity : DateTime.Representable (now.add_secs (p.validity_days.toNat * 86400))
  key_usage : ∀ name ∈ p.key_usage, ∃ f, extensions.usage_flag name = .ok f
  extended_key_usage : ∀ name ∈ p.extended_key_usage, ∃ oid, extensions.eku_oid X name = .ok oid
  base_url : Ascii base_url
  ca : Ascii p.ca

/-- Every CA loads and every profile works. -/
structure Workable (X : Crates) (settings : Settings) (answers : List Bool) (now : SystemTime) :
    Prop where
  cas : Loadable X settings.ca answers
  profiles : ∀ p ∈ settings.profile, ProfileWorks X settings.server.base_url p now

theorem ascii_urls (state : AppState) (ca_id : String) :
    (Ascii (state.ocsp_url ca_id) ∧ Ascii (state.crl_url ca_id)) ↔
      Ascii state.base_url ∧ Ascii ca_id := by
  have hocsp : state.ocsp_url ca_id = trim_end_slashes state.base_url ++ "/ocsp/" ++ ca_id := rfl
  have hcrl : state.crl_url ca_id = trim_end_slashes state.base_url ++ "/crl/" ++ ca_id := rfl
  have hocsp_path : Ascii "/ocsp/" := by decide
  have hcrl_path : Ascii "/crl/" := by decide
  rw [hocsp, hcrl]
  simp only [ascii_append, ascii_trim_end_slashes, hocsp_path, hcrl_path, and_true, and_self]

/-- The options of a profile that works are issuable. -/
theorem issuable_of_profile (state : AppState) (p : ProfileConfig) (validator : ChallengeValidator)
    (now : SystemTime) : Issuable X (Scep.issue_options state (runtime p validator)) now ↔
      ProfileWorks X state.base_url p now := by
  have hurls := ascii_urls state p.ca
  constructor
  · rintro ⟨hvalidity, husage, heku, hocsp, hcrl⟩
    obtain ⟨hbase, hca⟩ := hurls.mp ⟨hocsp _ rfl, hcrl _ rfl⟩
    exact ⟨hvalidity, husage, heku, hbase, hca⟩
  · rintro ⟨hvalidity, husage, heku, hbase, hca⟩
    obtain ⟨hocsp, hcrl⟩ := hurls.mpr ⟨hbase, hca⟩
    exact ⟨hvalidity, husage, heku, fun _ hurl => Option.some.inj hurl ▸ hocsp,
      fun _ hurl => Option.some.inj hurl ▸ hcrl⟩

/-- Once it has started a profile issues just when it works. -/
theorem issues_iff (hissue : X.IssueLaw) (hvalidity : X.ValidityLaw)
    (hvalid : settings.validate = .ok ()) {state : AppState}
    (h : Returns (build_state X settings) tr (.ok state)) {p : ProfileConfig}
    (hp : p ∈ settings.profile) {now : SystemTime} (hnow : DateTime.Representable now) :
    Issues X state p now ↔ ProfileWorks X settings.server.base_url p now := by
  obtain ⟨loaded, validators, hbuilt⟩ := build_state_built h
  rw [← hbuilt.base_url_eq, ← issuable_of_profile state p .NoneValidator now]
  constructor
  · intro hissues
    obtain ⟨cfg, hcfg, hid⟩ := Settings.ca_of_profile hvalid hp
    obtain ⟨ca, hca⟩ := hbuilt.exists_ca hcfg
    rw [hid] at hca
    exact (CertificateAuthority.issuable_iff hissue hvalidity hnow ca _).mp
      (hissues .NoneValidator ca hca)
  · intro hissuable validator ca _
    exact (CertificateAuthority.issuable_iff hissue hvalidity hnow ca _).mpr hissuable

/-- **When a validated configuration runs.** Where the environment provides what the
configuration names, the server starts and no profile fails for its configuration just
when the configuration is workable. -/
theorem validated_runs_iff (hissue : X.IssueLaw) (hboot : X.BootstrapLaw)
    (hvalidity : X.ValidityLaw) (hvalid : settings.validate = .ok ()) {r : AppResult AppState}
    (h : Returns (build_state X settings) tr r) (hprovided : Provided X settings env tr)
    {now : SystemTime} (hnow : DateTime.Representable now) :
    Runs X settings now r ↔ Workable X settings (existence tr) now := by
  have hbuild := build_state_provided hissue hboot hvalid hprovided h
  constructor
  · rintro ⟨state, rfl, hissues⟩
    exact ⟨hbuild.mp ⟨state, rfl⟩, fun p hp =>
      (issues_iff hissue hvalidity hvalid h hp hnow).mp (hissues p hp)⟩
  · intro hworkable
    obtain ⟨state, rfl⟩ := hbuild.mpr hworkable.cas
    exact ⟨state, rfl, fun p hp =>
      (issues_iff hissue hvalidity hvalid h hp hnow).mpr (hworkable.profiles p hp)⟩

end app

/-! ## On the reference crates -/

namespace Reference

/-- The reference implementation without a bound on the length of a certificate. -/
def startup_crates : Crates :=
  { crates with certificate_builder_build := fun b => .ok (certificate b) }

namespace Startup

theorem issue_law : startup_crates.IssueLaw where
  subject_key_identifier := fun _ => ⟨_, rfl⟩
  authority_key_identifier := fun _ => ⟨_, rfl⟩
  validity := by
    intro now secs hbefore hafter
    obtain ⟨d, hd⟩ := DateTime.exists_from_system_time hbefore
    obtain ⟨d', hd'⟩ := DateTime.exists_from_system_time hafter
    exact ⟨_, bind_eq_ok.mpr ⟨d, hd, bind_eq_ok.mpr ⟨d', hd', rfl⟩⟩⟩
  builder_new := fun _ _ _ _ _ _ => ⟨_, rfl⟩
  to_extension := fun _ _ _ => ⟨_, rfl⟩

theorem bootstrap_law : startup_crates.BootstrapLaw where
  key := fun _ => ⟨_, rfl⟩
  spki := fun _ => ⟨_, rfl⟩
  signer := by
    intro p s v subj spki k b h
    rw [← Except.ok.inj h]
  build := fun _ _ _ _ _ => ⟨_, rfl⟩
  certificate_pem := fun _ => ⟨_, rfl⟩
  key_pem := fun _ => ⟨_, rfl⟩

theorem validity_law : startup_crates.ValidityLaw where
  from_now := Extensions.validity_law.from_now
  builder_new := Extensions.validity_law.builder_new
  build := by
    intro b c h
    rw [← Except.ok.inj h]
    exact ⟨rfl, rfl⟩

end Startup

end Reference

namespace Device

open Reference keystore

theorem parse_ca_cert : parse_certificate startup_crates (Codec.enc ca_cert) = .ok ca_cert := by
  decide +kernel

theorem parse_ca_key : parse_private_key startup_crates (Codec.enc ca_key) none = .ok ca_key := by
  decide +kernel

theorem ca_starts : Returns (app.load_or_bootstrap_ca startup_crates (ca_config ca_key)) []
    (.ok (CertificateAuthority.new "root" ca_cert ca_key)) := by
  have hstore := InlineKeyStore.from_material_encode startup_crates (Codec.enc ca_cert)
    (Codec.enc ca_key) none
  refine app.load_inline (ca_config ca_key) rfl rfl rfl hstore ?_
  rw [InlineKeyStore.load, parse_ca_cert, parse_ca_key]
  rfl

/-- The variables of the server. -/
def env (_ : String) : String := "s3cret"

/-- A CA whose values, if they are inline, are those of the root CA is provided for. -/
theorem provided {settings : Settings} {t : Trace}
    (hcas : ∀ cfg ∈ settings.ca, cfg.key_password_env = none ∧
      (∀ value, cfg.cert_value env = some value → value = base64.encode (Codec.enc ca_cert)) ∧
      ∀ value, cfg.key_value env = some value → value = base64.encode (Codec.enc ca_key))
    (ht : ∀ ev ∈ t, ev = ⟨Op.env_var "SCEP_SECRET", some "s3cret"⟩) :
    Provided startup_crates settings env
      (⟨Op.connect settings.server.database_url, .ok ()⟩ :: t) where
  vars := by
    intro name value hmem
    rcases List.mem_cons.mp hmem with hno | hmem
    · cases hno
    · cases ht _ hmem
      rfl
  database := by
    intro url res hmem
    rcases List.mem_cons.mp hmem with heq | hmem
    · cases heq
      rfl
    · cases ht _ hmem
  certificates := by
    intro cfg hcfg value hvalue
    rw [(hcas cfg hcfg).2.1 value hvalue]
    exact ⟨_, ca_cert, material_to_bytes_encode _ _ _, parse_ca_cert⟩
  keys := by
    intro cfg hcfg value hvalue
    rw [(hcas cfg hcfg).2.2 value hvalue, CaConfig.password, (hcas cfg hcfg).1]
    exact ⟨_, ca_key, material_to_bytes_encode _ _ _, parse_ca_key⟩
  bundles := by
    intro cfg hcfg key_file read _ hmem
    rcases List.mem_cons.mp hmem with hno | hmem
    · cases hno
    · cases ht _ hmem
  writable := by
    intro path bytes res hmem
    rcases List.mem_cons.mp hmem with hno | hmem
    · cases hno
    · cases ht _ hmem
  clock := by
    intro now hmem
    rcases List.mem_cons.mp hmem with hno | hmem
    · cases hno
    · cases ht _ hmem

theorem provided_with_profiles (profiles : List ProfileConfig) {t : Trace}
    (ht : ∀ ev ∈ t, ev = ⟨Op.env_var "SCEP_SECRET", some "s3cret"⟩) :
    Provided startup_crates (app.with_profiles (ca_config ca_key) profiles) env
      (⟨Op.connect "sqlite://blapki.db", .ok ()⟩ :: t) := by
  refine provided (fun cfg hcfg => ?_) ht
  rw [List.mem_singleton.mp hcfg]
  exact ⟨rfl, fun value h => (Option.some.inj h).symm, fun value h => (Option.some.inj h).symm⟩

/-- A profile without a challenge and with these usages. -/
def profile_of_usages (names : List String) : ProfileConfig :=
  { profile_config .None with key_usage := names }

/-- The certificate inline and the key in a file. -/
def mixed_config : CaConfig :=
  { ca_config ca_key with key_pem := none, key_file := some "ca.pem" }

def mixed_error : AppError := .Config "ca 'root': provide both cert and key inline, or neither"

/-- The load of a mixed configuration ends before a file is looked at. -/
theorem mixed_fails : Returns (app.build_state startup_crates (app.one_ca mixed_config))
    [⟨Op.connect "sqlite://blapki.db", .ok ()⟩] (.error mixed_error) := by
  have hpassword : Returns (app.key_password mixed_config) [] (.ok none) :=
    returns_pure.mpr ⟨rfl, rfl⟩
  have hinline : Returns mixed_config.inline_material [] (.error mixed_error) :=
    returns_throw.mpr ⟨rfl, rfl⟩
  have hload : Returns (app.load_or_bootstrap_ca startup_crates mixed_config) []
      (.error mixed_error) :=
    returns_bind.mpr (.inr ⟨none, [], [], rfl, hpassword,
      returns_bind.mpr (.inl ⟨mixed_error, rfl, hinline⟩)⟩)
  have hcas : Returns (app.load_cas startup_crates [mixed_config] app.Cas.empty) []
      (.error mixed_error) :=
    returns_bind.mpr (.inl ⟨mixed_error, rfl, returns_attach_error.mpr hload⟩)
  exact returns_request_bind.mpr ⟨.ok (), [], rfl, returns_lift_bind.mpr (.inr ⟨(), rfl,
    returns_bind.mpr (.inl ⟨mixed_error, rfl, hcas⟩)⟩)⟩

theorem mixed_provided : Provided startup_crates (app.one_ca mixed_config) env
    [⟨Op.connect "sqlite://blapki.db", .ok ()⟩] := by
  refine provided (fun cfg hcfg => ?_) fun _ hno => absurd hno List.not_mem_nil
  rw [List.mem_singleton.mp hcfg]
  exact ⟨rfl, fun value h => (Option.some.inj h).symm, fun value h => by cases h⟩

theorem inline_config (key : RsaPrivateKey) :
    (ca_config key).inline_cert = (ca_config key).inline_key := by
  have hcert : (ca_config key).inline_cert = true := rfl
  have hkey : (ca_config key).inline_key = true := rfl
  rw [hcert, hkey]

theorem now_representable : DateTime.Representable now := by
  decide

theorem profile_works :
    app.ProfileWorks startup_crates "http://pki.example/" (profile_config .Static) now := by
  refine ⟨by decide, ?_, ?_, by decide, by decide⟩
  · exact List.forall_mem_cons.mpr ⟨⟨_, rfl⟩, List.forall_mem_cons.mpr ⟨⟨_, rfl⟩,
      fun _ hno => absurd hno List.not_mem_nil⟩⟩
  · exact List.forall_mem_cons.mpr ⟨⟨_, rfl⟩, fun _ hno => absurd hno List.not_mem_nil⟩

end Device

namespace app

open Reference

/-- Inline material that is complete asks for no file. -/
theorem workable_inline {X : Crates} {cfg : CaConfig} {profiles : List ProfileConfig}
    {now : SystemTime} (hcfg : cfg.inline_cert = cfg.inline_key)
    (hprofiles : ∀ p ∈ profiles, ProfileWorks X "http://pki.example/" p now) :
    Workable X (with_profiles cfg profiles) [] now := by
  refine ⟨⟨fun c hc => ?_, fun e he => ?_⟩, hprofiles⟩
  · rw [List.mem_singleton.mp hc]
    exact hcfg
  · rw [List.zip_nil_right] at he
    exact absurd he List.not_mem_nil

/-- One CA and a profile with the usual usages: the server starts and issues. -/
theorem device_configuration_runs : ∃ tr r,
    Returns (build_state startup_crates Device.once) tr r ∧
      Runs startup_crates Device.once Device.now r := by
  have heach : Each (fun p => build_validator p none) [Device.profile_config .Static]
      ([⟨Op.env_var "SCEP_SECRET", some "s3cret"⟩] ++ []) [.StaticSecretValidator "s3cret"] :=
    .cons Device.static_validator .nil
  obtain ⟨state, hbuild, _⟩ := build_with_profiles Device.ca_starts heach
  have hprovided := Device.provided_with_profiles [Device.profile_config .Static]
    fun _ hev => List.mem_singleton.mp hev
  refine ⟨_, _, hbuild, (validated_runs_iff Startup.issue_law Startup.bootstrap_law
    Startup.validity_law Device.once_validates hbuild hprovided Device.now_representable).mpr ?_⟩
  exact workable_inline (Device.inline_config _) fun p hp => List.mem_singleton.mp hp ▸ Device.profile_works

/-- **Validated configurations that do not run**, though all they name is provided: a
certificate inline with the key in a file is refused at the start, and under a misspelt
usage the server starts and no certificate is issued. -/
theorem device_configurations_fail :
    ((one_ca Device.mixed_config).validate = .ok () ∧ ∃ tr r,
      Returns (build_state startup_crates (one_ca Device.mixed_config)) tr r ∧
      Provided startup_crates (one_ca Device.mixed_config) Device.env tr ∧
      ¬ Runs startup_crates (one_ca Device.mixed_config) Device.now r) ∧
    ∃ settings : Settings, settings.validate = .ok () ∧ ∃ tr state,
      Returns (build_state startup_crates settings) tr (.ok state) ∧
      Provided startup_crates settings Device.env tr ∧
      ¬ Runs startup_crates settings Device.now (.ok state) := by
  constructor
  · have hvalid : (one_ca Device.mixed_config).validate = .ok () := by decide +kernel
    refine ⟨hvalid, _, _, Device.mixed_fails, Device.mixed_provided, ?_⟩
    rintro ⟨_, hno, _⟩
    cases hno
  · let p := Device.profile_of_usages ["digitalsignature"]
    have heach : Each (fun p => build_validator p none) [p] ([] ++ []) [.NoneValidator] :=
      .cons (returns_pure.mpr ⟨rfl, rfl⟩) .nil
    obtain ⟨state, hbuild, _⟩ := build_with_profiles Device.ca_starts heach
    have hvalid : (with_profiles (Device.ca_config Device.ca_key) [p]).validate = .ok () := by
      decide +kernel
    refine ⟨_, hvalid, _, state, hbuild,
      Device.provided_with_profiles [p] fun _ hno => absurd hno List.not_mem_nil, ?_⟩
    rintro ⟨state', heq, hissues⟩
    rw [← Except.ok.inj heq] at hissues
    have hworks := (issues_iff Startup.issue_law Startup.validity_law hvalid hbuild
      (List.mem_singleton.mpr rfl) Device.now_representable).mp (hissues p (List.mem_singleton.mpr rfl))
    obtain ⟨f, hf⟩ := hworks.key_usage "digitalsignature" (List.mem_singleton.mpr rfl)
    cases hf

end app

end Blapki
