/-
The configuration model (`config.rs`).

Management is config-only: the CAs and SCEP profiles are declared here. Secrets
are not part of it, the fields name an environment variable that holds the secret.
-/
import Blapki.Env

set_option autoImplicit false

namespace Blapki

open Effect

structure ServerConfig where
  /-- Database URL. -/
  database_url : String
  /-- Externally reachable base URL. -/
  base_url : String
deriving DecidableEq, Repr

def default_crl_lifetime : UInt64 := 24

structure CaConfig where
  /-- Stable identifier referenced by profiles. -/
  id : String
  /-- Path to the CA key material, a PEM bundle. -/
  key_file : Option String
  /-- CA certificate as inline PEM or base64. -/
  cert_pem : Option String
  cert_pem_env : Option String
  /-- CA private key as inline PEM or base64. -/
  key_pem : Option String
  key_pem_env : Option String
  /-- Name of the environment variable holding the key password. -/
  key_password_env : Option String
  /-- How long a freshly generated CRL is valid, in hours. -/
  crl_lifetime_hours : UInt64 := default_crl_lifetime
deriving DecidableEq, Repr

inductive ChallengeMode where
  | Static
  | Intune
  | None
deriving DecidableEq, Repr

structure ProfileConfig where
  /-- Profile name; also the URL path segment. -/
  name : String
  /-- The CA (by `id`) that issues certificates for this profile. -/
  ca : String
  challenge : ChallengeMode
  static_secret_env : Option String
  validity_days : UInt32
  key_usage : List String
  extended_key_usage : List String
deriving DecidableEq, Repr

structure IntuneConfig where
  tenant_id : String
  client_id : String
  client_secret_env : String
  login_host : String
  resource : String
deriving DecidableEq, Repr

structure Settings where
  server : ServerConfig
  ca : List CaConfig
  profile : List ProfileConfig
  intune : Option IntuneConfig
deriving DecidableEq, Repr

/-! ## Defaults -/

def default_validity_days : UInt32 := 365

def default_key_usage : List String := ["digitalSignature", "keyEncipherment"]

def default_eku : List String := ["clientAuth"]

/-! ## Key material of a CA -/

/-- `std::env::var(..)`, with the error of a variable that is not set. -/
def env_var (name : String) (e : AppError) : Async String := do
  let value : Option String ← request (Op.env_var name)
  ok_or_else value e

/-- An inline value, or the value of the named env var, or none. -/
def resolve_value (inline env_name : Option String) (field : String) : Async (Option String) :=
  match inline with
  | some v => pure (some v)
  | none =>
      match env_name with
      | some env => do
          let v ← env_var env (.Config s!"{field} env var '{env}' is not set")
          pure (some v)
      | none => pure none

namespace CaConfig

/-- Whether the config declares a certificate source (inline or file). -/
def has_source (ca : CaConfig) : Bool :=
  let has_cert := ca.cert_pem.isSome || ca.cert_pem_env.isSome
  let has_key := ca.key_pem.isSome || ca.key_pem_env.isSome
  (has_cert && has_key) || ca.key_file.isSome

/-- Resolve the inline certificate and key strings. None when no inline material is
configured (use the file instead). -/
def inline_material (ca : CaConfig) : Async (Option (String × String)) := do
  let cert ← resolve_value ca.cert_pem ca.cert_pem_env "cert_pem"
  let key ← resolve_value ca.key_pem ca.key_pem_env "key_pem"
  match cert, key with
  | some cert, some key => pure (some (cert, key))
  | none, none => pure none
  | _, _ => throw (.Config s!"ca '{ca.id}': provide both cert and key inline, or neither")

end CaConfig

/-! ## Validation -/

namespace Settings

/-- The check of one CA. -/
def validate_ca (ca : CaConfig) : AppResult Unit :=
  require (ca.has_source = true) (.Config (s!"ca '{ca.id}' has no key material: " ++
    "set key_file, or cert_pem(_env) + key_pem(_env)"))

/-- The checks of one profile. -/
def validate_profile (settings : Settings) (profile : ProfileConfig) : AppResult Unit := do
  require (∃ c ∈ settings.ca, c.id = profile.ca)
    (.Config s!"profile '{profile.name}' references unknown ca '{profile.ca}'")
  require (¬ (profile.challenge = .Static ∧ profile.static_secret_env = none))
    (.Config s!"profile '{profile.name}' uses static challenge but has no static_secret_env")
  require (¬ (profile.challenge = .Intune ∧ settings.intune = none))
    (.Config s!"profile '{profile.name}' uses intune challenge but [intune] is not configured")

/-- The checks of `Settings::load`. -/
def validate (settings : Settings) : AppResult Unit := do
  require (settings.ca ≠ []) (.Config "no [[ca]] defined")
  settings.ca.forM validate_ca
  settings.profile.forM settings.validate_profile

/-- `Settings::ca`: the first one with this id. -/
def find_ca (settings : Settings) (id : String) : Option CaConfig :=
  settings.ca.find? fun c => c.id = id

/-- `Settings::profile`: the first one with this name. -/
def find_profile (settings : Settings) (name : String) : Option ProfileConfig :=
  settings.profile.find? fun p => p.name = name

/-- A loop of checks passes when each check does. -/
theorem forM_eq_ok {α : Type} {f : α → AppResult Unit} {l : List α} {u : Unit} :
    l.forM f = .ok u ↔ ∀ a ∈ l, f a = .ok () := by
  induction l with
  | nil => exact iff_of_true rfl fun a ha => absurd ha List.not_mem_nil
  | cons a l ih =>
      have hcons : (a :: l).forM f = (f a >>= fun _ => l.forM f) := rfl
      rw [hcons, bind_eq_ok, List.forall_mem_cons, ih]
      exact ⟨fun ⟨_, h⟩ => h, fun h => ⟨(), h⟩⟩

/-- In validated settings every profile names a configured CA. -/
theorem ca_of_profile {settings : Settings} (h : settings.validate = .ok ())
    {profile : ProfileConfig} (hmem : profile ∈ settings.profile) :
    ∃ c ∈ settings.ca, c.id = profile.ca := by
  simp only [validate, bind_eq_ok, forM_eq_ok] at h
  obtain ⟨_, _, _, _, hprofiles⟩ := h
  have hprofile := hprofiles profile hmem
  simp only [validate_profile, bind_eq_ok, require_eq_ok] at hprofile
  obtain ⟨_, hca, _⟩ := hprofile
  exact hca

/-- Every CA of validated settings has a source. -/
theorem source_of_ca {settings : Settings} (h : settings.validate = .ok ()) {ca : CaConfig}
    (hmem : ca ∈ settings.ca) : ca.has_source = true := by
  simp only [validate, bind_eq_ok, forM_eq_ok] at h
  obtain ⟨_, _, _, hcas, _⟩ := h
  exact require_eq_ok.mp (hcas ca hmem)

/-- Every profile of validated settings has what its challenge mode needs. -/
theorem mode_of_profile {settings : Settings} (h : settings.validate = .ok ())
    {profile : ProfileConfig} (hmem : profile ∈ settings.profile) :
    (profile.challenge = .Static → profile.static_secret_env ≠ none) ∧
      (profile.challenge = .Intune → settings.intune ≠ none) := by
  simp only [validate, bind_eq_ok, forM_eq_ok] at h
  obtain ⟨_, _, _, _, hprofiles⟩ := h
  have hprofile := hprofiles profile hmem
  simp only [validate_profile, bind_eq_ok, require_eq_ok] at hprofile
  obtain ⟨_, _, _, hstatic, hintune⟩ := hprofile
  exact ⟨fun hmode hno => hstatic ⟨hmode, hno⟩, fun hmode hno => hintune ⟨hmode, hno⟩⟩

end Settings

end Blapki
