/-
The SCEP endpoint (`http/scep.rs`, and the state of `http/mod.rs`): `GetCACaps`,
`GetCACert` and `PKIOperation`.

`pki_operation` is cut where the source has its stages: up to a recovered CSR,
`enrol` from the challenge validation to issuance, `deliver` from the issued
certificate to the reply. `Exit` lists the ways a request can leave the handler,
each with the events it has seen by then; `pki_operation_exit` says there are
no others. What an enrolment does or does not do is read off `Exit`.
-/
import Blapki.Reply
import Blapki.Authority
import Blapki.Repo
import Mathlib.Data.List.AList

set_option autoImplicit false

namespace Blapki

open Effect

/-! ## State (`http/mod.rs`) -/

/-- Per-profile runtime state assembled from config. -/
structure ProfileRuntime where
  name : String
  ca_id : String
  validator : ChallengeValidator
  validity_days : UInt32
  key_usage : List String
  extended_key_usage : List String
deriving DecidableEq, Repr

/-- Shared application state. Every CA is filed under its own id. -/
structure AppState where
  cas : AList fun _ : String => CertificateAuthority
  profiles : AList fun _ : String => ProfileRuntime
  /-- Externally reachable base URL (used to build AIA/CDP URLs). -/
  base_url : String
  ids : ∀ ca_id ca, cas.lookup ca_id = some ca → ca.id = ca_id

/-- `trim_end_matches('/')`. -/
def trim_end_slashes (s : String) : String :=
  String.ofList (s.toList.reverse.dropWhile fun c => c = '/').reverse

namespace AppState

def ca_for_profile (state : AppState) (profile : String) : Option CertificateAuthority := do
  let rt ← state.profiles.lookup profile
  state.cas.lookup rt.ca_id

/-- OCSP responder URL for a CA. -/
def ocsp_url (state : AppState) (ca_id : String) : String :=
  s!"{trim_end_slashes state.base_url}/ocsp/{ca_id}"

/-- CRL URL for a CA. -/
def crl_url (state : AppState) (ca_id : String) : String :=
  s!"{trim_end_slashes state.base_url}/crl/{ca_id}"

end AppState

namespace Scep

variable (X : Crates)

/-! ## Small helpers -/

def thumbprint (der : Bytes) : String := hex.encode_upper (X.sha1 der)

def serial_hex (cert : Certificate) : String :=
  hex.encode cert.tbs_certificate.serial_number.as_bytes

/-- Decimal representation of the serial (Intune expects decimal). Serials of at
most 16 octets fit in a u128. -/
def serial_decimal (cert : Certificate) : String :=
  let bytes := cert.tbs_certificate.serial_number.as_bytes
  if bytes.length ≤ 16 then toString (bytes.foldl (fun v b => (v <<< 8) ||| b.toNat) 0)
  -- the fallback for unusually large serials
  else hex.encode bytes

def time_to_utc (t : Time) : String := t.to_date_time.to_rfc3339

/-- `from_system_time(..).unwrap_or(INFINITY)` as text. -/
def utc_text (t : SystemTime) : String :=
  match DateTime.from_system_time t with
  | .ok dt => dt.to_rfc3339
  | .error _ => DateTime.INFINITY.to_rfc3339

def now_utc : Async String := do
  let now ← system_time_now
  pure (utc_text now)

/-- `strip_prefix("CN=")` on the characters of a part. -/
def strip_cn : List Char → Option (List Char)
  | 'C' :: 'N' :: '=' :: cn => some cn
  | _ => none

/-- Extract the CN component from an RFC 4514 DN string. -/
def common_name (dn : String) : String :=
  let parts := (dn.toList.splitOn ',').map fun part => (trim (String.ofList part)).toList
  match parts.findSome? strip_cn with
  | some cn => String.ofList cn
  | none => dn

/-! ## Records and notifications -/

def record (rt : ProfileRuntime) (parsed : ParsedRequest) (status message_type : String) :
    Async Unit := do
  let created_at ← now_utc
  repo.record_transaction parsed.transaction_id rt.name status message_type created_at

def record_ok (rt : ProfileRuntime) (parsed : ParsedRequest) : Async Unit :=
  record rt parsed "issued" "PKCSReq"

/-- The row of an issued certificate. -/
def issued_row (rt : ProfileRuntime) (ca : CertificateAuthority) (parsed : ParsedRequest)
    (issued : Certificate) (issued_der : Bytes) (created_at : String) : IssuedCertificate where
  serial := serial_hex issued
  ca_id := ca.id
  subject := X.name_to_string issued.tbs_certificate.subject
  not_before := time_to_utc issued.tbs_certificate.validity.not_before
  not_after := time_to_utc issued.tbs_certificate.validity.not_after
  der_b64 := base64.encode issued_der
  thumbprint_sha1 := thumbprint X issued_der
  transaction_id := some parsed.transaction_id
  profile := some rt.name
  status := STATUS_VALID
  created_at := created_at
  revoked_at := none
  revocation_reason := none

def persist (rt : ProfileRuntime) (ca : CertificateAuthority) (parsed : ParsedRequest)
    (issued : Certificate) (issued_der : Bytes) : Async Unit := do
  let created_at ← now_utc
  repo.insert_issued (issued_row X rt ca parsed issued issued_der created_at)
  -- `let _ =`: what becomes of the record is not looked at
  let _ ← attempt (record_ok rt parsed)
  pure ()

def issued_info (ca : CertificateAuthority) (issued : Certificate) (issued_der : Bytes) :
    IssuedInfo where
  thumbprint_sha1 := thumbprint X issued_der
  serial_decimal := serial_decimal issued
  not_after_utc := time_to_utc issued.tbs_certificate.validity.not_after
  issuer_cn := common_name (X.name_to_string ca.cert.tbs_certificate.subject)

/-! ## `PKIOperation` -/

def build_failure (ca : CertificateAuthority) (parsed : ParsedRequest) (fail : FailInfo) :
    Async Bytes := do
  let attrs ← Attributes.failure_attrs parsed.transaction_id parsed.sender_nonce fail
  build_cert_rep X ca.signing_key ca.cert none attrs

/-- Build the signed and enveloped `CertRep` for the device. -/
def build_success (ca : CertificateAuthority) (parsed : ParsedRequest) (issued : Certificate) :
    Async Bytes := do
  let certs ← certs_only X issued
  let reply_env_der ← Envelope.build_for X certs parsed.recipient
  let attrs ← Attributes.success_attrs parsed.transaction_id parsed.sender_nonce
  build_cert_rep X ca.signing_key ca.cert (some reply_env_der) attrs

/-- From the issued certificate to the reply. Persist and notify are best effort; a
certificate was issued regardless. -/
def deliver (rt : ProfileRuntime) (ca : CertificateAuthority) (parsed : ParsedRequest)
    (input : ValidationInput) (issued : Certificate) : Async Bytes := do
  let issued_der ← map_err (X.certificate_to_der issued) fun e =>
    .crypto s!"encode issued cert: {e}"
  let _ ← attempt (persist X rt ca parsed issued issued_der)
  let _ ← attempt (rt.validator.on_issued input (issued_info X ca issued issued_der))
  build_success X ca parsed issued

/-- What the validator is asked about. -/
def validation_input (parsed : ParsedRequest) (parsed_csr : ParsedCsr) : ValidationInput where
  transaction_id := parsed.transaction_id
  csr_der := parsed_csr.der
  challenge_password := parsed_csr.challenge_password

def issue_options (state : AppState) (rt : ProfileRuntime) : IssueOptions where
  validity_days := rt.validity_days
  key_usage := rt.key_usage
  extended_key_usage := rt.extended_key_usage
  ocsp_url := some (state.ocsp_url rt.ca_id)
  crl_url := some (state.crl_url rt.ca_id)

/-- Challenge validation and issuance. -/
def enrol (state : AppState) (rt : ProfileRuntime) (ca : CertificateAuthority)
    (parsed : ParsedRequest) (parsed_csr : ParsedCsr) : Async Bytes := do
  let input := validation_input parsed parsed_csr
  let validated ← attempt (rt.validator.validate input)
  match validated with
  | .error e => do
      -- neither the notification nor the record can keep the reply from being built
      let _ ← attempt (rt.validator.on_failure input e.to_string)
      let _ ← attempt (record rt parsed "failed" "PKCSReq")
      build_failure X ca parsed .BadRequest
  | .ok () => do
      let issued ← attempt (ca.issue X parsed_csr.req (issue_options state rt))
      match issued with
      | .error e => do
          -- a denial is recorded, a failed issuance is not
          let _ ← attempt (rt.validator.on_failure input e.to_string)
          build_failure X ca parsed .BadRequest
      | .ok issued => deliver X rt ca parsed input issued

/-- Decrypt the enveloped CSR. -/
def recover_csr (ca : CertificateAuthority) (enveloped : EnvelopedData) : AppResult ParsedCsr := do
  let csr_der ← Envelope.open_ X enveloped ca.cert ca.private_key
  csr.parse X csr_der

/-- The message types that carry an enrolment. -/
def check_message_type (t : MessageType) : AppResult Unit :=
  match t with
  | .PkcsReq | .RenewalReq => .ok ()
  | other => .error (.bad_request s!"unsupported SCEP messageType {other.debug} in v1")

/-- Handle a `PKIOperation`: verify, decrypt, validate, issue, and respond. Every
failure between the envelope and a parsed CSR gets the same in-band
badMessageCheck reply with no detail. -/
def pki_operation (state : AppState) (profile : String) (body : Bytes) : Async Bytes := do
  let rt ← ok_or_else (state.profiles.lookup profile)
    (.NotFound s!"unknown SCEP profile '{profile}'")
  let ca ← ok_or_else (state.cas.lookup rt.ca_id) (.Config s!"profile '{profile}' has no CA")
  -- up to the envelope a failure is an HTTP error, from there on a reply
  let parsed ← Verify.parse_and_verify X body
  check_message_type parsed.message_type
  let enveloped ← ok_or_else parsed.enveloped
    (.bad_request "enrolment request carries no envelope")
  match recover_csr X ca enveloped with
  | .error _ => build_failure X ca parsed .BadMessageCheck
  | .ok parsed_csr => enrol X state rt ca parsed parsed_csr

/-! ## Routes -/

def CT_CA_CERT : String := "application/x-x509-ca-cert"
def CT_PKI_MESSAGE : String := "application/x-pki-message"

def text_response (body : String) : Response := ⟨200, "text/plain", body.as_bytes⟩

def bytes_response (content_type : String) (body : Bytes) : Response := ⟨200, content_type, body⟩

/-- What a client sees of a handler's result. -/
def into_response (r : AppResult Response) : Response :=
  match r with
  | .ok response => response
  | .error e => e.into_response

def get_ca_cert (state : AppState) (profile : String) : AppResult Response := do
  let ca ← ok_or_else (state.ca_for_profile profile)
    (.NotFound s!"unknown SCEP profile '{profile}'")
  let der ← map_err (X.certificate_to_der ca.cert) fun e => .crypto s!"encode CA cert: {e}"
  pure (bytes_response CT_CA_CERT der)

/-- `GET /scep/{profile}?operation=...` -/
def scep_get (state : AppState) (profile : String) (params : AList fun _ : String => String) :
    Async Response :=
  let operation := (params.lookup "operation").getD ""
  match operation with
  | "GetCACaps" => pure (text_response Attributes.CA_CAPS)
  | "GetCACert" => liftM (get_ca_cert X state profile)
  | "PKIOperation" => do
      let message ← ok_or_else (params.lookup "message")
        (.bad_request "missing 'message' parameter")
      let body ← ok_or_else (base64.decode message.toList)
        (.bad_request s!"bad base64 message: {X.base64_error message.toList}")
      let der ← pki_operation X state profile body
      pure (bytes_response CT_PKI_MESSAGE der)
  | other => throw (.bad_request s!"unsupported SCEP operation '{other}'")

/-- `POST /scep/{profile}`: the body is the DER PKIMessage. -/
def scep_post (state : AppState) (profile : String) (params : AList fun _ : String => String)
    (body : Bytes) : Async Response := do
  let operation := (params.lookup "operation").getD "PKIOperation"
  if operation ≠ "PKIOperation" then
    throw (.bad_request s!"POST only supports PKIOperation, not '{operation}'")
  else do
    let der ← pki_operation X state profile body
    pure (bytes_response CT_PKI_MESSAGE der)

/-! ## The ways out -/

/-- The request body is a verified enrolment message with an envelope, for this
profile and its CA. -/
structure Accepted (state : AppState) (profile : String) (body : Bytes) (rt : ProfileRuntime)
    (ca : CertificateAuthority) (parsed : ParsedRequest) (enveloped : EnvelopedData) : Prop where
  profile : state.profiles.lookup profile = some rt
  ca : state.cas.lookup rt.ca_id = some ca
  verified : Verify.parse_and_verify X body = .ok parsed
  message_type : parsed.message_type = .PkcsReq ∨ parsed.message_type = .RenewalReq
  enveloped : parsed.enveloped = some enveloped

/-- The ways a request leaves the handler, with what it has seen by then. -/
inductive Exit (state : AppState) (profile : String) (body : Bytes) :
    Trace → AppResult Bytes → Prop
  /-- Not an enrolment message: an error, and nothing was asked of anyone. -/
  | refused {e : AppError}
      (hrefused : ∀ rt ca parsed enveloped, ¬ Accepted X state profile body rt ca parsed enveloped) :
      Exit state profile body [] (.error e)
  /-- No CSR was recovered from the envelope. -/
  | unopened {rt : ProfileRuntime} {ca : CertificateAuthority} {parsed : ParsedRequest}
      {enveloped : EnvelopedData} {e : AppError} {tr : Trace} {r : AppResult Bytes}
      (hacc : Accepted X state profile body rt ca parsed enveloped)
      (hrecover : recover_csr X ca enveloped = .error e)
      (hreply : Returns (build_failure X ca parsed .BadMessageCheck) tr r) :
      Exit state profile body tr r
  /-- The validator turned the request down. -/
  | denied {rt : ProfileRuntime} {ca : CertificateAuthority} {parsed : ParsedRequest}
      {enveloped : EnvelopedData} {parsed_csr : ParsedCsr} {e : AppError} {notified : AppResult Unit}
      {recorded : AppResult Unit} {t₁ t₂ : Trace} {r : AppResult Bytes}
      (hacc : Accepted X state profile body rt ca parsed enveloped)
      (hrecover : recover_csr X ca enveloped = .ok parsed_csr)
      (hrecord : Returns (record rt parsed "failed" "PKCSReq") t₁ recorded)
      (hreply : Returns (build_failure X ca parsed .BadRequest) t₂ r) :
      Exit state profile body
        (⟨Op.validate rt.validator (validation_input parsed parsed_csr), .error e⟩ ::
          ⟨Op.on_failure rt.validator (validation_input parsed parsed_csr) e.to_string,
            notified⟩ :: (t₁ ++ t₂)) r
  /-- The CA could not issue. -/
  | unissued {rt : ProfileRuntime} {ca : CertificateAuthority} {parsed : ParsedRequest}
      {enveloped : EnvelopedData} {parsed_csr : ParsedCsr} {bytes : { b : Bytes // b.length = 16 }}
      {now : SystemTime} {e : AppError} {notified : AppResult Unit} {t : Trace}
      {r : AppResult Bytes}
      (hacc : Accepted X state profile body rt ca parsed enveloped)
      (hrecover : recover_csr X ca enveloped = .ok parsed_csr)
      (hleaf : ca.leaf X parsed_csr.req (issue_options state rt) (serial_of bytes) now = .error e)
      (hreply : Returns (build_failure X ca parsed .BadRequest) t r) :
      Exit state profile body
        (⟨Op.validate rt.validator (validation_input parsed parsed_csr), .ok ()⟩ ::
          ⟨Op.fill_bytes 16, bytes⟩ :: ⟨Op.now, now⟩ ::
          ⟨Op.on_failure rt.validator (validation_input parsed parsed_csr) e.to_string,
            notified⟩ :: t) r
  /-- The issued certificate could not be encoded. -/
  | unencoded {rt : ProfileRuntime} {ca : CertificateAuthority} {parsed : ParsedRequest}
      {enveloped : EnvelopedData} {parsed_csr : ParsedCsr} {bytes : { b : Bytes // b.length = 16 }}
      {now : SystemTime} {issued : Certificate} {e : String} {e' : AppError}
      (hacc : Accepted X state profile body rt ca parsed enveloped)
      (hrecover : recover_csr X ca enveloped = .ok parsed_csr)
      (hleaf : ca.leaf X parsed_csr.req (issue_options state rt) (serial_of bytes) now = .ok issued)
      (hder : X.certificate_to_der issued = .error e) :
      Exit state profile body
        [⟨Op.validate rt.validator (validation_input parsed parsed_csr), .ok ()⟩,
          ⟨Op.fill_bytes 16, bytes⟩, ⟨Op.now, now⟩] (.error e')
  /-- A certificate was issued, submitted to the database and reported; then the
  reply was built. -/
  | delivered {rt : ProfileRuntime} {ca : CertificateAuthority} {parsed : ParsedRequest}
      {enveloped : EnvelopedData} {parsed_csr : ParsedCsr} {bytes : { b : Bytes // b.length = 16 }}
      {now : SystemTime} {issued : Certificate} {issued_der : Bytes}
      {persisted notified : AppResult Unit} {t₁ t₂ : Trace} {r : AppResult Bytes}
      (hacc : Accepted X state profile body rt ca parsed enveloped)
      (hrecover : recover_csr X ca enveloped = .ok parsed_csr)
      (hleaf : ca.leaf X parsed_csr.req (issue_options state rt) (serial_of bytes) now = .ok issued)
      (hder : X.certificate_to_der issued = .ok issued_der)
      (hpersist : Returns (persist X rt ca parsed issued issued_der) t₁ persisted)
      (hreply : Returns (build_success X ca parsed issued) t₂ r) :
      Exit state profile body
        (⟨Op.validate rt.validator (validation_input parsed parsed_csr), .ok ()⟩ ::
          ⟨Op.fill_bytes 16, bytes⟩ :: ⟨Op.now, now⟩ ::
          (t₁ ++ ⟨Op.on_issued rt.validator (validation_input parsed parsed_csr)
            (issued_info X ca issued issued_der), notified⟩ :: t₂)) r

variable {X}

theorem check_message_type_eq_ok {t : MessageType} {u : Unit} :
    check_message_type t = .ok u ↔ t = .PkcsReq ∨ t = .RenewalReq := by
  rcases t with _ | _ | _ | _ | _ | _ <;> simp [check_message_type]

theorem enrol_exit {state : AppState} {profile : String} {body : Bytes} {rt : ProfileRuntime}
    {ca : CertificateAuthority} {parsed : ParsedRequest} {enveloped : EnvelopedData}
    {parsed_csr : ParsedCsr} {tr : Trace} {r : AppResult Bytes}
    (hacc : Accepted X state profile body rt ca parsed enveloped)
    (hrecover : recover_csr X ca enveloped = .ok parsed_csr)
    (h : Returns (enrol X state rt ca parsed parsed_csr) tr r) :
    Exit X state profile body tr r := by
  obtain ⟨validated, t, rfl, h₁⟩ :=
    (returns_attempt_event_bind ChallengeValidator.validate_returns).mp h
  rcases validated with e | ⟨⟩
  · obtain ⟨notified, t', rfl, h₂⟩ :=
      (returns_attempt_event_bind ChallengeValidator.on_failure_returns).mp h₁
    obtain ⟨recorded, t₁, t₂, rfl, h₃, h₄⟩ := returns_attempt_bind.mp h₂
    exact .denied hacc hrecover h₃ h₄
  · obtain ⟨issued, t₁, t₂, rfl, h₂, h₃⟩ := returns_attempt_bind.mp h₁
    obtain ⟨bytes, now, rfl, rfl⟩ := CertificateAuthority.issue_returns.mp h₂
    cases hleaf : ca.leaf X parsed_csr.req (issue_options state rt) (serial_of bytes) now with
    | error e =>
        rw [hleaf] at h₃
        obtain ⟨notified, t', rfl, h₄⟩ :=
          (returns_attempt_event_bind ChallengeValidator.on_failure_returns).mp h₃
        exact .unissued hacc hrecover hleaf h₄
    | ok issued =>
        rw [hleaf] at h₃
        rcases returns_lift_bind.mp h₃ with ⟨e, he, rfl, rfl⟩ | ⟨issued_der, hder, h₄⟩
        · cases hder : X.certificate_to_der issued with
          | error msg => exact .unencoded hacc hrecover hleaf hder
          | ok der =>
              rw [hder] at he
              cases he
        · obtain ⟨persisted, t₁, t₂, rfl, h₅, h₆⟩ := returns_attempt_bind.mp h₄
          obtain ⟨notified, t', rfl, h₇⟩ :=
            (returns_attempt_event_bind ChallengeValidator.on_issued_returns).mp h₆
          exact .delivered hacc hrecover hleaf (map_err_eq_ok.mp hder) h₅ h₇

/-- **No other way out.** -/
theorem pki_operation_exit {state : AppState} {profile : String} {body : Bytes} {tr : Trace}
    {r : AppResult Bytes} (h : Returns (pki_operation X state profile body) tr r) :
    Exit X state profile body tr r := by
  unfold pki_operation at h
  rcases returns_lift_bind.mp h with ⟨e, he, rfl, rfl⟩ | ⟨rt, hrt, h₁⟩
  · refine .refused fun rt ca parsed enveloped hacc => ?_
    rw [hacc.profile] at he
    cases he
  have hrt' := ok_or_else_eq_ok.mp hrt
  rcases returns_lift_bind.mp h₁ with ⟨e, he, rfl, rfl⟩ | ⟨ca, hca, h₂⟩
  · refine .refused fun rt' ca parsed enveloped hacc => ?_
    obtain rfl : rt' = rt := Option.some.inj (hacc.profile.symm.trans hrt')
    rw [hacc.ca] at he
    cases he
  have hca' := ok_or_else_eq_ok.mp hca
  rcases returns_lift_bind.mp h₂ with ⟨e, he, rfl, rfl⟩ | ⟨parsed, hparsed, h₃⟩
  · refine .refused fun rt' ca' parsed enveloped hacc => ?_
    rw [hacc.verified] at he
    cases he
  rcases returns_lift_bind.mp h₃ with ⟨e, he, rfl, rfl⟩ | ⟨u, htype, h₄⟩
  · refine .refused fun rt' ca' parsed' enveloped hacc => ?_
    obtain rfl : parsed' = parsed := Except.ok.inj (hacc.verified.symm.trans hparsed)
    rw [(check_message_type_eq_ok (u := ())).mpr hacc.message_type] at he
    cases he
  rcases returns_lift_bind.mp h₄ with ⟨e, he, rfl, rfl⟩ | ⟨enveloped, henv, h₅⟩
  · refine .refused fun rt' ca' parsed' enveloped hacc => ?_
    obtain rfl : parsed' = parsed := Except.ok.inj (hacc.verified.symm.trans hparsed)
    rw [hacc.enveloped] at he
    cases he
  have hacc : Accepted X state profile body rt ca parsed enveloped :=
    ⟨hrt', hca', hparsed, check_message_type_eq_ok.mp htype, ok_or_else_eq_ok.mp henv⟩
  cases hrecover : recover_csr X ca enveloped with
  | error e =>
      rw [hrecover] at h₅
      exact .unopened hacc hrecover h₅
  | ok parsed_csr =>
      rw [hrecover] at h₅
      exact enrol_exit hacc hrecover h₅

/-- An accepted request gets as far as the envelope. -/
theorem pki_operation_of_accepted {state : AppState} {profile : String} {body : Bytes}
    {rt : ProfileRuntime} {ca : CertificateAuthority} {parsed : ParsedRequest}
    {enveloped : EnvelopedData} (hacc : Accepted X state profile body rt ca parsed enveloped) :
    pki_operation X state profile body =
      match recover_csr X ca enveloped with
      | .error _ => build_failure X ca parsed .BadMessageCheck
      | .ok parsed_csr => enrol X state rt ca parsed parsed_csr := by
  unfold pki_operation
  rw [lift_bind_of_ok (ok_or_else_eq_ok.mpr hacc.profile),
    lift_bind_of_ok (ok_or_else_eq_ok.mpr hacc.ca), lift_bind_of_ok hacc.verified,
    lift_bind_of_ok ((check_message_type_eq_ok (u := ())).mpr hacc.message_type),
    lift_bind_of_ok (ok_or_else_eq_ok.mpr hacc.enveloped)]

/-- What a request is accepted as is determined. -/
theorem Accepted.unique {state : AppState} {profile : String} {body : Bytes}
    {rt rt' : ProfileRuntime} {ca ca' : CertificateAuthority} {parsed parsed' : ParsedRequest}
    {enveloped enveloped' : EnvelopedData}
    (h : Accepted X state profile body rt ca parsed enveloped)
    (h' : Accepted X state profile body rt' ca' parsed' enveloped') :
    rt' = rt ∧ ca' = ca ∧ parsed' = parsed ∧ enveloped' = enveloped := by
  obtain rfl := Option.some.inj (h.profile.symm.trans h'.profile)
  obtain rfl := Option.some.inj (h.ca.symm.trans h'.ca)
  obtain rfl := Except.ok.inj (h.verified.symm.trans h'.verified)
  obtain rfl := Option.some.inj (h.enveloped.symm.trans h'.enveloped)
  exact ⟨rfl, rfl, rfl, rfl⟩

/-! ## The stages of an exit -/

/-- The time in front of a task, as text. -/
theorem returns_now_utc_bind {α : Type} {f : String → Async α} {tr : Trace} {r : AppResult α} :
    Returns (now_utc >>= f) tr r ↔
      ∃ now tr', tr = ⟨Op.now, now⟩ :: tr' ∧ Returns (f (utc_text now)) tr' r := by
  have hassoc : (now_utc >>= f) = (system_time_now >>= fun now => f (utc_text now)) := rfl
  rw [hassoc, system_time_now, returns_request_bind]

/-- A FAILURE reply draws a nonce and is built over it. -/
theorem build_failure_returns {ca : CertificateAuthority} {parsed : ParsedRequest}
    {fail : FailInfo} {tr : Trace} {r : AppResult Bytes}
    (h : Returns (build_failure X ca parsed fail) tr r) :
    (∀ e ∈ tr, draws e = true) ∧
      (∀ der, r = .ok der → Printable parsed.transaction_id ∧ ∃ nonce,
        build_cert_rep X ca.signing_key ca.cert none (Attributes.echoing
          (Attributes.failure_head fail) parsed.transaction_id parsed.sender_nonce nonce)
          = .ok der) := by
  rcases returns_bind.mp h with ⟨e, rfl, h₁⟩ | ⟨attrs, t₁, t₂, rfl, h₁, h₂⟩
  · obtain ⟨hdraws, _⟩ := Attributes.failure_attrs_returns h₁
    exact ⟨Attributes.draws_of_drawsNonce hdraws, fun der hder => by cases hder⟩
  · obtain ⟨hdraws, ⟨e, he, _⟩ | ⟨hprint, _, nonce, _, hattrs⟩⟩ :=
      Attributes.failure_attrs_returns h₁
    · cases he
    · obtain ⟨rfl, rfl⟩ := returns_lift.mp h₂
      cases hattrs
      rw [List.append_nil]
      exact ⟨Attributes.draws_of_drawsNonce hdraws, fun der hder => ⟨hprint, nonce.val, hder⟩⟩

/-- A SUCCESS reply draws what its envelope and its nonce need, and is built around
an envelope for the requester. -/
theorem build_success_returns {ca : CertificateAuthority} {parsed : ParsedRequest}
    {issued : Certificate} {tr : Trace} {r : AppResult Bytes}
    (h : Returns (build_success X ca parsed issued) tr r) :
    (∀ e ∈ tr, draws e = true) ∧
      (∀ der, r = .ok der → Printable parsed.transaction_id ∧ ∃ certs env_der t nonce,
        certs_only X issued = .ok certs ∧
        Returns (Envelope.build_for X certs parsed.recipient) t (.ok env_der) ∧
        build_cert_rep X ca.signing_key ca.cert (some env_der) (Attributes.echoing
          Attributes.success_head parsed.transaction_id parsed.sender_nonce nonce) = .ok der) := by
  rcases returns_lift_bind.mp h with ⟨e, _, rfl, rfl⟩ | ⟨certs, hcerts, h₁⟩
  · exact ⟨fun e he => absurd he List.not_mem_nil, fun der hder => by cases hder⟩
  rcases returns_bind.mp h₁ with ⟨e, rfl, h₂⟩ | ⟨env_der, t₁, t₂, rfl, h₂, h₃⟩
  · exact ⟨Envelope.build_for_draws X h₂, fun der hder => by cases hder⟩
  have henv := Envelope.build_for_draws X h₂
  rcases returns_bind.mp h₃ with ⟨e, rfl, h₄⟩ | ⟨attrs, u₁, u₂, rfl, h₄, h₅⟩
  · have hattrs := Attributes.draws_of_drawsNonce (Attributes.success_attrs_returns h₄).1
    refine ⟨fun e he => ?_, fun der hder => by cases hder⟩
    exact (List.mem_append.mp he).elim (henv e) (hattrs e)
  · obtain ⟨hdraws, ⟨e, he, _⟩ | ⟨hprint, _, nonce, _, hattrs⟩⟩ :=
      Attributes.success_attrs_returns h₄
    · cases he
    · obtain ⟨rfl, rfl⟩ := returns_lift.mp h₅
      cases hattrs
      rw [List.append_nil]
      refine ⟨fun e he => ?_, fun der hder => ?_⟩
      · exact (List.mem_append.mp he).elim (henv e) (Attributes.draws_of_drawsNonce hdraws e)
      · exact ⟨hprint, certs, env_der, t₁, nonce.val, hcerts, h₂, hder⟩

/-- Persisting submits one row; only when the insert went through is the
transaction recorded. -/
theorem persist_returns {rt : ProfileRuntime} {ca : CertificateAuthority} {parsed : ParsedRequest}
    {issued : Certificate} {issued_der : Bytes} {tr : Trace} {r : AppResult Unit} :
    Returns (persist X rt ca parsed issued issued_der) tr r ↔
      ∃ now,
        (∃ e, tr = [⟨Op.now, now⟩, ⟨Op.db (.insert_issued
            (issued_row X rt ca parsed issued issued_der (utc_text now))), .error e⟩] ∧
          r = .error (.Database e)) ∨
        ∃ t recorded, tr = ⟨Op.now, now⟩ :: ⟨Op.db (.insert_issued
            (issued_row X rt ca parsed issued issued_der (utc_text now))), .ok ()⟩ :: t ∧
          Returns (record_ok rt parsed) t recorded ∧ r = .ok () := by
  constructor
  · intro h
    obtain ⟨now, t, rfl, h₁⟩ := returns_now_utc_bind.mp h
    refine ⟨now, ?_⟩
    rcases repo.returns_query_bind.mp h₁ with ⟨e, rfl, rfl⟩ | ⟨⟨⟩, t', rfl, h₂⟩
    · exact .inl ⟨e, rfl, rfl⟩
    · obtain ⟨recorded, t₁, t₂, rfl, h₃, h₄⟩ := returns_attempt_bind.mp h₂
      obtain ⟨rfl, rfl⟩ := returns_pure.mp h₄
      rw [List.append_nil]
      exact .inr ⟨t₁, recorded, rfl, h₃, rfl⟩
  · rintro ⟨now, ⟨e, rfl, rfl⟩ | ⟨t, recorded, rfl, h, rfl⟩⟩
    · exact returns_now_utc_bind.mpr ⟨now, _, rfl, repo.returns_query_bind.mpr (.inl ⟨e, rfl, rfl⟩)⟩
    · refine returns_now_utc_bind.mpr ⟨now, _, rfl, repo.returns_query_bind.mpr (.inr ⟨(), t, rfl, ?_⟩)⟩
      refine returns_attempt_bind.mpr ⟨recorded, t, [], ?_, h, returns_pure.mpr ⟨rfl, rfl⟩⟩
      rw [List.append_nil]

/-- Recording reads the clock and touches the transaction table only. -/
theorem record_returns {rt : ProfileRuntime} {parsed : ParsedRequest} {status message_type : String}
    {tr : Trace} {r : AppResult Unit} (h : Returns (record rt parsed status message_type) tr r) :
    ∃ now t, tr = ⟨Op.now, now⟩ :: t ∧
      Returns (repo.record_transaction parsed.transaction_id rt.name status message_type
        (utc_text now)) t r :=
  returns_now_utc_bind.mp h

theorem record_frame {rt : ProfileRuntime} {parsed : ParsedRequest} {status message_type : String}
    {tr : Trace} {r : AppResult Unit} (h : Returns (record rt parsed status message_type) tr r) :
    ∀ e ∈ tr, writes_issued e = false := by
  obtain ⟨now, t, rfl, h₁⟩ := record_returns h
  rw [List.forall_mem_cons]
  refine ⟨rfl, fun e he => ?_⟩
  obtain ⟨q, x, rfl, hq⟩ := repo.record_transaction_frame h₁ e he
  exact hq

/-- An event whose call went through: a statement that was executed, a notification
that was sent. -/
def succeeds : Event Op.Res → Prop
  | ⟨.db _, x⟩ => ∃ a, x = .ok a
  | ⟨.on_issued _ _ _, x⟩ => x = .ok ()
  | ⟨.on_failure _ _ _, x⟩ => x = .ok ()
  | _ => True

theorem succeeds_of_draws {e : Event Op.Res} (h : draws e = true) : succeeds e := by
  obtain ⟨o, r⟩ := e
  cases o with
  | fill_bytes n => trivial
  | thread_rng => trivial
  | _ => exact Bool.noConfusion h

/-- On an empty database a persisting stage goes through. -/
theorem persist_empty {rt : ProfileRuntime} {ca : CertificateAuthority} {parsed : ParsedRequest}
    {issued : Certificate} {issued_der : Bytes} (now : SystemTime) :
    ∃ t db', Returns (persist X rt ca parsed issued issued_der) t (.ok ()) ∧
      Steps (step False) Db.empty t db' ∧ (∀ e ∈ t, succeeds e) ∧
      ⟨Op.db (.insert_issued (issued_row X rt ca parsed issued issued_der (utc_text now))), .ok ()⟩
        ∈ t ∧
      db'.issued_certificate.rows
        = [issued_row X rt ca parsed issued issued_der (utc_text now)] := by
  obtain ⟨db₁, hexec, hrows, htxns⟩ :=
    exec_insert_issued_empty (show Db.empty.issued_certificate = Table.empty from rfl)
      (issued_row X rt ca parsed issued issued_der (utc_text now))
  obtain ⟨db₂, hexec', _, hissued⟩ := exec_insert_transaction_empty htxns
    ⟨parsed.transaction_id, rt.name, "issued", "PKCSReq", utc_text now⟩
  have hselect : db₁.exec (.select_transaction parsed.transaction_id) = (.ok none, db₁) := by
    simp only [Db.exec, htxns]
    rfl
  have hrecord : Returns (record_ok rt parsed) _ (.ok ()) := returns_now_utc_bind.mpr
    ⟨now, _, rfl, repo.record_transaction_returns.mpr (.inr (.inl ⟨.ok (), rfl, rfl⟩))⟩
  refine ⟨_, db₂, persist_returns.mpr ⟨now, .inr ⟨_, _, rfl, hrecord, rfl⟩⟩, ?_, ?_,
    List.mem_cons_of_mem _ List.mem_cons_self, ?_⟩
  · refine .cons rfl (.cons (.inl hexec.symm) (.cons rfl (.cons (.inl hselect.symm) ?_)))
    exact .cons (.inl hexec'.symm) (.nil _)
  · simp only [List.forall_mem_cons]
    exact ⟨trivial, ⟨_, rfl⟩, trivial, ⟨_, rfl⟩, ⟨_, rfl⟩, fun e he => absurd he List.not_mem_nil⟩
  · rw [hissued, hrows]

/-! ## Runs that deliver -/

/-- The stages of an issuing request put together: every way they can go is a run of
the handler. -/
theorem pki_operation_delivers {state : AppState} {profile : String} {body : Bytes}
    {rt : ProfileRuntime} {ca : CertificateAuthority} {parsed : ParsedRequest}
    {enveloped : EnvelopedData} {parsed_csr : ParsedCsr} {bytes : { b : Bytes // b.length = 16 }}
    {now : SystemTime} {issued : Certificate} {issued_der : Bytes}
    {persisted : AppResult Unit} (notified : AppResult Unit) {t₁ t₂ : Trace} {r : AppResult Bytes}
    (hacc : Accepted X state profile body rt ca parsed enveloped)
    (hrecover : recover_csr X ca enveloped = .ok parsed_csr)
    (hleaf : ca.leaf X parsed_csr.req (issue_options state rt) (serial_of bytes) now = .ok issued)
    (hder : X.certificate_to_der issued = .ok issued_der)
    (hpersist : Returns (persist X rt ca parsed issued issued_der) t₁ persisted)
    (hreply : Returns (build_success X ca parsed issued) t₂ r) :
    Returns (pki_operation X state profile body)
      (⟨Op.validate rt.validator (validation_input parsed parsed_csr), .ok ()⟩ ::
        ⟨Op.fill_bytes 16, bytes⟩ :: ⟨Op.now, now⟩ ::
        (t₁ ++ ⟨Op.on_issued rt.validator (validation_input parsed parsed_csr)
          (issued_info X ca issued issued_der), notified⟩ :: t₂)) r := by
  rw [pki_operation_of_accepted hacc, hrecover]
  refine (returns_attempt_event_bind ChallengeValidator.validate_returns).mpr ⟨.ok (), _, rfl, ?_⟩
  refine returns_attempt_bind.mpr ⟨.ok issued, [⟨Op.fill_bytes 16, bytes⟩, ⟨Op.now, now⟩], _, rfl,
    CertificateAuthority.issue_returns.mpr ⟨bytes, now, rfl, hleaf.symm⟩, ?_⟩
  refine returns_lift_bind.mpr (.inr ⟨issued_der, map_err_eq_ok.mpr hder, ?_⟩)
  refine returns_attempt_bind.mpr ⟨persisted, t₁, _, rfl, hpersist, ?_⟩
  exact (returns_attempt_event_bind ChallengeValidator.on_issued_returns).mpr
    ⟨notified, t₂, rfl, hreply⟩

/-- The world goes along with an issuing request that goes along with its persisting
stage. -/
theorem issuing_world {faulty : Prop} {v : ChallengeValidator} {input : ValidationInput}
    {bytes : { b : Bytes // b.length = 16 }} {now : SystemTime} {info : IssuedInfo}
    {notified : AppResult Unit} {t₁ t₂ : Trace} {db db' : Db} (hvalid : v.validates input (.ok ()))
    (hnotify : v.notifies notified) (h : Steps (step faulty) db t₁ db')
    (hdraws : ∀ e ∈ t₂, draws e = true) :
    Steps (step faulty) db (⟨Op.validate v input, .ok ()⟩ :: ⟨Op.fill_bytes 16, bytes⟩ ::
      ⟨Op.now, now⟩ :: (t₁ ++ ⟨Op.on_issued v input info, notified⟩ :: t₂)) db' := by
  refine .cons ⟨hvalid, rfl⟩ (.cons rfl (.cons rfl (steps_append.mpr ⟨db', h, ?_⟩)))
  exact .cons ⟨hnotify, rfl⟩ ((steps_draws hdraws).mpr rfl)

/-- The CA may issue this certificate to the request: the CSR comes out of the
envelope, and some serial and time make the certificate. -/
def Issuable (X : Crates) (state : AppState) (rt : ProfileRuntime) (ca : CertificateAuthority)
    (enveloped : EnvelopedData) (issued : Certificate) : Prop :=
  ∃ parsed_csr bytes now, recover_csr X ca enveloped = .ok parsed_csr ∧
    ca.leaf X parsed_csr.req (issue_options state rt) (serial_of bytes) now = .ok issued

/-- What a SUCCESS reply to the request takes: an issued certificate is encoded, the key of
the recipient wraps a content key, the key of the CA signs, and the reply has a length. -/
structure ReplySteps (X : Crates) (state : AppState) (rt : ProfileRuntime)
    (ca : CertificateAuthority) (parsed : ParsedRequest) (enveloped : EnvelopedData) : Prop where
  encode : ∀ issued, Issuable X state rt ca enveloped issued →
    (∃ issued_der, X.certificate_to_der issued = .ok issued_der) ∧
      ∃ ci, X.content_info_from_certificate issued = .ok ci
  wrap : ∀ seed cek, cek.length = 32 →
    ∃ key, X.rsa_encrypt parsed.recipient.public_key seed cek = .ok key
  signs : ∀ msg, ∃ s, X.rsa_try_sign ca.signing_key msg = .ok s
  fits : ∀ issued certs seed cek key iv, Issuable X state rt ca enveloped issued →
    certs_only X issued = .ok certs → cek.length = 32 → iv.length = 16 →
    X.rsa_encrypt parsed.recipient.public_key seed cek = .ok key →
      key.length ≤ Length.MAX ∧ (X.cbc_encrypt .Aes256 cek iv certs).length ≤ Length.MAX ∧
        ∀ env_der, Envelope.assemble X parsed.recipient key iv (X.cbc_encrypt .Aes256 cek iv certs)
          = .ok env_der → env_der.length ≤ Length.MAX

section Reply

variable {state : AppState} {rt : ProfileRuntime} {ca : CertificateAuthority}
  {parsed : ParsedRequest} {enveloped : EnvelopedData} {issued : Certificate}

/-- The certificate that is issued can be wrapped up. -/
theorem ReplySteps.certs_only (hsteps : ReplySteps X state rt ca parsed enveloped)
    (henc : X.EncodeLaw) (hissued : Issuable X state rt ca enveloped issued) :
    ∃ certs, Blapki.certs_only X issued = .ok certs := by
  obtain ⟨ci, hci⟩ := (hsteps.encode issued hissued).2
  obtain ⟨certs, hcerts⟩ := henc.content_info ci
  refine ⟨certs, ?_⟩
  simp only [Blapki.certs_only, bind_eq_ok, map_err_eq_ok]
  exact ⟨ci, hci, hcerts⟩

/-- The envelope of a SUCCESS can be built, and the `CertRep` around it. -/
theorem ReplySteps.assemble (hsteps : ReplySteps X state rt ca parsed enveloped)
    (hcms : X.CmsLaw) (henc : X.EncodeLaw) (hissued : Issuable X state rt ca enveloped issued)
    {certs cek key iv : Bytes} {seed : Seed} (hcerts : Blapki.certs_only X issued = .ok certs)
    (hcek : cek.length = 32) (hiv : iv.length = 16)
    (hkey : X.rsa_encrypt parsed.recipient.public_key seed cek = .ok key) :
    ∃ env_der, Envelope.assemble X parsed.recipient key iv (X.cbc_encrypt .Aes256 cek iv certs)
        = .ok env_der ∧
      ∀ nonce, ∃ der, build_cert_rep X ca.signing_key ca.cert (some env_der) (Attributes.echoing
        Attributes.success_head parsed.transaction_id parsed.sender_nonce nonce) = .ok der := by
  obtain ⟨hkeylen, hlen, henvlen⟩ := hsteps.fits issued certs seed cek key iv hissued hcerts hcek hiv
    hkey
  obtain ⟨env_der, hasm⟩ := Envelope.assemble_succeeds henc parsed.recipient iv hkeylen hlen
  refine ⟨env_der, hasm, fun nonce => ?_⟩
  obtain ⟨hdistinct, hscep⟩ :=
    Attributes.echoing_oids Attributes.success_head_oids parsed.transaction_id parsed.sender_nonce
      nonce
  apply build_cert_rep_succeeds hcms henc ca.cert (some env_der) hsteps.signs hscep hdistinct
  rintro c ⟨⟩
  exact henvlen env_der hasm

/-- A printable transactionID is answered whatever is drawn. -/
theorem exists_build_success (hcms : X.CmsLaw) (henc : X.EncodeLaw)
    (hsteps : ReplySteps X state rt ca parsed enveloped)
    (hissued : Issuable X state rt ca enveloped issued) (hprint : Printable parsed.transaction_id)
    (hlen : parsed.sender_nonce.length ≤ Length.MAX) (cek : { b : Bytes // b.length = 32 })
    (iv : { b : Bytes // b.length = 16 }) (seed : Seed)
    (nonce : { b : Bytes // b.length = Attributes.NONCE_LEN }) :
    ∃ der, Returns (build_success X ca parsed issued)
      [⟨Op.fill_bytes 32, cek⟩, ⟨Op.fill_bytes 16, iv⟩, ⟨Op.thread_rng, seed⟩,
        ⟨Op.fill_bytes Attributes.NONCE_LEN, nonce⟩] (.ok der) := by
  obtain ⟨certs, hcerts⟩ := hsteps.certs_only henc hissued
  obtain ⟨key, hwrap⟩ := hsteps.wrap seed cek.val cek.property
  obtain ⟨env_der, hasm, hbuild⟩ :=
    hsteps.assemble hcms henc hissued hcerts cek.property iv.property hwrap
  obtain ⟨der, hder⟩ := hbuild nonce.val
  refine ⟨der, returns_lift_bind.mpr (.inr ⟨certs, hcerts, ?_⟩)⟩
  refine returns_bind.mpr (.inr ⟨env_der, _, _, rfl,
    Envelope.build_for_of_assemble X hwrap hasm, ?_⟩)
  refine returns_bind.mpr (.inr ⟨_, _, [], rfl,
    Attributes.success_attrs_of_printable hprint hlen nonce, ?_⟩)
  exact returns_lift.mpr ⟨rfl, hder.symm⟩

/-- Another transactionID fails at the attributes of the reply. -/
theorem exists_build_success_error (hcms : X.CmsLaw) (henc : X.EncodeLaw)
    (hsteps : ReplySteps X state rt ca parsed enveloped)
    (hissued : Issuable X state rt ca enveloped issued)
    (hprint : ¬ Printable parsed.transaction_id) (cek : { b : Bytes // b.length = 32 })
    (iv : { b : Bytes // b.length = 16 }) (seed : Seed) :
    ∃ e, Returns (build_success X ca parsed issued)
      [⟨Op.fill_bytes 32, cek⟩, ⟨Op.fill_bytes 16, iv⟩, ⟨Op.thread_rng, seed⟩] (.error e) := by
  obtain ⟨certs, hcerts⟩ := hsteps.certs_only henc hissued
  obtain ⟨key, hwrap⟩ := hsteps.wrap seed cek.val cek.property
  obtain ⟨env_der, hasm, _⟩ :=
    hsteps.assemble hcms henc hissued hcerts cek.property iv.property hwrap
  obtain ⟨e, he⟩ := Attributes.success_attrs_of_not_printable parsed.sender_nonce hprint
  refine ⟨e, returns_lift_bind.mpr (.inr ⟨certs, hcerts, ?_⟩)⟩
  refine returns_bind.mpr (.inr ⟨env_der, _, [], rfl,
    Envelope.build_for_of_assemble X hwrap hasm, ?_⟩)
  exact returns_bind.mpr (.inl ⟨e, rfl, he⟩)

/-- There is no other run: a printable transactionID is answered. -/
theorem build_success_ok (hcms : X.CmsLaw) (henc : X.EncodeLaw)
    (hsteps : ReplySteps X state rt ca parsed enveloped)
    (hissued : Issuable X state rt ca enveloped issued) (hprint : Printable parsed.transaction_id)
    (hlen : parsed.sender_nonce.length ≤ Length.MAX) {tr : Trace} {r : AppResult Bytes}
    (h : Returns (build_success X ca parsed issued) tr r) : ∃ der, r = .ok der := by
  obtain ⟨certs, hcerts⟩ := hsteps.certs_only henc hissued
  have h' := h
  rw [build_success, lift_bind_of_ok hcerts] at h'
  rcases returns_bind.mp h' with ⟨e, _, h₁⟩ | ⟨env_der, t₁, t₂, _, h₁, h₂⟩
  · obtain ⟨cek, iv, seed, _, ⟨msg, hno, _⟩ | ⟨key, hwrap, hasm⟩⟩ := Envelope.build_for_returns X h₁
    · obtain ⟨key, hwrap⟩ := hsteps.wrap seed cek.val cek.property
      rw [hwrap] at hno
      cases hno
    · obtain ⟨env_der, hok, _⟩ :=
        hsteps.assemble hcms henc hissued hcerts cek.property iv.property hwrap
      rw [hok] at hasm
      cases hasm
  · obtain ⟨cek, iv, seed, _, ⟨_, _, hno⟩ | ⟨key, hwrap, hasm⟩⟩ := Envelope.build_for_returns X h₁
    · cases hno
    obtain ⟨env_der', hok, hbuild⟩ :=
      hsteps.assemble hcms henc hissued hcerts cek.property iv.property hwrap
    rw [hok] at hasm
    obtain rfl := Except.ok.inj hasm
    rcases returns_bind.mp h₂ with ⟨e, _, h₃⟩ | ⟨attrs, t₃, t₄, _, h₃, h₄⟩
    · obtain ⟨_, ⟨_, _, hno⟩ | ⟨_, _, _, _, hno⟩⟩ := Attributes.success_attrs_returns h₃
      · exact absurd ⟨hprint, hlen⟩ hno
      · cases hno
    · obtain ⟨_, ⟨_, hno, _⟩ | ⟨_, _, nonce, _, hattrs⟩⟩ := Attributes.success_attrs_returns h₃
      · cases hno
      · obtain ⟨der, hder⟩ := hbuild nonce.val
        rw [Except.ok.inj hattrs] at h₄
        exact ⟨der, (returns_lift.mp h₄).2.trans hder⟩

end Reply

end Scep

end Blapki
