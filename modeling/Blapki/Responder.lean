/-
The two ways a relying party learns of a revocation: the OCSP responder
(`http/ocsp.rs`) and the CRL (`http/crl.rs`).

Both read the same table, by different routes. OCSP looks every requested serial
up by its hex text; the CRL lists the revoked rows, decodes the hex text and
rebuilds the serial, and skips a row where that fails. The clock is read once for
a CRL, and more than once for an OCSP response.
-/
import Blapki.Scep

set_option autoImplicit false

namespace Blapki

open Effect

variable (X : Crates)

/-- `parse_rfc3339(..)` of a stored date, where there is one. -/
def stored_instant (revoked_at : Option String) : Option SystemTime :=
  revoked_at.bind X.parse_rfc3339

/-! ## OCSP -/

namespace Ocsp

def CT_OCSP : String := "application/ocsp-response"

/-- How long a response is valid before a client should re-check. -/
def NEXT_UPDATE_SECS : Nat := 3600

/-- A clock reading as an OCSP time, the end of time when it has none. -/
def ocsp_time (t : SystemTime) : DateTime :=
  match DateTime.from_system_time t with
  | .ok dt => dt
  | .error _ => DateTime.INFINITY

def ocsp_now : Async DateTime := do
  let now ← system_time_now
  pure (ocsp_time now)

/-- The stored date as an OCSP time: a date that does not parse, or does not fit,
gives none. -/
def stored_time (revoked_at : Option String) : Option DateTime :=
  (stored_instant X revoked_at).bind fun t => (DateTime.from_system_time t).toOption

/-- Without a usable date the revocation is reported as of now. -/
def to_cert_status (status : RevocationStatus) : Async CertStatus :=
  match status with
  | .Good => pure .Good
  | .Unknown => pure .Unknown
  | .Revoked revoked_at _ =>
      match stored_time X revoked_at with
      | some revocation_time => pure (.Revoked ⟨revocation_time, none⟩)
      | none => do
          let revocation_time ← ocsp_now
          pure (.Revoked ⟨revocation_time, none⟩)

/-- The look-up of one entry. -/
def single_response (ca_id : String) (this_update next_update : DateTime) (entry : OcspEntry) :
    Async SingleResponse := do
  let serial_hex := hex.encode entry.req_cert.serial_number.as_bytes
  let status ← repo.status_by_serial ca_id serial_hex
  let cert_status ← to_cert_status X status
  pure ⟨entry.req_cert, cert_status, this_update, some next_update⟩

/-- The loop of `build_response` over the entries. -/
def add_responses (ca_id : String) (this_update next_update : DateTime) :
    List OcspEntry → OcspResponseBuilder → Async OcspResponseBuilder
  | [], builder => pure builder
  | entry :: entries, builder => do
      let single ← single_response X ca_id this_update next_update entry
      add_responses ca_id this_update next_update entries (builder.with_single_response single)

/-- `with_extension(nonce)`, when the request has one. -/
def add_nonce (builder : OcspResponseBuilder) (nonce : Option Bytes) :
    AppResult OcspResponseBuilder :=
  match nonce with
  | none => pure builder
  | some nonce => map_err (X.ocsp_with_nonce builder nonce) fun e => .crypto s!"OCSP nonce: {e}"

def signer_for (ca : CertificateAuthority) : CaSigningKey := CaSigningKey.new ca.private_key

/-- The last steps of `build_response`: the nonce, the signature, the encoding. -/
def sign_response (ca : CertificateAuthority) (request : OcspRequest) (this_update : DateTime)
    (builder : OcspResponseBuilder) : AppResult Bytes := do
  let builder ← add_nonce X builder request.nonce
  let response ← map_err (X.ocsp_sign builder (signer_for ca) (some [ca.cert]) this_update)
    fun e => .crypto s!"signing OCSP response: {e}"
  map_err (X.ocsp_response_to_der response) fun e => .crypto s!"encode OCSP response: {e}"

def build_response (state : AppState) (ca_id : String) (req_der : Bytes) : Async Bytes := do
  let ca ← ok_or_else (state.cas.lookup ca_id) (.NotFound s!"unknown CA '{ca_id}'")
  let request ← map_err (X.ocsp_request_from_der req_der) fun e =>
    .bad_request s!"invalid OCSP request: {e}"
  let this_update ← ocsp_now
  let now ← system_time_now
  let next_update :=
    match DateTime.from_system_time (now.add_secs NEXT_UPDATE_SECS) with
    | .ok dt => dt
    | .error _ => this_update
  let builder ← add_responses X ca_id this_update next_update request.request_list
    (OcspResponseBuilder.new ca.cert.tbs_certificate.subject)
  sign_response X ca request this_update builder

def respond (state : AppState) (ca_id : String) (req_der : Bytes) : Async Response := do
  let der ← build_response X state ca_id req_der
  pure ⟨200, CT_OCSP, der⟩

/-- `POST /ocsp/{ca}`: request body is a DER OCSPRequest. -/
def ocsp_post (state : AppState) (ca : String) (body : Bytes) : Async Response :=
  respond X state ca body

/-- A plain text reply with status 400. -/
def bad_request_response (body : String) : Response :=
  ⟨400, "text/plain; charset=utf-8", body.as_bytes⟩

/-- `GET /ocsp/{ca}/{b64}`: base64-encoded OCSPRequest in the path. -/
def ocsp_get (state : AppState) (ca b64 : String) : Async Response :=
  match base64.decode b64.toList with
  | some der => respond X state ca der
  | none => pure (bad_request_response "invalid base64 OCSP request")

/-- `GET /ocsp/{ca}` with no request: not valid, but return a hint. -/
def ocsp_get_root : Response :=
  bad_request_response "OCSP: POST a request body or append the base64 request to the path"

end Ocsp

/-! ## CRL -/

namespace Crl

def CT_CRL : String := "application/pkix-crl"

def CRL_LIFETIME_SECS : Nat := 24 * 3600

/-- `UtcTime::from_date_time`: the two-digit years end with 2049. -/
def utc_time (dt : DateTime) : Except String DateTime :=
  if dt.year ≤ 2049 then .ok dt else .error "malformed ASN.1 DER value for UTCTime"

/-- RFC 5280: dates before 2050 use UTCTime, otherwise GeneralizedTime. -/
def to_time (st : SystemTime) : AppResult Time := do
  let dt ← map_err (DateTime.from_system_time st) fun e => .crypto s!"bad time: {e}"
  if dt.year < 2050 then do
    let ut ← map_err (utc_time dt) fun e => .crypto s!"utc time: {e}"
    pure (.UtcTime ut)
  else pure (.GeneralTime dt)

/-- The stored date, or the time of the CRL where it does not parse. Both are
converted either way. -/
def revocation_date (revoked_at : Option String) (now : SystemTime) : AppResult Time := do
  let stored ← (stored_instant X revoked_at).mapM to_time
  let fallback ← to_time now
  pure (stored.getD fallback)

/-- The entry of a row, or none when its serial is skipped. -/
def revoked_cert (row : RevokedEntry) (now : SystemTime) : AppResult (Option RevokedCert) :=
  match hex.decode row.serial with
  | none => pure none
  | some bytes =>
      match SerialNumber.new bytes with
      | .error _ => pure none
      | .ok serial_number => do
          let revocation_date ← revocation_date X row.revoked_at now
          pure (some ⟨serial_number, revocation_date⟩)

/-- The loop of `build_crl` over the revoked rows. -/
def revoked_certificates (now : SystemTime) : List RevokedEntry → AppResult (List RevokedCert)
  | [] => pure []
  | row :: rows => do
      let entry ← revoked_cert X row now
      let entries ← revoked_certificates now rows
      pure (entry.toList ++ entries)

/-- The last steps of `build_crl`: encode, sign, encode. -/
def sign_crl (signer : CaSigningKey) (tbs : TbsCertList) : AppResult Bytes := do
  let tbs_der ← map_err (X.tbs_cert_list_to_der tbs) fun e => .crypto s!"encode TBS CRL: {e}"
  let signature ← map_err (X.rsa_try_sign signer tbs_der) fun e => .crypto s!"sign CRL: {e}"
  let signature ← map_err (X.signature_to_bitstring signature) fun e =>
    .crypto s!"encode CRL signature: {e}"
  map_err (X.certificate_list_to_der ⟨tbs, tbs.signature, signature⟩) fun e =>
    .crypto s!"encode CRL: {e}"

/-- The list before it is signed. -/
def tbs_cert_list (ca : CertificateAuthority) (signature_algorithm : AlgorithmIdentifierOwned)
    (this_update next_update : Time) (revoked_certificates : List RevokedCert) : TbsCertList where
  signature := signature_algorithm
  issuer := ca.cert.tbs_certificate.subject
  this_update := this_update
  next_update := some next_update
  revoked_certificates := if revoked_certificates.isEmpty then none else some revoked_certificates

/-- `build_crl` from the listed rows and the time on. -/
def crl_at (ca : CertificateAuthority) (rows : List RevokedEntry) (now : SystemTime) :
    AppResult Bytes := do
  let revoked_certificates ← revoked_certificates X now rows
  let signer := CaSigningKey.new ca.private_key
  let signature_algorithm ← map_err (X.signature_algorithm_identifier signer) fun e =>
    .crypto s!"CRL signature alg: {e}"
  let this_update ← to_time now
  let next_update ← to_time (now.add_secs CRL_LIFETIME_SECS)
  sign_crl X signer
    (tbs_cert_list ca signature_algorithm this_update next_update revoked_certificates)

def build_crl (state : AppState) (ca_id : String) : Async Bytes := do
  let ca ← ok_or_else (state.cas.lookup ca_id) (.NotFound s!"unknown CA '{ca_id}'")
  let rows ← repo.list_revoked ca_id
  let now ← system_time_now
  crl_at X ca rows now

/-- `GET /crl/{ca}`: the current CRL in DER form. -/
def crl (state : AppState) (ca : String) : Async Response := do
  let der ← build_crl X state ca
  pure ⟨200, CT_CRL, der⟩

end Crl

/-! ## What is signed -/

/-- Signing and encoding with this key goes through. -/
structure Crates.SignsStatus (X : Crates) (key : CaSigningKey) : Prop where
  signature_algorithm : ∃ alg, X.signature_algorithm_identifier key = .ok alg
  tbs_cert_list : ∀ tbs, ∃ der, X.tbs_cert_list_to_der tbs = .ok der
  sign : ∀ m, ∃ s, X.rsa_try_sign key m = .ok s
  bitstring : ∀ s, ∃ b, X.signature_to_bitstring s = .ok b
  certificate_list : ∀ l, ∃ der, X.certificate_list_to_der l = .ok der
  with_nonce : ∀ b n, ∃ b', X.ocsp_with_nonce b n = .ok b'
  ocsp_sign : ∀ b certs t, ∃ r, X.ocsp_sign b key certs t = .ok r
  ocsp_response : ∀ r, ∃ der, X.ocsp_response_to_der r = .ok der

variable {X}

namespace Ocsp

/-- The loop answers the CertIDs of the entries, in order. -/
theorem add_responses_ids {ca_id : String} {this_update next_update : DateTime}
    {entries : List OcspEntry} {builder b : OcspResponseBuilder} {tr : Trace}
    (h : Returns (add_responses X ca_id this_update next_update entries builder) tr (.ok b)) :
    b.responses.map SingleResponse.cert_id
      = builder.responses.map SingleResponse.cert_id ++ entries.map OcspEntry.req_cert := by
  induction entries generalizing builder tr with
  | nil =>
      rw [Except.ok.inj (returns_pure.mp h).2, List.map_nil, List.append_nil]
  | cons entry entries ih =>
      obtain ⟨single, t₁, t₂, rfl, hhead, hrest⟩ := returns_bind_ok.mp h
      obtain ⟨_, _, t₃, rfl, _, h₁⟩ := returns_bind_ok.mp hhead
      obtain ⟨_, _, t₄, rfl, _, hpure⟩ := returns_bind_ok.mp h₁
      rw [ih hrest, Except.ok.inj (returns_pure.mp hpure).2,
        OcspResponseBuilder.with_single_response, List.map_append, List.append_assoc]
      rfl

/-- Responses under CertIDs of a request have serials that are read. -/
theorem readable_of_ids {request : OcspRequest} (hrequest : request.Readable)
    {singles : List SingleResponse}
    (hids : singles.map SingleResponse.cert_id = request.request_list.map OcspEntry.req_cert) :
    ∀ single ∈ singles, single.cert_id.serial_number.Readable := by
  intro single hsingle
  have hmem : single.cert_id ∈ request.request_list.map OcspEntry.req_cert := by
    rw [← hids]
    exact List.mem_map_of_mem hsingle
  obtain ⟨entry, hentry, hid⟩ := List.mem_map.mp hmem
  rw [← hid]
  exact hrequest entry hentry

/-- A response reads back with the responses of its builder, signed by the CA key. -/
theorem sign_response_eq_ok (hlaw : X.StatusLaw) {ca : CertificateAuthority} {request : OcspRequest}
    {this_update : DateTime} {builder : OcspResponseBuilder} {der : Bytes}
    (hread : ∀ single ∈ builder.responses, single.cert_id.serial_number.Readable)
    (h : sign_response X ca request this_update builder = .ok der) :
    ∃ response, X.ocsp_response_from_der der = .ok response ∧
      response.tbs_response_data.responses = builder.responses ∧
      ∃ data_der, X.response_data_to_der response.tbs_response_data = .ok data_der ∧
        X.rsa_try_sign (CaSigningKey.new ca.private_key) data_der = .ok response.signature := by
  simp only [sign_response, bind_eq_ok, map_err_eq_ok] at h
  obtain ⟨b, hb, response, hsign, hder⟩ := h
  have hresponses : b.responses = builder.responses := by
    rcases hnonce : request.nonce with _ | nonce
    · rw [hnonce] at hb
      rw [← Except.ok.inj hb]
    · rw [hnonce] at hb
      rw [hlaw.with_nonce _ _ _ (map_err_eq_ok.mp hb)]
  obtain ⟨htbs, data_der, hdata, hsig⟩ := hlaw.ocsp_sign _ _ _ _ _ hsign
  have hsingles : response.tbs_response_data.responses = builder.responses := by
    rw [htbs, ← hresponses]
  refine ⟨response, hlaw.ocsp_response _ _ hder ?_, hsingles, data_der, hdata, hsig⟩
  rwa [BasicOcspResponse.Readable, hsingles]

theorem exists_sign_response {ca : CertificateAuthority}
    (hsigns : X.SignsStatus (CaSigningKey.new ca.private_key)) (request : OcspRequest)
    (this_update : DateTime) (builder : OcspResponseBuilder) :
    ∃ der, sign_response X ca request this_update builder = .ok der := by
  obtain ⟨b, hb⟩ : ∃ b, add_nonce X builder request.nonce = .ok b := by
    rcases request.nonce with _ | nonce
    · exact ⟨builder, rfl⟩
    · obtain ⟨b, hb⟩ := hsigns.with_nonce builder nonce
      exact ⟨b, map_err_eq_ok.mpr hb⟩
  obtain ⟨response, hresponse⟩ := hsigns.ocsp_sign b (some [ca.cert]) this_update
  obtain ⟨der, hder⟩ := hsigns.ocsp_response response
  refine ⟨der, ?_⟩
  simp only [sign_response, bind_eq_ok, map_err_eq_ok]
  exact ⟨b, hb, response, hresponse, hder⟩

/-- What is returned was signed by the CA that was asked, with a response for every entry. -/
theorem build_response_signs {state : AppState} {ca_id : String} {ca : CertificateAuthority}
    (hca : state.cas.lookup ca_id = some ca) {req_der der : Bytes} {tr : Trace}
    (h : Returns (build_response X state ca_id req_der) tr (.ok der)) :
    ∃ request this_update builder, X.ocsp_request_from_der req_der = .ok request ∧
      builder.responses.map SingleResponse.cert_id
        = request.request_list.map OcspEntry.req_cert ∧
      sign_response X ca request this_update builder = .ok der := by
  rw [build_response, lift_bind_of_ok (ok_or_else_eq_ok.mpr hca)] at h
  obtain ⟨request, hrequest, h₁⟩ := returns_lift_bind_ok.mp h
  obtain ⟨this_update, _, _, _, _, h₂⟩ := returns_bind_ok.mp h₁
  obtain ⟨now, _, _, h₃⟩ := returns_request_bind.mp h₂
  obtain ⟨builder, _, _, _, hadd, h₄⟩ := returns_bind_ok.mp h₃
  exact ⟨request, this_update, builder, map_err_eq_ok.mp hrequest, add_responses_ids hadd,
    (returns_lift.mp h₄).2.symm⟩

end Ocsp

namespace Crl

/-- A CRL has the entries of its rows, signed by the CA key. -/
theorem crl_at_eq_ok (hlaw : X.StatusLaw) (hrsa : ∀ s b, X.signature_to_bitstring s = .ok b → b = s)
    {ca : CertificateAuthority} {rows : List RevokedEntry} {now : SystemTime} {der : Bytes}
    (h : crl_at X ca rows now = .ok der) :
    ∃ crl, X.Encodes der crl ∧ revoked_certificates X now rows = .ok crl.entries ∧
      ∃ tbs_der, X.tbs_cert_list_to_der crl.tbs_cert_list = .ok tbs_der ∧
        X.rsa_try_sign (CaSigningKey.new ca.private_key) tbs_der = .ok crl.signature := by
  simp only [crl_at, sign_crl, bind_eq_ok, map_err_eq_ok] at h
  obtain ⟨entries, hentries, alg, _, this_update, _, next_update, _, tbs_der, htbs, s, hs, b, hb,
    hder⟩ := h
  obtain rfl := hrsa _ _ hb
  refine ⟨_, ⟨hder, hlaw.certificate_list _ _ hder⟩, ?_, tbs_der, htbs, hs⟩
  rw [hentries]
  rcases entries with _ | ⟨entry, entries⟩ <;> rfl

/-- What is returned was signed by the CA that was asked. -/
theorem build_crl_signs {state : AppState} {ca_id : String} {ca : CertificateAuthority}
    (hca : state.cas.lookup ca_id = some ca) {der : Bytes} {tr : Trace}
    (h : Returns (build_crl X state ca_id) tr (.ok der)) :
    ∃ rows now, crl_at X ca rows now = .ok der := by
  rw [build_crl, lift_bind_of_ok (ok_or_else_eq_ok.mpr hca)] at h
  obtain ⟨rows, _, _, _, _, h₁⟩ := returns_bind_ok.mp h
  obtain ⟨now, _, _, h₂⟩ := returns_request_bind.mp h₁
  exact ⟨rows, now, (returns_lift.mp h₂).2.symm⟩

theorem exists_crl_at {ca : CertificateAuthority}
    (hsigns : X.SignsStatus (CaSigningKey.new ca.private_key)) {rows : List RevokedEntry}
    {now : SystemTime} {entries : List RevokedCert}
    (hentries : revoked_certificates X now rows = .ok entries) {this_update next_update : Time}
    (hthis : to_time now = .ok this_update)
    (hnext : to_time (now.add_secs CRL_LIFETIME_SECS) = .ok next_update) :
    ∃ der, crl_at X ca rows now = .ok der := by
  obtain ⟨alg, halg⟩ := hsigns.signature_algorithm
  simp only [crl_at, sign_crl, bind_eq_ok, map_err_eq_ok]
  obtain ⟨tbs_der, htbs⟩ :=
    hsigns.tbs_cert_list (tbs_cert_list ca alg this_update next_update entries)
  obtain ⟨s, hs⟩ := hsigns.sign tbs_der
  obtain ⟨b, hb⟩ := hsigns.bitstring s
  obtain ⟨der, hder⟩ :=
    hsigns.certificate_list ⟨tbs_cert_list ca alg this_update next_update entries, alg, b⟩
  exact ⟨der, entries, hentries, alg, halg, this_update, hthis, next_update, hnext, tbs_der, htbs,
    s, hs, b, hb, hder⟩

end Crl

end Blapki
