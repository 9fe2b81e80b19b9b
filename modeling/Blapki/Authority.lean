/-
A certificate authority (`ca/authority.rs`, `ca/csr.rs`, `ca/extensions.rs`,
`ca/serial.rs`): its certificate and signing key, and issuing a leaf certificate
from a CSR.

`CertificateAuthority` carries the one invariant the source keeps by
construction, that the signing key is made of the private key. That the
certificate belongs to that key is not among them: nothing in the source checks
it.

Issuing draws a serial and reads the clock, and is a computed step from there
on (`leaf`).
-/
import Blapki.Crypto

set_option autoImplicit false

namespace Blapki

open Effect

variable (X : Crates)

/-! ## Requests (`ca/csr.rs`) -/

/-- A parsed CSR plus the fields SCEP needs from it. -/
structure ParsedCsr where
  req : CertReq
  /-- The original DER (needed for the Intune validation call and audit trail). -/
  der : Bytes
  /-- The PKCS#9 challengePassword, if present. -/
  challenge_password : Option String
deriving DecidableEq, Repr

def extract_challenge_password (req : CertReq) : Option String := do
  let attr ← Attributes.find req.info.attributes Attributes.ID_CHALLENGE_PASSWORD
  let value ← attr.values.head?
  Attributes.decode_string value

namespace csr

/-- Parse a DER-encoded PKCS#10 CSR. -/
def parse (der : Bytes) : AppResult ParsedCsr := do
  let req ← map_err (X.cert_req_from_der der) fun e => .bad_request s!"invalid CSR: {e}"
  pure ⟨req, der, extract_challenge_password req⟩

theorem parse_eq_ok {der : Bytes} {c : ParsedCsr} :
    parse X der = .ok c ↔
      X.cert_req_from_der der = .ok c.req ∧ c.der = der ∧
        c.challenge_password = extract_challenge_password c.req := by
  simp only [parse, bind_eq_ok, map_err_eq_ok, pure, Except.pure, Except.ok.injEq]
  constructor
  · rintro ⟨req, hreq, rfl⟩
    exact ⟨hreq, rfl, rfl⟩
  · rintro ⟨hreq, rfl, hpw⟩
    exact ⟨c.req, hreq, by rw [← hpw]⟩

end csr

/-! ## Serial numbers (`ca/serial.rs`) -/

/-- Clear the top bit so the DER INTEGER is unambiguously positive, and avoid a
zero leading byte. -/
def clear_top_bit : Bytes → Bytes
  | b :: bs => (if b &&& 0x7f = 0 then 0x01 else b &&& 0x7f) :: bs
  | [] => []

/-- The first octet ends up between 1 and 127. -/
theorem clear_top_bit_head (b : UInt8) :
    let c := if b &&& 0x7f = 0 then 0x01 else b &&& 0x7f
    0 < c.toNat ∧ c.toNat < 128 := by
  intro c
  have hmask : (b &&& 0x7f).toNat < 128 := by
    rw [UInt8.toNat_and]
    have hle : b.toNat &&& (0x7f : UInt8).toNat ≤ (0x7f : UInt8).toNat := Nat.and_le_right
    have h127 : (0x7f : UInt8).toNat = 127 := rfl
    omega
  show 0 < (if b &&& 0x7f = 0 then (0x01 : UInt8) else b &&& 0x7f).toNat ∧ _ < 128
  -- zero would be stripped as a leading zero, so the code makes it one
  by_cases h : b &&& 0x7f = 0
  · rw [show c = 0x01 from if_pos h, if_pos h]
    decide
  · rw [show c = b &&& 0x7f from if_neg h, if_neg h]
    refine ⟨?_, hmask⟩
    have hne : (b &&& 0x7f).toNat ≠ 0 := fun h0 => h (UInt8.toNat_inj.mp h0)
    omega

/-- A 16-byte serial is always valid: `SerialNumber::new` keeps its octets. -/
theorem new_clear_top_bit {bytes : Bytes} (h : bytes.length = 16) :
    SerialNumber.new (clear_top_bit bytes) = .ok ⟨clear_top_bit bytes⟩ := by
  obtain ⟨b, bs, rfl⟩ : ∃ b bs, bytes = b :: bs := by
    rcases bytes with _ | ⟨b, bs⟩
    · exact absurd h (by decide)
    · exact ⟨b, bs, rfl⟩
  obtain ⟨hpos, hlt⟩ := clear_top_bit_head b
  simp only [clear_top_bit]
  generalize (if b &&& 0x7f = 0 then (0x01 : UInt8) else b &&& 0x7f) = c at hpos hlt ⊢
  have hne : c ≠ 0 := by
    rintro rfl
    exact absurd hpos (by decide)
  -- nothing is stripped, no sign octet is added, and 16 octets are short enough
  have hstrip : SerialNumber.strip_leading_zeroes (c :: bs) = c :: bs := by
    unfold SerialNumber.strip_leading_zeroes
    split
    · rename_i heq
      exact absurd (List.cons.inj heq).1 hne
    · rfl
  have hsign : SerialNumber.with_sign (c :: bs) = c :: bs := by
    rw [SerialNumber.with_sign, if_neg (by omega)]
  have hlen : (c :: bs).length ≤ SerialNumber.MAX_LEN := by
    rw [List.length_cons] at h ⊢
    have hmax : SerialNumber.MAX_LEN = 20 := rfl
    omega
  rw [SerialNumber.new, hstrip, hsign]
  exact if_pos hlen

/-- `SerialNumber::new(&bytes).expect("16-byte serial is always valid")`. -/
def serial_of (bytes : { b : Bytes // b.length = 16 }) : SerialNumber :=
  match h : SerialNumber.new (clear_top_bit bytes.val) with
  | .ok serial => serial
  | .error _ => nomatch (new_clear_top_bit bytes.property).symm.trans h

theorem serial_of_as_bytes (bytes : { b : Bytes // b.length = 16 }) :
    (serial_of bytes).as_bytes = clear_top_bit bytes.val := by
  unfold serial_of
  split
  · rename_i serial h
    rw [new_clear_top_bit bytes.property] at h
    cases h
    rfl
  · rename_i e h
    exact nomatch (new_clear_top_bit bytes.property).symm.trans h

/-- A drawn serial is rebuilt as it was. -/
theorem new_serial_of (bytes : { b : Bytes // b.length = 16 }) :
    SerialNumber.new (serial_of bytes).as_bytes = .ok (serial_of bytes) := by
  have hnew := new_clear_top_bit bytes.property
  rw [← serial_of_as_bytes] at hnew
  exact hnew

/-- A drawn serial reads back. -/
theorem readable_serial_of (bytes : { b : Bytes // b.length = 16 }) :
    (serial_of bytes).Readable := by
  apply (SerialNumber.new_readable (new_serial_of bytes)).mpr
  intro hno
  obtain ⟨b, hlen⟩ := bytes
  rw [serial_of_as_bytes] at hno
  cases b with
  | nil => exact absurd hlen (by decide)
  | cons x b => cases hno

/-- A serial is sixteen octets, the first between 1 and 127. -/
theorem serial_of_positive (bytes : { b : Bytes // b.length = 16 }) :
    ∃ b bs, (serial_of bytes).as_bytes = b :: bs ∧ 0 < b.toNat ∧ b.toNat < 128 ∧
      bs.length = 15 := by
  rw [serial_of_as_bytes]
  obtain ⟨bytes, hlen⟩ := bytes
  rcases bytes with _ | ⟨b, bs⟩
  · exact absurd hlen (by decide)
  · obtain ⟨hpos, hlt⟩ := clear_top_bit_head b
    refine ⟨_, bs, rfl, hpos, hlt, ?_⟩
    rw [List.length_cons] at hlen
    omega

/-- Generate a random positive 16-byte serial number. -/
def random_serial : Async SerialNumber := do
  let bytes ← fill_bytes 16
  pure (serial_of bytes)

/-! ## Extensions (`ca/extensions.rs`) -/

namespace extensions

def ID_CE_SUBJECT_ALT_NAME : ObjectIdentifier := ⟨[2, 5, 29, 17]⟩
def ID_AD_OCSP : ObjectIdentifier := ⟨[1, 3, 6, 1, 5, 5, 7, 48, 1]⟩
def ID_EXTENSION_REQ : ObjectIdentifier := ⟨[1, 2, 840, 113549, 1, 9, 14]⟩
def ID_KP_SERVER_AUTH : ObjectIdentifier := ⟨[1, 3, 6, 1, 5, 5, 7, 3, 1]⟩
def ID_KP_CLIENT_AUTH : ObjectIdentifier := ⟨[1, 3, 6, 1, 5, 5, 7, 3, 2]⟩
def ID_KP_EMAIL_PROTECTION : ObjectIdentifier := ⟨[1, 3, 6, 1, 5, 5, 7, 3, 4]⟩

/-- The flag of a configured usage name. -/
def usage_flag (name : String) : AppResult KeyUsages :=
  match name with
  | "digitalSignature" => .ok .DigitalSignature
  | "nonRepudiation" | "contentCommitment" => .ok .NonRepudiation
  | "keyEncipherment" => .ok .KeyEncipherment
  | "dataEncipherment" => .ok .DataEncipherment
  | "keyAgreement" => .ok .KeyAgreement
  | "keyCertSign" => .ok .KeyCertSign
  | "cRLSign" | "crlSign" => .ok .CRLSign
  | other => .error (.Config s!"unknown key usage '{other}'")

/-- Build a `KeyUsage` extension from the configured usage names. -/
def key_usage (names : List String) : AppResult (Finset KeyUsages) :=
  names.foldlM (fun flags name => do
    let flag ← usage_flag name
    pure (insert flag flags)) ∅

/-- The OID of a configured EKU name or OID. -/
def eku_oid (name : String) : AppResult ObjectIdentifier :=
  match name with
  | "clientAuth" => .ok ID_KP_CLIENT_AUTH
  | "serverAuth" => .ok ID_KP_SERVER_AUTH
  | "emailProtection" => .ok ID_KP_EMAIL_PROTECTION
  | other => map_err (X.object_identifier_new other) fun _ => .Config s!"invalid EKU '{other}'"

/-- Build an `ExtendedKeyUsage` extension from configured EKU names or OIDs. -/
def extended_key_usage (names : List String) : AppResult (List ObjectIdentifier) :=
  names.mapM (eku_oid X)

/-- The first SubjectAltName among the extensions of one attribute. -/
def find_san : List Extension → AppResult (Option (List GeneralName))
  | [] => pure none
  | ext :: exts =>
      if ext.extn_id = ID_CE_SUBJECT_ALT_NAME then do
        let san ← map_err (X.subject_alt_name_from_der ext.extn_value) fun e =>
          .bad_request s!"bad SAN in CSR: {e}"
        pure (some san)
      else find_san exts

/-- The loop of `requested_san` over the attributes. -/
def requested_san_in : List Attribute → AppResult (Option (List GeneralName))
  | [] => pure none
  | attr :: attrs =>
      if attr.oid ≠ ID_EXTENSION_REQ then requested_san_in attrs
      else
        match attr.values.head? with
        | none => requested_san_in attrs
        | some value => do
            let exts ← map_err (X.extensions_decode value) fun e =>
              .bad_request s!"bad extensionRequest: {e}"
            let san ← find_san X exts
            match san with
            | some san => pure (some san)
            | none => requested_san_in attrs

/-- Extract the SubjectAltName requested in a CSR's extensionRequest, if any. -/
def requested_san (csr : CertReq) : AppResult (Option (List GeneralName)) :=
  requested_san_in X csr.info.attributes

/-- `Ia5String::new`: seven-bit octets. -/
def ia5_string_new (s : String) : Except String String :=
  if s.as_bytes.all (fun b => b.toNat < 128) then .ok s else .error "malformed ASN.1 DER value for IA5String"

/-- Build an Authority Information Access extension pointing at an OCSP responder. -/
def authority_info_access (ocsp_url : String) : AppResult ExtensionValue := do
  let uri ← map_err (ia5_string_new ocsp_url) fun e => .Config s!"invalid OCSP URL: {e}"
  pure (.AuthorityInfoAccess [(ID_AD_OCSP, .UniformResourceIdentifier uri)])

/-- Build a CRL Distribution Points extension pointing at a CRL URL. -/
def crl_distribution_points (crl_url : String) : AppResult ExtensionValue := do
  let uri ← map_err (ia5_string_new crl_url) fun e => .Config s!"invalid CRL URL: {e}"
  pure (.CrlDistributionPoints [[.UniformResourceIdentifier uri]])

end extensions

/-! ## The authority -/

/-- Parameters controlling how a leaf certificate is issued. -/
structure IssueOptions where
  validity_days : UInt32
  key_usage : List String
  extended_key_usage : List String
  /-- OCSP responder URL for the AIA extension. -/
  ocsp_url : Option String
  /-- CRL URL for the CRL distribution points extension. -/
  crl_url : Option String
deriving DecidableEq

/-- A loaded certificate authority. -/
structure CertificateAuthority where
  id : String
  cert : Certificate
  /-- RSA + SHA-256 signer used for both certificates and CMS. -/
  signing_key : CaSigningKey
  /-- Raw private key, used to decrypt SCEP `EnvelopedData`. -/
  private_key : RsaPrivateKey
  signing_key_eq : signing_key = CaSigningKey.new private_key
deriving DecidableEq

/-- How an error of the builder of `x509-cert` is reported. -/
def bld_err (e : String) : AppError := .crypto s!"certificate builder error: {e}"

namespace CertificateAuthority

/-- Construct from an existing certificate and private key. -/
def new (id : String) (cert : Certificate) (private_key : RsaPrivateKey) :
    CertificateAuthority where
  id := id
  cert := cert
  signing_key := CaSigningKey.new private_key
  private_key := private_key
  signing_key_eq := rfl

/-- The CA's subject DN (the issuer DN of certificates it issues). -/
def subject (ca : CertificateAuthority) : Name := ca.cert.tbs_certificate.subject

/-- Generate a fresh self-signed root CA. Used for tests and for bootstrapping a
dev instance. -/
def generate_self_signed (id common_name : String) (bits : Nat) : Async CertificateAuthority := do
  let seed ← thread_rng
  let private_key ← map_err (X.rsa_private_key_new seed bits) fun e =>
    .crypto s!"RSA keygen failed: {e}"
  let signing_key := CaSigningKey.new private_key
  let subject ← map_err (X.name_from_str s!"CN={common_name}") fun e =>
    .Config s!"invalid CA subject: {e}"
  let serial ← random_serial
  let now ← system_time_now
  let validity ← map_err (X.validity_from_now now (3650 * 86400)) der_err
  let spki ← map_err (X.spki_from_key signing_key.verifying_key) fun e =>
    .crypto s!"SPKI encode: {e}"
  let builder ← map_err
    (X.certificate_builder_new .Root serial validity subject spki signing_key) bld_err
  let cert ← map_err (X.certificate_builder_build builder) bld_err
  pure (new id cert private_key)

/-- `generate_self_signed` from what is drawn and the time on. -/
def self_signed (id common_name : String) (bits : Nat) (seed : Seed) (serial : SerialNumber)
    (now : SystemTime) : AppResult CertificateAuthority := do
  let private_key ← map_err (X.rsa_private_key_new seed bits) fun e =>
    .crypto s!"RSA keygen failed: {e}"
  let signing_key := CaSigningKey.new private_key
  let subject ← map_err (X.name_from_str s!"CN={common_name}") fun e =>
    .Config s!"invalid CA subject: {e}"
  let validity ← map_err (X.validity_from_now now (3650 * 86400)) der_err
  let spki ← map_err (X.spki_from_key signing_key.verifying_key) fun e =>
    .crypto s!"SPKI encode: {e}"
  let builder ← map_err
    (X.certificate_builder_new .Root serial validity subject spki signing_key) bld_err
  let cert ← map_err (X.certificate_builder_build builder) bld_err
  pure (new id cert private_key)

/-- `add_extension`, when there is something to add. -/
def add_some (b : CertificateBuilder) (e : Option ExtensionValue) : AppResult CertificateBuilder :=
  match e with
  | none => pure b
  | some e => map_err (X.add_extension b e) bld_err

/-- The extensions of a leaf, in order. -/
def add_leaf_extensions (csr : CertReq) (opts : IssueOptions) (ski : Bytes) (aki : Option Bytes)
    (b : CertificateBuilder) : AppResult CertificateBuilder := do
  let b ← add_some X b (some (.BasicConstraints false none))
  let usage ← extensions.key_usage opts.key_usage
  let b ← add_some X b (some (.KeyUsage usage))
  let eku ← extensions.extended_key_usage X opts.extended_key_usage
  let b ← add_some X b (if eku.isEmpty then none else some (.ExtendedKeyUsage eku))
  let b ← add_some X b (some (.SubjectKeyIdentifier ski))
  let b ← add_some X b (some (.AuthorityKeyIdentifier aki))
  let san ← extensions.requested_san X csr
  let b ← add_some X b (san.map .SubjectAltName)
  let aia ← opts.ocsp_url.mapM extensions.authority_info_access
  let b ← add_some X b aia
  let cdp ← opts.crl_url.mapM extensions.crl_distribution_points
  add_some X b cdp

/-- `issue` from the drawn serial and the time on: nothing else is asked of the
environment. -/
def leaf (ca : CertificateAuthority) (csr : CertReq) (opts : IssueOptions) (serial : SerialNumber)
    (now : SystemTime) : AppResult Certificate := do
  let validity ← map_err (X.validity_from_now now (opts.validity_days.toNat * 86400)) der_err
  let subject := csr.info.subject
  let spki := csr.info.public_key
  let ski ← map_err (X.subject_key_identifier spki) fun e => .crypto s!"subject key identifier: {e}"
  let aki ← map_err (X.authority_key_identifier ca.cert.tbs_certificate.subject_public_key_info)
    fun e => .crypto s!"authority key identifier: {e}"
  let builder ← map_err
    (X.certificate_builder_new (.Manual (some ca.subject)) serial validity subject spki
      ca.signing_key) bld_err
  let builder ← add_leaf_extensions X csr opts ski aki builder
  map_err (X.certificate_builder_build builder) bld_err

/-- Issue a leaf certificate from a parsed CSR. -/
def issue (ca : CertificateAuthority) (csr : CertReq) (opts : IssueOptions) :
    Async Certificate := do
  let serial ← random_serial
  let now ← system_time_now
  leaf X ca csr opts serial now

/-! ## What is issued -/

variable {X}

/-- A builder without its extensions. -/
private def bare (b : CertificateBuilder) : CertificateBuilder := { b with extensions := [] }

/-- Adding extensions changes nothing else of the builder. -/
private theorem bare_add_some {b b' : CertificateBuilder} {e : Option ExtensionValue}
    (h : add_some X b e = .ok b') : bare b' = bare b := by
  rcases e with _ | e
  · simp only [add_some, pure, Except.pure, Except.ok.injEq] at h
    rw [h]
  · simp only [add_some, Crates.add_extension, map_err_eq_ok, bind_eq_ok, pure, Except.pure,
      Except.ok.injEq] at h
    obtain ⟨ext, _, rfl⟩ := h
    rfl

private theorem bare_add_leaf_extensions {csr : CertReq} {opts : IssueOptions} {ski : Bytes}
    {aki : Option Bytes} {b b' : CertificateBuilder}
    (h : add_leaf_extensions X csr opts ski aki b = .ok b') : bare b' = bare b := by
  simp only [add_leaf_extensions, bind_eq_ok] at h
  obtain ⟨b₁, h₁, _, _, b₂, h₂, _, _, b₃, h₃, b₄, h₄, b₅, h₅, _, _, b₆, h₆, _, _, b₇, h₇, _, _,
    h₈⟩ := h
  calc bare b' = bare b₇ := bare_add_some h₈
    _ = bare b₆ := bare_add_some h₇
    _ = bare b₅ := bare_add_some h₆
    _ = bare b₄ := bare_add_some h₅
    _ = bare b₃ := bare_add_some h₄
    _ = bare b₂ := bare_add_some h₃
    _ = bare b₁ := bare_add_some h₂
    _ = bare b := bare_add_some h₁

/-- A certificate that carries what the CSR asks for and names the CA, signed by
the CA key. -/
structure IssuedFrom (X : Crates) (ca : CertificateAuthority) (csr : CertReq)
    (serial : SerialNumber) (cert : Certificate) : Prop where
  serial_number : cert.tbs_certificate.serial_number = serial
  issuer : cert.tbs_certificate.issuer = ca.subject
  subject : cert.tbs_certificate.subject = csr.info.subject
  public_key : cert.tbs_certificate.subject_public_key_info = csr.info.public_key
  signature : ∃ der, X.tbs_certificate_to_der cert.tbs_certificate = .ok der ∧
    X.rsa_try_sign ca.signing_key der = .ok cert.signature

theorem leaf_issued_from (hx509 : X.X509Law) {ca : CertificateAuthority} {csr : CertReq}
    {opts : IssueOptions} {serial : SerialNumber} {now : SystemTime} {cert : Certificate}
    (h : leaf X ca csr opts serial now = .ok cert) : IssuedFrom X ca csr serial cert := by
  simp only [leaf, bind_eq_ok, map_err_eq_ok] at h
  obtain ⟨_, _, _, _, _, _, b, hb, b', hb', hcert⟩ := h
  obtain ⟨hprofile, hserial, hsubject, hspki, hsigner⟩ := hx509.builder_new _ _ _ _ _ _ _ hb
  have hbare := bare_add_leaf_extensions hb'
  -- the extensions leave every other field of the builder alone
  have hprofile' : b'.profile = .Manual (some ca.subject) :=
    (congrArg CertificateBuilder.profile hbare).trans hprofile
  have hserial' : b'.serial_number = serial :=
    (congrArg CertificateBuilder.serial_number hbare).trans hserial
  have hsubject' : b'.subject = csr.info.subject :=
    (congrArg CertificateBuilder.subject hbare).trans hsubject
  have hspki' : b'.subject_public_key_info = csr.info.public_key :=
    (congrArg CertificateBuilder.subject_public_key_info hbare).trans hspki
  have hsigner' : b'.cert_signer = ca.signing_key :=
    (congrArg CertificateBuilder.cert_signer hbare).trans hsigner
  obtain ⟨hser, hsubj, hpk, hiss⟩ := hx509.build _ _ hcert
  obtain ⟨der, hder, hsig⟩ := hx509.build_signs _ _ hcert
  exact ⟨hser.trans hserial', hiss _ hprofile', hsubj.trans hsubject', hpk.trans hspki', der, hder,
    hsigner' ▸ hsig⟩

/-- The validity of a leaf runs from now on for the configured number of days. -/
theorem leaf_validity (hvalidity : X.ValidityLaw) {ca : CertificateAuthority} {csr : CertReq}
    {opts : IssueOptions} {serial : SerialNumber} {now : SystemTime} {cert : Certificate}
    (h : leaf X ca csr opts serial now = .ok cert) :
    DateTime.from_system_time now = .ok cert.tbs_certificate.validity.not_before.to_date_time ∧
      DateTime.from_system_time (now.add_secs (opts.validity_days.toNat * 86400))
        = .ok cert.tbs_certificate.validity.not_after.to_date_time := by
  simp only [leaf, bind_eq_ok, map_err_eq_ok] at h
  obtain ⟨validity, hfrom_now, _, _, _, _, b, hb, b', hb', hcert⟩ := h
  have hkept := congrArg CertificateBuilder.validity (bare_add_leaf_extensions hb')
  change b'.validity = b.validity at hkept
  obtain ⟨hbefore, hafter⟩ := hvalidity.build _ _ hcert
  obtain ⟨hbefore', hafter'⟩ := hvalidity.builder_new _ _ _ _ _ _ _ hb
  rw [hbefore, hafter, hkept, hbefore', hafter']
  exact hvalidity.from_now _ _ _ hfrom_now

/-- The runs of `issue`: a serial, the time, and the computed rest. -/
theorem issue_returns {ca : CertificateAuthority} {csr : CertReq} {opts : IssueOptions}
    {tr : Trace} {r : AppResult Certificate} :
    Returns (issue X ca csr opts) tr r ↔
      ∃ (bytes : { b : Bytes // b.length = 16 }) (now : SystemTime),
        tr = [⟨Op.fill_bytes 16, bytes⟩, ⟨Op.now, now⟩] ∧
          r = leaf X ca csr opts (serial_of bytes) now := by
  constructor
  · intro h
    obtain ⟨bytes, tr', rfl, h₁⟩ := returns_request_bind.mp h
    obtain ⟨now, tr'', rfl, h₂⟩ := returns_request_bind.mp h₁
    obtain ⟨rfl, rfl⟩ := returns_lift.mp h₂
    exact ⟨bytes, now, rfl, rfl⟩
  · rintro ⟨bytes, now, rfl, rfl⟩
    exact returns_request_bind.mpr ⟨bytes, _, rfl, returns_request_bind.mpr ⟨now, _, rfl,
      returns_lift.mpr ⟨rfl, rfl⟩⟩⟩

/-- A CA that is generated asks for a seed, a serial and the time. -/
theorem generate_self_signed_asks {id common_name : String} {bits : Nat} {tr : Trace}
    {ca : CertificateAuthority}
    (h : Returns (generate_self_signed X id common_name bits) tr (.ok ca)) :
    ∃ (seed : Seed) (bytes : { b : Bytes // b.length = 16 }) (now : SystemTime),
      tr = [⟨Op.thread_rng, seed⟩, ⟨Op.fill_bytes 16, bytes⟩, ⟨Op.now, now⟩] ∧
        self_signed X id common_name bits seed (serial_of bytes) now = .ok ca := by
  obtain ⟨seed, _, rfl, h₁⟩ := returns_request_bind.mp h
  obtain ⟨key, hkey, h₂⟩ := returns_lift_bind_ok.mp h₁
  obtain ⟨subject, hsubject, h₃⟩ := returns_lift_bind_ok.mp h₂
  obtain ⟨serial, _, _, rfl, hserial, h₄⟩ := returns_bind_ok.mp h₃
  obtain ⟨bytes, _, rfl, hpure⟩ := returns_request_bind.mp hserial
  obtain ⟨rfl, heq⟩ := returns_pure.mp hpure
  obtain rfl := Except.ok.inj heq
  obtain ⟨now, _, rfl, h₅⟩ := returns_request_bind.mp h₄
  obtain ⟨validity, hvalidity, h₆⟩ := returns_lift_bind_ok.mp h₅
  obtain ⟨spki, hspki, h₇⟩ := returns_lift_bind_ok.mp h₆
  obtain ⟨builder, hbuilder, h₈⟩ := returns_lift_bind_ok.mp h₇
  obtain ⟨cert, hcert, h₉⟩ := returns_lift_bind_ok.mp h₈
  obtain ⟨rfl, hca⟩ := returns_pure.mp h₉
  refine ⟨seed, bytes, now, rfl, ?_⟩
  simp only [self_signed, bind_eq_ok]
  exact ⟨key, hkey, subject, hsubject, validity, hvalidity, spki, hspki, builder, hbuilder, cert,
    hcert, hca.symm⟩

/-- The certificate of a CA that is generated is a root certificate with the drawn serial. -/
theorem root_of_self_signed {id common_name : String} {bits : Nat} {seed : Seed}
    {bytes : { b : Bytes // b.length = 16 }} {now : SystemTime} {ca : CertificateAuthority}
    (h : self_signed X id common_name bits seed (serial_of bytes) now = .ok ca) :
    X.RootCertificate ca.cert := by
  obtain ⟨key, _, h₁⟩ := bind_eq_ok.mp h
  obtain ⟨subject, _, h₂⟩ := bind_eq_ok.mp h₁
  obtain ⟨validity, _, h₃⟩ := bind_eq_ok.mp h₂
  obtain ⟨spki, _, h₄⟩ := bind_eq_ok.mp h₃
  obtain ⟨builder, hbuilder, h₅⟩ := bind_eq_ok.mp h₄
  obtain ⟨cert, hcert, h₆⟩ := bind_eq_ok.mp h₅
  obtain rfl := Except.ok.inj h₆
  exact ⟨serial_of bytes, validity, subject, spki, CaSigningKey.new key, builder,
    readable_serial_of bytes, map_err_eq_ok.mp hbuilder, map_err_eq_ok.mp hcert⟩

/-- A certificate belongs to a private key. -/
def KeyMatches (X : Crates) (ca : CertificateAuthority) : Prop :=
  rsa_public_key X ca.cert = .ok ca.private_key.to_public_key

/-- A generated CA has the id it is generated for, and its certificate belongs to its
key. -/
theorem generate_self_signed_matches {id common_name : String} {bits : Nat} (hbits : bits ≤ 4096)
    {tr : Trace} {ca : CertificateAuthority}
    (h : Returns (generate_self_signed X id common_name bits) tr (.ok ca)) :
    ca.id = id ∧ (X.X509Law → KeyMatches X ca) := by
  obtain ⟨seed, _, _, h⟩ := returns_request_bind.mp h
  obtain ⟨key, _, _, _, hkey, h⟩ := returns_bind_ok.mp h
  have hkey' := map_err_eq_ok.mp (returns_lift.mp hkey).2.symm
  obtain ⟨subject, _, _, _, _, h⟩ := returns_bind_ok.mp h
  obtain ⟨serial, _, _, _, _, h⟩ := returns_bind_ok.mp h
  obtain ⟨now, _, _, h⟩ := returns_request_bind.mp h
  obtain ⟨validity, _, _, _, _, h⟩ := returns_bind_ok.mp h
  obtain ⟨spki, _, _, _, hspki, h⟩ := returns_bind_ok.mp h
  obtain ⟨builder, _, _, _, hbuilder, h⟩ := returns_bind_ok.mp h
  obtain ⟨cert, _, _, _, hcert, h⟩ := returns_bind_ok.mp h
  obtain ⟨_, hca⟩ := returns_pure.mp h
  -- the steps the key of the certificate comes through
  have hspki' := map_err_eq_ok.mp (returns_lift.mp hspki).2.symm
  have hbuilder' := map_err_eq_ok.mp (returns_lift.mp hbuilder).2.symm
  have hcert' := map_err_eq_ok.mp (returns_lift.mp hcert).2.symm
  cases hca
  refine ⟨rfl, fun hx509 => ?_⟩
  obtain ⟨_, _, _, hpk, _⟩ := hx509.builder_new _ _ _ _ _ _ _ hbuilder'
  obtain ⟨_, _, hpk', _⟩ := hx509.build _ _ hcert'
  show map_err (X.rsa_public_key_from_pkcs1_der
    cert.tbs_certificate.subject_public_key_info.subject_public_key) _ = .ok key.to_public_key
  rw [hpk', hpk, hx509.spki _ _ key _ hbits hkey' hspki']
  rfl

end CertificateAuthority

end Blapki
