/-
Parsing and verifying an inbound SCEP `pkiMessage` (`crypto/verify.rs`).

The `SignedData` is decoded with relaxed types, the signature is checked over the
re-encoded signed attributes, and the content is tied to them by its digest.
`Accepts` collects what an accepted message has been checked for;
`parse_and_verify_accepts` is the soundness of the verifier and
`Accepts.determines` what two messages with one attribute set share.
-/
import Blapki.Envelope

set_option autoImplicit false

namespace Blapki

/-- Everything needed to encrypt the reply back to the requesting device: the key
and the identity of the signer certificate, the serial preserved verbatim. -/
abbrev RecipientKey : Type := Recipient

/-- The verified contents of an inbound SCEP request. -/
structure ParsedRequest where
  message_type : MessageType
  transaction_id : String
  sender_nonce : Bytes
  /-- The requester's key + identity, used to envelope the reply. -/
  recipient : RecipientKey
  /-- The decrypted-later envelope, present for PKCSReq / RenewalReq. -/
  enveloped : Option EnvelopedData
deriving DecidableEq, Repr

namespace Verify

variable (X : Crates)

/-! ## Decoding -/

/-- Decode the first element from the value of a SET/`[0]` container `Any` (SCEP
has a single signer / signer certificate). -/
def decode_first {T : Type} (decode : Bytes → Except String T) (container : Any)
    (what : String) : AppResult T :=
  map_err (decode container.value) fun e => .bad_request s!"bad {what}: {e}"

/-- The parts of a message the verifier works on. -/
structure Message where
  sd : RelaxedSignedData
  signer : RelaxedSignerInfo
  cert : Certificate
  attrs : List Attribute
deriving DecidableEq, Repr

/-- The encapsulated content octets. -/
def Message.econtent (m : Message) : Option Bytes :=
  m.sd.encap_content_info.econtent.map Any.value

/-- The first half of `parse_and_verify`: SCEP messages carry exactly one signer
and its self-signed certificate. -/
def decode_message (der : Bytes) : AppResult Message := do
  let ci ← map_err (X.content_info_from_der der) fun e =>
    .bad_request s!"not a CMS ContentInfo: {e}"
  require (ci.content_type = oids.ID_SIGNED_DATA) (.bad_request "SCEP message is not signedData")
  let sd ← map_err (X.signed_data_decode ci.content) fun e =>
    .bad_request s!"bad SignedData: {e}"
  let signer ← decode_first X.signer_info_decode sd.signer_infos "SignerInfo"
  let certs ← ok_or_else sd.certificates (.bad_request "SignedData carries no certificates")
  let cert ← decode_first X.relaxed_certificate_decode certs "certificate"
  let attrs ← ok_or_else signer.signed_attrs
    (.bad_request "SignerInfo has no signed attributes")
  pure ⟨sd, signer, cert, attrs⟩

/-! ## Checks -/

/-- The digests a message may be signed with. -/
def hash_alg (oid : ObjectIdentifier) : Option HashAlg :=
  if oid = oids.ID_SHA256 then some .Sha256
  else if oid = oids.ID_SHA1 then some .Sha1
  else none

def verify_rsa (digest_oid : ObjectIdentifier) (pubkey : RsaPublicKey) (msg sig : Bytes) :
    AppResult Unit := do
  let signature ← map_err (X.rsa_signature_try_from sig) fun e =>
    .bad_request s!"malformed signature: {e}"
  let alg ← ok_or_else (hash_alg digest_oid)
    (.bad_request s!"unsupported signature digest {digest_oid}")
  require (X.rsa_verify alg pubkey msg signature = true)
    (.bad_request "SCEP message signature is invalid")

def digest (oid : ObjectIdentifier) (data : Bytes) : AppResult Bytes := do
  let alg ← ok_or_else (hash_alg oid) (.bad_request s!"unsupported digest {oid}")
  pure (X.hash alg data)

/-- `find_attr`: the first attribute with an OID. -/
def find_attr (attrs : List Attribute) (oid : ObjectIdentifier) : Option Attribute :=
  Attributes.find attrs oid

/-- Bind the signed attributes to the content: messageDigest == H(eContent). -/
def check_content (digest_oid : ObjectIdentifier) (attrs : List Attribute)
    (econtent : Option Bytes) : AppResult Unit :=
  match econtent with
  | none => pure ()
  | some content => do
      let md_attr ← ok_or_else (find_attr attrs oids.ID_MESSAGE_DIGEST)
        (.bad_request "missing messageDigest attribute")
      let claimed ← ok_or_else (md_attr.values.head?.bind fun v => v.decode_octet_string.toOption)
        (.bad_request "bad messageDigest attribute")
      let computed ← digest X digest_oid content
      require (claimed = computed) (.bad_request "messageDigest does not match content")

/-- PKCSReq / RenewalReq carry an enveloped CSR; a SUCCESS CertRep carries an
enveloped certs-only reply. -/
def read_envelope (message_type : MessageType) (econtent : Option Bytes) :
    AppResult (Option EnvelopedData) :=
  match message_type, econtent with
  | .PkcsReq, some c | .RenewalReq, some c | .CertRep, some c => do
      let e ← Envelope.parse X c
      pure (some e)
  | _, _ => pure none

/-- Decode a `SignedData`, verify its signature, and extract SCEP metadata. -/
def parse_and_verify (der : Bytes) : AppResult ParsedRequest := do
  let m ← decode_message X der
  let public_key ← rsa_public_key_from_spki X m.cert.tbs_certificate.subject_public_key_info
  let signed_attrs_der ← map_err (X.attributes_to_der m.attrs) fun e =>
    .crypto s!"re-encode signed attrs: {e}"
  verify_rsa X m.signer.digest_alg.oid public_key signed_attrs_der m.signer.signature
  check_content X m.signer.digest_alg.oid m.attrs m.econtent
  let message_type ← Attributes.read_string m.attrs Attributes.ID_MESSAGE_TYPE
  let message_type ← MessageType.from_value message_type
  let transaction_id ← Attributes.read_string m.attrs Attributes.ID_TRANSACTION_ID
  let sender_nonce ← Attributes.read_octets m.attrs Attributes.ID_SENDER_NONCE
  let enveloped ← read_envelope X message_type m.econtent
  pure {
    message_type := message_type
    transaction_id := transaction_id
    sender_nonce := sender_nonce
    recipient := ⟨public_key, m.cert.tbs_certificate.issuer, m.cert.tbs_certificate.serial_number⟩
    enveloped := enveloped }

/-! ## What an accepted message has been checked for -/

/-- `v` is the first value of an attribute of the set with this OID. Where there
are several such attributes it is the first one. -/
def FirstValue (attrs : List Attribute) (oid : ObjectIdentifier) (v : Any) : Prop :=
  ∃ a ∈ attrs, a.oid = oid ∧ a.values.head? = some v ∧ Attributes.find attrs oid = some a

theorem FirstValue.unique {attrs : List Attribute} {oid : ObjectIdentifier} {v v' : Any}
    (h : FirstValue attrs oid v) (h' : FirstValue attrs oid v') : v = v' := by
  obtain ⟨a, _, _, hv, ha⟩ := h
  obtain ⟨a', _, _, hv', ha'⟩ := h'
  rw [ha] at ha'
  cases ha'
  rw [hv] at hv'
  exact Option.some.inj hv'

theorem firstValue_of_first_value {attrs : List Attribute} {oid : ObjectIdentifier} {v : Any}
    (h : Attributes.first_value attrs oid = .ok v) : FirstValue attrs oid v := by
  obtain ⟨a, ha, hv⟩ := Attributes.first_value_eq_ok.mp h
  obtain ⟨hmem, hoid⟩ := Attributes.find_mem ha
  exact ⟨a, hmem, hoid, hv, ha⟩

/-- The message `der`, read as `m` and signed under the digest `alg`, is accepted
as the request `r`. -/
structure Accepts (der : Bytes) (r : ParsedRequest) (m : Message) (alg : HashAlg) : Prop where
  decoded : decode_message X der = .ok m
  /-- The certificate is the first of the embedded ones, the attributes are the
  signer's. -/
  certificate : ∃ certs, m.sd.certificates = some certs ∧
    X.relaxed_certificate_decode certs.value = .ok m.cert
  signer : X.signer_info_decode m.sd.signer_infos.value = .ok m.signer
  signed_attrs : m.signer.signed_attrs = some m.attrs
  public_key : rsa_public_key_from_spki X m.cert.tbs_certificate.subject_public_key_info
    = .ok r.recipient.public_key
  digest_alg : hash_alg m.signer.digest_alg.oid = some alg
  signature : ∃ attrs_der sig, X.attributes_to_der m.attrs = .ok attrs_der ∧
    X.rsa_signature_try_from m.signer.signature = .ok sig ∧
    X.rsa_verify alg r.recipient.public_key attrs_der sig = true
  message_type : ∃ v s, FirstValue m.attrs Attributes.ID_MESSAGE_TYPE v ∧
    Attributes.decode_string v = some s ∧ MessageType.from_value s = .ok r.message_type
  transaction_id : ∃ v, FirstValue m.attrs Attributes.ID_TRANSACTION_ID v ∧
    Attributes.decode_string v = some r.transaction_id
  sender_nonce : FirstValue m.attrs Attributes.ID_SENDER_NONCE ⟨.OctetString, r.sender_nonce⟩
  message_digest : ∀ c, m.econtent = some c →
    FirstValue m.attrs oids.ID_MESSAGE_DIGEST ⟨.OctetString, X.hash alg c⟩
  enveloped : ∀ e, r.enveloped = some e →
    ∃ c, m.econtent = some c ∧ Envelope.parse X c = .ok e
  no_content : m.econtent = none → r.enveloped = none
  recipient : r.recipient.issuer = m.cert.tbs_certificate.issuer ∧
    r.recipient.serial = m.cert.tbs_certificate.serial_number
  nonce_fits : r.sender_nonce.length ≤ Length.MAX

theorem decode_message_eq_ok {der : Bytes} {m : Message} :
    decode_message X der = .ok m ↔
      ∃ ci, X.content_info_from_der der = .ok ci ∧ ci.content_type = oids.ID_SIGNED_DATA ∧
        X.signed_data_decode ci.content = .ok m.sd ∧
        X.signer_info_decode m.sd.signer_infos.value = .ok m.signer ∧
        (∃ certs, m.sd.certificates = some certs ∧
          X.relaxed_certificate_decode certs.value = .ok m.cert) ∧
        m.signer.signed_attrs = some m.attrs := by
  simp only [decode_message, decode_first, bind_eq_ok, map_err_eq_ok, ok_or_else_eq_ok,
    require_eq_ok, pure, Except.pure, Except.ok.injEq]
  constructor
  · rintro ⟨ci, hci, _, htype, sd, hsd, signer, hsigner, certs, hcerts, cert, hcert, attrs, hattrs,
      rfl⟩
    exact ⟨ci, hci, htype, hsd, hsigner, ⟨certs, hcerts, hcert⟩, hattrs⟩
  · rintro ⟨ci, hci, htype, hsd, hsigner, ⟨certs, hcerts, hcert⟩, hattrs⟩
    exact ⟨ci, hci, (), htype, _, hsd, _, hsigner, _, hcerts, _, hcert, _, hattrs, rfl⟩

theorem verify_rsa_eq_ok {oid : ObjectIdentifier} {k : RsaPublicKey} {msg sig : Bytes} {u : Unit}
    (h : verify_rsa X oid k msg sig = .ok u) :
    ∃ alg s, hash_alg oid = some alg ∧ X.rsa_signature_try_from sig = .ok s ∧
      X.rsa_verify alg k msg s = true := by
  simp only [verify_rsa, bind_eq_ok, map_err_eq_ok, ok_or_else_eq_ok, require_eq_ok] at h
  obtain ⟨s, hs, alg, halg, hver⟩ := h
  exact ⟨alg, s, halg, hs, hver⟩

theorem check_content_eq_ok {oid : ObjectIdentifier} {attrs : List Attribute} {c : Bytes}
    {alg : HashAlg} {u : Unit} (halg : hash_alg oid = some alg)
    (h : check_content X oid attrs (some c) = .ok u) :
    FirstValue attrs oids.ID_MESSAGE_DIGEST ⟨.OctetString, X.hash alg c⟩ := by
  simp only [check_content, digest, find_attr, halg, bind_eq_ok, ok_or_else_eq_ok, require_eq_ok,
    Option.some.injEq, pure, Except.pure, Except.ok.injEq] at h
  obtain ⟨a, ha, claimed, hclaimed, computed, ⟨alg', rfl, rfl⟩, rfl⟩ := h
  obtain ⟨v, hv, hdec⟩ := Option.bind_eq_some_iff.mp hclaimed
  have hok : v.decode_octet_string = .ok (X.hash alg c) := by
    cases hd : v.decode_octet_string with
    | error e =>
        rw [hd] at hdec
        cases hdec
    | ok b =>
        rw [hd] at hdec
        exact congrArg Except.ok (Option.some.inj hdec)
  obtain ⟨hmem, hoid⟩ := Attributes.find_mem ha
  rw [(Any.decode_octet_string_eq_ok.mp hok).1] at hv
  exact ⟨a, hmem, hoid, hv, ha⟩

theorem read_envelope_eq_ok {t : MessageType} {econtent : Option Bytes}
    {enveloped : Option EnvelopedData} (h : read_envelope X t econtent = .ok enveloped) :
    ∀ e, enveloped = some e → ∃ c, econtent = some c ∧ Envelope.parse X c = .ok e := by
  rintro e rfl
  unfold read_envelope at h
  split at h
  all_goals
    simp only [bind_eq_ok, pure, Except.pure, Except.ok.injEq, reduceCtorEq,
      Option.some.injEq] at h
  all_goals
    obtain ⟨e', he, rfl⟩ := h
    exact ⟨_, rfl, he⟩

/-- **Soundness of the verifier.** An accepted message was signed by the key of
its first certificate, and every field of the request is bound by that
signature. -/
theorem parse_and_verify_accepts {der : Bytes} {r : ParsedRequest}
    (h : parse_and_verify X der = .ok r) : ∃ m alg, Accepts X der r m alg := by
  simp only [parse_and_verify, bind_eq_ok, map_err_eq_ok, pure, Except.pure,
    Except.ok.injEq] at h
  obtain ⟨m, hm, k, hk, attrs_der, hder, u, hsig, u', hcontent, s, hs, t, ht, txn, htxn, nonce,
    hnonce, env, henv, rfl⟩ := h
  obtain ⟨_, _, _, _, hsigner, hcert, hattrs⟩ := (decode_message_eq_ok X).mp hm
  obtain ⟨alg, sig, halg, hsig', hver⟩ := verify_rsa_eq_ok X hsig
  obtain ⟨vs, hvs, hdecs⟩ := Attributes.read_string_eq_ok.mp hs
  obtain ⟨vt, hvt, hdect⟩ := Attributes.read_string_eq_ok.mp htxn
  obtain ⟨hn, hlen⟩ := Attributes.read_octets_eq_ok.mp hnonce
  refine ⟨m, alg, ?_⟩
  exact {
    decoded := hm
    certificate := hcert
    signer := hsigner
    signed_attrs := hattrs
    public_key := hk
    digest_alg := halg
    signature := ⟨attrs_der, sig, hder, hsig', hver⟩
    message_type := ⟨vs, s, firstValue_of_first_value hvs, hdecs, ht⟩
    transaction_id := ⟨vt, firstValue_of_first_value hvt, hdect⟩
    sender_nonce := firstValue_of_first_value hn
    message_digest := fun c hc => check_content_eq_ok X halg (hc ▸ hcontent)
    enveloped := read_envelope_eq_ok X henv
    no_content := by
      intro hnone
      rcases env with _ | e
      · rfl
      · obtain ⟨c, hc, _⟩ := read_envelope_eq_ok X henv e rfl
        rw [hnone] at hc
        cases hc
    recipient := ⟨rfl, rfl⟩
    nonce_fits := hlen }

/-- **One attribute set, one request.** Two accepted messages with the same signed
attributes have the same type, transactionID and nonce, and contents with one
digest. -/
theorem Accepts.determines {der der' : Bytes} {r r' : ParsedRequest} {m m' : Message}
    {alg alg' : HashAlg} (h : Accepts X der r m alg) (h' : Accepts X der' r' m' alg')
    (hattrs : m'.attrs = m.attrs) :
    r'.message_type = r.message_type ∧ r'.transaction_id = r.transaction_id ∧
      r'.sender_nonce = r.sender_nonce ∧
      (alg' = alg → ∀ c c', m.econtent = some c → m'.econtent = some c' →
        X.hash alg c' = X.hash alg c) := by
  refine ⟨?_, ?_, ?_, ?_⟩
  · obtain ⟨v, s, hv, hs, ht⟩ := h.message_type
    obtain ⟨v', s', hv', hs', ht'⟩ := h'.message_type
    rw [hattrs] at hv'
    rw [hv'.unique hv, hs] at hs'
    cases hs'
    rw [ht] at ht'
    exact (Except.ok.inj ht').symm
  · obtain ⟨v, hv, hs⟩ := h.transaction_id
    obtain ⟨v', hv', hs'⟩ := h'.transaction_id
    rw [hattrs] at hv'
    rw [hv'.unique hv, hs] at hs'
    exact (Option.some.inj hs').symm
  · have hn := h'.sender_nonce
    rw [hattrs] at hn
    exact congrArg Any.value (hn.unique h.sender_nonce)
  · rintro rfl c c' hc hc'
    have hd := h'.message_digest c' hc'
    rw [hattrs] at hd
    exact congrArg Any.value (hd.unique (h.message_digest c hc))

end Verify

end Blapki
