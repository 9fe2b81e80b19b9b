/-
What an accepted message proves, and what it does not.

The signature of a message covers one attribute set, and every field of the
request is read out of that set (`parse_and_verify_sound`). Which certificate the
key is taken from is a matter of position: the first of the set is the signer's,
whoever the signer info names (`verified_by_first_certificate`). And the key that
signed the message need not be the key that gets certified: nothing compares the
two, and nobody checks the signature of the CSR (`certified_key_from_signed_content`).
-/
import Blapki.Enrolment

set_option autoImplicit false

namespace Blapki

open Codec Effect

namespace Verify

variable {X : Crates}

/-! ## One attribute set, one request -/

/-- **Soundness of `parse_and_verify`.** An accepted message is signed by the key of
its first certificate over an attribute set that every field of the request comes
from. Another accepted message over the same set is the same request, and its
content has the same digest. -/
theorem parse_and_verify_sound {der : Bytes} {r : ParsedRequest}
    (h : parse_and_verify X der = .ok r) :
    ∃ m alg, Accepts X der r m alg ∧
      ∀ der' r', parse_and_verify X der' = .ok r' →
        ∃ m' alg', Accepts X der' r' m' alg' ∧
          (m'.attrs = m.attrs →
            r'.message_type = r.message_type ∧ r'.transaction_id = r.transaction_id ∧
              r'.sender_nonce = r.sender_nonce ∧
              (alg' = alg → ∀ c c', m.econtent = some c → m'.econtent = some c' →
                X.hash alg c' = X.hash alg c)) := by
  obtain ⟨m, alg, haccepts⟩ := parse_and_verify_accepts X h
  refine ⟨m, alg, haccepts, fun der' r' h' => ?_⟩
  obtain ⟨m', alg', haccepts'⟩ := parse_and_verify_accepts X h'
  exact ⟨m', alg', haccepts', fun hattrs => haccepts.determines X haccepts' hattrs⟩

/-- The message of the device is sound. -/
theorem device_message_sound :
    ∃ m alg, Accepts Reference.crates Device.pkcs_req
        (Device.request Device.transaction_id (enc (Device.csr "s3cret"))) m alg ∧
      ∀ der' r', parse_and_verify Reference.crates der' = .ok r' →
        ∃ m' alg', Accepts Reference.crates der' r' m' alg' ∧
          (m'.attrs = m.attrs → r'.message_type = MessageType.PkcsReq ∧
            r'.transaction_id = Device.transaction_id ∧ r'.sender_nonce = Device.nonce ∧
            (alg' = alg → ∀ c c', m.econtent = some c → m'.econtent = some c' →
              Reference.crates.hash alg c' = Reference.crates.hash alg c)) :=
  parse_and_verify_sound (Device.verified Device.read_txn _)

/-! ## The certificates of a message

A SET OF certificates is the octets of its elements, one behind the other. -/

/-- The message `der` carries this `SignedData`, with these certificates in this
order, each with its encoding, and a signer info over these attributes. -/
structure Carries (X : Crates) (der : Bytes) (sd : RelaxedSignedData) (signer : RelaxedSignerInfo)
    (attrs : List Attribute) (certs : List (Bytes × Certificate)) : Prop where
  signed_data : ∃ ci, X.content_info_from_der der = .ok ci ∧
    ci.content_type = oids.ID_SIGNED_DATA ∧ X.signed_data_decode ci.content = .ok sd
  signer_info : X.signer_info_decode sd.signer_infos.value = .ok signer
  signed_attrs : signer.signed_attrs = some attrs
  certificates : ∃ container, sd.certificates = some container ∧
    container.value = (certs.map Prod.fst).flatten
  encoded : ∀ p ∈ certs, ∀ rest, X.relaxed_certificate_decode (p.1 ++ rest) = .ok p.2

/-- Whatever comes behind it, the first certificate is the one decoded. -/
theorem Carries.decoded {der : Bytes} {sd : RelaxedSignedData} {signer : RelaxedSignerInfo}
    {attrs : List Attribute} {p : Bytes × Certificate} {certs : List (Bytes × Certificate)}
    (h : Carries X der sd signer attrs (p :: certs)) :
    decode_message X der = .ok ⟨sd, signer, p.2, attrs⟩ := by
  obtain ⟨ci, hci, htype, hsd⟩ := h.signed_data
  obtain ⟨container, hcontainer, hvalue⟩ := h.certificates
  have hfirst : X.relaxed_certificate_decode container.value = .ok p.2 := by
    rw [hvalue, List.map_cons, List.flatten_cons]
    exact h.encoded p List.mem_cons_self _
  exact (decode_message_eq_ok X).mpr
    ⟨ci, hci, htype, hsd, h.signer_info, ⟨container, hcontainer, hfirst⟩, h.signed_attrs⟩

/-- What the verifier looks at of a decoded message. -/
theorem parse_and_verify_congr {der der' : Bytes} {m m' : Message}
    (hm : decode_message X der = .ok m) (hm' : decode_message X der' = .ok m')
    (hcert : m'.cert = m.cert) (hattrs : m'.attrs = m.attrs) (hcontent : m'.econtent = m.econtent)
    (halg : m'.signer.digest_alg = m.signer.digest_alg)
    (hsig : m'.signer.signature = m.signer.signature) :
    parse_and_verify X der' = parse_and_verify X der := by
  unfold parse_and_verify
  rw [hm, hm']
  show (rsa_public_key_from_spki X m'.cert.tbs_certificate.subject_public_key_info >>= _)
    = (rsa_public_key_from_spki X m.cert.tbs_certificate.subject_public_key_info >>= _)
  rw [hcert, hattrs, hcontent, halg, hsig]

/-- The signature verifies under the key of this certificate, the content checks
pass, and the request is what the attributes and the certificate say. -/
def VerifiesUnder (X : Crates) (cert : Certificate) (signer : RelaxedSignerInfo)
    (attrs : List Attribute) (econtent : Option Bytes) (r : ParsedRequest) : Prop :=
  ∃ attrs_der s, rsa_public_key X cert = .ok r.recipient.public_key ∧
    X.attributes_to_der attrs = .ok attrs_der ∧
    verify_rsa X signer.digest_alg.oid r.recipient.public_key attrs_der signer.signature = .ok () ∧
    check_content X signer.digest_alg.oid attrs econtent = .ok () ∧
    Attributes.read_string attrs Attributes.ID_MESSAGE_TYPE = .ok s ∧
    MessageType.from_value s = .ok r.message_type ∧
    Attributes.read_string attrs Attributes.ID_TRANSACTION_ID = .ok r.transaction_id ∧
    Attributes.read_octets attrs Attributes.ID_SENDER_NONCE = .ok r.sender_nonce ∧
    read_envelope X r.message_type econtent = .ok r.enveloped ∧
    r.recipient.issuer = cert.tbs_certificate.issuer ∧
    r.recipient.serial = cert.tbs_certificate.serial_number

theorem parse_and_verify_eq_ok {der : Bytes} {m : Message} (hm : decode_message X der = .ok m)
    {r : ParsedRequest} :
    parse_and_verify X der = .ok r ↔ VerifiesUnder X m.cert m.signer m.attrs m.econtent r := by
  unfold parse_and_verify
  rw [hm]
  show (rsa_public_key X m.cert >>= _) = _ ↔ _
  simp only [bind_eq_ok, map_err_eq_ok, pure, Except.pure, Except.ok.injEq]
  constructor
  · rintro ⟨k, hk, attrs_der, hder, _, hsig, _, hcontent, s, hs, t, ht, txn, htxn, nonce, hnonce,
      env, henv, rfl⟩
    exact ⟨attrs_der, s, hk, hder, hsig, hcontent, hs, ht, htxn, hnonce, henv, rfl, rfl⟩
  · rintro ⟨attrs_der, s, hk, hder, hsig, hcontent, hs, ht, htxn, hnonce, henv, hissuer, hserial⟩
    refine ⟨_, hk, attrs_der, hder, (), hsig, (), hcontent, s, hs, _, ht, _, htxn, _, hnonce, _, henv,
      ?_⟩
    rw [← hissuer, ← hserial]

/-- **The signer certificate is the first one.** Two messages with the same first
certificate, the same content, attributes and signature get the same result,
whatever other certificates they carry in whatever order and whoever their `sid`
names. Such a message is accepted exactly when it verifies under the first
certificate, which is then the recipient. -/
theorem verified_by_first_certificate {der der' : Bytes} {sd sd' : RelaxedSignedData}
    {signer signer' : RelaxedSignerInfo} {attrs : List Attribute} {p : Bytes × Certificate}
    {certs certs' : List (Bytes × Certificate)} (h : Carries X der sd signer attrs (p :: certs))
    (h' : Carries X der' sd' signer' attrs (p :: certs'))
    (hcontent : sd'.encap_content_info = sd.encap_content_info)
    (halg : signer'.digest_alg = signer.digest_alg) (hsig : signer'.signature = signer.signature) :
    parse_and_verify X der' = parse_and_verify X der ∧
      ∀ r, parse_and_verify X der = .ok r ↔
        VerifiesUnder X p.2 signer attrs (sd.encap_content_info.econtent.map Any.value) r := by
  have hecontent : (⟨sd', signer', p.2, attrs⟩ : Message).econtent
      = (⟨sd, signer, p.2, attrs⟩ : Message).econtent := by
    rw [Message.econtent, Message.econtent, hcontent]
  exact ⟨parse_and_verify_congr h.decoded h'.decoded rfl rfl hecontent halg hsig,
    fun r => parse_and_verify_eq_ok h.decoded⟩

/-- A message with these certificates in place of its own. -/
def Message.with_certificates (m : Message) (certs : List Certificate) : RelaxedSignedData :=
  { m.sd with certificates := some ⟨.Other 0, (certs.map enc).flatten⟩ }

/-- The encoding of a message with these certificates. -/
def Message.body_with (m : Message) (certs : List Certificate) : Bytes :=
  enc (⟨oids.ID_SIGNED_DATA, ⟨.Sequence, enc (m.with_certificates certs)⟩⟩ : ContentInfo)

theorem carries_with {der : Bytes} {m : Message}
    (h : decode_message Reference.crates der = .ok m) (certs : List Certificate) :
    Carries Reference.crates (m.body_with certs) (m.with_certificates certs) m.signer m.attrs
      (certs.map fun c => (enc c, c)) := by
  obtain ⟨_, _, _, _, hsigner, _, hattrs⟩ := (decode_message_eq_ok _).mp h
  exact {
    signed_data := ⟨_, decode_enc _, rfl, decode_enc _⟩
    signer_info := hsigner
    signed_attrs := hattrs
    certificates := by
      refine ⟨_, rfl, ?_⟩
      rw [List.map_map]
      rfl
    encoded := by
      intro p hp rest
      obtain ⟨c, _, rfl⟩ := List.mem_map.mp hp
      exact Reference.certificate_decoded c rest }

/-- Further certificates behind its own do not change what a message is taken for. -/
theorem parse_and_verify_body_with {der : Bytes} {m : Message}
    (h : decode_message Reference.crates der = .ok m) (certs : List Certificate) :
    parse_and_verify Reference.crates (m.body_with (m.cert :: certs))
      = parse_and_verify Reference.crates der :=
  parse_and_verify_congr h (carries_with h (m.cert :: certs)).decoded rfl rfl rfl rfl rfl

/-- The device message with the CA certificate behind its own is taken for the one
without. -/
theorem device_chain_ignored :
    parse_and_verify Reference.crates
        (Device.pkcs_message.body_with [Device.device_cert, Device.ca_cert])
      = parse_and_verify Reference.crates (Device.pkcs_message.body_with [Device.device_cert]) :=
  (verified_by_first_certificate (carries_with Device.pkcs_req_decoded [Device.device_cert])
    (carries_with Device.pkcs_req_decoded [Device.device_cert, Device.ca_cert]) rfl rfl rfl).1

/-- The order of the set decides: with the signer certificate in front the message is
accepted, with the CA certificate in front it is not, and `sid` names the signer
both times. -/
theorem certificate_order_matters :
    ∃ certs certs',
      Carries Reference.crates (Device.pkcs_message.body_with [Device.device_cert, Device.ca_cert])
        (Device.pkcs_message.with_certificates [Device.device_cert, Device.ca_cert])
        Device.pkcs_message.signer Device.pkcs_message.attrs certs ∧
      Carries Reference.crates (Device.pkcs_message.body_with [Device.ca_cert, Device.device_cert])
        (Device.pkcs_message.with_certificates [Device.ca_cert, Device.device_cert])
        Device.pkcs_message.signer Device.pkcs_message.attrs certs' ∧
      certs.Perm certs' ∧
      Device.pkcs_message.signer.sid
        = ⟨.Sequence, enc (⟨Device.device_cert.tbs_certificate.issuer,
          Device.device_cert.tbs_certificate.serial_number⟩ : IssuerAndSerialNumber)⟩ ∧
      (∃ r, parse_and_verify Reference.crates
        (Device.pkcs_message.body_with [Device.device_cert, Device.ca_cert]) = .ok r) ∧
      ∀ r, parse_and_verify Reference.crates
        (Device.pkcs_message.body_with [Device.ca_cert, Device.device_cert]) ≠ .ok r := by
  have hfront := carries_with Device.pkcs_req_decoded [Device.device_cert, Device.ca_cert]
  have hback := carries_with Device.pkcs_req_decoded [Device.ca_cert, Device.device_cert]
  refine ⟨_, _, hfront, hback, .swap _ _ _, rfl, ?_, ?_⟩
  · have hsame := parse_and_verify_body_with Device.pkcs_req_decoded [Device.ca_cert]
    exact ⟨_, hsame.trans (Device.verified Device.read_txn _)⟩
  · intro r hr
    obtain ⟨attrs_der, _, hkey, _, hver, _⟩ := (parse_and_verify_eq_ok hback.decoded).mp hr
    have hca : rsa_public_key Reference.crates Device.ca_cert = .ok Device.ca_key.pubkey :=
      Device.key_of_self_signed _ _ _
    obtain ⟨alg, s, _, hs, hverify⟩ := verify_rsa_eq_ok _ hver
    have hkey' : r.recipient.public_key = Device.ca_key.pubkey :=
      Except.ok.inj (hkey.symm.trans hca)
    -- The message is signed by the device, not by the CA.
    have hsig : Device.pkcs_message.signer.signature = _ := Device.message_signature _ _
    rw [hkey', ← Except.ok.inj hs, hsig] at hverify
    exact absurd (Reference.key_of_verify hverify) (by decide)

end Verify

/-! ## The certified key -/

namespace Scep

variable {X : Crates}

/-- The key and what else a CSR asks for decide the certificate, its signature does
not. -/
theorem leaf_ignores_signature (ca : CertificateAuthority) (req : CertReq)
    (algorithm : AlgorithmIdentifierOwned) (signature : Bytes) (opts : IssueOptions)
    (serial : SerialNumber) (now : SystemTime) :
    ca.leaf X { req with algorithm := algorithm, signature := signature } opts serial now
      = ca.leaf X req opts serial now := rfl

/-- **What the requester has shown.** The key that is certified comes out of a content
that the holder of the signer certificate's key has signed. That is all: the
signature of the CSR, whatever it is, makes no difference. -/
theorem certified_key_from_signed_content (hx509 : X.X509Law) {state : AppState} {profile : String}
    {body : Bytes} {rt : ProfileRuntime} {ca : CertificateAuthority} {parsed : ParsedRequest}
    {enveloped : EnvelopedData} {parsed_csr : ParsedCsr} {issued : Certificate} {tr : Trace}
    (h : Issuance X state profile body rt ca parsed enveloped parsed_csr issued tr) :
    (∃ m alg content, Verify.Accepts X body parsed m alg ∧ m.econtent = some content ∧
      Envelope.parse X content = .ok enveloped ∧
      Verify.FirstValue m.attrs oids.ID_MESSAGE_DIGEST ⟨.OctetString, X.hash alg content⟩) ∧
    Envelope.open_ X enveloped ca.cert ca.private_key = .ok parsed_csr.der ∧
    X.cert_req_from_der parsed_csr.der = .ok parsed_csr.req ∧
    issued.tbs_certificate.subject_public_key_info = parsed_csr.req.info.public_key ∧
    ∀ algorithm signature opts serial now,
      ca.leaf X { parsed_csr.req with algorithm := algorithm, signature := signature } opts serial
        now = ca.leaf X parsed_csr.req opts serial now := by
  obtain ⟨m, alg, haccepts⟩ := Verify.parse_and_verify_accepts X h.accepted.verified
  obtain ⟨content, hcontent, hparse⟩ := haccepts.enveloped enveloped h.accepted.enveloped
  obtain ⟨hopen, hcsr⟩ := recover_csr_eq_ok h.recovered
  obtain ⟨t, _, _, hissue⟩ := h.run
  obtain ⟨bytes, now, _, hleaf⟩ := CertificateAuthority.issue_returns.mp hissue
  have hfrom := CertificateAuthority.leaf_issued_from hx509 hleaf.symm
  exact ⟨⟨m, alg, content, haccepts, hcontent, hparse, haccepts.message_digest content hcontent⟩,
    hopen, ((csr.parse_eq_ok X).mp hcsr).1, hfrom.public_key,
    fun algorithm signature opts serial now =>
      leaf_ignores_signature ca parsed_csr.req algorithm signature opts serial now⟩

/-- The enrolled device is issued to. -/
theorem device_issuance :
    ∃ tr der db' issued, Returns (pki_operation Reference.crates Device.server "device"
        Device.pkcs_req) tr (.ok der) ∧
      Steps (step False) Db.empty tr db' ∧
      Issuance Reference.crates Device.server "device" Device.pkcs_req Device.profile Device.ca
        (Device.request Device.transaction_id (enc (Device.csr "s3cret")))
        (Device.enveloped (enc (Device.csr "s3cret")))
        ⟨Device.csr "s3cret", enc (Device.csr "s3cret"), some "s3cret"⟩ issued tr := by
  obtain ⟨issued, tr, der, db', _, hrun, hworld, _, hmem, _⟩ := Device.enrolled
  obtain ⟨rt, ca, parsed, enveloped, parsed_csr, issued', _, _, hissuance, _⟩ :=
    issuance_of_submits hrun hmem ⟨_, rfl⟩
  refine ⟨tr, der, db', issued', hrun, hworld, ?_⟩
  have hacc := hissuance.accepted
  obtain ⟨_, rfl⟩ := Device.lookup_singleton.mp hacc.profile
  obtain ⟨_, rfl⟩ := Device.lookup_singleton.mp hacc.ca
  obtain rfl := Except.ok.inj (hacc.verified.symm.trans (Device.verified Device.read_txn _))
  obtain rfl := Option.some.inj hacc.enveloped
  obtain rfl := Except.ok.inj (hissuance.recovered.symm.trans Device.recovered_secret)
  exact hissuance

/-- The key of the device comes out of a content it has signed. -/
theorem device_key_from_signed_content :
    ∃ issued : Certificate, issued.tbs_certificate.subject_public_key_info
      = (Device.csr "s3cret").info.public_key := by
  obtain ⟨tr, der, db', issued, _, _, h⟩ := device_issuance
  obtain ⟨_, _, _, hkey, _⟩ := certified_key_from_signed_content Reference.x509_law h
  exact ⟨issued, hkey⟩

/-- The device gets a certificate for a key it has not shown to hold: the key is not
the one the message was signed with, and the signature of the CSR verifies over
nothing. -/
theorem certificate_without_possession :
    ∃ tr der db' parsed enveloped parsed_csr issued key,
      Returns (pki_operation Reference.crates Device.server "device" Device.pkcs_req) tr (.ok der) ∧
      Steps (step False) Db.empty tr db' ∧
      Issuance Reference.crates Device.server "device" Device.pkcs_req Device.profile Device.ca
        parsed enveloped parsed_csr issued tr ∧
      rsa_public_key Reference.crates issued = .ok key ∧
      (∀ alg info_der, Reference.crates.rsa_verify alg key info_der parsed_csr.req.signature
        = false) ∧
      key ≠ parsed.recipient.public_key := by
  obtain ⟨tr, der, db', issued, hrun, hworld, hissuance⟩ := device_issuance
  refine ⟨tr, der, db', _, _, _, issued, Device.csr_key.pubkey, hrun, hworld, hissuance, ?_, ?_, ?_⟩
  · obtain ⟨t, _, _, hissue⟩ := hissuance.run
    obtain ⟨bytes, now, _, hleaf⟩ := CertificateAuthority.issue_returns.mp hissue
    have hkey := (CertificateAuthority.leaf_issued_from Reference.x509_law hleaf.symm).public_key
    rw [rsa_public_key, hkey, rsa_public_key_from_spki, map_err_eq_ok]
    exact decode_enc Device.csr_key.pubkey
  · exact fun alg info_der => Reference.verify_nil alg _ info_der
  · show Device.csr_key.pubkey ≠ Device.device_key.pubkey
    decide

end Scep

end Blapki
