/-
A device and a server on the reference crates.

The device signs its requests with one key and asks for a certificate for another,
and its CSR is signed by nobody. `pki_message` is what it sends, `accepted` says
that the server takes every such message for the request it is, and `recovered`
that it gets the CSR out.
-/
import Blapki.Reference
import Blapki.Scep

set_option autoImplicit false

namespace Blapki

open Codec Effect

namespace Device

/-! ## The server -/

/-- 2026-07-28T00:00:00Z -/
def now : SystemTime := ⟨1785196800000000000⟩

def validity : Validity where
  not_before := .UtcTime ⟨1767225600, by decide⟩
  not_after := .UtcTime ⟨2082758400, by decide⟩

/-- A toy key pair. -/
def key_pair (n d : Nat) : RsaPrivateKey := ⟨⟨n, 17⟩, d, []⟩

def ca_key : RsaPrivateKey := key_pair 3233 413

/-- A self-signed certificate. -/
def self_signed (cn : String) (serial : Bytes) (key : RsaPrivateKey) : Certificate :=
  Reference.certificate ⟨.Root, ⟨serial⟩, validity, Reference.common_name cn,
    Reference.spki_from_key key.pubkey, CaSigningKey.new key, []⟩

/-- The key of a self-signed certificate is the one it was made with. -/
theorem key_of_self_signed (cn : String) (serial : Bytes) (key : RsaPrivateKey) :
    rsa_public_key Reference.crates (self_signed cn serial key) = .ok key.pubkey := by
  rw [rsa_public_key, rsa_public_key_from_spki, map_err_eq_ok]
  exact decode_enc key.pubkey

def ca_cert : Certificate := self_signed "Root CA" [1] ca_key

def ca : CertificateAuthority := CertificateAuthority.new "root" ca_cert ca_key

/-- The profile `device` asks for a static secret. -/
def profile : ProfileRuntime where
  name := "device"
  ca_id := "root"
  validator := .StaticSecretValidator "s3cret"
  validity_days := 365
  key_usage := ["digitalSignature", "keyEncipherment"]
  extended_key_usage := ["clientAuth"]

theorem lookup_singleton {α : Type} {k k' : String} {a a' : α} :
    (AList.singleton k a : AList fun _ : String => α).lookup k' = some a' ↔ k = k' ∧ a = a' := by
  rw [← AList.insert_empty]
  by_cases h : k' = k
  · rw [h, AList.lookup_insert]
    simp only [Option.some.injEq, true_and]
  · rw [AList.lookup_insert_ne h, AList.lookup_empty]
    exact iff_of_false (fun hno => by cases hno) fun hno => h hno.1.symm

/-- One CA with one profile. -/
def server : AppState where
  cas := AList.singleton "root" ca
  profiles := AList.singleton "device" profile
  base_url := "http://pki.example/"
  ids := by
    intro ca_id ca' h
    obtain ⟨rfl, rfl⟩ := lookup_singleton.mp h
    rfl

/-! ## The device -/

def device_key : RsaPrivateKey := key_pair 2773 157

/-- The certificate that signs the request. Its serial is longer than a CA would make it. -/
def device_cert : Certificate := self_signed "device" (List.replicate 24 0x5a) device_key

/-- The key to be certified. -/
def csr_key : RsaPrivateKey := key_pair 3127 2141

/-- A request without a signature. -/
def csr (password : String) : CertReq where
  info := {
    subject := Reference.common_name "device"
    public_key := Reference.spki_from_key csr_key.pubkey
    attributes := [Attributes.printable Attributes.ID_CHALLENGE_PASSWORD password] }
  algorithm := Reference.signature_algorithm
  signature := []

def content_key : Bytes := List.replicate 16 7

def iv : Bytes := List.replicate 16 9

/-- The plaintext for the CA. -/
def enveloped (plaintext : Bytes) : EnvelopedData where
  version := .V0
  recip_infos := [.Ktri {
    version := .V0
    rid := .IssuerAndSerialNumber
      ⟨ca_cert.tbs_certificate.issuer, ca_cert.tbs_certificate.serial_number⟩
    key_enc_alg := Reference.rsa_algorithm
    enc_key := enc ca_key.pubkey ++ content_key }]
  encrypted_content := {
    content_type := oids.ID_DATA
    content_enc_alg := ⟨oids.ID_AES_128_CBC, some ⟨.OctetString, iv⟩⟩
    encrypted_content := some (content_key ++ plaintext) }

def content (plaintext : Bytes) : Bytes :=
  enc (⟨oids.ID_ENVELOPED_DATA, ⟨.Sequence, enc (enveloped plaintext)⟩⟩ : ContentInfo)

def nonce : Bytes := List.replicate 16 3

/-- The signed attributes, with this value for the transactionID. -/
def attributes (txn : Any) (plaintext : Bytes) : List Attribute :=
  [Attributes.printable Attributes.ID_MESSAGE_TYPE MessageType.PkcsReq.as_value,
    ⟨Attributes.ID_TRANSACTION_ID, [txn]⟩, Attributes.octets Attributes.ID_SENDER_NONCE nonce,
    Attributes.octets oids.ID_MESSAGE_DIGEST (Reference.digest 32 (content plaintext))]

/-- What the verifier makes of the message. -/
def message (txn : Any) (plaintext : Bytes) : Verify.Message where
  sd := Reference.signed_data ⟨oids.ID_DATA, some ⟨.OctetString, content plaintext⟩⟩ [sha256_alg]
    device_cert (Reference.sign_info
      ⟨CaSigningKey.new device_key, ⟨device_cert.tbs_certificate.issuer,
        device_cert.tbs_certificate.serial_number⟩, sha256_alg, ⟨oids.ID_DATA, none⟩, none, []⟩
      (attributes txn plaintext))
  signer := Reference.sign_info
    ⟨CaSigningKey.new device_key, ⟨device_cert.tbs_certificate.issuer,
      device_cert.tbs_certificate.serial_number⟩, sha256_alg, ⟨oids.ID_DATA, none⟩, none, []⟩
    (attributes txn plaintext)
  cert := device_cert
  attrs := attributes txn plaintext

theorem message_signature (txn : Any) (plaintext : Bytes) :
    (message txn plaintext).signer.signature
      = Reference.mark device_key.pubkey (enc (attributes txn plaintext)) := rfl

def content_info (txn : Any) (plaintext : Bytes) : ContentInfo :=
  ⟨oids.ID_SIGNED_DATA, ⟨.Sequence, enc (message txn plaintext).sd⟩⟩

/-- The body of the request. -/
def pki_message (txn : Any) (plaintext : Bytes) : Bytes := enc (content_info txn plaintext)

/-- What the server takes it for. -/
def request (transaction_id : String) (plaintext : Bytes) : ParsedRequest where
  message_type := .PkcsReq
  transaction_id := transaction_id
  sender_nonce := nonce
  recipient := ⟨device_key.pubkey, device_cert.tbs_certificate.issuer,
    device_cert.tbs_certificate.serial_number⟩
  enveloped := some (enveloped plaintext)

/-! ## What the server makes of it -/

/-- A message of one signer decodes to its parts. -/
theorem decoded_of_parts {m : Verify.Message} {encap : EncapsulatedContentInfo}
    {algs : List AlgorithmIdentifierOwned}
    (hsd : m.sd = Reference.signed_data encap algs m.cert m.signer)
    (hattrs : m.signer.signed_attrs = some m.attrs) :
    Verify.decode_message Reference.crates
      (enc (⟨oids.ID_SIGNED_DATA, ⟨.Sequence, enc m.sd⟩⟩ : ContentInfo)) = .ok m := by
  have hsigner := Reference.signer_info_decoded m.signer []
  have hcert := Reference.certificate_decoded m.cert []
  rw [List.append_nil] at hsigner hcert
  refine (Verify.decode_message_eq_ok _).mpr ⟨_, decode_enc _, rfl, decode_enc m.sd, ?_, ?_, hattrs⟩
  · rw [hsd]
    exact hsigner
  · rw [hsd]
    exact ⟨⟨.Other 0, enc m.cert⟩, rfl, hcert⟩

theorem decoded (txn : Any) (plaintext : Bytes) :
    Verify.decode_message Reference.crates (pki_message txn plaintext)
      = .ok (message txn plaintext) := decoded_of_parts rfl rfl

/-- The digest of the content is among the signed attributes. -/
theorem content_checked (txn : Any) (plaintext : Bytes) :
    Verify.check_content Reference.crates oids.ID_SHA256 (attributes txn plaintext)
      (some (content plaintext)) = .ok () := by
  have hread : Any.decode_octet_string
      ⟨.OctetString, Reference.digest 32 (content plaintext)⟩
        = .ok (Reference.digest 32 (content plaintext)) := by
    refine Any.decode_octet_string_eq_ok.mpr ⟨rfl, ?_⟩
    rw [Reference.length_digest]
    decide
  simp only [Verify.check_content, Verify.digest, bind_eq_ok, ok_or_else_eq_ok, require_eq_ok]
  refine ⟨_, rfl, Reference.digest 32 (content plaintext), ?_, _, ⟨.Sha256, rfl, rfl⟩, rfl⟩
  show (Any.decode_octet_string ⟨.OctetString, Reference.digest 32 (content plaintext)⟩).toOption
    = some _
  rw [hread]
  rfl

/-- The content is the envelope. -/
theorem parsed_content (plaintext : Bytes) :
    Envelope.parse Reference.crates (content plaintext) = .ok (enveloped plaintext) := by
  have hci : Reference.crates.content_info_from_der (content plaintext) = .ok _ := decode_enc _
  rw [Envelope.parse, hci]
  show (if _ then _ else _) = _
  rw [if_pos rfl]
  exact map_err_eq_ok.mpr (decode_enc _)

/-- The server takes every message for the request it is. -/
theorem verified {txn : Any} {transaction_id : String}
    (htxn : Attributes.decode_string txn = some transaction_id) (plaintext : Bytes) :
    Verify.parse_and_verify Reference.crates (pki_message txn plaintext)
      = .ok (request transaction_id plaintext) := by
  have htype : Attributes.read_string (attributes txn plaintext) Attributes.ID_MESSAGE_TYPE
      = .ok MessageType.PkcsReq.as_value :=
    Attributes.read_string_eq_ok.mpr ⟨_, rfl,
      Attributes.decode_string_printable (MessageType.printable _)⟩
  have hid : Attributes.read_string (attributes txn plaintext) Attributes.ID_TRANSACTION_ID
      = .ok transaction_id := Attributes.read_string_eq_ok.mpr ⟨txn, rfl, htxn⟩
  have hnonce : Attributes.read_octets (attributes txn plaintext) Attributes.ID_SENDER_NONCE
      = .ok nonce := Attributes.read_octets_eq_ok.mpr ⟨rfl, by decide⟩
  have hkey : rsa_public_key_from_spki Reference.crates
      device_cert.tbs_certificate.subject_public_key_info = .ok device_key.pubkey :=
    key_of_self_signed _ _ _
  have hsig : Verify.verify_rsa Reference.crates oids.ID_SHA256 device_key.pubkey
      (enc (attributes txn plaintext)) (message txn plaintext).signer.signature = .ok () := by
    simp only [Verify.verify_rsa, bind_eq_ok, map_err_eq_ok, ok_or_else_eq_ok, require_eq_ok]
    refine ⟨_, rfl, .Sha256, rfl, ?_⟩
    show decide (Reference.mark device_key.pubkey (enc (attributes txn plaintext))
      = Reference.mark device_key.pubkey (enc (attributes txn plaintext))) = true
    exact decide_eq_true rfl
  have henv : Verify.read_envelope Reference.crates .PkcsReq (some (content plaintext))
      = .ok (some (enveloped plaintext)) := by
    rw [Verify.read_envelope, parsed_content]
    rfl
  simp only [Verify.parse_and_verify, bind_eq_ok, map_err_eq_ok, pure, Except.pure]
  exact ⟨_, decoded txn plaintext, _, hkey, _, rfl, _, hsig, _, content_checked txn plaintext, _,
    htype, _, MessageType.from_value_as_value _, _, hid, _, hnonce, _, henv, rfl⟩

theorem accepted {txn : Any} {transaction_id : String}
    (htxn : Attributes.decode_string txn = some transaction_id) (plaintext : Bytes) :
    Scep.Accepted Reference.crates server "device" (pki_message txn plaintext) profile ca
      (request transaction_id plaintext) (enveloped plaintext) where
  profile := lookup_singleton.mpr ⟨rfl, rfl⟩
  ca := lookup_singleton.mpr ⟨rfl, rfl⟩
  verified := verified htxn plaintext
  message_type := .inl rfl
  enveloped := rfl

/-- The envelope opens under the CA key. -/
theorem opened (plaintext : Bytes) :
    Envelope.open_ Reference.crates (enveloped plaintext) ca.cert ca.private_key
      = .ok plaintext := by
  have hiv : Envelope.read_iv (some ⟨.OctetString, iv⟩) = .ok iv := by decide
  have hrecipient : Envelope.select_recipient Reference.crates (enveloped plaintext) ca.cert
      = .ok _ := rfl
  have hpub : Envelope.public_checks Reference.crates (enveloped plaintext) ca.cert
      = .ok ⟨⟨16, by decide⟩, content_key ++ plaintext, iv, _⟩ :=
    (Envelope.public_checks_eq_ok _).mpr ⟨rfl, rfl, hiv, hrecipient⟩
  have hwrap : Reference.crates.rsa_encrypt ca.private_key.to_public_key 0 content_key
      = .ok (enc ca_key.pubkey ++ content_key) := by
    show Reference.rsa_encrypt ca_key.pubkey 0 content_key = _
    rw [Reference.rsa_encrypt, if_pos (by decide)]
  have hlen : (16 : Nat) = Cipher.key_size .Aes128 := rfl
  exact Envelope.open_of_encrypted _ Reference.rsa_law Reference.cipher_law hpub
    (fun _ _ _ => rfl) hlen rfl rfl hwrap rfl

/-- The CSR comes out with its password. -/
theorem recovered {password : String} (h : Printable password) :
    Scep.recover_csr Reference.crates ca (enveloped (enc (csr password)))
      = .ok ⟨csr password, enc (csr password), some password⟩ := by
  have hpassword : extract_challenge_password (csr password) = some password :=
    Attributes.decode_string_printable h
  have hparse : csr.parse Reference.crates (enc (csr password))
      = .ok ⟨csr password, enc (csr password), some password⟩ :=
    (csr.parse_eq_ok _).mpr ⟨decode_enc _, rfl, hpassword.symm⟩
  rw [Scep.recover_csr, opened]
  exact hparse

/-! ## What the server can answer -/

/-- The requests of the device get certificates of bounded length. -/
theorem length_of_issuable {rt : ProfileRuntime} {enveloped : EnvelopedData} {issued : Certificate}
    (h : Scep.Issuable Reference.crates server rt ca enveloped issued) :
    (enc issued).length ≤ Reference.MAX_CERTIFICATE := by
  obtain ⟨parsed_csr, bytes, now, _, hleaf⟩ := h
  simp only [CertificateAuthority.leaf, bind_eq_ok, map_err_eq_ok] at hleaf
  obtain ⟨_, _, _, _, _, _, _, _, b, _, hbuild⟩ := hleaf
  change Reference.certificate_builder_build b = .ok issued at hbuild
  unfold Reference.certificate_builder_build at hbuild
  split_ifs at hbuild with hlen
  rw [← Except.ok.inj hbuild]
  exact hlen

theorem length_enc_any (a : Any) :
    (enc a).length = (enc a.tag).length + (2 * a.value.length + 1) := by
  show (enc a.tag ++ enc a.value).length = _
  rw [List.length_append, length_enc_bytes]

theorem length_enc_content_info (ci : ContentInfo) :
    (enc ci).length = (enc ci.content_type).length + (enc ci.content).length := by
  show (enc ci.content_type ++ enc ci.content).length = _
  rw [List.length_append]

/-- The certs-only message of such a certificate. -/
theorem length_certs_only {rt : ProfileRuntime} {enveloped : EnvelopedData} {issued : Certificate}
    {certs : Bytes} (h : Scep.Issuable Reference.crates server rt ca enveloped issued)
    (hcerts : certs_only Reference.crates issued = .ok certs) : certs.length ≤ 200000 := by
  have hissued := length_of_issuable h
  have hoid : (enc oids.ID_SIGNED_DATA).length ≤ 200 := by decide
  have htag : (enc Tag.Sequence).length ≤ 200 := by decide
  have hmax : Reference.MAX_CERTIFICATE = 65536 := rfl
  rw [← Except.ok.inj hcerts, length_enc_content_info, length_enc_any]
  show (enc oids.ID_SIGNED_DATA).length + ((enc Tag.Sequence).length
    + (2 * (enc issued).length + 1)) ≤ 200000
  omega

/-- The envelope of a reply, without the `ContentInfo` around it. -/
def out_enveloped (key iv ciphertext : Bytes) : OutEnvelopedData :=
  ⟨.V0, [⟨.Sequence, enc (Envelope.out_ktri (request "" []).recipient key)⟩],
    Envelope.out_content iv ciphertext⟩

theorem length_out_ktri (key : Bytes) :
    (enc (Envelope.out_ktri (request "" []).recipient key)).length ≤ 2 * key.length + 1001 := by
  have hhead : (enc CmsVersion.V0).length + ((enc device_cert.tbs_certificate.issuer).length +
      ((enc device_cert.tbs_certificate.serial_number).length +
        (enc (⟨oids.RSA_ENCRYPTION, some Any.Null⟩ : AlgorithmIdentifierOwned)).length)) ≤ 1000 := by
    decide
  show (enc CmsVersion.V0 ++ (enc device_cert.tbs_certificate.issuer ++
    (enc device_cert.tbs_certificate.serial_number ++
      (enc (⟨oids.RSA_ENCRYPTION, some Any.Null⟩ : AlgorithmIdentifierOwned) ++
        enc key)))).length ≤ _
  simp only [List.length_append, length_enc_bytes]
  omega

theorem length_out_enveloped (key ciphertext : Bytes) {iv : Bytes} (hiv : iv.length = 16) :
    (enc (out_enveloped key iv ciphertext)).length ≤ 4 * key.length + 2 * ciphertext.length + 4000 := by
  have hktri := length_out_ktri key
  have hversion : (enc CmsVersion.V0).length ≤ 100 := by decide
  have htag : (enc Tag.Sequence).length ≤ 200 := by decide
  have hoctets : (enc Tag.OctetString).length ≤ 200 := by decide
  have hdata : (enc oids.ID_DATA).length ≤ 200 := by decide
  have haes : (enc oids.ID_AES_256_CBC).length ≤ 200 := by decide
  show (enc CmsVersion.V0 ++ ((1 :: ((enc (⟨.Sequence,
      enc (Envelope.out_ktri (request "" []).recipient key)⟩ : Any)) ++ [0])) ++
    (enc oids.ID_DATA ++ ((enc oids.ID_AES_256_CBC ++
      (1 :: (enc (⟨.OctetString, iv⟩ : Any) ++ [0]))) ++ (1 :: (enc ciphertext ++ [0])))))).length ≤ _
  simp only [List.length_append, List.length_cons, List.length_nil, length_enc_any,
    length_enc_bytes, hiv]
  -- the lengths become variables, or `omega` unfolds the encodings to compare its atoms
  generalize (enc (Envelope.out_ktri (request "" []).recipient key)).length = ktri at hktri ⊢
  generalize (enc CmsVersion.V0).length = version at hversion ⊢
  generalize (enc Tag.Sequence).length = tag at htag ⊢
  generalize (enc Tag.OctetString).length = octets at hoctets ⊢
  generalize (enc oids.ID_DATA).length = data at hdata ⊢
  generalize (enc oids.ID_AES_256_CBC).length = aes at haes ⊢
  omega

/-- No step of a reply to the device is refused. -/
theorem reply_steps (transaction_id : String) (plaintext : Bytes) :
    Scep.ReplySteps Reference.crates server profile ca (request transaction_id plaintext)
      (enveloped plaintext) where
  encode := fun issued _ => ⟨⟨_, rfl⟩, _, rfl⟩
  wrap := by
    intro seed cek hcek
    refine ⟨enc device_key.pubkey ++ cek, ?_⟩
    show Reference.rsa_encrypt device_key.pubkey seed cek = _
    rw [Reference.rsa_encrypt, if_pos]
    rw [hcek]
    decide
  signs := fun _ => ⟨_, rfl⟩
  fits := by
    intro issued certs seed cek key iv hissued hcerts hcek hiv hkey
    have hkeylen : key.length ≤ 1000 := by
      change Reference.rsa_encrypt device_key.pubkey seed cek = .ok key at hkey
      rw [Reference.rsa_encrypt, if_pos (by rw [hcek]; decide)] at hkey
      have hpub : (enc device_key.pubkey).length ≤ 900 := by decide
      rw [← Except.ok.inj hkey, List.length_append, hcek]
      omega
    have hct : (Reference.crates.cbc_encrypt .Aes256 cek iv certs).length ≤ 300000 := by
      have hlen := length_certs_only hissued hcerts
      show (cek ++ certs).length ≤ _
      rw [List.length_append, hcek]
      omega
    generalize Reference.crates.cbc_encrypt .Aes256 cek iv certs = ct at hct ⊢
    have hmax : Length.MAX = 268435455 := rfl
    refine ⟨by omega, by omega, fun env_der hasm => ?_⟩
    simp only [Envelope.assemble, bind_eq_ok, map_err_eq_ok, OctetString.new_eq_ok] at hasm
    obtain ⟨key, ⟨_, rfl⟩, recip_info, hri, ct, ⟨_, rfl⟩, content, hcontent, hder⟩ := hasm
    rw [← Except.ok.inj hder, ← Except.ok.inj hcontent, ← Except.ok.inj hri]
    show (enc (⟨oids.ID_ENVELOPED_DATA, ⟨.Sequence, enc (out_enveloped key iv ct)⟩⟩ :
      ContentInfo)).length ≤ _
    have henv := length_out_enveloped key ct hiv
    have hoid : (enc oids.ID_ENVELOPED_DATA).length ≤ 200 := by decide
    have htag : (enc Tag.Sequence).length ≤ 200 := by decide
    rw [length_enc_content_info, length_enc_any]
    show (enc oids.ID_ENVELOPED_DATA).length + ((enc Tag.Sequence).length
      + (2 * (enc (out_enveloped key iv ct)).length + 1)) ≤ _
    omega

/-! ## Enrolling the device -/

/-- The octets the serial is drawn from. -/
def serial_octets : { b : Bytes // b.length = 16 } := ⟨List.replicate 16 1, rfl⟩

/-- The body of a request with this transactionID. -/
def body (txn : Any) : Bytes := pki_message txn (enc (csr "s3cret"))

/-- The server can issue the certificate the device asks for. -/
theorem issues : ∃ issued, ca.leaf Reference.crates (csr "s3cret")
    (Scep.issue_options server profile) (serial_of serial_octets) now = .ok issued := by
  have h : (ca.leaf Reference.crates (csr "s3cret") (Scep.issue_options server profile)
      (serial_of serial_octets) now).toBool = true := by
    decide +kernel
  cases hleaf : ca.leaf Reference.crates (csr "s3cret") (Scep.issue_options server profile)
      (serial_of serial_octets) now with
  | ok issued => exact ⟨issued, rfl⟩
  | error e =>
      rw [hleaf] at h
      cases h

theorem recovered_secret : Scep.recover_csr Reference.crates ca (enveloped (enc (csr "s3cret")))
    = .ok ⟨csr "s3cret", enc (csr "s3cret"), some "s3cret"⟩ := recovered (by decide)

theorem issuable {octets : { b : Bytes // b.length = 16 }} {issued : Certificate}
    (hleaf : ca.leaf Reference.crates (csr "s3cret") (Scep.issue_options server profile)
      (serial_of octets) now = .ok issued) :
    Scep.Issuable Reference.crates server profile ca (enveloped (enc (csr "s3cret"))) issued :=
  ⟨_, octets, now, recovered_secret, hleaf⟩

/-- The validator of the profile approves of it. -/
theorem approved (transaction_id : String) :
    profile.validator.validates (Scep.validation_input (request transaction_id
      (enc (csr "s3cret"))) ⟨csr "s3cret", enc (csr "s3cret"), some "s3cret"⟩) (.ok ()) :=
  (StaticSecretValidator.validate_eq_ok.mpr ⟨"s3cret", rfl, rfl⟩).symm

/-- Whatever comes of the persisting stage, a printable request is answered with a
certificate. -/
theorem enrols {txn : Any} {transaction_id : String}
    (htxn : Attributes.decode_string txn = some transaction_id) (hprint : Printable transaction_id)
    {octets : { b : Bytes // b.length = 16 }} {issued : Certificate}
    (hleaf : ca.leaf Reference.crates (csr "s3cret") (Scep.issue_options server profile)
      (serial_of octets) now = .ok issued)
    {t : Trace} {persisted : AppResult Unit} {faulty : Prop} {db db' : Db}
    (hpersist : Returns (Scep.persist Reference.crates profile ca
      (request transaction_id (enc (csr "s3cret"))) issued (enc issued)) t persisted)
    (hworld : Steps (step faulty) db t db') :
    ∃ t₂ der, Returns (Scep.build_success Reference.crates ca
        (request transaction_id (enc (csr "s3cret"))) issued) t₂ (.ok der) ∧
      let input := Scep.validation_input (request transaction_id (enc (csr "s3cret")))
        ⟨csr "s3cret", enc (csr "s3cret"), some "s3cret"⟩
      let tr := ⟨Op.validate profile.validator input, .ok ()⟩ ::
        ⟨Op.fill_bytes 16, octets⟩ :: ⟨Op.now, now⟩ :: (t ++ ⟨Op.on_issued profile.validator
          input (Scep.issued_info Reference.crates ca issued (enc issued)), .ok ()⟩ :: t₂)
      Returns (Scep.pki_operation Reference.crates server "device" (body txn)) tr (.ok der) ∧
        Steps (step faulty) db tr db' := by
  have hnonce : nonce.length ≤ Length.MAX := by decide
  obtain ⟨der, hreply⟩ := Scep.exists_build_success Reference.cms_law Reference.encode_law
    (reply_steps transaction_id _) (issuable hleaf)
    hprint hnonce ⟨List.replicate 32 1, rfl⟩ ⟨List.replicate 16 2, rfl⟩ 0
    ⟨List.replicate 16 3, rfl⟩
  refine ⟨_, der, hreply, ?_, ?_⟩
  · exact Scep.pki_operation_delivers (.ok ()) (accepted htxn _) recovered_secret hleaf rfl hpersist
      hreply
  · exact Scep.issuing_world (approved transaction_id) rfl hworld
      (Scep.build_success_returns hreply).1

/-- The row of the device. -/
def row (transaction_id : String) (issued : Certificate) : IssuedCertificate :=
  Scep.issued_row Reference.crates profile ca (request transaction_id (enc (csr "s3cret"))) issued
    (enc issued) (Scep.utc_text now)

/-- A persisting stage whose insert is lost. -/
theorem lost (transaction_id : String) (issued : Certificate) :
    ∃ e t, Returns (Scep.persist Reference.crates profile ca
        (request transaction_id (enc (csr "s3cret"))) issued (enc issued)) t (.error e) ∧
      Steps (step True) Db.empty t Db.empty :=
  ⟨_, _, Scep.persist_returns.mpr ⟨now, .inl ⟨"pool timed out", rfl, rfl⟩⟩,
    .cons rfl (.cons (.inr ⟨trivial, ⟨_, rfl⟩, rfl⟩) (.nil _))⟩

/-- A transactionID every reply can carry. -/
def transaction_id : String := "a1"

/-- The request of the device. -/
def pkcs_req : Bytes := body ⟨.PrintableString, transaction_id.as_bytes⟩

/-- What the verifier makes of it. -/
def pkcs_message : Verify.Message :=
  message ⟨.PrintableString, transaction_id.as_bytes⟩ (enc (csr "s3cret"))

theorem pkcs_req_decoded : Verify.decode_message Reference.crates pkcs_req = .ok pkcs_message :=
  decoded _ _

theorem read_txn : Attributes.decode_string ⟨.PrintableString, transaction_id.as_bytes⟩
    = some transaction_id := Attributes.decode_string_printable (by decide)

/-- **The device is enrolled**: its request is answered, and its row is the only one
in the table. -/
theorem enrolled : ∃ issued tr der db',
    ca.leaf Reference.crates (csr "s3cret") (Scep.issue_options server profile)
      (serial_of serial_octets) now = .ok issued ∧
    Returns (Scep.pki_operation Reference.crates server "device" pkcs_req) tr (.ok der) ∧
    Steps (step False) Db.empty tr db' ∧
    (∃ t, Returns (Scep.build_success Reference.crates ca
      (request transaction_id (enc (csr "s3cret"))) issued) t (.ok der)) ∧
    ⟨Op.db (.insert_issued (row transaction_id issued)), .ok ()⟩ ∈ tr ∧
    db'.issued_certificate.rows = [row transaction_id issued] := by
  obtain ⟨issued, hleaf⟩ := issues
  obtain ⟨t, db', hpersist, hworld, _, hmem, hrows⟩ := Scep.persist_empty now
  obtain ⟨_, der, hreply, hrun, hsteps⟩ := enrols read_txn (by decide) hleaf hpersist hworld
  refine ⟨issued, _, der, db', hleaf, hrun, hsteps, ⟨_, hreply⟩, ?_, hrows⟩
  have hrow : ⟨Op.db (.insert_issued (row transaction_id issued)), .ok ()⟩ ∈ t := hmem
  simp only [List.mem_cons, List.mem_append, hrow, true_or, or_true]

/-- The request is answered in the same way when its row is lost. -/
theorem enrolled_unstored : ∃ issued tr der,
    Returns (Scep.pki_operation Reference.crates server "device" pkcs_req) tr (.ok der) ∧
    Steps (step True) Db.empty tr Db.empty ∧
    ∃ t, Returns (Scep.build_success Reference.crates ca
      (request transaction_id (enc (csr "s3cret"))) issued) t (.ok der) := by
  obtain ⟨issued, hleaf⟩ := issues
  obtain ⟨e, t, hpersist, hworld⟩ := lost transaction_id issued
  obtain ⟨_, der, hreply, hrun, hsteps⟩ := enrols read_txn (by decide) hleaf hpersist hworld
  exact ⟨issued, _, der, hrun, hsteps, _, hreply⟩

end Device

end Blapki
