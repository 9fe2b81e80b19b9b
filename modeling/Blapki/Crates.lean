/-
The crates the server calls, as parameters of the model.

RSA, the digests and ciphers, the DER codecs of the larger structures and the
builders of `x509-cert`, `cms` and `x509-ocsp` are not part of the repository.
`Crates` lists the functions of theirs the server uses, with nothing assumed of
any; everything in the other modules is a function of it. What a result relies
on beyond that is one of the `…Law` structures at the end, each of which states
documented behaviour of one crate. The results carry the laws they need as
hypotheses, and many need none.

A builder is the record of what it was handed: `add_extension` and the like push
onto it, and only the last call, which encodes and signs, is a parameter.
Functions that draw random numbers take the state of the generator they are
handed (`Seed`).
-/
import Blapki.X509

set_option autoImplicit false

namespace Blapki

/-! ## Algorithms, extension values, builders -/

/-- The digests the server can name. -/
inductive HashAlg where
  | Sha256
  | Sha1
deriving DecidableEq, Repr

/-- The CBC ciphers the server can name. -/
inductive Cipher where
  | Aes128
  | Aes192
  | Aes256
  | TdesEde3
  | Des
deriving DecidableEq, Repr

def Cipher.key_size : Cipher → Nat
  | .Aes128 => 16
  | .Aes192 => 24
  | .Aes256 => 32
  | .TdesEde3 => 24
  | .Des => 8

def Cipher.block_size : Cipher → Nat
  | .Aes128 | .Aes192 | .Aes256 => 16
  | .TdesEde3 | .Des => 8

/-- The state of a random number generator. -/
abbrev Seed : Type := Nat

/-- `x509_cert::ext::pkix::KeyUsages`. -/
inductive KeyUsages where
  | DigitalSignature
  | NonRepudiation
  | KeyEncipherment
  | DataEncipherment
  | KeyAgreement
  | KeyCertSign
  | CRLSign
  | EncipherOnly
  | DecipherOnly
deriving DecidableEq, Repr

/-- `GeneralName`: URIs are the only ones the server builds. -/
inductive GeneralName where
  | UniformResourceIdentifier (uri : String)
  | Other (raw : Any)
deriving DecidableEq, Repr

/-- The typed extensions handed to `add_extension`. -/
inductive ExtensionValue where
  | BasicConstraints (ca : Bool) (path_len_constraint : Option Nat)
  | KeyUsage (flags : Finset KeyUsages)
  | ExtendedKeyUsage (oids : List ObjectIdentifier)
  | SubjectKeyIdentifier (key_identifier : Bytes)
  | AuthorityKeyIdentifier (key_identifier : Option Bytes)
  | SubjectAltName (names : List GeneralName)
  | AuthorityInfoAccess (descriptions : List (ObjectIdentifier × GeneralName))
  | CrlDistributionPoints (points : List (List GeneralName))
deriving DecidableEq

/-- The OID of an extension (`AssociatedOid`). -/
def ExtensionValue.oid : ExtensionValue → ObjectIdentifier
  | .BasicConstraints _ _ => ⟨[2, 5, 29, 19]⟩
  | .KeyUsage _ => ⟨[2, 5, 29, 15]⟩
  | .ExtendedKeyUsage _ => ⟨[2, 5, 29, 37]⟩
  | .SubjectKeyIdentifier _ => ⟨[2, 5, 29, 14]⟩
  | .AuthorityKeyIdentifier _ => ⟨[2, 5, 29, 35]⟩
  | .SubjectAltName _ => ⟨[2, 5, 29, 17]⟩
  | .AuthorityInfoAccess _ => ⟨[1, 3, 6, 1, 5, 5, 7, 1, 1]⟩
  | .CrlDistributionPoints _ => ⟨[2, 5, 29, 31]⟩

/-- An extension whose encoding may go by the certificate it is added to: that of the
subjectAltName, which is critical when there is no subject. -/
def ExtensionValue.by_subject : ExtensionValue → Bool
  | .SubjectAltName _ => true
  | _ => false

/-- `x509_cert::builder::Profile`, the two the server uses. -/
inductive Profile where
  | Root
  | Manual (issuer : Option Name)
deriving DecidableEq, Repr

/-- `x509_cert::builder::CertificateBuilder`. -/
structure CertificateBuilder where
  profile : Profile
  serial_number : SerialNumber
  validity : Validity
  subject : Name
  subject_public_key_info : SubjectPublicKeyInfoOwned
  cert_signer : CaSigningKey
  extensions : List Extension
deriving DecidableEq, Repr

/-- `cms::builder::SignerInfoBuilder`. -/
structure SignerInfoBuilder where
  signer : CaSigningKey
  sid : IssuerAndSerialNumber
  digest_algorithm : AlgorithmIdentifierOwned
  encapsulated_content_info : EncapsulatedContentInfo
  external_message_digest : Option Bytes
  signed_attributes : List Attribute
deriving DecidableEq, Repr

/-- `cms::builder::SignedDataBuilder`. -/
structure SignedDataBuilder where
  encapsulated_content_info : EncapsulatedContentInfo
  digest_algorithms : List AlgorithmIdentifierOwned
  certificates : List Certificate
  signer_infos : List SignerInfoBuilder
deriving DecidableEq, Repr

/-- `x509_ocsp::builder::OcspResponseBuilder`. -/
structure OcspResponseBuilder where
  responder_id : Name
  responses : List SingleResponse
  nonce : Option Bytes
deriving DecidableEq, Repr

/-- The reply's issuer and serial, `serial_number` uncapped (`envelope.rs`). -/
structure OutIssuerAndSerial where
  issuer : Name
  serial_number : SerialNumber
deriving DecidableEq, Repr

structure OutKeyTransRecipientInfo where
  version : CmsVersion
  rid : OutIssuerAndSerial
  key_enc_alg : AlgorithmIdentifierOwned
  enc_key : Bytes
deriving DecidableEq, Repr

structure OutEnvelopedData where
  version : CmsVersion
  recip_infos : List Any
  encrypted_content : EncryptedContentInfo
deriving DecidableEq, Repr

/-- `pkcs8::EncryptedPrivateKeyInfo`. -/
structure EncryptedPrivateKeyInfo where
  encryption_algorithm : AlgorithmIdentifierOwned
  encrypted_data : Bytes
deriving DecidableEq, Repr

/-! ## The functions -/

structure Crates where
  -- `der` and `cms`: what an inbound message is decoded with
  content_info_from_der : Bytes → Except String ContentInfo
  content_info_to_der : ContentInfo → Except String Bytes
  signed_data_decode : Any → Except String RelaxedSignedData
  signer_info_decode : Bytes → Except String RelaxedSignerInfo
  relaxed_certificate_decode : Bytes → Except String Certificate
  attributes_to_der : List Attribute → Except String Bytes
  enveloped_data_decode : Any → Except String EnvelopedData
  enveloped_data_from_der : Bytes → Except String EnvelopedData
  -- what an outbound one is built with
  out_ktri_encode : OutKeyTransRecipientInfo → Except String Any
  out_enveloped_data_encode : OutEnvelopedData → Except String Any
  content_info_from_certificate : Certificate → Except String ContentInfo
  create_content_type_attribute : ObjectIdentifier → Except String Attribute
  signer_info_builder_new : CaSigningKey → IssuerAndSerialNumber → AlgorithmIdentifierOwned →
    EncapsulatedContentInfo → Option Bytes → Except String SignerInfoBuilder
  add_signed_attribute : SignerInfoBuilder → Attribute → Except String SignerInfoBuilder
  add_digest_algorithm : SignedDataBuilder → AlgorithmIdentifierOwned →
    Except String SignedDataBuilder
  add_certificate : SignedDataBuilder → Certificate → Except String SignedDataBuilder
  add_signer_info : SignedDataBuilder → SignerInfoBuilder → Except String SignedDataBuilder
  signed_data_build : SignedDataBuilder → Except String ContentInfo
  -- `rsa` and `spki`
  rsa_public_key_from_pkcs1_der : Bytes → Except String RsaPublicKey
  rsa_signature_try_from : Bytes → Except String Bytes
  rsa_verify : HashAlg → RsaPublicKey → Bytes → Bytes → Bool
  rsa_try_sign : CaSigningKey → Bytes → Except String Bytes
  rsa_encrypt : RsaPublicKey → Seed → Bytes → Except String Bytes
  decrypt_blinded : RsaPrivateKey → Bytes → Except String Bytes
  rsa_private_key_new : Seed → Nat → Except String RsaPrivateKey
  spki_from_key : RsaPublicKey → Except String SubjectPublicKeyInfoOwned
  signature_algorithm_identifier : CaSigningKey → Except String AlgorithmIdentifierOwned
  signature_to_bitstring : Bytes → Except String Bytes
  -- digests and ciphers
  sha256 : Bytes → Bytes
  sha1 : Bytes → Bytes
  hmac_sha256 : Bytes → Bytes → { b : Bytes // b.length = 32 }
  cbc_encrypt : Cipher → Bytes → Bytes → Bytes → Bytes
  cbc_decrypt : Cipher → Bytes → Bytes → Bytes → Option Bytes
  -- `x509-cert`
  cert_req_from_der : Bytes → Except String CertReq
  certificate_from_der : Bytes → Except String Certificate
  certificate_to_der : Certificate → Except String Bytes
  certificate_to_pem : Certificate → Except String String
  tbs_certificate_to_der : TbsCertificate → Except String Bytes
  get_subject_key_identifier : TbsCertificate → Except String (Option (Bool × Bytes))
  subject_key_identifier : SubjectPublicKeyInfoOwned → Except String Bytes
  authority_key_identifier : SubjectPublicKeyInfoOwned → Except String (Option Bytes)
  validity_from_now : SystemTime → Nat → Except String Validity
  name_to_string : Name → String
  name_from_str : String → Except String Name
  extensions_decode : Any → Except String (List Extension)
  subject_alt_name_from_der : Bytes → Except String (List GeneralName)
  object_identifier_new : String → Except String ObjectIdentifier
  certificate_builder_new : Profile → SerialNumber → Validity → Name →
    SubjectPublicKeyInfoOwned → CaSigningKey → Except String CertificateBuilder
  to_extension : Name → List Extension → ExtensionValue → Except String Extension
  certificate_builder_build : CertificateBuilder → Except String Certificate
  -- `pkcs8`
  rsa_private_key_from_pkcs8_der : Bytes → Except String RsaPrivateKey
  rsa_private_key_from_pkcs1_der : Bytes → Except String RsaPrivateKey
  rsa_private_key_to_pkcs8_pem : RsaPrivateKey → Except String String
  encrypted_private_key_info_from_der : Bytes → Except String EncryptedPrivateKeyInfo
  encrypted_private_key_info_decrypt : EncryptedPrivateKeyInfo → Bytes → Except String Bytes
  -- CRL and OCSP
  tbs_cert_list_to_der : TbsCertList → Except String Bytes
  certificate_list_to_der : CertificateList → Except String Bytes
  certificate_list_from_der : Bytes → Except String CertificateList
  ocsp_request_from_der : Bytes → Except String OcspRequest
  ocsp_with_nonce : OcspResponseBuilder → Bytes → Except String OcspResponseBuilder
  ocsp_sign : OcspResponseBuilder → CaSigningKey → Option (List Certificate) → DateTime →
    Except String BasicOcspResponse
  response_data_to_der : ResponseData → Except String Bytes
  ocsp_response_to_der : BasicOcspResponse → Except String Bytes
  ocsp_response_from_der : Bytes → Except String BasicOcspResponse
  -- `time`
  parse_rfc3339 : String → Option SystemTime
  -- `base64`: what it says of a text it does not decode
  base64_error : List Char → String

namespace Crates

variable (X : Crates)

/-- The same crates with another RSA PKCS#1 v1.5 unwrap. -/
def with_unwrap (D : RsaPrivateKey → Bytes → Except String Bytes) : Crates :=
  { X with decrypt_blinded := D }

/-- The digest of a named algorithm. -/
def hash (alg : HashAlg) (b : Bytes) : Bytes :=
  match alg with
  | .Sha256 => X.sha256 b
  | .Sha1 => X.sha1 b

/-- `add_extension`: encode the extension and push it. -/
def add_extension (b : CertificateBuilder) (e : ExtensionValue) :
    Except String CertificateBuilder := do
  let ext ← X.to_extension b.subject b.extensions e
  pure { b with extensions := b.extensions ++ [ext] }

end Crates

/-- `SignedDataBuilder::new`. -/
def SignedDataBuilder.new (encap : EncapsulatedContentInfo) : SignedDataBuilder :=
  ⟨encap, [], [], []⟩

/-- `OcspResponseBuilder::new`. -/
def OcspResponseBuilder.new (responder : Name) : OcspResponseBuilder := ⟨responder, [], none⟩

/-- `OcspResponseBuilder::with_single_response`. -/
def OcspResponseBuilder.with_single_response (b : OcspResponseBuilder) (s : SingleResponse) :
    OcspResponseBuilder :=
  { b with responses := b.responses ++ [s] }

/-! ## Octets of DER -/

/-- pkcs, the root of the identifiers of RSA and of password-based ciphers. -/
def oids.PKCS_ARCS : List Nat := [1, 2, 840, 113549, 1]

/-- The octets it is written with. -/
def oids.PKCS_OCTETS : Bytes := [0x2a, 0x86, 0x48, 0x86, 0xf7, 0x0d, 0x01]

/-- The length octets in front of contents of this length. -/
def length_octets (n : Nat) : Bytes :=
  if n < 128 then [UInt8.ofNat n]
  else UInt8.ofNat (128 + (Nat.digits 256 n).length) :: (Nat.digits 256 n).reverse.map UInt8.ofNat

/-- A SEQUENCE of more contents than a short length can say, within what `der` takes. -/
def LongSequence (der : Bytes) : Prop :=
  ∃ contents : Bytes, 128 ≤ contents.length ∧ contents.length < 2 ^ 28 ∧
    der = 0x30 :: (length_octets contents.length ++ contents)

/-! ## What results may assume of them -/

namespace Crates

/-- PKCS#1 v1.5 with a matching key pair: a signature verifies and an unwrap
undoes a wrap. -/
structure RsaLaw (X : Crates) : Prop where
  verify_sign : ∀ k m s, X.rsa_try_sign (CaSigningKey.new k) m = .ok s →
    X.rsa_verify .Sha256 k.to_public_key m s = true
  decrypt_encrypt : ∀ (k : RsaPrivateKey) seed m c,
    X.rsa_encrypt k.to_public_key seed m = .ok c → X.decrypt_blinded k c = .ok m
  bitstring : ∀ s b, X.signature_to_bitstring s = .ok b → b = s

/-- CBC with PKCS#7 padding: decryption undoes encryption. -/
structure CipherLaw (X : Crates) : Prop where
  decrypt_encrypt : ∀ (c : Cipher) key iv p, key.length = c.key_size → iv.length = c.block_size →
    X.cbc_decrypt c key iv (X.cbc_encrypt c key iv p) = some p

/-- The attributes a signer info gets from the builder itself, before signing:
messageDigest and contentType, both only when there is content. -/
def builder_attributes (X : Crates) (si : SignerInfoBuilder) (contentType : Attribute) :
    List Attribute :=
  match si.encapsulated_content_info.econtent with
  | none => []
  | some c =>
      ⟨oids.ID_MESSAGE_DIGEST, [⟨.OctetString, X.sha256 c.value⟩]⟩ ::
        if si.signed_attributes.any (fun a => a.oid = oids.ID_CONTENT_TYPE) then []
        else [contentType]

/-- What `cms` reads back of a `SignedData` with one SHA-256 signer that its
builder wrote: the content and the certificates it was handed, and a signer info
over the handed attributes and its own, in the order the SET OF sorts them,
signed in that order by the handed key. -/
structure BuiltSignedData (X : Crates) (b : SignedDataBuilder) (si : SignerInfoBuilder)
    (ci : ContentInfo) (sd : RelaxedSignedData) (rsi : RelaxedSignerInfo)
    (attrs : List Attribute) (der : Bytes) : Prop where
  content_type : ci.content_type = oids.ID_SIGNED_DATA
  decoded : X.signed_data_decode ci.content = .ok sd
  encap : sd.encap_content_info = b.encapsulated_content_info
  certificates : ∀ c, b.certificates = [c] →
    ∃ certs, sd.certificates = some certs ∧ X.relaxed_certificate_decode certs.value = .ok c
  signer_info : X.signer_info_decode sd.signer_infos.value = .ok rsi
  digest_alg : rsi.digest_alg = si.digest_algorithm
  signed_attrs : rsi.signed_attrs = some attrs
  attributes : ∃ ct, X.create_content_type_attribute b.encapsulated_content_info.econtent_type
    = .ok ct ∧ attrs.Perm (si.signed_attributes ++ X.builder_attributes si ct)
  attributes_der : X.attributes_to_der attrs = .ok der
  signature : X.rsa_try_sign si.signer der = .ok rsi.signature

/-- `cms`: the codec of `ContentInfo` is an inverse pair, the builders keep what
they are handed. -/
structure CmsLaw (X : Crates) : Prop where
  content_info : ∀ ci b, X.content_info_to_der ci = .ok b → X.content_info_from_der b = .ok ci
  content_type : ∀ oid a, X.create_content_type_attribute oid = .ok a →
    a.oid = oids.ID_CONTENT_TYPE
  signer_info_builder_new : ∀ k sid alg encap md b,
    X.signer_info_builder_new k sid alg encap md = .ok b → b = ⟨k, sid, alg, encap, md, []⟩
  add_signed_attribute : ∀ b a b', X.add_signed_attribute b a = .ok b' →
    b' = { b with signed_attributes := b.signed_attributes ++ [a] }
  add_digest_algorithm : ∀ b a b', X.add_digest_algorithm b a = .ok b' →
    b' = { b with digest_algorithms := b.digest_algorithms ++ [a] }
  add_certificate : ∀ b c b', X.add_certificate b c = .ok b' →
    b' = { b with certificates := b.certificates ++ [c] }
  add_signer_info : ∀ b si b', X.add_signer_info b si = .ok b' →
    b' = { b with signer_infos := b.signer_infos ++ [si] }
  build : ∀ b si ci, X.signed_data_build b = .ok ci → b.signer_infos = [si] →
    si.digest_algorithm.oid = oids.ID_SHA256 →
    ∃ sd rsi attrs der, X.BuiltSignedData b si ci sd rsi attrs der

/-- What the reader of a message needs besides: a made signature reads as one, the
reply's hand-written `EnvelopedData` decodes as that of `cms` when the recipient's
serial is one it takes, and a SEQUENCE that is an `EnvelopedData`, which does not
start with an OID, is no `ContentInfo`. -/
structure ReadLaw (X : Crates) : Prop where
  signature : ∀ k m s, X.rsa_try_sign k m = .ok s → X.rsa_signature_try_from s = .ok s
  sha256_length : ∀ b, (X.sha256 b).length = 32
  enveloped_data : ∀ ktri recip_info version encrypted_content content,
    X.out_ktri_encode ktri = .ok recip_info →
    X.out_enveloped_data_encode ⟨version, [recip_info], encrypted_content⟩ = .ok content →
    ktri.rid.serial_number.as_bytes.length ≤ SerialNumber.MAX_LEN →
    X.enveloped_data_decode content = .ok ⟨version, [.Ktri ⟨ktri.version,
      .IssuerAndSerialNumber ⟨ktri.rid.issuer, ktri.rid.serial_number⟩, ktri.key_enc_alg,
      ktri.enc_key⟩], encrypted_content⟩
  not_content_info : ∀ b e ci, X.enveloped_data_from_der b = .ok e →
    X.content_info_from_der b ≠ .ok ci

/-- The encoders and builders refuse nothing: a signer info goes through when no
attribute is handed over twice and its key is large enough to sign. -/
structure EncodeLaw (X : Crates) : Prop where
  out_ktri : ∀ ktri, ∃ a, X.out_ktri_encode ktri = .ok a
  out_enveloped_data : ∀ e, ∃ a, X.out_enveloped_data_encode e = .ok a
  content_info : ∀ ci, ∃ b, X.content_info_to_der ci = .ok b
  content_type : ∀ oid, ∃ a, X.create_content_type_attribute oid = .ok a
  signer_info_builder_new : ∀ k sid alg encap md, ∃ b,
    X.signer_info_builder_new k sid alg encap md = .ok b
  add_signed_attribute : ∀ b a, ∃ b', X.add_signed_attribute b a = .ok b'
  add_digest_algorithm : ∀ b a, ∃ b', X.add_digest_algorithm b a = .ok b'
  add_certificate : ∀ b c, ∃ b', X.add_certificate b c = .ok b'
  add_signer_info : ∀ b (si : SignerInfoBuilder),
    (si.signed_attributes.map Attribute.oid).Nodup →
    (∀ m, ∃ s, X.rsa_try_sign si.signer m = .ok s) → ∃ b', X.add_signer_info b si = .ok b'
  build : ∀ (b : SignedDataBuilder) si c, b.signer_infos = [si] → b.certificates = [c] →
    (si.signed_attributes.map Attribute.oid).Nodup →
    (∀ m, ∃ s, X.rsa_try_sign si.signer m = .ok s) → ∃ ci, X.signed_data_build b = .ok ci

/-- `x509-cert`: a built certificate carries what its builder was handed and is
signed by the builder's key; the public key of a generated pair, which is not larger
than `rsa` reads, reads back. -/
structure X509Law (X : Crates) : Prop where
  builder_new : ∀ p s v subj spki k b, X.certificate_builder_new p s v subj spki k = .ok b →
    b.profile = p ∧ b.serial_number = s ∧ b.subject = subj ∧ b.subject_public_key_info = spki ∧
      b.cert_signer = k
  build : ∀ b c, X.certificate_builder_build b = .ok c →
    c.tbs_certificate.serial_number = b.serial_number ∧ c.tbs_certificate.subject = b.subject ∧
      c.tbs_certificate.subject_public_key_info = b.subject_public_key_info ∧
      (∀ issuer, b.profile = .Manual (some issuer) → c.tbs_certificate.issuer = issuer)
  build_signs : ∀ b c, X.certificate_builder_build b = .ok c →
    ∃ der, X.tbs_certificate_to_der c.tbs_certificate = .ok der ∧
      X.rsa_try_sign b.cert_signer der = .ok c.signature
  spki : ∀ seed bits (key : RsaPrivateKey) spki, bits ≤ 4096 →
    X.rsa_private_key_new seed bits = .ok key → X.spki_from_key key.to_public_key = .ok spki →
    X.rsa_public_key_from_pkcs1_der spki.subject_public_key = .ok key.to_public_key

/-- `x509-cert`: under `Profile::Manual` the builder starts without extensions and the
certificate has those that were added, each under the OID of its type, and reads back
(`read` is the decoder of a relying party). -/
structure ExtensionLaw (X : Crates) (read : Extension → Option ExtensionValue) : Prop where
  builder_new : ∀ issuer s v subj spki k b,
    X.certificate_builder_new (.Manual issuer) s v subj spki k = .ok b → b.extensions = []
  build : ∀ b c issuer, X.certificate_builder_build b = .ok c → b.profile = .Manual issuer →
    c.tbs_certificate.extensions.getD [] = b.extensions
  oid : ∀ subj exts v e, X.to_extension subj exts v = .ok e → e.extn_id = v.oid
  read : ∀ subj exts v e, X.to_extension subj exts v = .ok e → read e = some v
  by_value : ∀ subj subj' exts exts' v, v.by_subject = false →
    X.to_extension subj exts v = X.to_extension subj' exts' v

/-- `x509-cert`: a validity runs from the second of the clock for the given number of
seconds, and a certificate keeps its two instants (the builder may change their type). -/
structure ValidityLaw (X : Crates) : Prop where
  from_now : ∀ now secs v, X.validity_from_now now secs = .ok v →
    DateTime.from_system_time now = .ok v.not_before.to_date_time ∧
      DateTime.from_system_time (now.add_secs secs) = .ok v.not_after.to_date_time
  builder_new : ∀ p s v subj spki k b, X.certificate_builder_new p s v subj spki k = .ok b →
    b.validity.not_before.to_date_time = v.not_before.to_date_time ∧
      b.validity.not_after.to_date_time = v.not_after.to_date_time
  build : ∀ b c, X.certificate_builder_build b = .ok c →
    c.tbs_certificate.validity.not_before.to_date_time = b.validity.not_before.to_date_time ∧
      c.tbs_certificate.validity.not_after.to_date_time = b.validity.not_after.to_date_time

/-- `x509-cert`: nothing is refused on the way to a leaf but a validity that leaves the range
of dates. -/
structure IssueLaw (X : Crates) : Prop where
  subject_key_identifier : ∀ spki, ∃ ski, X.subject_key_identifier spki = .ok ski
  authority_key_identifier : ∀ spki, ∃ aki, X.authority_key_identifier spki = .ok aki
  validity : ∀ now secs, DateTime.Representable now → DateTime.Representable (now.add_secs secs) →
    ∃ v, X.validity_from_now now secs = .ok v
  builder_new : ∀ p s v subj spki k, ∃ b, X.certificate_builder_new p s v subj spki k = .ok b
  to_extension : ∀ subj exts v, ∃ e, X.to_extension subj exts v = .ok e

/-- `rsa` and `x509-cert`: a key of 3072 bits can be generated, a root certificate signed
with it, and the pair written as PEM. -/
structure BootstrapLaw (X : Crates) : Prop where
  key : ∀ seed, ∃ key, X.rsa_private_key_new seed 3072 = .ok key
  spki : ∀ key, ∃ spki, X.spki_from_key key = .ok spki
  signer : ∀ p s v subj spki k b, X.certificate_builder_new p s v subj spki k = .ok b →
    b.cert_signer = k
  build : ∀ seed key b, X.rsa_private_key_new seed 3072 = .ok key →
    b.cert_signer = CaSigningKey.new key → ∃ c, X.certificate_builder_build b = .ok c
  certificate_pem : ∀ c, ∃ pem, X.certificate_to_pem c = .ok pem
  key_pem : ∀ key, ∃ pem, X.rsa_private_key_to_pkcs8_pem key = .ok pem

/-- A root certificate, as the builder makes it with a serial that reads back. -/
def RootCertificate (X : Crates) (c : Certificate) : Prop :=
  ∃ serial validity subject spki key builder, SerialNumber.Readable serial ∧
    X.certificate_builder_new .Root serial validity subject spki key = .ok builder ∧
    X.certificate_builder_build builder = .ok c

/-- DER: the formats of private keys, of which an encrypted one does not count as a plain
one, exclude each other. -/
structure KeyFormatLaw (X : Crates) : Prop where
  pkcs1 : ∀ der k, X.rsa_private_key_from_pkcs1_der der = .ok k →
    ∀ k', X.rsa_private_key_from_pkcs8_der der ≠ .ok k'
  encrypted : ∀ der e, X.encrypted_private_key_info_from_der der = .ok e →
    (∀ k, X.rsa_private_key_from_pkcs8_der der ≠ .ok k) ∧
    ∀ k, X.rsa_private_key_from_pkcs1_der der ≠ .ok k

/-- DER: what is a certificate is no private key. -/
structure CertificateFormatLaw (X : Crates) : Prop where
  pkcs8 : ∀ der c, X.certificate_from_der der = .ok c →
    ∀ k, X.rsa_private_key_from_pkcs8_der der ≠ .ok k
  pkcs1 : ∀ der c, X.certificate_from_der der = .ok c →
    ∀ k, X.rsa_private_key_from_pkcs1_der der ≠ .ok k
  encrypted : ∀ der c, X.certificate_from_der der = .ok c →
    ∀ e, X.encrypted_private_key_info_from_der der ≠ .ok e

/-- DER of RSA: an object identifier under pkcs stands in it with its octets, as that of the
public key of an RSA certificate, of a PKCS#8 key and of the cipher of an encrypted one; and
a PKCS#1 key that is large enough to sign with, which has none, is a long SEQUENCE. -/
structure MaterialLaw (X : Crates) : Prop where
  certificate : ∀ der c, X.certificate_from_der der = .ok c →
    oids.PKCS_ARCS <+: c.tbs_certificate.subject_public_key_info.algorithm.oid.arcs →
    oids.PKCS_OCTETS <:+: der
  pkcs8 : ∀ der k, X.rsa_private_key_from_pkcs8_der der = .ok k → oids.PKCS_OCTETS <:+: der
  encrypted : ∀ der e, X.encrypted_private_key_info_from_der der = .ok e →
    oids.PKCS_OCTETS <:+: der
  pkcs1 : ∀ der k, X.rsa_private_key_from_pkcs1_der der = .ok k →
    ∀ m s, X.rsa_try_sign (CaSigningKey.new k) m = .ok s → LongSequence der

/-- CRL and OCSP: what is encoded is one list, a list reads back when its serials do and a
response when its serials do, the serials of a request were read, and the response builder keeps
what it is handed and signs it. -/
structure StatusLaw (X : Crates) : Prop where
  list_injective : ∀ l l' b, X.certificate_list_to_der l = .ok b →
    X.certificate_list_to_der l' = .ok b → l = l'
  certificate_list : ∀ l b, X.certificate_list_to_der l = .ok b → l.Readable →
    X.certificate_list_from_der b = .ok l
  list_readable : ∀ l b l', X.certificate_list_to_der l = .ok b →
    X.certificate_list_from_der b = .ok l' → l.Readable
  ocsp_request : ∀ b r, X.ocsp_request_from_der b = .ok r → r.Readable
  ocsp_response : ∀ r b, X.ocsp_response_to_der r = .ok b → r.Readable →
    X.ocsp_response_from_der b = .ok r
  with_nonce : ∀ b n b', X.ocsp_with_nonce b n = .ok b' → b' = { b with nonce := some n }
  ocsp_sign : ∀ b k certs t r, X.ocsp_sign b k certs t = .ok r →
    r.tbs_response_data = ⟨b.responder_id, t, b.responses, b.nonce⟩ ∧
      ∃ der, X.response_data_to_der r.tbs_response_data = .ok der ∧
        X.rsa_try_sign k der = .ok r.signature

/-- The octets are the list, and read back as it where its serials do. -/
structure Encodes (X : Crates) (der : Bytes) (l : CertificateList) : Prop where
  written : X.certificate_list_to_der l = .ok der
  read : l.Readable → X.certificate_list_from_der der = .ok l

/-- A list that was read is the one that was encoded. -/
theorem Encodes.read_eq {X : Crates} (hlaw : X.StatusLaw) {der : Bytes} {l l' : CertificateList}
    (h : X.Encodes der l) (hread : X.certificate_list_from_der der = .ok l') : l' = l := by
  have hreadable := hlaw.list_readable l der l' h.written hread
  exact Except.ok.inj (hread.symm.trans (h.read hreadable))

end Crates

end Blapki
