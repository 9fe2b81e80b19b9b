/-
The ASN.1 structures of the crates the server works on (`x509-cert`, `cms`,
`x509-ocsp`, `rsa`), as far as the server reads or writes their fields.

The strict and the relaxed profile of a certificate differ in what a decoder
accepts, not in the decoded value, so one `Certificate` serves both. A `SetOfVec`
is the list of its elements in the order the crate keeps them.
-/
import Blapki.Basic

set_option autoImplicit false

namespace Blapki

/-! ## Names, keys, serial numbers -/

/-- `x509_cert::attr::AttributeTypeAndValue`. -/
structure AttributeTypeAndValue where
  oid : ObjectIdentifier
  value : Any
deriving DecidableEq, Repr

/-- `x509_cert::name::Name`: a sequence of relative distinguished names. -/
structure Name where
  rdns : List (List AttributeTypeAndValue)
deriving DecidableEq, Repr

/-- `spki::AlgorithmIdentifierOwned`. -/
structure AlgorithmIdentifierOwned where
  oid : ObjectIdentifier
  parameters : Option Any
deriving DecidableEq, Repr

/-- `spki::SubjectPublicKeyInfoOwned`. -/
structure SubjectPublicKeyInfoOwned where
  algorithm : AlgorithmIdentifierOwned
  subject_public_key : Bytes
deriving DecidableEq, Repr

/-- `rsa::RsaPublicKey`. -/
structure RsaPublicKey where
  n : Nat
  e : Nat
deriving DecidableEq, Repr

/-- `rsa::RsaPrivateKey`. -/
structure RsaPrivateKey where
  pubkey : RsaPublicKey
  d : Nat
  primes : List Nat
deriving DecidableEq, Repr

/-- `RsaPrivateKey::to_public_key`. -/
def RsaPrivateKey.to_public_key (k : RsaPrivateKey) : RsaPublicKey := k.pubkey

/-- The RSA + SHA-256 signing key used by CAs to sign both certificates and CMS
`SignedData`. -/
structure CaSigningKey where
  inner : RsaPrivateKey
deriving DecidableEq, Repr

def CaSigningKey.new (key : RsaPrivateKey) : CaSigningKey := ⟨key⟩

/-- `Keypair::verifying_key`. -/
def CaSigningKey.verifying_key (k : CaSigningKey) : RsaPublicKey := k.inner.to_public_key

/-- No octet less would do: the first nine bits are not all alike. -/
def Minimal : Bytes → Prop
  | [] => False
  | [_] => True
  | a :: b :: _ => ¬ (a.toNat = 0 ∧ b.toNat < 128) ∧ ¬ (a.toNat = 255 ∧ 128 ≤ b.toNat)

instance : DecidablePred Minimal := fun b =>
  match b with
  | [] => inferInstanceAs (Decidable False)
  | [_] => inferInstanceAs (Decidable True)
  | _ :: _ :: _ => inferInstanceAs (Decidable (_ ∧ _))

/-- `x509_cert::serial_number::SerialNumber`: the content octets of the INTEGER. -/
structure SerialNumber where
  as_bytes : Bytes
deriving DecidableEq, Repr

namespace SerialNumber

/-- The longest serial `new` builds, in octets of its encoding. -/
def MAX_LEN : Nat := 20

/-- The longest serial that is read. -/
def MAX_DECODE_LEN : Nat := 21

/-- `Uint::new` drops leading zeroes. -/
def strip_leading_zeroes : Bytes → Bytes
  | 0 :: b :: bs => strip_leading_zeroes (b :: bs)
  | bs => bs

/-- An INTEGER needs a leading zero when its first bit would read as a sign. -/
def with_sign : Bytes → Bytes
  | b :: bs => if 128 ≤ b.toNat then 0 :: b :: bs else b :: bs
  | [] => []

/-- `SerialNumber::new`, on an unsigned big-endian number. -/
def new (bytes : Bytes) : Except String SerialNumber :=
  let octets := with_sign (strip_leading_zeroes bytes)
  if octets.length ≤ MAX_LEN then .ok ⟨octets⟩ else .error "ASN.1 DER message is too long"

theorem new_eq_ok {b : Bytes} {s : SerialNumber} :
    new b = .ok s ↔
      (with_sign (strip_leading_zeroes b)).length ≤ MAX_LEN ∧
        s = ⟨with_sign (strip_leading_zeroes b)⟩ := by
  rw [new]
  by_cases h : (with_sign (strip_leading_zeroes b)).length ≤ MAX_LEN
  · rw [if_pos h]
    simp only [Except.ok.injEq, h, true_and, eq_comm]
  · rw [if_neg h]
    simp only [reduceCtorEq, h, false_and]

/-- The octets of the encoding of a serial, which is an unsigned number. -/
def len (s : SerialNumber) : Nat := (with_sign (strip_leading_zeroes s.as_bytes)).length

/-- What the reader of an INTEGER takes for a serial. `new` builds one serial that it does not,
that of no octets at all. -/
def Readable (s : SerialNumber) : Prop := Minimal s.as_bytes ∧ s.as_bytes.length ≤ MAX_DECODE_LEN

instance (s : SerialNumber) : Decidable s.Readable := inferInstanceAs (Decidable (_ ∧ _))

theorem strip_leading_zeroes_cases (x : UInt8) (b : Bytes) :
    ∃ y c, strip_leading_zeroes (x :: b) = y :: c ∧ (y = 0 → c = []) := by
  induction b generalizing x with
  | nil =>
      refine ⟨x, [], ?_, fun _ => rfl⟩
      unfold strip_leading_zeroes
      split
      · rename_i heq
        cases heq
      · rfl
  | cons y b ih =>
      by_cases hx : x = 0
      · rw [hx, strip_leading_zeroes]
        exact ih y
      · refine ⟨x, y :: b, ?_, fun hno => absurd hno hx⟩
        unfold strip_leading_zeroes
        split
        · rename_i heq
          exact absurd (List.cons.inj heq).1 hx
        · rfl

theorem minimal_with_sign {y : UInt8} {c : Bytes} (hzero : y = 0 → c = []) :
    Minimal (with_sign (y :: c)) := by
  by_cases hsign : 128 ≤ y.toNat
  · rw [with_sign, if_pos hsign]
    refine ⟨fun hno => ?_, fun hno => ?_⟩
    · omega
    · exact absurd hno.1 (by decide)
  · rw [with_sign, if_neg hsign]
    cases c with
    | nil => trivial
    | cons z c =>
        refine ⟨fun hno => ?_, fun hno => by omega⟩
        exact absurd (hzero (UInt8.toNat_inj.mp hno.1)) (List.cons_ne_nil z c)

/-- A serial that `new` built is read back when it was built of any octets. -/
theorem new_readable {b : Bytes} {s : SerialNumber} (h : new b = .ok s) :
    s.Readable ↔ b ≠ [] := by
  obtain ⟨hlen, rfl⟩ := new_eq_ok.mp h
  cases b with
  | nil => exact iff_of_false (fun hno => hno.1) (fun hno => hno rfl)
  | cons x b =>
      obtain ⟨y, c, hstrip, hzero⟩ := strip_leading_zeroes_cases x b
      rw [hstrip] at hlen ⊢
      exact iff_of_true ⟨minimal_with_sign hzero, Nat.le_succ_of_le hlen⟩ (List.cons_ne_nil x b)

end SerialNumber

/-! ## Certificates and requests -/

/-- `x509_cert::time::Time`. -/
inductive Time where
  | UtcTime (dt : DateTime)
  | GeneralTime (dt : DateTime)
deriving DecidableEq, Repr

def Time.to_date_time : Time → DateTime
  | .UtcTime dt => dt
  | .GeneralTime dt => dt

structure Validity where
  not_before : Time
  not_after : Time
deriving DecidableEq, Repr

/-- `x509_cert::ext::Extension`. -/
structure Extension where
  extn_id : ObjectIdentifier
  critical : Bool
  extn_value : Bytes
deriving DecidableEq, Repr

structure TbsCertificate where
  serial_number : SerialNumber
  signature : AlgorithmIdentifierOwned
  issuer : Name
  validity : Validity
  subject : Name
  subject_public_key_info : SubjectPublicKeyInfoOwned
  extensions : Option (List Extension)
deriving DecidableEq, Repr

structure Certificate where
  tbs_certificate : TbsCertificate
  signature_algorithm : AlgorithmIdentifierOwned
  signature : Bytes
deriving DecidableEq, Repr

/-- `x509_cert::attr::Attribute`. -/
structure Attribute where
  oid : ObjectIdentifier
  values : List Any
deriving DecidableEq, Repr

/-- `x509_cert::request::CertReqInfo`. -/
structure CertReqInfo where
  subject : Name
  public_key : SubjectPublicKeyInfoOwned
  attributes : List Attribute
deriving DecidableEq, Repr

/-- `x509_cert::request::CertReq`, a PKCS#10 request. -/
structure CertReq where
  info : CertReqInfo
  algorithm : AlgorithmIdentifierOwned
  signature : Bytes
deriving DecidableEq, Repr

/-! ## CMS -/

structure ContentInfo where
  content_type : ObjectIdentifier
  content : Any
deriving DecidableEq, Repr

structure EncapsulatedContentInfo where
  econtent_type : ObjectIdentifier
  econtent : Option Any
deriving DecidableEq, Repr

/-- Relaxed `SignedData`: serial-bearing fields are raw `Any`. -/
structure RelaxedSignedData where
  version : Any
  digest_algorithms : Any
  encap_content_info : EncapsulatedContentInfo
  certificates : Option Any
  crls : Option Any
  signer_infos : Any
deriving DecidableEq, Repr

/-- Relaxed `SignerInfo`: `sid` (an issuer+serial) is kept raw. -/
structure RelaxedSignerInfo where
  version : Any
  sid : Any
  digest_alg : AlgorithmIdentifierOwned
  signed_attrs : Option (List Attribute)
  signature_algorithm : AlgorithmIdentifierOwned
  signature : Bytes
  unsigned_attrs : Option Any
deriving DecidableEq, Repr

structure IssuerAndSerialNumber where
  issuer : Name
  serial_number : SerialNumber
deriving DecidableEq, Repr

inductive RecipientIdentifier where
  | IssuerAndSerialNumber (ias : IssuerAndSerialNumber)
  | SubjectKeyIdentifier (ski : Bytes)
deriving DecidableEq, Repr

inductive CmsVersion where
  | V0 | V1 | V2 | V3 | V4 | V5
deriving DecidableEq, Repr

structure KeyTransRecipientInfo where
  version : CmsVersion
  rid : RecipientIdentifier
  key_enc_alg : AlgorithmIdentifierOwned
  enc_key : Bytes
deriving DecidableEq, Repr

/-- The other kinds of recipient are carried along undecoded: nothing reads them. -/
inductive RecipientInfo where
  | Ktri (ktri : KeyTransRecipientInfo)
  | Kari (raw : Any)
  | Kekri (raw : Any)
  | Pwri (raw : Any)
  | Ori (raw : Any)
deriving DecidableEq, Repr

structure EncryptedContentInfo where
  content_type : ObjectIdentifier
  content_enc_alg : AlgorithmIdentifierOwned
  encrypted_content : Option Bytes
deriving DecidableEq, Repr

structure EnvelopedData where
  version : CmsVersion
  recip_infos : List RecipientInfo
  encrypted_content : EncryptedContentInfo
deriving DecidableEq, Repr

/-! ## CRL and OCSP -/

structure RevokedCert where
  serial_number : SerialNumber
  revocation_date : Time
deriving DecidableEq, Repr

structure TbsCertList where
  signature : AlgorithmIdentifierOwned
  issuer : Name
  this_update : Time
  next_update : Option Time
  revoked_certificates : Option (List RevokedCert)
deriving DecidableEq, Repr

structure CertificateList where
  tbs_cert_list : TbsCertList
  signature_algorithm : AlgorithmIdentifierOwned
  signature : Bytes
deriving DecidableEq, Repr

/-- The entries of a CRL; a list without any has no such field. -/
def CertificateList.entries (l : CertificateList) : List RevokedCert :=
  l.tbs_cert_list.revoked_certificates.getD []

/-- Every serial of the list is one that is read. -/
def CertificateList.Readable (l : CertificateList) : Prop :=
  ∀ entry ∈ l.entries, entry.serial_number.Readable

instance (l : CertificateList) : Decidable l.Readable :=
  inferInstanceAs (Decidable (∀ entry ∈ l.entries, entry.serial_number.Readable))

structure CertId where
  hash_algorithm : AlgorithmIdentifierOwned
  issuer_name_hash : Bytes
  issuer_key_hash : Bytes
  serial_number : SerialNumber
deriving DecidableEq, Repr

/-- `x509_ocsp::Request`. -/
structure OcspEntry where
  req_cert : CertId
deriving DecidableEq, Repr

/-- `x509_ocsp::OcspRequest`: the request list and the nonce extension. -/
structure OcspRequest where
  request_list : List OcspEntry
  nonce : Option Bytes
deriving DecidableEq, Repr

/-- Every serial that is asked for is one that is read. -/
def OcspRequest.Readable (r : OcspRequest) : Prop :=
  ∀ entry ∈ r.request_list, entry.req_cert.serial_number.Readable

instance (r : OcspRequest) : Decidable r.Readable :=
  inferInstanceAs (Decidable (∀ entry ∈ r.request_list, entry.req_cert.serial_number.Readable))

/-- `x509_ocsp::RevokedInfo`. -/
structure RevokedInfo where
  revocation_time : DateTime
  revocation_reason : Option Nat
deriving DecidableEq, Repr

inductive CertStatus where
  | Good
  | Revoked (info : RevokedInfo)
  | Unknown
deriving DecidableEq, Repr

structure SingleResponse where
  cert_id : CertId
  cert_status : CertStatus
  this_update : DateTime
  next_update : Option DateTime
deriving DecidableEq, Repr

structure ResponseData where
  responder_id : Name
  produced_at : DateTime
  responses : List SingleResponse
  nonce : Option Bytes
deriving DecidableEq, Repr

structure BasicOcspResponse where
  tbs_response_data : ResponseData
  signature : Bytes
  certs : Option (List Certificate)
deriving DecidableEq, Repr

/-- Every serial that is answered is one that is read. -/
def BasicOcspResponse.Readable (r : BasicOcspResponse) : Prop :=
  ∀ single ∈ r.tbs_response_data.responses, single.cert_id.serial_number.Readable

end Blapki
