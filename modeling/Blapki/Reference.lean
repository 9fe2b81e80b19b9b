/-
A reference implementation of the crates: what the laws of `Crates` ask for can
be had, and there is something to run the server on.

The codecs are prefix codes. The cryptography is transparent: a signature is the
public key and the digest of the message, a wrapped key is the public key and the
key, a ciphertext is the key and the plaintext. It keeps nothing secret, but it
tells apart what the server tells apart: another key, another message, another
padding. Certificates longer than `MAX_CERTIFICATE` are refused, as are plaintexts
too long to wrap.
-/
import Blapki.Codec
import Blapki.Crates

set_option autoImplicit false

namespace Blapki

open Codec

/-! ## Codecs of the structures -/

instance : Codec ObjectIdentifier := via (fun o => o.arcs) (fun l => some ⟨l⟩) fun _ => rfl

/-- The universal tag numbers; the others come behind them. -/
def Tag.number : Tag → Nat
  | .Integer => 2
  | .BitString => 3
  | .OctetString => 4
  | .Null => 5
  | .Utf8String => 12
  | .Sequence => 16
  | .Set => 17
  | .PrintableString => 19
  | .Ia5String => 22
  | .Other n => n + 32

def Tag.of_number : Nat → Option Tag
  | 2 => some .Integer
  | 3 => some .BitString
  | 4 => some .OctetString
  | 5 => some .Null
  | 12 => some .Utf8String
  | 16 => some .Sequence
  | 17 => some .Set
  | 19 => some .PrintableString
  | 22 => some .Ia5String
  | n + 32 => some (.Other n)
  | _ => none

instance : Codec Tag := via Tag.number Tag.of_number fun t => by cases t <;> rfl

instance : Codec Any := via (fun a => (a.tag, a.value)) (fun (t, v) => some ⟨t, v⟩) fun _ => rfl

instance : Codec AttributeTypeAndValue :=
  via (fun a => (a.oid, a.value)) (fun (o, v) => some ⟨o, v⟩) fun _ => rfl

instance : Codec Name := via (fun n => n.rdns) (fun l => some ⟨l⟩) fun _ => rfl

instance : Codec AlgorithmIdentifierOwned :=
  via (fun a => (a.oid, a.parameters)) (fun (o, p) => some ⟨o, p⟩) fun _ => rfl

instance : Codec SubjectPublicKeyInfoOwned :=
  via (fun s => (s.algorithm, s.subject_public_key)) (fun (a, k) => some ⟨a, k⟩) fun _ => rfl

instance : Codec RsaPublicKey := via (fun k => (k.n, k.e)) (fun (n, e) => some ⟨n, e⟩) fun _ => rfl

instance : Codec RsaPrivateKey :=
  via (fun k => (k.pubkey, k.d, k.primes)) (fun (p, d, l) => some ⟨p, d, l⟩) fun _ => rfl

instance : Codec SerialNumber := via (fun s => s.as_bytes) (fun b => some ⟨b⟩) fun _ => rfl

instance : Codec DateTime :=
  via (fun d => d.unix_secs) (fun n => if h : n ≤ DateTime.MAX then some ⟨n, h⟩ else none)
    fun d => dif_pos d.in_range

instance : Codec Time :=
  via (fun t => match t with | .UtcTime d => (true, d) | .GeneralTime d => (false, d))
    (fun (utc, d) => some (if utc then .UtcTime d else .GeneralTime d))
    fun t => by cases t <;> rfl

instance : Codec Validity :=
  via (fun v => (v.not_before, v.not_after)) (fun (a, b) => some ⟨a, b⟩) fun _ => rfl

instance : Codec Extension :=
  via (fun e => (e.extn_id, e.critical, e.extn_value)) (fun (o, c, v) => some ⟨o, c, v⟩) fun _ => rfl

instance : Codec TbsCertificate :=
  via (fun t => (t.serial_number, t.signature, t.issuer, t.validity, t.subject,
      t.subject_public_key_info, t.extensions))
    (fun (s, a, i, v, n, k, x) => some ⟨s, a, i, v, n, k, x⟩) fun _ => rfl

instance : Codec Certificate :=
  via (fun c => (c.tbs_certificate, c.signature_algorithm, c.signature))
    (fun (t, a, s) => some ⟨t, a, s⟩) fun _ => rfl

instance : Codec Attribute := via (fun a => (a.oid, a.values)) (fun (o, v) => some ⟨o, v⟩) fun _ => rfl

instance : Codec CertReqInfo :=
  via (fun i => (i.subject, i.public_key, i.attributes)) (fun (n, k, a) => some ⟨n, k, a⟩) fun _ => rfl

instance : Codec CertReq :=
  via (fun r => (r.info, r.algorithm, r.signature)) (fun (i, a, s) => some ⟨i, a, s⟩) fun _ => rfl

instance : Codec ContentInfo :=
  via (fun c => (c.content_type, c.content)) (fun (o, a) => some ⟨o, a⟩) fun _ => rfl

instance : Codec EncapsulatedContentInfo :=
  via (fun e => (e.econtent_type, e.econtent)) (fun (o, a) => some ⟨o, a⟩) fun _ => rfl

instance : Codec RelaxedSignedData :=
  via (fun s => (s.version, s.digest_algorithms, s.encap_content_info, s.certificates, s.crls,
      s.signer_infos))
    (fun (v, d, e, c, l, i) => some ⟨v, d, e, c, l, i⟩) fun _ => rfl

instance : Codec RelaxedSignerInfo :=
  via (fun s => (s.version, s.sid, s.digest_alg, s.signed_attrs, s.signature_algorithm, s.signature,
      s.unsigned_attrs))
    (fun (v, i, d, a, g, s, u) => some ⟨v, i, d, a, g, s, u⟩) fun _ => rfl

instance : Codec IssuerAndSerialNumber :=
  via (fun i => (i.issuer, i.serial_number)) (fun (n, s) => some ⟨n, s⟩) fun _ => rfl

instance : Codec RecipientIdentifier :=
  via (fun r => match r with
      | .IssuerAndSerialNumber ias => (some ias, [])
      | .SubjectKeyIdentifier ski => (none, ski))
    (fun (ias, ski) => some (match ias with
      | some ias => .IssuerAndSerialNumber ias
      | none => .SubjectKeyIdentifier ski))
    fun r => by cases r <;> rfl

instance : Codec CmsVersion :=
  via (fun v => match v with | .V0 => 0 | .V1 => 1 | .V2 => 2 | .V3 => 3 | .V4 => 4 | .V5 => 5)
    (fun n : Nat => match n with
      | 0 => some .V0 | 1 => some .V1 | 2 => some .V2 | 3 => some .V3 | 4 => some .V4 | 5 => some .V5
      | _ => none)
    fun v => by cases v <;> rfl

instance : Codec KeyTransRecipientInfo :=
  via (fun k => (k.version, k.rid, k.key_enc_alg, k.enc_key))
    (fun (v, r, a, e) => some ⟨v, r, a, e⟩) fun _ => rfl

instance : Codec RecipientInfo :=
  via (fun r => match r with
      | .Ktri ktri => ((0 : Nat), some ktri, Any.Null)
      | .Kari raw => (1, none, raw)
      | .Kekri raw => (2, none, raw)
      | .Pwri raw => (3, none, raw)
      | .Ori raw => (4, none, raw))
    (fun r => match r with
      | (0, some ktri, _) => some (.Ktri ktri)
      | (1, _, raw) => some (.Kari raw)
      | (2, _, raw) => some (.Kekri raw)
      | (3, _, raw) => some (.Pwri raw)
      | (4, _, raw) => some (.Ori raw)
      | _ => none)
    fun r => by cases r <;> rfl

instance : Codec EncryptedContentInfo :=
  via (fun e => (e.content_type, e.content_enc_alg, e.encrypted_content))
    (fun (o, a, c) => some ⟨o, a, c⟩) fun _ => rfl

instance : Codec EnvelopedData :=
  via (fun e => (e.version, e.recip_infos, e.encrypted_content))
    (fun (v, r, c) => some ⟨v, r, c⟩) fun _ => rfl

instance : Codec OutKeyTransRecipientInfo :=
  via (fun k => (k.version, k.rid.issuer, k.rid.serial_number, k.key_enc_alg, k.enc_key))
    (fun (v, i, s, a, e) => some ⟨v, ⟨i, s⟩, a, e⟩) fun _ => rfl

instance : Codec OutEnvelopedData :=
  via (fun e => (e.version, e.recip_infos, e.encrypted_content))
    (fun (v, r, c) => some ⟨v, r, c⟩) fun _ => rfl

instance : Codec GeneralName :=
  via (fun g => match g with
      | .UniformResourceIdentifier uri => (some uri, Any.Null)
      | .Other raw => (none, raw))
    (fun (uri, raw) => some (match uri with
      | some uri => .UniformResourceIdentifier uri
      | none => .Other raw))
    fun g => by cases g <;> rfl

instance : Codec EncryptedPrivateKeyInfo :=
  via (fun e => (e.encryption_algorithm, e.encrypted_data)) (fun (a, d) => some ⟨a, d⟩) fun _ => rfl

instance : Codec RevokedCert :=
  via (fun r => (r.serial_number, r.revocation_date)) (fun (s, d) => some ⟨s, d⟩) fun _ => rfl

instance : Codec TbsCertList :=
  via (fun t => (t.signature, t.issuer, t.this_update, t.next_update, t.revoked_certificates))
    (fun (a, i, d, n, r) => some ⟨a, i, d, n, r⟩) fun _ => rfl

instance : Codec CertificateList :=
  via (fun l => (l.tbs_cert_list, l.signature_algorithm, l.signature))
    (fun (t, a, s) => some ⟨t, a, s⟩) fun _ => rfl

instance : Codec CertId :=
  via (fun c => (c.hash_algorithm, c.issuer_name_hash, c.issuer_key_hash, c.serial_number))
    (fun (a, n, k, s) => some ⟨a, n, k, s⟩) fun _ => rfl

instance : Codec OcspEntry := via (fun e => e.req_cert) (fun c => some ⟨c⟩) fun _ => rfl

instance : Codec OcspRequest :=
  via (fun r => (r.request_list, r.nonce)) (fun (l, n) => some ⟨l, n⟩) fun _ => rfl

instance : Codec CertStatus :=
  via (fun c => match c with
      | .Good => ((0 : Nat), none, none)
      | .Unknown => (1, none, none)
      | .Revoked info => (2, some info.revocation_time, info.revocation_reason))
    (fun c => match c with
      | (0, _, _) => some .Good
      | (1, _, _) => some .Unknown
      | (2, some time, reason) => some (.Revoked ⟨time, reason⟩)
      | _ => none)
    fun c => by cases c <;> rfl

instance : Codec SingleResponse :=
  via (fun s => (s.cert_id, s.cert_status, s.this_update, s.next_update))
    (fun (i, s, t, n) => some ⟨i, s, t, n⟩) fun _ => rfl

instance : Codec ResponseData :=
  via (fun r => (r.responder_id, r.produced_at, r.responses, r.nonce))
    (fun (i, t, r, n) => some ⟨i, t, r, n⟩) fun _ => rfl

instance : Codec BasicOcspResponse :=
  via (fun r => (r.tbs_response_data, r.signature, r.certs)) (fun (t, s, c) => some ⟨t, s, c⟩)
    fun _ => rfl

/-! ## Functions -/

namespace Reference

/-- A digest of `n` octets: the message, cut or filled up. -/
def digest (n : Nat) (m : Bytes) : Bytes := (m ++ List.replicate n 0).take n

theorem length_digest (n : Nat) (m : Bytes) : (digest n m).length = n := by
  rw [digest, List.length_take, List.length_append, List.length_replicate]
  omega

/-- The signature of a message under a key. -/
def mark (k : RsaPublicKey) (m : Bytes) : Bytes := enc k ++ digest 32 m

/-- A signature belongs to one key. -/
theorem mark_key {k k' : RsaPublicKey} {m m' : Bytes} (h : mark k m = mark k' m') : k = k' := by
  have hdec : (dec (mark k m) : Option (RsaPublicKey × Bytes)) = dec (mark k' m') := by rw [h]
  rw [mark, mark, dec_enc, dec_enc, Option.some.injEq, Prod.mk.injEq] at hdec
  exact hdec.1

/-- The longest text to wrap under a key. -/
def MAX_WRAP : Nat := 245

/-- The longest encoding of a certificate. -/
def MAX_CERTIFICATE : Nat := 65536

def rsa_encrypt (k : RsaPublicKey) (_ : Seed) (m : Bytes) : Except String Bytes :=
  if m.length ≤ MAX_WRAP then .ok (enc k ++ m) else .error "message too long"

def decrypt_blinded (k : RsaPrivateKey) (c : Bytes) : Except String Bytes :=
  match (dec c : Option (RsaPublicKey × Bytes)) with
  | some (k', m) => if k' = k.pubkey then .ok m else .error "decryption error"
  | none => .error "decryption error"

def cbc_decrypt (_ : Cipher) (key _iv c : Bytes) : Option Bytes :=
  if c.take key.length = key then some (c.drop key.length) else none

def rsa_algorithm : AlgorithmIdentifierOwned := ⟨oids.RSA_ENCRYPTION, some Any.Null⟩

/-- sha256WithRSAEncryption -/
def signature_algorithm : AlgorithmIdentifierOwned :=
  ⟨⟨[1, 2, 840, 113549, 1, 1, 11]⟩, some Any.Null⟩

def spki_from_key (k : RsaPublicKey) : SubjectPublicKeyInfoOwned := ⟨rsa_algorithm, enc k⟩

def content_type_attribute (oid : ObjectIdentifier) : Attribute :=
  ⟨oids.ID_CONTENT_TYPE, [⟨.Other 6, enc oid⟩]⟩

/-- The attributes a signer info ends up with, in a message of this content type. -/
def all_attributes (content_type : ObjectIdentifier) (si : SignerInfoBuilder) : List Attribute :=
  si.signed_attributes ++
    match si.encapsulated_content_info.econtent with
    | none => []
    | some c =>
        ⟨oids.ID_MESSAGE_DIGEST, [⟨.OctetString, digest 32 c.value⟩]⟩ ::
          if si.signed_attributes.any (fun a => a.oid = oids.ID_CONTENT_TYPE) then []
          else [content_type_attribute content_type]

/-- A signer info over these attributes. -/
def sign_info (si : SignerInfoBuilder) (attrs : List Attribute) : RelaxedSignerInfo where
  version := ⟨.Integer, [1]⟩
  sid := ⟨.Sequence, enc si.sid⟩
  digest_alg := si.digest_algorithm
  signed_attrs := some attrs
  signature_algorithm := rsa_algorithm
  signature := mark si.signer.verifying_key (enc attrs)
  unsigned_attrs := none

/-- A `SignedData` with one certificate and one signer. -/
def signed_data (encap : EncapsulatedContentInfo) (algs : List AlgorithmIdentifierOwned)
    (cert : Certificate) (signer : RelaxedSignerInfo) : RelaxedSignedData where
  version := ⟨.Integer, [1]⟩
  digest_algorithms := ⟨.Set, enc algs⟩
  encap_content_info := encap
  certificates := some ⟨.Other 0, enc cert⟩
  crls := none
  signer_infos := ⟨.Set, enc signer⟩

def signed_data_build (b : SignedDataBuilder) : Except String ContentInfo :=
  match b.signer_infos, b.certificates with
  | [si], [cert] =>
      .ok ⟨oids.ID_SIGNED_DATA, ⟨.Sequence,
        enc (signed_data b.encapsulated_content_info b.digest_algorithms cert
          (sign_info si (all_attributes b.encapsulated_content_info.econtent_type si)))⟩⟩
  | _, _ => .error "one signer with one certificate is what is built here"

/-- `Time` of a clock reading: UTCTime before 2050. -/
def time_of (d : DateTime) : Time := if d.year < 2050 then .UtcTime d else .GeneralTime d

theorem to_date_time_of (d : DateTime) : (time_of d).to_date_time = d := by
  rw [time_of]
  split_ifs <;> rfl

def validity_from_now (now : SystemTime) (secs : Nat) : Except String Validity := do
  let not_before ← DateTime.from_system_time now
  let not_after ← DateTime.from_system_time (now.add_secs secs)
  pure ⟨time_of not_before, time_of not_after⟩

/-- id-at-commonName -/
def ID_COMMON_NAME : ObjectIdentifier := ⟨[2, 5, 4, 3]⟩

/-- A name of one common name. -/
def common_name (cn : String) : Name := ⟨[[⟨ID_COMMON_NAME, ⟨.Utf8String, cn.as_bytes⟩⟩]]⟩

def name_to_string (n : Name) : String :=
  ",".intercalate (n.rdns.flatten.map fun a => "CN=" ++ (from_utf8 a.value.value).getD "")

/-- Names of one common name are the ones read. -/
def name_from_str (s : String) : Except String Name :=
  match s.toList with
  | 'C' :: 'N' :: '=' :: cn => .ok (common_name (String.ofList cn))
  | _ => .error "malformed name"

/-- The certificate before it is signed. A root is its own issuer. -/
def tbs_certificate (b : CertificateBuilder) : TbsCertificate where
  serial_number := b.serial_number
  signature := signature_algorithm
  issuer := match b.profile with
    | .Root => b.subject
    | .Manual issuer => issuer.getD b.subject
  validity := b.validity
  subject := b.subject
  subject_public_key_info := b.subject_public_key_info
  extensions := if b.extensions.isEmpty then none else some b.extensions

def certificate (b : CertificateBuilder) : Certificate :=
  ⟨tbs_certificate b, signature_algorithm, mark b.cert_signer.verifying_key (enc (tbs_certificate b))⟩

def certificate_builder_build (b : CertificateBuilder) : Except String Certificate :=
  if (enc (certificate b)).length ≤ MAX_CERTIFICATE then .ok (certificate b)
  else .error "certificate too long"

/-- A block of PEM text. -/
def pem (label : String) (der : Bytes) : String :=
  "-----BEGIN " ++ label ++ "-----\n" ++ base64.encode der ++ "\n-----END " ++ label ++ "-----\n"

/-- A two-digit or four-digit number. -/
def number (digits : List Char) : Option Nat :=
  digits.foldlM (fun n c => if c.isDigit then some (10 * n + (c.toNat - 48)) else none) 0

/-- The seconds from the epoch of a date and a time of day. -/
def unix_secs (year month day hour minutes seconds : Nat) : Int :=
  let y : Int := if month ≤ 2 then year - 1 else year
  let m : Int := if month ≤ 2 then month + 9 else month - 3
  let days := 365 * y + y / 4 - y / 100 + y / 400 + (153 * m + 2) / 5 + day - 1 - 719468
  days * 86400 + hour * 3600 + minutes * 60 + seconds

/-- Dates in UTC without a fraction are the ones read. -/
def parse_rfc3339 (s : String) : Option SystemTime :=
  match s.toList with
  | [a, b, c, d, '-', e, f, '-', g, h, 'T', i, j, ':', k, l, ':', m, n, 'Z'] => do
      let secs := unix_secs (← number [a, b, c, d]) (← number [e, f]) (← number [g, h])
        (← number [i, j]) (← number [k, l]) (← number [m, n])
      pure ⟨secs * 1000000000⟩
  | _ => none

example : parse_rfc3339 "2026-07-28T00:00:00Z" = some ⟨1785196800000000000⟩ := by decide

def ocsp_sign (b : OcspResponseBuilder) (k : CaSigningKey) (certs : Option (List Certificate))
    (t : DateTime) : BasicOcspResponse :=
  let data : ResponseData := ⟨b.responder_id, t, b.responses, b.nonce⟩
  ⟨data, mark k.verifying_key (enc data), certs⟩

/-- The reference implementation. -/
def crates : Crates where
  content_info_from_der := decode
  content_info_to_der ci := .ok (enc ci)
  signed_data_decode a := decode a.value
  signer_info_decode := decode_front
  relaxed_certificate_decode := decode_front
  attributes_to_der attrs := .ok (enc attrs)
  enveloped_data_decode a := decode a.value
  enveloped_data_from_der := decode
  out_ktri_encode ktri := .ok ⟨.Sequence, enc ktri⟩
  out_enveloped_data_encode e := .ok ⟨.Sequence, enc e⟩
  content_info_from_certificate c := .ok ⟨oids.ID_SIGNED_DATA, ⟨.Sequence, enc c⟩⟩
  create_content_type_attribute oid := .ok (content_type_attribute oid)
  signer_info_builder_new k sid alg encap md := .ok ⟨k, sid, alg, encap, md, []⟩
  add_signed_attribute b a := .ok { b with signed_attributes := b.signed_attributes ++ [a] }
  add_digest_algorithm b a := .ok { b with digest_algorithms := b.digest_algorithms ++ [a] }
  add_certificate b c := .ok { b with certificates := b.certificates ++ [c] }
  add_signer_info b si := .ok { b with signer_infos := b.signer_infos ++ [si] }
  signed_data_build := signed_data_build
  rsa_public_key_from_pkcs1_der := decode
  rsa_signature_try_from b := .ok b
  rsa_verify _ k m s := decide (s = mark k m)
  rsa_try_sign k m := .ok (mark k.verifying_key m)
  rsa_encrypt := rsa_encrypt
  decrypt_blinded := decrypt_blinded
  rsa_private_key_new seed bits := .ok ⟨⟨2 ^ bits + seed, 65537⟩, seed, []⟩
  spki_from_key k := .ok (spki_from_key k)
  signature_algorithm_identifier _ := .ok signature_algorithm
  signature_to_bitstring s := .ok s
  sha256 := digest 32
  sha1 := digest 20
  hmac_sha256 key m := ⟨digest 32 (key ++ m), length_digest 32 _⟩
  cbc_encrypt _ key _ p := key ++ p
  cbc_decrypt := cbc_decrypt
  cert_req_from_der := decode
  certificate_from_der := decode
  certificate_to_der c := .ok (enc c)
  certificate_to_pem c := .ok (pem "CERTIFICATE" (enc c))
  tbs_certificate_to_der t := .ok (enc t)
  get_subject_key_identifier t := .ok ((t.extensions.getD []).find? (fun e =>
    e.extn_id = ⟨[2, 5, 29, 14]⟩) |>.map fun e => (e.critical, e.extn_value))
  subject_key_identifier spki := .ok (digest 20 spki.subject_public_key)
  authority_key_identifier spki := .ok (some (digest 20 spki.subject_public_key))
  validity_from_now := validity_from_now
  name_to_string := name_to_string
  name_from_str := name_from_str
  extensions_decode a := decode a.value
  subject_alt_name_from_der := decode
  object_identifier_new s := .error s!"malformed OID {s}"
  certificate_builder_new p s v subj spki k := .ok ⟨p, s, v, subj, spki, k, []⟩
  to_extension _ _ e := .ok ⟨e.oid, false, []⟩
  certificate_builder_build := certificate_builder_build
  rsa_private_key_from_pkcs8_der := decode
  rsa_private_key_from_pkcs1_der := decode
  rsa_private_key_to_pkcs8_pem k := .ok (pem "PRIVATE KEY" (enc k))
  encrypted_private_key_info_from_der := decode
  encrypted_private_key_info_decrypt e _ := .ok e.encrypted_data
  tbs_cert_list_to_der t := .ok (enc t)
  certificate_list_to_der l := .ok (enc l)
  certificate_list_from_der := decode_if CertificateList.Readable
  ocsp_request_from_der := decode_if OcspRequest.Readable
  ocsp_with_nonce b n := .ok { b with nonce := some n }
  ocsp_sign b k certs t := .ok (ocsp_sign b k certs t)
  response_data_to_der r := .ok (enc r)
  ocsp_response_to_der r := .ok (enc r)
  ocsp_response_from_der := decode
  parse_rfc3339 := parse_rfc3339
  base64_error _ := "Invalid padding"

/-- A signature verifies under the key it was made with only. -/
theorem key_of_verify {alg : HashAlg} {k k' : RsaPublicKey} {m m' : Bytes}
    (h : crates.rsa_verify alg k m (mark k' m') = true) : k' = k := mark_key (of_decide_eq_true h)

/-- Nothing at all is no signature. -/
theorem verify_nil (alg : HashAlg) (k : RsaPublicKey) (m : Bytes) :
    crates.rsa_verify alg k m [] = false := by
  show decide ([] = mark k m) = false
  apply decide_eq_false
  intro hno
  have hlen := congrArg List.length hno
  rw [mark, List.length_append, length_digest, List.length_nil] at hlen
  omega

/-! ## The laws hold -/

/-- The first element of a set is read, whatever follows it. -/
theorem certificate_decoded (c : Certificate) (rest : Bytes) :
    crates.relaxed_certificate_decode (enc c ++ rest) = .ok c := decode_front_enc c rest

theorem signer_info_decoded (s : RelaxedSignerInfo) (rest : Bytes) :
    crates.signer_info_decode (enc s ++ rest) = .ok s := decode_front_enc s rest

theorem rsa_law : crates.RsaLaw where
  verify_sign := by
    intro k m s h
    rw [← Except.ok.inj h]
    exact decide_eq_true rfl
  decrypt_encrypt := by
    intro k seed m c h
    change (if m.length ≤ MAX_WRAP then _ else _) = _ at h
    split_ifs at h
    rw [← Except.ok.inj h]
    show decrypt_blinded k (enc k.to_public_key ++ m) = .ok m
    rw [decrypt_blinded, dec_enc]
    exact if_pos rfl
  bitstring := fun s b h => (Except.ok.inj h).symm

theorem cipher_law : crates.CipherLaw where
  decrypt_encrypt := by
    intro c key iv p _ _
    show cbc_decrypt c key iv (key ++ p) = some p
    rw [cbc_decrypt, List.take_left, if_pos rfl, List.drop_left]

theorem cms_law : crates.CmsLaw where
  content_info := by
    intro ci b h
    rw [← Except.ok.inj h]
    exact decode_enc ci
  content_type := fun oid a h => by rw [← Except.ok.inj h]; rfl
  signer_info_builder_new := fun _ _ _ _ _ _ h => (Except.ok.inj h).symm
  add_signed_attribute := fun _ _ _ h => (Except.ok.inj h).symm
  add_digest_algorithm := fun _ _ _ h => (Except.ok.inj h).symm
  add_certificate := fun _ _ _ h => (Except.ok.inj h).symm
  add_signer_info := fun _ _ _ h => (Except.ok.inj h).symm
  build := by
    intro b si ci h hsi _
    change signed_data_build b = .ok ci at h
    unfold signed_data_build at h
    rw [hsi] at h
    obtain ⟨cert, hcert⟩ : ∃ cert, b.certificates = [cert] := by
      rcases hc : b.certificates with _ | ⟨cert, _ | ⟨_, _⟩⟩
      · rw [hc] at h
        cases h
      · exact ⟨cert, rfl⟩
      · rw [hc] at h
        cases h
    rw [hcert] at h
    obtain rfl := Except.ok.inj h
    have hsigner := signer_info_decoded
      (sign_info si (all_attributes b.encapsulated_content_info.econtent_type si)) []
    rw [List.append_nil] at hsigner
    refine ⟨_, sign_info si (all_attributes b.encapsulated_content_info.econtent_type si), _, _, {
      content_type := rfl
      decoded := decode_enc _
      encap := rfl
      certificates := ?_
      signer_info := hsigner
      digest_alg := rfl
      signed_attrs := rfl
      attributes := ⟨_, rfl, .refl _⟩
      attributes_der := rfl
      signature := rfl }⟩
    intro c hc
    obtain rfl : cert = c := List.singleton_injective (hcert.symm.trans hc)
    have hdecoded := certificate_decoded cert []
    rw [List.append_nil] at hdecoded
    exact ⟨_, rfl, hdecoded⟩

theorem encode_law : crates.EncodeLaw where
  out_ktri := fun _ => ⟨_, rfl⟩
  out_enveloped_data := fun _ => ⟨_, rfl⟩
  content_info := fun _ => ⟨_, rfl⟩
  content_type := fun _ => ⟨_, rfl⟩
  signer_info_builder_new := fun _ _ _ _ _ => ⟨_, rfl⟩
  add_signed_attribute := fun _ _ => ⟨_, rfl⟩
  add_digest_algorithm := fun _ _ => ⟨_, rfl⟩
  add_certificate := fun _ _ => ⟨_, rfl⟩
  add_signer_info := fun _ _ _ _ => ⟨_, rfl⟩
  build := by
    intro b si c hsi hc _ _
    show ∃ ci, signed_data_build b = .ok ci
    rw [signed_data_build, hsi, hc]
    exact ⟨_, rfl⟩

theorem x509_law : crates.X509Law where
  builder_new := by
    intro p s v subj spki k b h
    rw [← Except.ok.inj h]
    exact ⟨rfl, rfl, rfl, rfl, rfl⟩
  build := by
    intro b c h
    change certificate_builder_build b = .ok c at h
    unfold certificate_builder_build at h
    split_ifs at h
    rw [← Except.ok.inj h]
    refine ⟨rfl, rfl, rfl, fun issuer hprofile => ?_⟩
    show (tbs_certificate b).issuer = issuer
    rw [tbs_certificate, hprofile]
    rfl
  build_signs := by
    intro b c h
    change certificate_builder_build b = .ok c at h
    unfold certificate_builder_build at h
    split_ifs at h
    rw [← Except.ok.inj h]
    exact ⟨_, rfl, rfl⟩
  spki := by
    intro _ _ key spki _ _ h
    rw [← Except.ok.inj h]
    exact decode_enc key.to_public_key

theorem status_law : crates.StatusLaw where
  list_injective := by
    intro l l' b h h'
    apply Except.ok.inj
    rw [← decode_enc l, ← decode_enc l', Except.ok.inj h, Except.ok.inj h']
  certificate_list := by
    intro l b h hread
    rw [← Except.ok.inj h]
    exact decode_if_enc hread
  list_readable := by
    intro l b l' h h'
    rw [← Except.ok.inj h] at h'
    obtain ⟨hdecode, hread⟩ := decode_if_eq_ok.mp h'
    rwa [Except.ok.inj ((decode_enc l).symm.trans hdecode)]
  ocsp_request := fun b r h => (decode_if_eq_ok.mp h).2
  ocsp_response := by
    intro r b h _
    rw [← Except.ok.inj h]
    exact decode_enc r
  with_nonce := fun _ _ _ h => (Except.ok.inj h).symm
  ocsp_sign := by
    intro b k certs t r h
    rw [← Except.ok.inj h]
    exact ⟨rfl, _, rfl, rfl⟩

/-! ## Tagged CMS

In DER a `ContentInfo` and an `EnvelopedData` never start alike, and the reply's
`EnvelopedData` has the encoding of the one that is read. Here an octet in front tells
the two apart, and the reply's is written as the one it stands for. -/

/-- A recipient as `cms` has it. -/
def recipient_info (a : Any) : RecipientInfo :=
  match (decode a.value : Except String OutKeyTransRecipientInfo) with
  | .ok ktri => .Ktri ⟨ktri.version,
      .IssuerAndSerialNumber ⟨ktri.rid.issuer, ktri.rid.serial_number⟩, ktri.key_enc_alg,
      ktri.enc_key⟩
  | .error _ => .Ori a

def enveloped_data (e : OutEnvelopedData) : EnvelopedData :=
  ⟨e.version, e.recip_infos.map recipient_info, e.encrypted_content⟩

/-- Read what follows this octet. -/
def decode_tagged {α : Type} [Codec α] (tag : UInt8) : Bytes → Except String α
  | [] => .error "ASN.1 DER message is incomplete"
  | t :: b => if t = tag then decode b else .error "unexpected ASN.1 tag"

/-- The reference implementation with tagged CMS. -/
def cms_crates : Crates :=
  { crates with
    content_info_from_der := decode_tagged 0
    content_info_to_der := fun ci => .ok (0 :: enc ci)
    enveloped_data_from_der := decode_tagged 1
    out_enveloped_data_encode := fun e => .ok ⟨.Sequence, enc (enveloped_data e)⟩ }

theorem decode_tagged_eq_ok {α : Type} [Codec α] {tag : UInt8} {b : Bytes} {a : α}
    (h : decode_tagged tag b = .ok a) : ∃ rest, b = tag :: rest := by
  rcases b with _ | ⟨t, b⟩
  · cases h
  · by_cases ht : t = tag
    · exact ⟨b, by rw [ht]⟩
    · rw [decode_tagged, if_neg ht] at h
      cases h

namespace Cms

theorem rsa_law : cms_crates.RsaLaw :=
  ⟨Reference.rsa_law.verify_sign, Reference.rsa_law.decrypt_encrypt, Reference.rsa_law.bitstring⟩

theorem cipher_law : cms_crates.CipherLaw := ⟨Reference.cipher_law.decrypt_encrypt⟩

theorem cms_law : cms_crates.CmsLaw where
  content_info := by
    intro ci b h
    rw [← Except.ok.inj h]
    show decode_tagged 0 (0 :: enc ci) = .ok ci
    rw [decode_tagged, if_pos rfl, decode_enc]
  content_type := Reference.cms_law.content_type
  signer_info_builder_new := Reference.cms_law.signer_info_builder_new
  add_signed_attribute := Reference.cms_law.add_signed_attribute
  add_digest_algorithm := Reference.cms_law.add_digest_algorithm
  add_certificate := Reference.cms_law.add_certificate
  add_signer_info := Reference.cms_law.add_signer_info
  build := by
    intro b si ci h hsi halg
    obtain ⟨sd, rsi, attrs, der, hb⟩ := Reference.cms_law.build b si ci h hsi halg
    exact ⟨sd, rsi, attrs, der, ⟨hb.content_type, hb.decoded, hb.encap, hb.certificates,
      hb.signer_info, hb.digest_alg, hb.signed_attrs, hb.attributes, hb.attributes_der,
      hb.signature⟩⟩

theorem read_law : cms_crates.ReadLaw where
  signature := fun _ _ _ _ => rfl
  sha256_length := length_digest 32
  enveloped_data := by
    intro ktri recip_info version encrypted_content content hri henv _
    rw [← Except.ok.inj henv, ← Except.ok.inj hri]
    show decode (enc (enveloped_data ⟨version, [⟨.Sequence, enc ktri⟩], encrypted_content⟩)) = _
    rw [decode_enc, enveloped_data, List.map_singleton, recipient_info, decode_enc]
  not_content_info := by
    intro b e ci he hci
    change decode_tagged 1 b = .ok e at he
    change decode_tagged 0 b = .ok ci at hci
    obtain ⟨rest, rfl⟩ := decode_tagged_eq_ok he
    obtain ⟨rest', hrest⟩ := decode_tagged_eq_ok hci
    exact absurd (List.cons.inj hrest).1 (by decide)

theorem encode_law : cms_crates.EncodeLaw :=
  { Reference.encode_law with
    out_enveloped_data := fun _ => ⟨_, rfl⟩
    content_info := fun _ => ⟨_, rfl⟩ }

end Cms

/-! ## Extensions that read back

`crates` writes extensions without a value, here they carry it. -/

/-- The usages in the order of their bits. -/
def all_usages : List KeyUsages :=
  [.DigitalSignature, .NonRepudiation, .KeyEncipherment, .DataEncipherment, .KeyAgreement,
    .KeyCertSign, .CRLSign, .EncipherOnly, .DecipherOnly]

instance : Codec KeyUsages :=
  via (fun u => all_usages.idxOf u) (fun n => all_usages[n]?) fun u => by cases u <;> rfl

instance : Codec (Finset KeyUsages) :=
  via (fun s => all_usages.filter (· ∈ s)) (fun l => some l.toFinset) fun s => by
    have hall : ∀ u, u ∈ all_usages := fun u => by cases u <;> decide
    rw [Option.some.injEq]
    ext u
    rw [List.mem_toFinset, List.mem_filter, decide_eq_true_eq]
    exact and_iff_right (hall u)

instance : Codec ExtensionValue :=
  via (fun v => match v with
      | .BasicConstraints ca n => ((0 : Nat), enc (ca, n))
      | .KeyUsage flags => (1, enc flags)
      | .ExtendedKeyUsage oids => (2, enc oids)
      | .SubjectKeyIdentifier id => (3, id)
      | .AuthorityKeyIdentifier id => (4, enc id)
      | .SubjectAltName names => (5, enc names)
      | .AuthorityInfoAccess descriptions => (6, enc descriptions)
      | .CrlDistributionPoints points => (7, enc points))
    (fun v => match v with
      | (0, b) => (decode b).toOption.map fun (ca, n) => .BasicConstraints ca n
      | (1, b) => (decode b).toOption.map .KeyUsage
      | (2, b) => (decode b).toOption.map .ExtendedKeyUsage
      | (3, b) => some (.SubjectKeyIdentifier b)
      | (4, b) => (decode b).toOption.map .AuthorityKeyIdentifier
      | (5, b) => (decode b).toOption.map .SubjectAltName
      | (6, b) => (decode b).toOption.map .AuthorityInfoAccess
      | (7, b) => (decode b).toOption.map .CrlDistributionPoints
      | _ => none)
    fun v => by
      cases v <;> simp only [decode_enc, Except.toOption, Option.map_some]

/-- The reference implementation with values in its extensions. -/
def extension_crates : Crates :=
  { crates with to_extension := fun _ _ v => .ok ⟨v.oid, false, enc v⟩ }

/-- A relying party. -/
def read_extension (e : Extension) : Option ExtensionValue := (decode e.extn_value).toOption

namespace Extensions

theorem extensions_decoded (tag : Tag) (exts : List Extension) :
    extension_crates.extensions_decode ⟨tag, enc exts⟩ = .ok exts := decode_enc exts

theorem san_decoded (names : List GeneralName) :
    extension_crates.subject_alt_name_from_der (enc names) = .ok names := decode_enc names

theorem x509_law : extension_crates.X509Law :=
  ⟨Reference.x509_law.builder_new, Reference.x509_law.build, Reference.x509_law.build_signs,
    Reference.x509_law.spki⟩

theorem validity_law : extension_crates.ValidityLaw where
  from_now := by
    intro now secs v h
    obtain ⟨not_before, hbefore, h⟩ := bind_eq_ok.mp h
    obtain ⟨not_after, hafter, h⟩ := bind_eq_ok.mp h
    rw [← Except.ok.inj h, hbefore, hafter, to_date_time_of, to_date_time_of]
    exact ⟨rfl, rfl⟩
  builder_new := by
    intro p s v subj spki k b h
    rw [← Except.ok.inj h]
    exact ⟨rfl, rfl⟩
  build := by
    intro b c h
    change certificate_builder_build b = .ok c at h
    unfold certificate_builder_build at h
    split_ifs at h
    rw [← Except.ok.inj h]
    exact ⟨rfl, rfl⟩

theorem extension_law : extension_crates.ExtensionLaw read_extension where
  builder_new := by
    intro issuer s v subj spki k b h
    rw [← Except.ok.inj h]
  build := by
    intro b c issuer h _
    change certificate_builder_build b = .ok c at h
    unfold certificate_builder_build at h
    split_ifs at h
    rw [← Except.ok.inj h]
    show (if b.extensions.isEmpty then none else some b.extensions).getD [] = b.extensions
    by_cases hempty : b.extensions.isEmpty = true
    · rw [if_pos hempty, List.isEmpty_iff.mp hempty]
      rfl
    · rw [if_neg hempty]
      rfl
  oid := by
    intro subj exts v e h
    rw [← Except.ok.inj h]
  read := by
    intro subj exts v e h
    rw [← Except.ok.inj h, read_extension, decode_enc]
    rfl
  by_value := fun _ _ _ _ _ _ => rfl

end Extensions

end Reference

end Blapki
