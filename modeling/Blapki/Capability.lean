/-
What the server accepts of what `GetCACaps` offers (`scep/protocol.rs`, `CA_CAPS`).

A client picks a digest and a content cipher from the list and makes its request with
them. The ciphers on the list are all in the two tables of the envelope. Of the digests,
the tables of the verifier lack SHA-512: `offered_accepted_iff`.
-/
import Blapki.Roundtrip
import Blapki.Enrolment

set_option autoImplicit false

namespace Blapki

open Attributes Effect Verify
open Codec (enc)

/-- A keyword of `GetCACaps`: a line of `CA_CAPS`. -/
def Offered (keyword : String) : Prop := keyword.toList ∈ CA_CAPS.toList.splitOn '\n'

instance (keyword : String) : Decidable (Offered keyword) := by
  unfold Offered
  infer_instance

/-- The digests among the keywords. -/
inductive Digest where
  | Sha1
  | Sha256
  | Sha512
deriving DecidableEq, Repr

namespace Digest

def keyword : Digest → String
  | .Sha1 => "SHA-1"
  | .Sha256 => "SHA-256"
  | .Sha512 => "SHA-512"

def oid : Digest → ObjectIdentifier
  | .Sha1 => oids.ID_SHA1
  | .Sha256 => oids.ID_SHA256
  | .Sha512 => ⟨[2, 16, 840, 1, 101, 3, 4, 2, 3]⟩

/-- The one of the crates the server uses. -/
def alg : Digest → Option HashAlg
  | .Sha1 => some .Sha1
  | .Sha256 => some .Sha256
  | .Sha512 => none

/-- Every digest a client may think of is offered. -/
theorem offered (d : Digest) : Offered d.keyword := by
  cases d <;> decide +kernel

/-- The table of the verifier. -/
theorem hash_alg_oid (d : Digest) : hash_alg d.oid = d.alg := by
  cases d <;> decide

end Digest

/-- The keyword for a content cipher. -/
def Cipher.keyword : Cipher → Option String
  | .Aes128 | .Aes192 | .Aes256 => some "AES"
  | .TdesEde3 => some "DES3"
  | .Des => none

variable {X : Crates}

/-- The primitives of a client: where the server has them, they are the same. -/
structure Client (X : Crates) where
  hash : Digest → Bytes → Bytes
  verify : Digest → RsaPublicKey → Bytes → Bytes → Bool
  hash_eq : ∀ {d alg}, d.alg = some alg → hash d = X.hash alg
  verify_eq : ∀ {d alg}, d.alg = some alg → verify d = X.rsa_verify alg

/-- An honestly built PKCSReq, as it decodes: signed with the offered digest `d` over
attributes that hold the same digest of the content, which is an envelope for the CA with
the offered cipher `c`. -/
structure PkcsReq (C : Client X) (d : Digest) (c : Cipher) (ca : CertificateAuthority)
    (transaction_id : String) (sender_nonce csr_der body : Bytes) (m : Message) (content : Bytes)
    (enveloped : EnvelopedData) : Prop where
  digest_offered : Offered d.keyword
  cipher_offered : ∃ keyword, c.keyword = some keyword ∧ Offered keyword
  decoded : decode_message X body = .ok m
  digest_alg : m.signer.digest_alg.oid = d.oid
  signed : ∃ key attrs_der sig,
    rsa_public_key_from_spki X m.cert.tbs_certificate.subject_public_key_info = .ok key ∧
      X.attributes_to_der m.attrs = .ok attrs_der ∧
      X.rsa_signature_try_from m.signer.signature = .ok sig ∧ C.verify d key attrs_der sig = true
  distinct : (m.attrs.map Attribute.oid).Nodup
  message_type : printable ID_MESSAGE_TYPE MessageType.PkcsReq.as_value ∈ m.attrs
  transaction_id : printable ID_TRANSACTION_ID transaction_id ∈ m.attrs ∧ Printable transaction_id
  sender_nonce : octets ID_SENDER_NONCE sender_nonce ∈ m.attrs ∧ sender_nonce.length ≤ Length.MAX
  message_digest : octets oids.ID_MESSAGE_DIGEST (C.hash d content) ∈ m.attrs ∧
    (C.hash d content).length ≤ Length.MAX
  econtent : m.econtent = some content
  envelope : Envelope.parse X content = .ok enveloped
  cipher : enveloped.encrypted_content.content_enc_alg.oid = Envelope.content_alg c
  encrypted : Envelope.EncryptsTo X enveloped ca.cert ca.private_key.to_public_key csr_der

namespace PkcsReq

variable {C : Client X} {d : Digest} {c : Cipher} {ca : CertificateAuthority}
  {transaction_id : String} {sender_nonce csr_der body : Bytes} {m : Message} {content : Bytes}
  {enveloped : EnvelopedData}

/-- Each attribute is found under its OID. -/
theorem find_of_mem
    (h : PkcsReq C d c ca transaction_id sender_nonce csr_der body m content enveloped)
    {a : Attribute} (ha : a ∈ m.attrs) : Attributes.find m.attrs a.oid = some a :=
  Attributes.find_of_perm (List.Perm.refl _) (filter_key_eq h.distinct ha)

/-- What the server makes of the request. -/
theorem verified
    (h : PkcsReq C d c ca transaction_id sender_nonce csr_der body m content enveloped)
    {alg : HashAlg} (halg : d.alg = some alg) :
    ∃ key, parse_and_verify X body = .ok ⟨.PkcsReq, transaction_id, sender_nonce,
      ⟨key, m.cert.tbs_certificate.issuer, m.cert.tbs_certificate.serial_number⟩,
      some enveloped⟩ := by
  obtain ⟨key, attrs_der, sig, hkey, hder, hsig, hverify⟩ := h.signed
  have hhash : hash_alg m.signer.digest_alg.oid = some alg := by
    rw [h.digest_alg, Digest.hash_alg_oid, halg]
  have hverified : verify_rsa X m.signer.digest_alg.oid key attrs_der m.signer.signature
      = .ok () := by
    rw [C.verify_eq halg] at hverify
    simp only [verify_rsa, bind_eq_ok, map_err_eq_ok, ok_or_else_eq_ok, require_eq_ok]
    exact ⟨sig, hsig, alg, hhash, hverify⟩
  have hchecked : check_content X m.signer.digest_alg.oid m.attrs m.econtent = .ok () := by
    obtain ⟨hmem, hlen⟩ := h.message_digest
    have hvalue : Any.decode_octet_string ⟨.OctetString, C.hash d content⟩
        = .ok (C.hash d content) := Any.decode_octet_string_eq_ok.mpr ⟨rfl, hlen⟩
    rw [h.econtent]
    simp only [check_content, digest, find_attr, bind_eq_ok, ok_or_else_eq_ok, require_eq_ok]
    refine ⟨_, h.find_of_mem hmem, C.hash d content, ?_, _, ⟨alg, hhash, rfl⟩, ?_⟩
    · show (Any.decode_octet_string ⟨.OctetString, C.hash d content⟩).toOption = _
      rw [hvalue]
      rfl
    · rw [C.hash_eq halg]
  have htype : read_string m.attrs ID_MESSAGE_TYPE = .ok MessageType.PkcsReq.as_value :=
    read_string_eq_ok.mpr ⟨_, first_value_eq_ok.mpr ⟨_, h.find_of_mem h.message_type, rfl⟩,
      decode_string_printable (MessageType.printable _)⟩
  have hid : read_string m.attrs ID_TRANSACTION_ID = .ok transaction_id :=
    read_string_eq_ok.mpr ⟨_, first_value_eq_ok.mpr ⟨_, h.find_of_mem h.transaction_id.1, rfl⟩,
      decode_string_printable h.transaction_id.2⟩
  have hnonce : read_octets m.attrs ID_SENDER_NONCE = .ok sender_nonce :=
    read_octets_eq_ok.mpr ⟨first_value_eq_ok.mpr ⟨_, h.find_of_mem h.sender_nonce.1, rfl⟩,
      h.sender_nonce.2⟩
  have henv : read_envelope X .PkcsReq m.econtent = .ok (some enveloped) := by
    rw [h.econtent, read_envelope, h.envelope]
    rfl
  refine ⟨key, ?_⟩
  simp only [parse_and_verify, bind_eq_ok, map_err_eq_ok, pure, Except.pure]
  exact ⟨m, h.decoded, key, hkey, attrs_der, hder, (), hverified, (), hchecked, _, htype, _,
    MessageType.from_value_as_value _, _, hid, _, hnonce, _, henv, rfl⟩

/-- A request under a digest the server has no algorithm for is refused. -/
theorem refused
    (h : PkcsReq C d c ca transaction_id sender_nonce csr_der body m content enveloped)
    (halg : d.alg = none) (parsed : ParsedRequest) : parse_and_verify X body ≠ .ok parsed := by
  intro hparsed
  obtain ⟨m', alg, haccepts⟩ := parse_and_verify_accepts X hparsed
  obtain rfl : m' = m := Except.ok.inj (haccepts.decoded.symm.trans h.decoded)
  have hhash := haccepts.digest_alg
  rw [h.digest_alg, Digest.hash_alg_oid, halg] at hhash
  cases hhash

end PkcsReq

/-! ## The list and the tables -/

/-- The request is accepted as what it is, its envelope opens to the CSR, and whatever the
handler does with it begins with the challenge. -/
structure Served (X : Crates) (state : AppState) (profile : String) (rt : ProfileRuntime)
    (ca : CertificateAuthority) (transaction_id : String) (sender_nonce body : Bytes)
    (enveloped : EnvelopedData) (parsed_csr : ParsedCsr) (parsed : ParsedRequest) : Prop where
  verified : parse_and_verify X body = .ok parsed
  message_type : parsed.message_type = .PkcsReq
  transaction_id : parsed.transaction_id = transaction_id
  sender_nonce : parsed.sender_nonce = sender_nonce
  envelope : parsed.enveloped = some enveloped
  opened : Envelope.open_ X enveloped ca.cert ca.private_key = .ok parsed_csr.der
  validated : ∀ tr r, Returns (Scep.pki_operation X state profile body) tr r →
    ∃ verdict rest, tr = ⟨Op.validate rt.validator
      (Scep.validation_input parsed parsed_csr), verdict⟩ :: rest

section Offered

variable {C : Client X} {d : Digest} {c : Cipher} {state : AppState} {profile : String}
  {rt : ProfileRuntime} {ca : CertificateAuthority} {transaction_id : String}
  {sender_nonce body : Bytes} {m : Message} {content : Bytes} {enveloped : EnvelopedData}
  {parsed_csr : ParsedCsr} {parsed : ParsedRequest}

/-- An accepted request whose CSR comes out gets to the challenge. -/
theorem Scep.Accepted.validated
    (hacc : Scep.Accepted X state profile body rt ca parsed enveloped)
    (hrecover : Scep.recover_csr X ca enveloped = .ok parsed_csr) {tr : Trace}
    {r : AppResult Bytes} (h : Returns (Scep.pki_operation X state profile body) tr r) :
    ∃ verdict rest, tr = ⟨Op.validate rt.validator
      (Scep.validation_input parsed parsed_csr), verdict⟩ :: rest := by
  rw [Scep.pki_operation_of_accepted hacc, hrecover] at h
  obtain ⟨verdict, rest, rfl, _⟩ :=
    (returns_attempt_event_bind ChallengeValidator.validate_returns).mp h
  exact ⟨verdict, rest, rfl⟩

/-- **What is offered and what is accepted.** A PKCSReq built with an offered digest and an
offered cipher gets to the challenge exactly when the digest is not SHA-512. -/
theorem offered_accepted_iff (hrsa : X.RsaLaw) (hcipher : X.CipherLaw)
    (hrt : state.profiles.lookup profile = some rt) (hca : state.cas.lookup rt.ca_id = some ca)
    (hcsr : csr.parse X parsed_csr.der = .ok parsed_csr)
    (h : PkcsReq C d c ca transaction_id sender_nonce parsed_csr.der body m content enveloped) :
    (∃ parsed, Served X state profile rt ca transaction_id sender_nonce body enveloped parsed_csr
      parsed) ↔ d ≠ .Sha512 := by
  constructor
  · rintro ⟨parsed, hserved⟩ rfl
    exact h.refused rfl parsed hserved.verified
  · intro hd
    obtain ⟨alg, halg⟩ : ∃ alg, d.alg = some alg := by
      cases d with
      | Sha1 => exact ⟨_, rfl⟩
      | Sha256 => exact ⟨_, rfl⟩
      | Sha512 => exact absurd rfl hd
    obtain ⟨key, hverified⟩ := h.verified halg
    have hopen := Envelope.open_of_encrypts X hrsa hcipher h.encrypted
    have hrecover : Scep.recover_csr X ca enveloped = .ok parsed_csr := by
      rw [Scep.recover_csr, hopen]
      exact hcsr
    have hacc : Scep.Accepted X state profile body rt ca _ enveloped :=
      ⟨hrt, hca, hverified, .inl rfl, rfl⟩
    exact ⟨_, hverified, rfl, rfl, rfl, rfl, hopen, fun tr r hrun => hacc.validated hrecover hrun⟩

end Offered

/-! ## The device with another digest -/

namespace Device

/-- A client on the reference crates. -/
def client : Client Reference.crates where
  hash
    | .Sha1 => Reference.crates.hash .Sha1
    | .Sha256 => Reference.crates.hash .Sha256
    | .Sha512 => Reference.digest 64
  verify
    | .Sha1 => Reference.crates.rsa_verify .Sha1
    | .Sha256 | .Sha512 => Reference.crates.rsa_verify .Sha256
  hash_eq {d} {alg} h := by
    cases d with
    | Sha512 => cases h
    | _ =>
        obtain rfl := Option.some.inj h
        rfl
  verify_eq {d} {alg} h := by
    cases d with
    | Sha512 => cases h
    | _ =>
        obtain rfl := Option.some.inj h
        rfl

/-- The message of the device under a digest. -/
def signed (d : Digest) (plaintext : Bytes) : Message :=
  let attrs := [printable ID_MESSAGE_TYPE MessageType.PkcsReq.as_value,
    printable ID_TRANSACTION_ID transaction_id, octets ID_SENDER_NONCE nonce,
    octets oids.ID_MESSAGE_DIGEST (client.hash d (content plaintext))]
  let signer := Reference.sign_info
    ⟨CaSigningKey.new device_key, ⟨device_cert.tbs_certificate.issuer,
      device_cert.tbs_certificate.serial_number⟩, ⟨d.oid, some Any.Null⟩,
      ⟨oids.ID_DATA, none⟩, none, []⟩ attrs
  ⟨Reference.signed_data ⟨oids.ID_DATA, some ⟨.OctetString, content plaintext⟩⟩
    [⟨d.oid, some Any.Null⟩] device_cert signer, signer, device_cert, attrs⟩

/-- The body of the message, signed with a digest. -/
def signed_body (d : Digest) (plaintext : Bytes) : Bytes :=
  enc (⟨oids.ID_SIGNED_DATA, ⟨.Sequence, enc (signed d plaintext).sd⟩⟩ : ContentInfo)

/-- The envelope is one for the CA. -/
theorem encrypts_to (plaintext : Bytes) : Envelope.EncryptsTo Reference.crates
    (enveloped plaintext) ca.cert ca.private_key.to_public_key plaintext where
  addressed := ⟨_, List.mem_singleton_self _, by decide +kernel⟩
  encrypted := by
    refine ⟨.Aes128, content_key, iv, rfl, rfl, rfl, rfl, ?_⟩
    intro ktri hktri _
    rw [List.mem_singleton.mp hktri]
    refine ⟨0, ?_⟩
    show Reference.rsa_encrypt ca_key.pubkey 0 content_key = _
    rw [Reference.rsa_encrypt, if_pos (by decide)]

/-- The device is honest under every digest. -/
theorem honest (d : Digest) (plaintext : Bytes) :
    PkcsReq client d .Aes128 ca transaction_id nonce plaintext (signed_body d plaintext)
      (signed d plaintext) (content plaintext) (enveloped plaintext) where
  digest_offered := d.offered
  cipher_offered := ⟨"AES", rfl, by decide +kernel⟩
  decoded := decoded_of_parts rfl rfl
  digest_alg := rfl
  signed := by
    refine ⟨device_key.pubkey, _, _, key_of_self_signed _ _ _, rfl, rfl, ?_⟩
    have hmark : decide ((signed d plaintext).signer.signature
        = Reference.mark device_key.pubkey (enc (signed d plaintext).attrs)) = true :=
      decide_eq_true rfl
    cases d with
    | Sha1 => exact hmark
    | Sha256 => exact hmark
    | Sha512 => exact hmark
  distinct := by
    show [ID_MESSAGE_TYPE, ID_TRANSACTION_ID, ID_SENDER_NONCE, oids.ID_MESSAGE_DIGEST].Nodup
    decide
  message_type := List.mem_cons_self
  transaction_id := ⟨List.mem_cons_of_mem _ List.mem_cons_self, by decide⟩
  sender_nonce := ⟨List.mem_cons_of_mem _ (List.mem_cons_of_mem _ List.mem_cons_self), by decide⟩
  message_digest := by
    refine ⟨List.mem_cons_of_mem _ (List.mem_cons_of_mem _ (List.mem_cons_of_mem _
      List.mem_cons_self)), ?_⟩
    cases d with
    | Sha1 =>
        show (Reference.digest 20 (content plaintext)).length ≤ _
        rw [Reference.length_digest]
        decide
    | Sha256 =>
        show (Reference.digest 32 (content plaintext)).length ≤ _
        rw [Reference.length_digest]
        decide
    | Sha512 =>
        show (Reference.digest 64 (content plaintext)).length ≤ _
        rw [Reference.length_digest]
        decide
  econtent := rfl
  envelope := parsed_content plaintext
  cipher := rfl
  encrypted := encrypts_to plaintext

end Device

/-- A device that signs with SHA-1 is served. -/
theorem device_served_sha1 : ∃ parsed, Served Reference.crates Device.server "device"
    Device.profile Device.ca Device.transaction_id Device.nonce
    (Device.signed_body .Sha1 (enc (Device.csr "s3cret"))) (Device.enveloped (enc (Device.csr "s3cret")))
    ⟨Device.csr "s3cret", enc (Device.csr "s3cret"), some "s3cret"⟩ parsed :=
  (offered_accepted_iff Reference.rsa_law Reference.cipher_law
    (Device.lookup_singleton.mpr ⟨rfl, rfl⟩) (Device.lookup_singleton.mpr ⟨rfl, rfl⟩)
    (Scep.recover_csr_eq_ok Device.recovered_secret).2
    (Device.honest .Sha1 (enc (Device.csr "s3cret")))).mpr (by decide)

/-- One that takes the server at its word and signs with SHA-512 is not. -/
theorem device_refused_sha512 :
    ¬ ∀ (C : Client Reference.crates) d c transaction_id sender_nonce plaintext body m content
      enveloped, PkcsReq C d c Device.ca transaction_id sender_nonce plaintext body m content
        enveloped → ∃ parsed, parse_and_verify Reference.crates body = .ok parsed := by
  intro hclaim
  have h := Device.honest .Sha512 (enc (Device.csr "s3cret"))
  obtain ⟨parsed, hparsed⟩ := hclaim _ _ _ _ _ _ _ _ _ _ h
  exact h.refused rfl parsed hparsed

end Blapki
