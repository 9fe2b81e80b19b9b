/-
The round trip through CMS: what `build` and `build_cert_rep` write, `parse_and_verify`
and `open` read.

Writer and reader do not share their types. An envelope is written as an
`OutEnvelopedData`, with an uncapped serial, and read as the `EnvelopedData` of
`cms`; a message is put together by the builders of `cms` and read with relaxed
types. `built_opens` is the round trip of the envelope, `built_verifies` that of
the message around it, and `cms_round_trip` is both, with nothing refused on the
way.
-/
import Blapki.Reply
import Blapki.Device

set_option autoImplicit false

namespace Blapki

open Attributes Effect Verify

/-- In a list without duplicates, one element has a given key. -/
theorem filter_key_eq {α κ : Type} [DecidableEq κ] {key : α → κ} {l : List α} {a : α}
    (h : (l.map key).Nodup) (ha : a ∈ l) : l.filter (fun b => key b = key a) = [a] := by
  induction l with
  | nil => exact absurd ha List.not_mem_nil
  | cons x l ih =>
      rw [List.map_cons, List.nodup_cons] at h
      rcases List.mem_cons.mp ha with rfl | ha
      · have hnone : l.filter (fun b => key b = key a) = [] := by
          rw [List.filter_eq_nil_iff]
          intro b hb
          rw [decide_eq_true_eq]
          intro heq
          exact h.1 (heq ▸ List.mem_map_of_mem hb)
        rw [List.filter_cons_of_pos (p := fun b => decide (key b = key a)) (decide_eq_true rfl),
          hnone]
      · have hne : key x ≠ key a := by
          intro heq
          exact h.1 (heq ▸ List.mem_map_of_mem ha)
        rw [List.filter_cons_of_neg (by rwa [decide_eq_true_eq]), ih h.2 ha]

variable {X : Crates}

/-! ## The envelope -/

namespace Envelope

/-- A lone recipient is chosen whatever it names. -/
theorem select_lone_recipient {enveloped : EnvelopedData} {ktri : KeyTransRecipientInfo}
    (h : ktris enveloped = [ktri]) (cert : Certificate) :
    select_recipient X enveloped cert = .ok ktri := by
  rw [select_recipient, h]
  by_cases hmatch : ktri_matches X ktri cert = true
  · rw [List.find?_cons_of_pos (p := (ktri_matches X · cert)) hmatch]
  · rw [List.find?_cons_of_neg (p := (ktri_matches X · cert)) hmatch, List.find?_nil]

/-- A `ContentInfo` around an `EnvelopedData` is parsed as the one in it. -/
theorem parse_wrapped (hcms : X.CmsLaw) {content : Any} {der : Bytes} {enveloped : EnvelopedData}
    (hder : X.content_info_to_der ⟨oids.ID_ENVELOPED_DATA, content⟩ = .ok der)
    (hdecode : X.enveloped_data_decode content = .ok enveloped) :
    parse X der = .ok enveloped := by
  rw [parse, hcms.content_info _ _ hder]
  show (if oids.ID_ENVELOPED_DATA = oids.ID_ENVELOPED_DATA then _ else _) = _
  rw [if_pos rfl, map_err_eq_ok]
  exact hdecode

/-- An `EnvelopedData` on its own is parsed as itself. -/
theorem parse_bare (hread : X.ReadLaw) {der : Bytes} {enveloped : EnvelopedData}
    (h : X.enveloped_data_from_der der = .ok enveloped) : parse X der = .ok enveloped := by
  rw [parse]
  cases hci : X.content_info_from_der der with
  | ok ci => exact absurd hci (hread.not_content_info der enveloped ci h)
  | error e => exact map_err_eq_ok.mpr h

/-- The key of a recipient and the plaintext for it are of sizes RSA and DER take. -/
structure Fits (X : Crates) (plaintext : Bytes) (cert : Certificate) (key : RsaPublicKey) :
    Prop where
  wrap : ∀ seed cek, cek.length = 32 →
    ∃ c, X.rsa_encrypt key seed cek = .ok c ∧ c.length ≤ Length.MAX
  content : ∀ cek iv, cek.length = 32 → iv.length = 16 →
    (X.cbc_encrypt .Aes256 cek iv plaintext).length ≤ Length.MAX
  message : ∀ tr der, Returns (build X plaintext cert) tr (.ok der) → der.length ≤ Length.MAX

/-- The recipient `build` makes of a certificate. -/
def recipient_of (cert : Certificate) (key : RsaPublicKey) : Recipient where
  public_key := key
  issuer := cert.tbs_certificate.issuer
  serial :=
    ⟨SerialNumber.with_sign (SerialNumber.strip_leading_zeroes
      cert.tbs_certificate.serial_number.as_bytes)⟩

/-- With a serial `SerialNumber` takes, `build` is `build_for`. -/
theorem build_eq {cert : Certificate} {key : RsaPublicKey} (hkey : rsa_public_key X cert = .ok key)
    (hserial : cert.tbs_certificate.serial_number.len ≤ SerialNumber.MAX_LEN) (plaintext : Bytes) :
    build X plaintext cert = build_for X plaintext (recipient_of cert key) := by
  have hnew : map_err (SerialNumber.new cert.tbs_certificate.serial_number.as_bytes) der_err
      = .ok (recipient_of cert key).serial :=
    map_err_eq_ok.mpr (SerialNumber.new_eq_ok.mpr ⟨hserial, rfl⟩)
  rw [build, lift_bind_of_ok hkey, lift_bind_of_ok hnew]
  rfl

/-- The recipient entry of a reply, as it is read. -/
def lone_ktri (recipient : Recipient) (key : Bytes) : KeyTransRecipientInfo where
  version := .V0
  rid := .IssuerAndSerialNumber ⟨recipient.issuer, recipient.serial⟩
  key_enc_alg := ⟨oids.RSA_ENCRYPTION, some Any.Null⟩
  enc_key := key

/-- The reply's envelope, as it is read. -/
def lone (recipient : Recipient) (key iv ciphertext : Bytes) : EnvelopedData where
  version := .V0
  recip_infos := [.Ktri (lone_ktri recipient key)]
  encrypted_content := out_content iv ciphertext

/-- What `assemble` writes decodes as an envelope of one recipient. -/
theorem assemble_decodes (hread : X.ReadLaw) {recipient : Recipient} {key iv ciphertext der : Bytes}
    (hserial : recipient.serial.as_bytes.length ≤ SerialNumber.MAX_LEN)
    (h : assemble X recipient key iv ciphertext = .ok der) :
    ∃ content, X.content_info_to_der ⟨oids.ID_ENVELOPED_DATA, content⟩ = .ok der ∧
      X.enveloped_data_decode content = .ok (lone recipient key iv ciphertext) := by
  simp only [assemble, bind_eq_ok, map_err_eq_ok, OctetString.new_eq_ok] at h
  obtain ⟨_, ⟨_, rfl⟩, recip_info, hri, _, ⟨_, rfl⟩, content, henv, hder⟩ := h
  exact ⟨content, hder, hread.enveloped_data _ _ _ _ _ hri henv hserial⟩

/-- **Round trip of the envelope.** What `build_for` writes is parsed as an envelope
that opens with the recipient's key, under whatever certificate. -/
theorem built_opens (hrsa : X.RsaLaw) (hcipher : X.CipherLaw) (hcms : X.CmsLaw) (hread : X.ReadLaw)
    {plaintext der : Bytes} {recipient : Recipient} {key : RsaPrivateKey} {tr : Trace}
    (hkey : key.to_public_key = recipient.public_key)
    (hserial : recipient.serial.as_bytes.length ≤ SerialNumber.MAX_LEN)
    (h : Returns (build_for X plaintext recipient) tr (.ok der)) :
    ∃ enveloped, parse X der = .ok enveloped ∧
      ∀ cert, open_ X enveloped cert key = .ok plaintext := by
  obtain ⟨cek, iv, seed, _, ⟨_, _, h⟩ | ⟨enc_key, hwrap, hasm⟩⟩ := build_for_returns X h
  · cases h
  obtain ⟨content, hder, hdecode⟩ := assemble_decodes hread hserial hasm.symm
  refine ⟨_, parse_wrapped hcms hder hdecode, fun cert => ?_⟩
  obtain ⟨key_len, hlen, hval⟩ := content_key_len_alg .Aes256
  have hselect : select_recipient X (lone recipient enc_key iv.val
      (X.cbc_encrypt .Aes256 cek.val iv.val plaintext)) cert
        = .ok (lone_ktri recipient enc_key) := select_lone_recipient rfl cert
  have hpub := (public_checks_eq_ok X (o := ⟨_, _, _, _⟩)).mpr ⟨hlen, rfl, read_iv_octets iv, hselect⟩
  rw [← hkey] at hwrap
  exact open_of_encrypted X hrsa hcipher hpub (decrypt_symmetric_alg X .Aes256) hval cek.property
    iv.property hwrap rfl

/-- Nothing on the way of `build` refuses what fits. -/
theorem build_succeeds (henc : X.EncodeLaw) {cert : Certificate} {key : RsaPublicKey}
    {plaintext : Bytes} (hkey : rsa_public_key X cert = .ok key)
    (hserial : cert.tbs_certificate.serial_number.len ≤ SerialNumber.MAX_LEN)
    (hfits : Fits X plaintext cert key) {tr : Trace} {r : AppResult Bytes}
    (h : Returns (build X plaintext cert) tr r) : ∃ der, r = .ok der := by
  rw [build_eq hkey hserial] at h
  obtain ⟨cek, iv, seed, _, hrun⟩ := build_for_returns X h
  obtain ⟨enc_key, hwrap, hlen⟩ := hfits.wrap seed cek.val cek.property
  rcases hrun with ⟨e, he, _⟩ | ⟨enc_key', hwrap', rfl⟩
  · exact absurd (hwrap.symm.trans he) (by simp only [reduceCtorEq, not_false_eq_true])
  · obtain rfl : enc_key = enc_key' := Except.ok.inj (hwrap.symm.trans hwrap')
    have hct := hfits.content cek.val iv.val cek.property iv.property
    exact assemble_succeeds henc (recipient_of cert key) iv.val hlen hct

end Envelope

/-! ## The message -/

/-- The signed attributes of a SCEP message, in any order: its type, transactionID and
nonce, as they are written, and further ones of their own OIDs. Those CMS adds itself
are not among them. -/
structure ScepAttributes (attrs : List Attribute) (message_type : MessageType)
    (transaction_id : String) (sender_nonce : Bytes) : Prop where
  message_type : ∃ a ∈ attrs, printable_attribute ID_MESSAGE_TYPE message_type.as_value = .ok a
  transaction_id : ∃ a ∈ attrs, printable_attribute ID_TRANSACTION_ID transaction_id = .ok a
  sender_nonce : ∃ a ∈ attrs, octet_attribute ID_SENDER_NONCE sender_nonce = .ok a
  distinct : (attrs.map Attribute.oid).Nodup
  scep : ∀ a ∈ attrs, a.oid ≠ oids.ID_CONTENT_TYPE ∧ a.oid ≠ oids.ID_MESSAGE_DIGEST

namespace ScepAttributes

variable {attrs : List Attribute} {message_type : MessageType} {transaction_id : String}
  {sender_nonce : Bytes}

theorem filter_printable (h : ScepAttributes attrs message_type transaction_id sender_nonce)
    {oid : ObjectIdentifier} {value : String}
    (ha : ∃ a ∈ attrs, printable_attribute oid value = .ok a) :
    attrs.filter (fun b => b.oid = oid) = [printable oid value] ∧ Printable value := by
  obtain ⟨a, hmem, ha⟩ := ha
  obtain ⟨hprint, rfl⟩ := printable_attribute_eq_ok.mp ha
  exact ⟨filter_key_eq h.distinct hmem, hprint⟩

theorem filter_octets (h : ScepAttributes attrs message_type transaction_id sender_nonce)
    {oid : ObjectIdentifier} {value : Bytes}
    (ha : ∃ a ∈ attrs, octet_attribute oid value = .ok a) :
    attrs.filter (fun b => b.oid = oid) = [octets oid value] ∧ value.length ≤ Length.MAX := by
  obtain ⟨a, hmem, ha⟩ := ha
  obtain ⟨hlen, rfl⟩ := octet_attribute_eq_ok.mp ha
  exact ⟨filter_key_eq h.distinct hmem, hlen⟩

end ScepAttributes

section Message

variable {signer : RsaPrivateKey} {signer_cert : Certificate} {content : Option Bytes}
  {attrs : List Attribute} {der : Bytes}

/-- A message with content carries its digest, once. -/
theorem built_message_digest (hcms : X.CmsLaw) {m : Message} {c : Bytes}
    (hscep : ∀ a ∈ attrs, a.oid ≠ oids.ID_CONTENT_TYPE ∧ a.oid ≠ oids.ID_MESSAGE_DIGEST)
    (h : build_cert_rep X (CaSigningKey.new signer) signer_cert (some c) attrs = .ok der)
    (hm : decode_message X der = .ok m) :
    Attributes.find m.attrs oids.ID_MESSAGE_DIGEST
      = some (octets oids.ID_MESSAGE_DIGEST (X.sha256 c)) := by
  obtain ⟨_, ct, ct', _, hct', hperm⟩ := built_attributes X hcms h hm
  apply find_of_perm hperm
  have hhanded : attrs.filter (fun a => a.oid = oids.ID_MESSAGE_DIGEST) = [] := by
    rw [List.filter_eq_nil_iff]
    intro a ha
    rw [decide_eq_true_eq]
    exact (hscep a ha).2
  have hct : ¬ decide (ct'.oid = oids.ID_MESSAGE_DIGEST) = true := by
    rw [decide_eq_true_eq, hcms.content_type _ _ hct']
    decide
  show (attrs ++ X.builder_attributes _ ct').filter _ = _
  rw [List.filter_append, hhanded, List.nil_append]
  show List.filter _ (octets oids.ID_MESSAGE_DIGEST (X.sha256 c) ::
    if _ then [] else [ct']) = _
  rw [List.filter_cons_of_pos
    (p := fun a : Attribute => decide (a.oid = oids.ID_MESSAGE_DIGEST)) (decide_eq_true rfl)]
  split_ifs
  · rfl
  · rw [List.filter_cons_of_neg
      (p := fun a : Attribute => decide (a.oid = oids.ID_MESSAGE_DIGEST)) hct]
    rfl

/-- The content of a built message passes its check. -/
theorem built_content_checked (hcms : X.CmsLaw) (hread : X.ReadLaw) {m : Message}
    (hscep : ∀ a ∈ attrs, a.oid ≠ oids.ID_CONTENT_TYPE ∧ a.oid ≠ oids.ID_MESSAGE_DIGEST)
    (h : build_cert_rep X (CaSigningKey.new signer) signer_cert content attrs = .ok der)
    (hm : decode_message X der = .ok m) :
    check_content X oids.ID_SHA256 m.attrs content = .ok () := by
  rcases content with _ | c
  · rfl
  have hdigest := built_message_digest hcms hscep h hm
  have hlen : (X.sha256 c).length ≤ Length.MAX := by
    rw [hread.sha256_length]
    decide
  have hvalue : Any.decode_octet_string ⟨.OctetString, X.sha256 c⟩ = .ok (X.sha256 c) :=
    Any.decode_octet_string_eq_ok.mpr ⟨rfl, hlen⟩
  simp only [check_content, digest, find_attr, bind_eq_ok, ok_or_else_eq_ok, require_eq_ok]
  refine ⟨_, hdigest, X.sha256 c, ?_, X.sha256 c, ⟨.Sha256, rfl, rfl⟩, rfl⟩
  show (Any.decode_octet_string ⟨.OctetString, X.sha256 c⟩).toOption = _
  rw [hvalue]
  rfl

/-- The signature of a built message verifies. -/
theorem built_signature_verifies (hrsa : X.RsaLaw) (hread : X.ReadLaw) {m : Message}
    (hb : Built X (CaSigningKey.new signer) signer_cert content attrs der m) :
    ∃ attrs_der, X.attributes_to_der m.attrs = .ok attrs_der ∧
      verify_rsa X m.signer.digest_alg.oid signer.to_public_key attrs_der m.signer.signature
        = .ok () := by
  obtain ⟨attrs_der, hder, hsig⟩ := hb.signature
  refine ⟨attrs_der, hder, ?_⟩
  have hverify := hrsa.verify_sign _ _ _ hsig
  simp only [verify_rsa, bind_eq_ok, map_err_eq_ok, ok_or_else_eq_ok, require_eq_ok]
  rw [hb.digest_alg]
  exact ⟨_, hread.signature _ _ _ hsig, .Sha256, rfl, hverify⟩

/-- **Round trip of the message.** Whatever reads as the envelope of the content is
the envelope of the request, and the rest is what was written. -/
theorem built_verifies (hrsa : X.RsaLaw) (hcms : X.CmsLaw) (hread : X.ReadLaw)
    {message_type : MessageType} {transaction_id : String} {sender_nonce : Bytes}
    {enveloped : Option EnvelopedData}
    (hkey : rsa_public_key X signer_cert = .ok signer.to_public_key)
    (hattrs : ScepAttributes attrs message_type transaction_id sender_nonce)
    (henv : read_envelope X message_type content = .ok enveloped)
    (h : build_cert_rep X (CaSigningKey.new signer) signer_cert content attrs = .ok der) :
    parse_and_verify X der = .ok {
      message_type := message_type
      transaction_id := transaction_id
      sender_nonce := sender_nonce
      recipient := ⟨signer.to_public_key, signer_cert.tbs_certificate.issuer,
        signer_cert.tbs_certificate.serial_number⟩
      enveloped := enveloped } := by
  obtain ⟨m, hb⟩ := build_cert_rep_built X hcms h
  obtain ⟨attrs_der, hder, hverify⟩ := built_signature_verifies hrsa hread hb
  have hcontent := built_content_checked hcms hread hattrs.scep h hb.decoded
  obtain ⟨htype, htype_print⟩ := hattrs.filter_printable hattrs.message_type
  obtain ⟨htxn, htxn_print⟩ := hattrs.filter_printable hattrs.transaction_id
  obtain ⟨hnonce, hnonce_len⟩ := hattrs.filter_octets hattrs.sender_nonce
  have hread_type := hb.read_string (by decide) (by decide) htype_print htype
  have hread_txn := hb.read_string (by decide) (by decide) htxn_print htxn
  have hread_nonce := hb.read_octets (by decide) (by decide) hnonce_len hnonce
  have hcert_key : rsa_public_key_from_spki X m.cert.tbs_certificate.subject_public_key_info
      = .ok signer.to_public_key := by
    rw [hb.certificate]
    exact hkey
  simp only [parse_and_verify, bind_eq_ok, map_err_eq_ok]
  refine ⟨m, hb.decoded, _, hcert_key, attrs_der, hder, (), hverify, (), ?_, _, hread_type, _,
    MessageType.from_value_as_value _, _, hread_txn, _, hread_nonce, enveloped, ?_, ?_⟩
  · rw [hb.digest_alg, hb.content]
    exact hcontent
  · rw [hb.content]
    exact henv
  · rw [hb.certificate]
    rfl

end Message

/-! ## Both -/

/-- **CMS round trip.** A message built around an envelope that `build` made is accepted
with the type, transactionID and nonce it was given and the signer certificate's key,
issuer and serial, and its envelope opens to the plaintext; without content it is
accepted without an envelope; and it makes no difference to `parse` whether an
`EnvelopedData` comes on its own or in a `ContentInfo`. -/
theorem cms_round_trip (hrsa : X.RsaLaw) (hcipher : X.CipherLaw) (hcms : X.CmsLaw)
    (hread : X.ReadLaw) (henc : X.EncodeLaw) {plaintext : Bytes} {message_type : MessageType}
    {transaction_id : String} {sender_nonce : Bytes} {attrs : List Attribute}
    {signer recipient_key : RsaPrivateKey} {signer_cert recipient_cert : Certificate}
    (any_to_der : Any → Except String Bytes)
    (htype : message_type = .PkcsReq ∨ message_type = .RenewalReq ∨ message_type = .CertRep)
    (hattrs : ScepAttributes attrs message_type transaction_id sender_nonce)
    (hsigner : rsa_public_key X signer_cert = .ok signer.to_public_key)
    (hsigns : ∀ msg, ∃ s, X.rsa_try_sign (CaSigningKey.new signer) msg = .ok s)
    (hrecipient : rsa_public_key X recipient_cert = .ok recipient_key.to_public_key)
    (hserial : recipient_cert.tbs_certificate.serial_number.len ≤ SerialNumber.MAX_LEN)
    (hfits : Envelope.Fits X plaintext recipient_cert recipient_key.to_public_key)
    (hany : ∀ a b, any_to_der a = .ok b →
      X.enveloped_data_from_der b = X.enveloped_data_decode a) :
    (∀ tr r, Returns (Envelope.build X plaintext recipient_cert) tr r →
      ∃ content der enveloped, r = .ok content ∧
        build_cert_rep X (CaSigningKey.new signer) signer_cert (some content) attrs = .ok der ∧
        parse_and_verify X der = .ok {
          message_type := message_type
          transaction_id := transaction_id
          sender_nonce := sender_nonce
          recipient := ⟨signer.to_public_key, signer_cert.tbs_certificate.issuer,
            signer_cert.tbs_certificate.serial_number⟩
          enveloped := some enveloped } ∧
        Envelope.open_ X enveloped recipient_cert recipient_key = .ok plaintext) ∧
    (∃ der, build_cert_rep X (CaSigningKey.new signer) signer_cert none attrs = .ok der ∧
      parse_and_verify X der = .ok {
        message_type := message_type
        transaction_id := transaction_id
        sender_nonce := sender_nonce
        recipient := ⟨signer.to_public_key, signer_cert.tbs_certificate.issuer,
          signer_cert.tbs_certificate.serial_number⟩
        enveloped := none }) ∧
    (∀ content bare wrapped enveloped, any_to_der content = .ok bare →
      X.enveloped_data_from_der bare = .ok enveloped →
      X.content_info_to_der ⟨oids.ID_ENVELOPED_DATA, content⟩ = .ok wrapped →
      Envelope.parse X bare = .ok enveloped ∧ Envelope.parse X wrapped = .ok enveloped) := by
  refine ⟨fun tr r hrun => ?_, ?_, ?_⟩
  · obtain ⟨content, rfl⟩ := Envelope.build_succeeds henc hrecipient hserial hfits hrun
    have hlen : ∀ c, some content = some c → c.length ≤ Length.MAX := by
      intro c hc
      rw [← Option.some.inj hc]
      exact hfits.message tr content hrun
    rw [Envelope.build_eq hrecipient hserial] at hrun
    have hkey : recipient_key.to_public_key
        = (Envelope.recipient_of recipient_cert recipient_key.to_public_key).public_key := rfl
    obtain ⟨enveloped, hparse, hopen⟩ := Envelope.built_opens hrsa hcipher hcms hread hkey hserial
      hrun
    obtain ⟨der, hder⟩ := build_cert_rep_succeeds hcms henc signer_cert (some content) hsigns
      hattrs.scep hattrs.distinct hlen
    have henv : read_envelope X message_type (some content) = .ok (some enveloped) := by
      rcases htype with rfl | rfl | rfl
      all_goals
        simp only [read_envelope, bind_eq_ok]
        exact ⟨enveloped, hparse, rfl⟩
    exact ⟨content, der, enveloped, rfl, hder,
      built_verifies hrsa hcms hread hsigner hattrs henv hder, hopen recipient_cert⟩
  · obtain ⟨der, hder⟩ := build_cert_rep_succeeds hcms henc signer_cert none hsigns
      hattrs.scep hattrs.distinct fun c hc => by cases hc
    have henv : read_envelope X message_type none = .ok none := by
      cases message_type <;> rfl
    exact ⟨der, hder, built_verifies hrsa hcms hread hsigner hattrs henv hder⟩
  · intro content bare wrapped enveloped hbare hdecode hwrapped
    refine ⟨Envelope.parse_bare hread hdecode, Envelope.parse_wrapped hcms hwrapped ?_⟩
    rw [← hany content bare hbare]
    exact hdecode

/-! ## On the reference crates -/

namespace Device

open Codec (enc decode_enc length_enc_pair length_enc_cons length_enc_bytes)

theorem length_content_info (value : Bytes) :
    (enc (⟨oids.ID_ENVELOPED_DATA, ⟨.Sequence, value⟩⟩ : ContentInfo)).length
      = (enc (⟨oids.ID_ENVELOPED_DATA, ⟨.Sequence, []⟩⟩ : ContentInfo)).length
        + 2 * value.length := by
  show (enc (oids.ID_ENVELOPED_DATA, Tag.Sequence, value)).length
    = (enc (oids.ID_ENVELOPED_DATA, Tag.Sequence, ([] : Bytes))).length + _
  simp only [length_enc_pair, length_enc_bytes, List.length_nil]
  omega

/-- The lengths of an envelope's variable parts count twice. -/
theorem length_lone (r : Recipient) (key iv ciphertext : Bytes) :
    (enc (Envelope.lone r key iv ciphertext)).length
      = (enc (Envelope.lone r [] [] [])).length + 2 * key.length + 2 * iv.length
        + 2 * ciphertext.length := by
  have hparts : ∀ key iv ciphertext : Bytes, (enc (Envelope.lone r key iv ciphertext)).length
      = (enc (CmsVersion.V0,
          [(0, some (CmsVersion.V0, (some (r.issuer, r.serial.as_bytes), ([] : Bytes)),
            (oids.RSA_ENCRYPTION, some Any.Null), key), Any.Null)],
          oids.ID_DATA, (oids.ID_AES_256_CBC, some (Tag.OctetString, iv)),
          some ciphertext)).length := fun _ _ _ => rfl
  have hsome : ∀ {α : Type} [Codec α] (a : α), (enc (some a)).length = (enc a).length + 2 := by
    intro α _ a
    show (enc [a]).length = _
    rw [length_enc_cons]
    rfl
  rw [hparts, hparts]
  simp only [length_enc_pair, length_enc_bytes, hsome, length_enc_cons, List.length_nil]
  omega

/-- What an envelope is on the reference crates. -/
theorem assembled {r : Recipient} {key iv ciphertext der : Bytes}
    (h : Envelope.assemble Reference.cms_crates r key iv ciphertext = .ok der) :
    der = 0 :: enc (⟨oids.ID_ENVELOPED_DATA,
      ⟨.Sequence, enc (Envelope.lone r key iv ciphertext)⟩⟩ : ContentInfo) := by
  simp only [Envelope.assemble, bind_eq_ok, map_err_eq_ok, OctetString.new_eq_ok] at h
  obtain ⟨_, ⟨_, hkey⟩, recip_info, hri, _, ⟨_, hct⟩, content, henv, hder⟩ := h
  rw [hkey] at hri
  rw [hct] at henv
  have hinfo : Reference.recipient_info recip_info = .Ktri (Envelope.lone_ktri r key) := by
    rw [← Except.ok.inj hri, Reference.recipient_info, decode_enc]
    rfl
  have hcontent : content = ⟨.Sequence, enc (Envelope.lone r key iv ciphertext)⟩ := by
    rw [← Except.ok.inj henv, Reference.enveloped_data, List.map_singleton, hinfo]
    rfl
  rw [← Except.ok.inj hder, hcontent]

theorem ca_key_of_cert :
    rsa_public_key Reference.cms_crates ca_cert = .ok ca_key.to_public_key :=
  key_of_self_signed "Root CA" [1] ca_key

theorem device_key_of_cert :
    rsa_public_key Reference.cms_crates device_cert = .ok device_key.to_public_key :=
  key_of_self_signed "device" (List.replicate 24 0x5a) device_key

/-- Plaintexts of moderate length fit in an envelope for the CA. -/
theorem plaintext_fits (plaintext : Bytes) (h : plaintext.length ≤ 1000) :
    Envelope.Fits Reference.cms_crates plaintext ca_cert ca_key.to_public_key := by
  have hkey : (enc ca_key.to_public_key).length ≤ 1000 := by decide
  have hci : (enc (⟨oids.ID_ENVELOPED_DATA, ⟨.Sequence, []⟩⟩ : ContentInfo)).length ≤ 1000 := by
    decide
  have hlone : (enc (Envelope.lone (Envelope.recipient_of ca_cert ca_key.to_public_key)
      [] [] [])).length ≤ 1000 := by decide +kernel
  have hmax : Length.MAX = 268435455 := rfl
  have hwrap : ∀ seed cek, cek.length = 32 →
      Reference.cms_crates.rsa_encrypt ca_key.to_public_key seed cek
        = .ok (enc ca_key.to_public_key ++ cek) := by
    intro seed cek hcek
    apply if_pos
    rw [hcek]
    decide
  refine ⟨?_, ?_, ?_⟩
  · intro seed cek hcek
    refine ⟨_, hwrap seed cek hcek, ?_⟩
    rw [List.length_append]
    omega
  · intro cek iv hcek hiv
    show (cek ++ plaintext).length ≤ _
    rw [List.length_append]
    omega
  · intro tr der hrun
    rw [Envelope.build_eq ca_key_of_cert (by decide)] at hrun
    obtain ⟨cek, iv, seed, _, ⟨_, _, hno⟩ | ⟨key, hkey', hasm⟩⟩ :=
      Envelope.build_for_returns _ hrun
    · cases hno
    obtain rfl := Except.ok.inj ((hwrap seed cek.val cek.property).symm.trans hkey')
    have hcek := cek.property
    have hiv := iv.property
    rw [assembled hasm.symm, List.length_cons, length_content_info, length_lone]
    show _ + 2 * (_ + 2 * (_ ++ cek.val).length + 2 * iv.val.length
      + 2 * (cek.val ++ plaintext).length) + 1 ≤ _
    rw [List.length_append, List.length_append]
    omega

/-- The attributes of a request, the message type last. -/
def scep_attributes (message_type : MessageType) (transaction_id : String) : List Attribute :=
  [Attributes.octets ID_SENDER_NONCE nonce, printable ID_TRANSACTION_ID transaction_id,
    printable ID_FAIL_INFO "0", printable ID_MESSAGE_TYPE message_type.as_value]

theorem scep_attributes_are (transaction_id : String) (h : Printable transaction_id)
    (message_type : MessageType) :
    ScepAttributes (scep_attributes message_type transaction_id) message_type transaction_id
      nonce where
  message_type := ⟨_, by simp only [scep_attributes, List.mem_cons, true_or, or_true],
    printable_attribute_of_printable (MessageType.printable _) _⟩
  transaction_id := ⟨_, by simp only [scep_attributes, List.mem_cons, true_or, or_true],
    printable_attribute_of_printable h _⟩
  sender_nonce := ⟨_, List.mem_cons_self, octet_attribute_eq_ok.mpr ⟨by decide, rfl⟩⟩
  distinct := by
    show [ID_SENDER_NONCE, ID_TRANSACTION_ID, ID_FAIL_INFO, ID_MESSAGE_TYPE].Nodup
    decide
  scep := by
    simp only [scep_attributes, List.forall_mem_cons, Attributes.octets, printable]
    decide

end Device

/-- The device's request comes through. -/
theorem device_round_trip : ∃ tr content der enveloped,
    Returns (Envelope.build Reference.cms_crates [1, 2, 3] Device.ca_cert) tr (.ok content) ∧
    build_cert_rep Reference.cms_crates (CaSigningKey.new Device.device_key) Device.device_cert
      (some content) (Device.scep_attributes .PkcsReq "T-1") = .ok der ∧
    parse_and_verify Reference.cms_crates der = .ok {
      message_type := .PkcsReq
      transaction_id := "T-1"
      sender_nonce := Device.nonce
      recipient := ⟨Device.device_key.to_public_key, Device.device_cert.tbs_certificate.issuer,
        Device.device_cert.tbs_certificate.serial_number⟩
      enveloped := some enveloped } ∧
    Envelope.open_ Reference.cms_crates enveloped Device.ca_cert Device.ca_key
      = .ok [1, 2, 3] := by
  have htrip := cms_round_trip Reference.Cms.rsa_law Reference.Cms.cipher_law Reference.Cms.cms_law
    Reference.Cms.read_law Reference.Cms.encode_law
    (fun a => .ok (1 :: a.value)) (.inl rfl) (Device.scep_attributes_are "T-1" (by decide) .PkcsReq)
    Device.device_key_of_cert (fun msg => ⟨_, rfl⟩) Device.ca_key_of_cert (by decide)
    (Device.plaintext_fits [1, 2, 3] (by decide)) (fun a b hb => by
      rw [← Except.ok.inj hb]
      rfl)
  obtain ⟨tr, r, _, hrun, _⟩ :=
    exists_run (Envelope.build Reference.cms_crates [1, 2, 3] Device.ca_cert) ⟨0⟩ Db.empty
  obtain ⟨content, der, enveloped, rfl, hrest⟩ := htrip.1 tr r hrun
  exact ⟨tr, content, der, enveloped, hrun, hrest⟩

end Blapki
