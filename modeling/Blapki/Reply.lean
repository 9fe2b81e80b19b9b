/-
A `CertRep` as its client reads it.

The client decodes a reply with the decoder the server uses for requests. What it
finds is the content, the CA certificate, a signature by the CA key over the
signed attributes, and among these the ones the server handed over, in an order
of the encoding's own. `Answers` is the part common to all replies,
`SuccessReply` and `FailureReply` are the two kinds.
-/
import Blapki.Verify

set_option autoImplicit false

namespace Blapki

open Attributes Verify

variable (X : Crates)

/-! ## Decoding what was built -/

/-- The message `m` is a build of the content and the attributes by the signer. -/
structure Built (signer : CaSigningKey) (signer_cert : Certificate) (content : Option Bytes)
    (signed_attrs : List Attribute) (der : Bytes) (m : Message) : Prop where
  decoded : decode_message X der = .ok m
  certificate : m.cert = signer_cert
  content : m.econtent = content
  digest_alg : m.signer.digest_alg = sha256_alg
  signature : ∃ attrs_der, X.attributes_to_der m.attrs = .ok attrs_der ∧
    X.rsa_try_sign signer attrs_der = .ok m.signer.signature
  /-- The handed attributes, in the order of the encoding, plus content type and
  message digest. -/
  attrs : ∃ before after : List Attribute, m.attrs.Perm (before ++ signed_attrs ++ after) ∧
    ∀ a ∈ before ++ after, a.oid = oids.ID_CONTENT_TYPE ∨ a.oid = oids.ID_MESSAGE_DIGEST

/-- The attributes of the builder itself are a content type and a digest. -/
private theorem builder_attributes_oid {si : SignerInfoBuilder} {ct a : Attribute}
    (hct : ct.oid = oids.ID_CONTENT_TYPE) (ha : a ∈ X.builder_attributes si ct) :
    a.oid = oids.ID_CONTENT_TYPE ∨ a.oid = oids.ID_MESSAGE_DIGEST := by
  unfold Crates.builder_attributes at ha
  split at ha
  · exact absurd ha (List.not_mem_nil)
  · rcases List.mem_cons.mp ha with rfl | ha
    · exact .inr rfl
    · split at ha
      · exact absurd ha (List.not_mem_nil)
      · rw [List.mem_singleton.mp ha]
        exact .inl hct

theorem build_cert_rep_built (hcms : X.CmsLaw) {signer : CaSigningKey} {signer_cert : Certificate}
    {content : Option Bytes} {signed_attrs : List Attribute} {der : Bytes}
    (h : build_cert_rep X signer signer_cert content signed_attrs = .ok der) :
    ∃ m, Built X signer signer_cert content signed_attrs der m := by
  obtain ⟨ct, ci, hct, hbuild, hder⟩ := build_cert_rep_eq_ok X hcms h
  obtain ⟨sd, rsi, attrs, attrs_der, hb⟩ := hcms.build _ _ _ hbuild rfl rfl
  obtain ⟨certs, hcerts, hcert⟩ := hb.certificates _ rfl
  obtain ⟨ct', hct', hperm⟩ := hb.attributes
  have hdecoded : decode_message X der = .ok ⟨sd, rsi, signer_cert, attrs⟩ :=
    (decode_message_eq_ok X).mpr ⟨ci, hcms.content_info _ _ hder, hb.content_type, hb.decoded,
      hb.signer_info, ⟨certs, hcerts, hcert⟩, hb.signed_attrs⟩
  refine ⟨⟨sd, rsi, signer_cert, attrs⟩, ⟨hdecoded, rfl, ?_, hb.digest_alg,
    ⟨attrs_der, hb.attributes_der, hb.signature⟩, ?_⟩⟩
  · show sd.encap_content_info.econtent.map Any.value = content
    rw [hb.encap, Option.map_map]
    exact Option.map_id_apply
  · refine ⟨if content.isNone then [ct] else [], _, hperm, ?_⟩
    intro a ha
    rcases List.mem_append.mp ha with ha | ha
    · split at ha
      · rw [List.mem_singleton.mp ha]
        exact .inl hct
      · exact absurd ha (List.not_mem_nil)
    · exact builder_attributes_oid X (hcms.content_type _ _ hct') ha

/-- What the attributes of a built message are, whatever their order. -/
theorem built_attributes (hcms : X.CmsLaw) {signer : CaSigningKey} {signer_cert : Certificate}
    {content : Option Bytes} {signed_attrs : List Attribute} {der : Bytes} {m : Message}
    (h : build_cert_rep X signer signer_cert content signed_attrs = .ok der)
    (hm : decode_message X der = .ok m) :
    m.sd.encap_content_info.econtent_type = oids.ID_DATA ∧
    ∃ ct ct', ct.oid = oids.ID_CONTENT_TYPE ∧
      X.create_content_type_attribute oids.ID_DATA = .ok ct' ∧
      m.attrs.Perm (handed_attributes content ct signed_attrs ++
        X.builder_attributes (reply_signer_info signer signer_cert content ct signed_attrs) ct') := by
  obtain ⟨ct, ci, hct, hbuild, hder⟩ := build_cert_rep_eq_ok X hcms h
  obtain ⟨sd, rsi, attrs, attrs_der, hb⟩ := hcms.build _ _ _ hbuild rfl rfl
  obtain ⟨ct', hct', hperm⟩ := hb.attributes
  -- The message is the one the builder wrote.
  obtain ⟨ci', hci', _, hsd, hsigner, _, hsigned⟩ := (decode_message_eq_ok X).mp hm
  rw [hcms.content_info _ _ hder] at hci'
  obtain rfl := Except.ok.inj hci'
  rw [hb.decoded] at hsd
  obtain rfl := Except.ok.inj hsd
  rw [hb.signer_info] at hsigner
  obtain rfl := Except.ok.inj hsigner
  rw [hb.signed_attrs] at hsigned
  obtain rfl := Option.some.inj hsigned
  refine ⟨?_, ct, ct', hct, hct', hperm⟩
  rw [hb.encap]

/-- Of the other attributes, a client finds exactly those the server handed over. -/
theorem Built.filter {signer : CaSigningKey} {signer_cert : Certificate} {content : Option Bytes}
    {signed_attrs : List Attribute} {der : Bytes} {m : Message}
    (h : Built X signer signer_cert content signed_attrs der m) {oid : ObjectIdentifier}
    (hct : oid ≠ oids.ID_CONTENT_TYPE) (hmd : oid ≠ oids.ID_MESSAGE_DIGEST) :
    (m.attrs.filter fun a => a.oid = oid).Perm (signed_attrs.filter fun a => a.oid = oid) := by
  obtain ⟨before, after, hperm, hoids⟩ := h.attrs
  have hnone : ∀ l : List Attribute, (∀ a ∈ l, a ∈ before ++ after) →
      l.filter (fun a => a.oid = oid) = [] := by
    intro l hl
    rw [List.filter_eq_nil_iff]
    intro a ha
    rw [decide_eq_true_eq]
    rcases hoids a (hl a ha) with hoid | hoid
    · exact fun heq => hct (heq ▸ hoid)
    · exact fun heq => hmd (heq ▸ hoid)
  have hfilter := hperm.filter fun a => decide (a.oid = oid)
  rwa [List.filter_append, List.filter_append,
    hnone before fun a ha => List.mem_append_left _ ha,
    hnone after fun a ha => List.mem_append_right _ ha, List.nil_append, List.append_nil] at hfilter

/-! ## Reading the attributes -/

section Read

variable {X}
variable {signer : CaSigningKey} {signer_cert : Certificate} {content : Option Bytes}
  {signed_attrs : List Attribute} {der : Bytes} {m : Message} {oid : ObjectIdentifier}

theorem Built.find (h : Built X signer signer_cert content signed_attrs der m)
    (hct : oid ≠ oids.ID_CONTENT_TYPE) (hmd : oid ≠ oids.ID_MESSAGE_DIGEST) {a : Attribute}
    (ha : signed_attrs.filter (fun b => b.oid = oid) = [a]) :
    Attributes.find m.attrs oid = some a := by
  have hfilter : m.attrs.filter (fun b => b.oid = oid) = [a] :=
    List.perm_singleton.mp (ha ▸ h.filter X hct hmd)
  rw [Attributes.find, ← List.head?_filter, hfilter]
  rfl

theorem Built.find_none (h : Built X signer signer_cert content signed_attrs der m)
    (hct : oid ≠ oids.ID_CONTENT_TYPE) (hmd : oid ≠ oids.ID_MESSAGE_DIGEST)
    (ha : signed_attrs.filter (fun b => b.oid = oid) = []) :
    Attributes.find m.attrs oid = none := by
  have hfilter : m.attrs.filter (fun b => b.oid = oid) = [] :=
    List.perm_nil.mp (ha ▸ h.filter X hct hmd)
  rw [Attributes.find, ← List.head?_filter, hfilter]
  rfl

/-- A text the server wrote reads back. -/
theorem Built.read_string (h : Built X signer signer_cert content signed_attrs der m)
    (hct : oid ≠ oids.ID_CONTENT_TYPE) (hmd : oid ≠ oids.ID_MESSAGE_DIGEST) {value : String}
    (hprint : Printable value)
    (ha : signed_attrs.filter (fun b => b.oid = oid) = [printable oid value]) :
    Attributes.read_string m.attrs oid = .ok value :=
  read_string_eq_ok.mpr ⟨_, first_value_eq_ok.mpr ⟨_, h.find hct hmd ha, rfl⟩,
    decode_string_printable hprint⟩

/-- Octets the server wrote read back. -/
theorem Built.read_octets (h : Built X signer signer_cert content signed_attrs der m)
    (hct : oid ≠ oids.ID_CONTENT_TYPE) (hmd : oid ≠ oids.ID_MESSAGE_DIGEST) {value : Bytes}
    (hlen : value.length ≤ Length.MAX)
    (ha : signed_attrs.filter (fun b => b.oid = oid) = [octets oid value]) :
    Attributes.read_octets m.attrs oid = .ok value :=
  read_octets_eq_ok.mpr ⟨first_value_eq_ok.mpr ⟨_, h.find hct hmd ha, rfl⟩, hlen⟩

end Read

/-! ## The two kinds of reply -/

/-- The reply `der`, read as `m`, is a `CertRep` signed by the key `signer` that
echoes the transactionID and the nonce of the request. -/
structure Answers (signer : CaSigningKey) (signer_cert : Certificate) (parsed : ParsedRequest)
    (der : Bytes) (m : Message) : Prop where
  decoded : decode_message X der = .ok m
  certificate : m.cert = signer_cert
  digest_alg : m.signer.digest_alg = sha256_alg
  signature : ∃ attrs_der, X.attributes_to_der m.attrs = .ok attrs_der ∧
    X.rsa_try_sign signer attrs_der = .ok m.signer.signature
  message_type : read_string m.attrs ID_MESSAGE_TYPE = .ok MessageType.CertRep.as_value
  transaction_id : read_string m.attrs ID_TRANSACTION_ID = .ok parsed.transaction_id
  recipient_nonce : read_octets m.attrs ID_RECIPIENT_NONCE = .ok parsed.sender_nonce

/-- A SUCCESS reply carries the envelope and no failInfo. -/
structure SuccessReply (signer : CaSigningKey) (signer_cert : Certificate)
    (parsed : ParsedRequest) (env_der der : Bytes) (m : Message) : Prop extends
    Answers X signer signer_cert parsed der m where
  pki_status : read_string m.attrs ID_PKI_STATUS = .ok PkiStatus.Success.as_value
  fail_info : find m.attrs ID_FAIL_INFO = none
  content : m.econtent = some env_der

/-- A FAILURE reply carries a failInfo and no content. -/
structure FailureReply (signer : CaSigningKey) (signer_cert : Certificate)
    (parsed : ParsedRequest) (fail_info : FailInfo) (der : Bytes) (m : Message) : Prop extends
    Answers X signer signer_cert parsed der m where
  pki_status : read_string m.attrs ID_PKI_STATUS = .ok PkiStatus.Failure.as_value
  fail_info : read_string m.attrs ID_FAIL_INFO = .ok fail_info.as_value
  content : m.econtent = none

/-- The reply reads as a SUCCESS `CertRep`. -/
def IsSuccess (der : Bytes) : Prop :=
  ∃ m, decode_message X der = .ok m ∧
    read_string m.attrs ID_PKI_STATUS = .ok PkiStatus.Success.as_value

variable {X}

theorem success_reply (hcms : X.CmsLaw) {signer : CaSigningKey} {signer_cert : Certificate}
    {parsed : ParsedRequest} {env_der nonce der : Bytes}
    (htxn : Printable parsed.transaction_id) (hlen : parsed.sender_nonce.length ≤ Length.MAX)
    (h : build_cert_rep X signer signer_cert (some env_der)
      (echoing success_head parsed.transaction_id parsed.sender_nonce nonce) = .ok der) :
    ∃ m, SuccessReply X signer signer_cert parsed env_der der m := by
  obtain ⟨m, hb⟩ := build_cert_rep_built X hcms h
  refine ⟨m, ⟨⟨hb.decoded, hb.certificate, hb.digest_alg, hb.signature, ?_, ?_, ?_⟩, ?_, ?_, ?_⟩⟩
  · exact hb.read_string (by decide) (by decide) (MessageType.printable _) rfl
  · exact hb.read_string (by decide) (by decide) htxn rfl
  · exact hb.read_octets (by decide) (by decide) hlen rfl
  · exact hb.read_string (by decide) (by decide) (PkiStatus.printable _) rfl
  · exact hb.find_none (by decide) (by decide) rfl
  · exact hb.content

theorem failure_reply (hcms : X.CmsLaw) {signer : CaSigningKey} {signer_cert : Certificate}
    {parsed : ParsedRequest} {fail_info : FailInfo} {nonce der : Bytes}
    (htxn : Printable parsed.transaction_id) (hlen : parsed.sender_nonce.length ≤ Length.MAX)
    (h : build_cert_rep X signer signer_cert none
      (echoing (failure_head fail_info) parsed.transaction_id parsed.sender_nonce nonce)
        = .ok der) :
    ∃ m, FailureReply X signer signer_cert parsed fail_info der m := by
  obtain ⟨m, hb⟩ := build_cert_rep_built X hcms h
  refine ⟨m, ⟨⟨hb.decoded, hb.certificate, hb.digest_alg, hb.signature, ?_, ?_, ?_⟩, ?_, ?_, ?_⟩⟩
  · exact hb.read_string (by decide) (by decide) (MessageType.printable _) rfl
  · exact hb.read_string (by decide) (by decide) htxn rfl
  · exact hb.read_octets (by decide) (by decide) hlen rfl
  · exact hb.read_string (by decide) (by decide) (PkiStatus.printable _) rfl
  · exact hb.read_string (by decide) (by decide) (FailInfo.printable _) rfl
  · exact hb.content

/-- A SUCCESS reply reads as one. -/
theorem SuccessReply.is_success {signer : CaSigningKey} {signer_cert : Certificate}
    {parsed : ParsedRequest} {env_der der : Bytes} {m : Message}
    (h : SuccessReply X signer signer_cert parsed env_der der m) : IsSuccess X der :=
  ⟨m, h.decoded, h.pki_status⟩

/-- A FAILURE reply does not. -/
theorem FailureReply.not_success {signer : CaSigningKey} {signer_cert : Certificate}
    {parsed : ParsedRequest} {fail_info : FailInfo} {der : Bytes} {m : Message}
    (h : FailureReply X signer signer_cert parsed fail_info der m) : ¬ IsSuccess X der := by
  rintro ⟨m', hm', hstatus⟩
  rw [h.decoded] at hm'
  cases hm'
  rw [h.pki_status] at hstatus
  exact absurd hstatus (by decide)

end Blapki
