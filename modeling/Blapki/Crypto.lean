/-
CMS glue and the outbound direction (`crypto/mod.rs`, `crypto/degenerate.rs`,
`crypto/sign.rs`): certs-only messages and the signed `CertRep`.

A `CertRep` is put together by the builders of `cms`, one fallible call after
the other. `build_cert_rep_eq_ok` says what the last of them is handed when all
went well; what a client reads back of the result is in `Reply.lean`.
-/
import Blapki.Attributes
import Blapki.Crates

set_option autoImplicit false

namespace Blapki

variable (X : Crates)

/-! ## Helpers of the module -/

/-- How an error of `der` is reported. -/
def der_err (e : String) : AppError := .crypto s!"DER error: {e}"

/-- How an error of the builders of `cms` is reported. -/
def builder_err (e : String) : AppError := .crypto s!"CMS builder error: {e}"

/-- The SHA-256 digest algorithm identifier, with an explicit NULL parameter. -/
def sha256_alg : AlgorithmIdentifierOwned := ⟨oids.ID_SHA256, some Any.Null⟩

/-- Extract an RSA public key from a `SubjectPublicKeyInfo`. -/
def rsa_public_key_from_spki (spki : SubjectPublicKeyInfoOwned) : AppResult RsaPublicKey :=
  map_err (X.rsa_public_key_from_pkcs1_der spki.subject_public_key) fun e =>
    .crypto s!"not an RSA key: {e}"

/-- Extract an RSA public key from a certificate's `SubjectPublicKeyInfo`. -/
def rsa_public_key (cert : Certificate) : AppResult RsaPublicKey :=
  rsa_public_key_from_spki X cert.tbs_certificate.subject_public_key_info

/-! ## Certs-only messages -/

/-- DER-encode a single certificate as a certs-only PKCS#7 message. -/
def certs_only (cert : Certificate) : AppResult Bytes := do
  let ci ← map_err (X.content_info_from_certificate cert) der_err
  map_err (X.content_info_to_der ci) der_err

/-! ## Signing a `CertRep` -/

/-- The content of a reply as the builder takes it. -/
def encap_content (message_data : Option Bytes) : AppResult EncapsulatedContentInfo :=
  match message_data with
  | some data => do
      let os ← map_err (OctetString.new data) der_err
      pure ⟨oids.ID_DATA, some ⟨.OctetString, os⟩⟩
  | none => pure ⟨oids.ID_DATA, none⟩

/-- When there is no content, the builder won't add a content-type attribute; add
it so the signed attributes remain valid CMS. -/
def add_content_type (b : SignerInfoBuilder) (message_data : Option Bytes) :
    AppResult SignerInfoBuilder :=
  match message_data with
  | none => do
      let ct ← map_err (X.create_content_type_attribute oids.ID_DATA) builder_err
      map_err (X.add_signed_attribute b ct) builder_err
  | some _ => pure b

/-- The loop of `build_cert_rep` over the attributes. -/
def add_signed_attributes : SignerInfoBuilder → List Attribute → AppResult SignerInfoBuilder
  | b, [] => pure b
  | b, a :: attrs => do
      let b ← map_err (X.add_signed_attribute b a) builder_err
      add_signed_attributes b attrs

/-- Assemble a signed `CertRep`. `message_data` is the DER `pkcsPKIEnvelope` of a
SUCCESS response, or `none` for FAILURE. -/
def build_cert_rep (signer : CaSigningKey) (signer_cert : Certificate)
    (message_data : Option Bytes) (signed_attrs : List Attribute) : AppResult Bytes := do
  let encap ← encap_content message_data
  let sid : IssuerAndSerialNumber :=
    ⟨signer_cert.tbs_certificate.issuer, signer_cert.tbs_certificate.serial_number⟩
  let signer_info ← map_err (X.signer_info_builder_new signer sid sha256_alg encap none) builder_err
  let signer_info ← add_content_type X signer_info message_data
  let signer_info ← add_signed_attributes X signer_info signed_attrs
  let builder ←
    map_err (X.add_digest_algorithm (SignedDataBuilder.new encap) sha256_alg) builder_err
  let builder ← map_err (X.add_certificate builder signer_cert) builder_err
  let builder ← map_err (X.add_signer_info builder signer_info) builder_err
  let content_info ← map_err (X.signed_data_build builder) builder_err
  map_err (X.content_info_to_der content_info) der_err

/-! ## What the builder is handed -/

/-- The signed attributes of a reply before the builder adds its own. -/
def handed_attributes (message_data : Option Bytes) (ct : Attribute)
    (signed_attrs : List Attribute) : List Attribute :=
  (if message_data.isNone then [ct] else []) ++ signed_attrs

theorem encap_content_eq_ok {message_data : Option Bytes} {encap : EncapsulatedContentInfo}
    (h : encap_content message_data = .ok encap) :
    encap = ⟨oids.ID_DATA, message_data.map fun data => ⟨.OctetString, data⟩⟩ := by
  rcases message_data with _ | data
  · simp only [encap_content, pure, Except.pure, Except.ok.injEq] at h
    exact h.symm
  · simp only [encap_content, bind_eq_ok, map_err_eq_ok, OctetString.new_eq_ok, pure, Except.pure,
      Except.ok.injEq] at h
    obtain ⟨os, ⟨_, rfl⟩, rfl⟩ := h
    rfl

/-- The loop pushes the attributes in order. -/
theorem add_signed_attributes_eq_ok (hcms : X.CmsLaw) {attrs : List Attribute}
    {b b' : SignerInfoBuilder} (h : add_signed_attributes X b attrs = .ok b') :
    b' = { b with signed_attributes := b.signed_attributes ++ attrs } := by
  induction attrs generalizing b with
  | nil =>
      simp only [add_signed_attributes, pure, Except.pure, Except.ok.injEq] at h
      rw [← h, List.append_nil]
  | cons a attrs ih =>
      simp only [add_signed_attributes, bind_eq_ok, map_err_eq_ok] at h
      obtain ⟨b₁, hb₁, h⟩ := h
      rw [ih h, hcms.add_signed_attribute b a b₁ hb₁]
      simp only [List.append_assoc, List.singleton_append]

/-- The signer info of a reply. -/
def reply_signer_info (signer : CaSigningKey) (signer_cert : Certificate)
    (message_data : Option Bytes) (ct : Attribute) (signed_attrs : List Attribute) :
    SignerInfoBuilder where
  signer := signer
  sid := ⟨signer_cert.tbs_certificate.issuer, signer_cert.tbs_certificate.serial_number⟩
  digest_algorithm := sha256_alg
  encapsulated_content_info :=
    ⟨oids.ID_DATA, message_data.map fun data => ⟨.OctetString, data⟩⟩
  external_message_digest := none
  signed_attributes := handed_attributes message_data ct signed_attrs

/-- **What is built.** A `CertRep` is the build of one `SignedData` with the
content, the CA certificate and one signer info over the attributes. -/
theorem build_cert_rep_eq_ok (hcms : X.CmsLaw) {signer : CaSigningKey} {signer_cert : Certificate}
    {message_data : Option Bytes} {signed_attrs : List Attribute} {der : Bytes}
    (h : build_cert_rep X signer signer_cert message_data signed_attrs = .ok der) :
    ∃ ct ci, ct.oid = oids.ID_CONTENT_TYPE ∧
      X.signed_data_build
        { encapsulated_content_info :=
            ⟨oids.ID_DATA, message_data.map fun data => ⟨.OctetString, data⟩⟩
          digest_algorithms := [sha256_alg]
          certificates := [signer_cert]
          signer_infos := [reply_signer_info signer signer_cert message_data ct signed_attrs] }
        = .ok ci ∧
      X.content_info_to_der ci = .ok der := by
  simp only [build_cert_rep, bind_eq_ok, map_err_eq_ok] at h
  obtain ⟨encap, hencap, b₀, hb₀, b₁, hb₁, b₂, hb₂, d₁, hd₁, d₂, hd₂, d₃, hd₃, ci, hci, hder⟩ := h
  rw [encap_content_eq_ok hencap] at hb₀ hd₁
  rw [hcms.signer_info_builder_new _ _ _ _ _ _ hb₀] at hb₁
  -- The content type is handed to the builder only when there is no content.
  have hattrs : ∃ ct : Attribute, ct.oid = oids.ID_CONTENT_TYPE ∧
      b₂ = reply_signer_info signer signer_cert message_data ct signed_attrs := by
    rw [add_signed_attributes_eq_ok X hcms hb₂]
    rcases message_data with _ | data
    · simp only [add_content_type, bind_eq_ok, map_err_eq_ok] at hb₁
      obtain ⟨ct, hct, hb₁⟩ := hb₁
      refine ⟨ct, hcms.content_type _ _ hct, ?_⟩
      rw [hcms.add_signed_attribute _ _ _ hb₁]
      rfl
    · simp only [add_content_type, pure, Except.pure, Except.ok.injEq] at hb₁
      refine ⟨⟨oids.ID_CONTENT_TYPE, []⟩, rfl, ?_⟩
      rw [← hb₁]
      rfl
  obtain ⟨ct, hoid, rfl⟩ := hattrs
  rw [hcms.add_digest_algorithm _ _ _ hd₁] at hd₂
  rw [hcms.add_certificate _ _ _ hd₂] at hd₃
  rw [hcms.add_signer_info _ _ _ hd₃] at hci
  exact ⟨ct, ci, hoid, hci, hder⟩

/-! ## Nothing is refused -/

section Succeeds

variable {X} {attrs : List Attribute}

theorem add_signed_attributes_succeeds (henc : X.EncodeLaw) (attrs : List Attribute)
    (b : SignerInfoBuilder) : ∃ b', add_signed_attributes X b attrs = .ok b' := by
  induction attrs generalizing b with
  | nil => exact ⟨b, rfl⟩
  | cons a attrs ih =>
      obtain ⟨b₁, hb₁⟩ := henc.add_signed_attribute b a
      obtain ⟨b₂, hb₂⟩ := ih b₁
      refine ⟨b₂, ?_⟩
      simp only [add_signed_attributes, bind_eq_ok, map_err_eq_ok]
      exact ⟨b₁, hb₁, hb₂⟩

/-- The signer info goes through with the attributes it is handed. -/
theorem signer_info_succeeds (hcms : X.CmsLaw) (henc : X.EncodeLaw) (content : Option Bytes)
    (hscep : ∀ a ∈ attrs, a.oid ≠ oids.ID_CONTENT_TYPE ∧ a.oid ≠ oids.ID_MESSAGE_DIGEST)
    (hdistinct : (attrs.map Attribute.oid).Nodup) (b : SignerInfoBuilder)
    (hb : b.signed_attributes = []) :
    ∃ b₁ b₂, add_content_type X b content = .ok b₁ ∧ add_signed_attributes X b₁ attrs = .ok b₂ ∧
      b₂.signer = b.signer ∧ (b₂.signed_attributes.map Attribute.oid).Nodup := by
  rcases content with _ | c
  · obtain ⟨ct, hct⟩ := henc.content_type oids.ID_DATA
    obtain ⟨b₁, hb₁⟩ := henc.add_signed_attribute b ct
    obtain ⟨b₂, hb₂⟩ := add_signed_attributes_succeeds henc attrs b₁
    refine ⟨b₁, b₂, ?_, hb₂, ?_, ?_⟩
    · simp only [add_content_type, bind_eq_ok, map_err_eq_ok]
      exact ⟨ct, hct, hb₁⟩
    · rw [add_signed_attributes_eq_ok X hcms hb₂, hcms.add_signed_attribute _ _ _ hb₁]
    · rw [add_signed_attributes_eq_ok X hcms hb₂, hcms.add_signed_attribute _ _ _ hb₁, hb]
      show (ct.oid :: attrs.map Attribute.oid).Nodup
      rw [List.nodup_cons]
      refine ⟨fun hmem => ?_, hdistinct⟩
      obtain ⟨a, ha, hoid⟩ := List.mem_map.mp hmem
      exact (hscep a ha).1 (hoid.trans (hcms.content_type _ _ hct))
  · obtain ⟨b₂, hb₂⟩ := add_signed_attributes_succeeds henc attrs b
    refine ⟨b, b₂, rfl, hb₂, ?_, ?_⟩
    · rw [add_signed_attributes_eq_ok X hcms hb₂]
    · rw [add_signed_attributes_eq_ok X hcms hb₂, hb]
      exact hdistinct

/-- A `CertRep` is built by a key that signs around every content that has a length. -/
theorem build_cert_rep_succeeds (hcms : X.CmsLaw) (henc : X.EncodeLaw) {signer : CaSigningKey}
    (signer_cert : Certificate) (content : Option Bytes)
    (hsigns : ∀ msg, ∃ s, X.rsa_try_sign signer msg = .ok s)
    (hscep : ∀ a ∈ attrs, a.oid ≠ oids.ID_CONTENT_TYPE ∧ a.oid ≠ oids.ID_MESSAGE_DIGEST)
    (hdistinct : (attrs.map Attribute.oid).Nodup)
    (hlen : ∀ c, content = some c → c.length ≤ Length.MAX) :
    ∃ der, build_cert_rep X signer signer_cert content attrs = .ok der := by
  have hencap : ∃ encap, encap_content content = .ok encap := by
    rcases content with _ | c
    · exact ⟨_, rfl⟩
    · refine ⟨⟨oids.ID_DATA, some ⟨.OctetString, c⟩⟩, ?_⟩
      simp only [encap_content, bind_eq_ok, map_err_eq_ok, OctetString.new_eq_ok]
      exact ⟨c, ⟨hlen c rfl, rfl⟩, rfl⟩
  obtain ⟨encap, hencap⟩ := hencap
  obtain ⟨b₀, hb₀⟩ := henc.signer_info_builder_new signer
    ⟨signer_cert.tbs_certificate.issuer, signer_cert.tbs_certificate.serial_number⟩ sha256_alg
    encap none
  have hnew := hcms.signer_info_builder_new _ _ _ _ _ _ hb₀
  obtain ⟨b₁, b₂, hb₁, hb₂, hkey, hnodup⟩ := signer_info_succeeds hcms henc content hscep hdistinct b₀
    (by rw [hnew])
  have hsigns₂ : ∀ msg, ∃ s, X.rsa_try_sign b₂.signer msg = .ok s := by
    rw [hkey, hnew]
    exact hsigns
  obtain ⟨d₁, hd₁⟩ := henc.add_digest_algorithm (SignedDataBuilder.new encap) sha256_alg
  obtain ⟨d₂, hd₂⟩ := henc.add_certificate d₁ signer_cert
  obtain ⟨d₃, hd₃⟩ := henc.add_signer_info d₂ b₂ hnodup hsigns₂
  have hd : d₃ = ⟨encap, [sha256_alg], [signer_cert], [b₂]⟩ := by
    rw [hcms.add_signer_info _ _ _ hd₃, hcms.add_certificate _ _ _ hd₂,
      hcms.add_digest_algorithm _ _ _ hd₁]
    rfl
  obtain ⟨ci, hci⟩ := henc.build d₃ b₂ signer_cert (by rw [hd]) (by rw [hd]) hnodup hsigns₂
  obtain ⟨der, hder⟩ := henc.content_info ci
  refine ⟨der, ?_⟩
  simp only [build_cert_rep, bind_eq_ok, map_err_eq_ok]
  exact ⟨encap, hencap, b₀, hb₀, b₁, hb₁, b₂, hb₂, d₁, hd₁, d₂, hd₂, d₃, hd₃, ci, hci, hder⟩

end Succeeds

end Blapki
