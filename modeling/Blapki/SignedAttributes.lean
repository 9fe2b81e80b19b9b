/-
The signed attributes of a reply as CMS wants them (`crypto/sign.rs`, `build_cert_rep`).

A signer info with signed attributes must have a content type and a message digest among
them. The builder of `cms` adds both to a message with content and neither to one without.
There the server adds the content type itself, and nobody the digest:
`valid_attributes_iff`.
-/
import Blapki.Roundtrip

set_option autoImplicit false

namespace Blapki

open Attributes Effect Verify

variable {X : Crates}

/-- The attributes are those CMS requires: one content type, which is that of the content,
and one message digest, which is that of the content octets, or of none. -/
structure ValidAttributes (X : Crates) (m : Message) (content : Option Bytes) : Prop where
  content_type : ∃ ct,
    X.create_content_type_attribute m.sd.encap_content_info.econtent_type = .ok ct ∧
      m.attrs.filter (fun a => a.oid = oids.ID_CONTENT_TYPE) = [ct]
  message_digest : m.attrs.filter (fun a => a.oid = oids.ID_MESSAGE_DIGEST)
    = [octets oids.ID_MESSAGE_DIGEST (X.sha256 (content.getD []))]

/-- The attributes the server makes for a reply. -/
def ReplyAttributes (transaction_id : String) (recipient_nonce : Bytes) (attrs : List Attribute) :
    Prop :=
  (∃ tr, Returns (success_attrs transaction_id recipient_nonce) tr (.ok attrs)) ∨
    ∃ fail_info tr, Returns (failure_attrs transaction_id recipient_nonce fail_info) tr (.ok attrs)

/-- The attributes of a reply are SCEP's own: neither a content type nor a digest is among them. -/
theorem ReplyAttributes.scep {transaction_id : String} {recipient_nonce : Bytes}
    {attrs : List Attribute} (h : ReplyAttributes transaction_id recipient_nonce attrs) :
    ∀ a ∈ attrs, a.oid ≠ oids.ID_CONTENT_TYPE ∧ a.oid ≠ oids.ID_MESSAGE_DIGEST := by
  obtain ⟨head, nonce, hattrs, hhead⟩ : ∃ head nonce,
      attrs = echoing head transaction_id recipient_nonce nonce ∧
        ∀ a ∈ head, a.oid ≠ oids.ID_CONTENT_TYPE ∧ a.oid ≠ oids.ID_MESSAGE_DIGEST := by
    rcases h with ⟨tr, h⟩ | ⟨fail_info, tr, h⟩
    · obtain ⟨_, ⟨_, hno, _⟩ | ⟨_, _, nonce, _, hattrs⟩⟩ := success_attrs_returns h
      · cases hno
      · refine ⟨_, _, Except.ok.inj hattrs, ?_⟩
        simp only [success_head, printable, List.forall_mem_cons]
        decide
    · obtain ⟨_, ⟨_, hno, _⟩ | ⟨_, _, nonce, _, hattrs⟩⟩ := failure_attrs_returns h
      · cases hno
      · refine ⟨_, _, Except.ok.inj hattrs, ?_⟩
        simp only [failure_head, printable, List.forall_mem_cons]
        decide
  rw [hattrs, echoing, List.forall_mem_append]
  refine ⟨hhead, ?_⟩
  simp only [printable, octets, List.forall_mem_cons]
  decide

section Reply

variable {signer : CaSigningKey} {signer_cert : Certificate} {content : Option Bytes}
  {attrs : List Attribute} {der : Bytes} {m : Message}

/-- With content, the builder adds both. -/
theorem valid_of_content (hcms : X.CmsLaw) {c : Bytes}
    (hscep : ∀ a ∈ attrs, a.oid ≠ oids.ID_CONTENT_TYPE ∧ a.oid ≠ oids.ID_MESSAGE_DIGEST)
    (h : build_cert_rep X signer signer_cert (some c) attrs = .ok der)
    (hm : decode_message X der = .ok m) : ValidAttributes X m (some c) := by
  obtain ⟨htype, ct, ct', _, hct', hperm⟩ := built_attributes X hcms h hm
  have hoid : ct'.oid = oids.ID_CONTENT_TYPE := hcms.content_type _ _ hct'
  have hany : attrs.any (fun a => a.oid = oids.ID_CONTENT_TYPE) = false := by
    rw [List.any_eq_false]
    intro a ha
    rw [decide_eq_true_eq]
    exact (hscep a ha).1
  have hbuilt : m.attrs.Perm (attrs ++ [octets oids.ID_MESSAGE_DIGEST (X.sha256 c), ct']) := by
    refine hperm.trans (List.Perm.of_eq ?_)
    show attrs ++ octets oids.ID_MESSAGE_DIGEST (X.sha256 c) ::
      (if attrs.any (fun a => a.oid = oids.ID_CONTENT_TYPE) then [] else [ct']) = _
    rw [hany]
    rfl
  -- The handed attributes are not looked for.
  have hfilter : ∀ {oid : ObjectIdentifier} {a : Attribute}, (∀ b ∈ attrs, b.oid ≠ oid) →
      [octets oids.ID_MESSAGE_DIGEST (X.sha256 c), ct'].filter (fun b => b.oid = oid) = [a] →
      m.attrs.filter (fun b => b.oid = oid) = [a] := by
    intro oid a hnone ha
    have hnil : attrs.filter (fun b => b.oid = oid) = [] := by
      rw [List.filter_eq_nil_iff]
      intro b hb
      rw [decide_eq_true_eq]
      exact hnone b hb
    refine List.perm_singleton.mp ((hbuilt.filter _).trans (List.Perm.of_eq ?_))
    rw [List.filter_append, hnil, List.nil_append, ha]
  refine ⟨⟨ct', ?_, hfilter (fun b hb => (hscep b hb).1) ?_⟩,
    hfilter (fun b hb => (hscep b hb).2) ?_⟩
  · rw [htype]
    exact hct'
  · have hdigest : ¬ decide (oids.ID_MESSAGE_DIGEST = oids.ID_CONTENT_TYPE) = true := by decide
    rw [List.filter_cons, if_neg (by exact hdigest), List.filter_cons,
      if_pos (by rw [hoid]; decide)]
    rfl
  · rw [List.filter_cons, if_pos (by exact decide_eq_true rfl), List.filter_cons,
      if_neg (by rw [hoid]; decide)]
    rfl

/-- Without, there is no digest. -/
theorem no_digest_of_no_content (hcms : X.CmsLaw)
    (hscep : ∀ a ∈ attrs, a.oid ≠ oids.ID_CONTENT_TYPE ∧ a.oid ≠ oids.ID_MESSAGE_DIGEST)
    (h : build_cert_rep X signer signer_cert none attrs = .ok der)
    (hm : decode_message X der = .ok m) :
    ∀ a ∈ m.attrs, a.oid ≠ oids.ID_MESSAGE_DIGEST := by
  obtain ⟨_, ct, ct', hct, _, hperm⟩ := built_attributes X hcms h hm
  intro a ha
  have hmem : a ∈ (ct :: attrs) ++ [] := hperm.mem_iff.mp ha
  rw [List.append_nil, List.mem_cons] at hmem
  rcases hmem with rfl | hmem
  · rw [hct]
    decide
  · exact (hscep a hmem).2

/-- **When a `CertRep` is valid CMS.** Whatever the server hands over to it, a built
`CertRep` has the attributes that are required exactly when it has content. -/
theorem valid_attributes_iff (hcms : X.CmsLaw) {transaction_id : String} {recipient_nonce : Bytes}
    (hattrs : ReplyAttributes transaction_id recipient_nonce attrs)
    (h : build_cert_rep X signer signer_cert content attrs = .ok der) :
    (∃ m, decode_message X der = .ok m ∧ ValidAttributes X m content) ↔ content.isSome = true := by
  obtain ⟨m, hb⟩ := build_cert_rep_built X hcms h
  cases content with
  | some c =>
      refine iff_of_true ⟨m, hb.decoded, ?_⟩ rfl
      exact valid_of_content hcms hattrs.scep h hb.decoded
  | none =>
      refine iff_of_false ?_ Bool.false_ne_true
      rintro ⟨m', hm', hvalid⟩
      have hmem : octets oids.ID_MESSAGE_DIGEST (X.sha256 []) ∈
          m'.attrs.filter (fun a => a.oid = oids.ID_MESSAGE_DIGEST) := by
        rw [hvalid.message_digest]
        exact List.mem_cons_self
      exact no_digest_of_no_content hcms hattrs.scep h hm' _ (List.mem_filter.mp hmem).1 rfl

end Reply

/-! ## Two replies to the device -/

/-- A reply that carries something is valid. -/
theorem device_reply_valid : ∃ der m,
    build_cert_rep Reference.crates Device.ca.signing_key Device.ca.cert (some [1, 2, 3])
      (echoing success_head Device.transaction_id Device.nonce Device.nonce) = .ok der ∧
    decode_message Reference.crates der = .ok m ∧
    ValidAttributes Reference.crates m (some [1, 2, 3]) := by
  obtain ⟨hdistinct, hscep⟩ :=
    echoing_oids success_head_oids Device.transaction_id Device.nonce Device.nonce
  have hlen : ∀ c : Bytes, some [1, 2, 3] = some c → c.length ≤ Length.MAX := by
    rintro c ⟨⟩
    decide
  obtain ⟨der, h⟩ := build_cert_rep_succeeds Reference.cms_law Reference.encode_law Device.ca.cert
    (some [1, 2, 3]) (fun _ => ⟨_, rfl⟩ : ∀ msg, ∃ s,
      Reference.crates.rsa_try_sign Device.ca.signing_key msg = .ok s) hscep hdistinct hlen
  have hattrs : ReplyAttributes Device.transaction_id Device.nonce
      (echoing success_head Device.transaction_id Device.nonce Device.nonce) :=
    .inl ⟨_, success_attrs_of_printable (by decide) (by decide) ⟨Device.nonce, rfl⟩⟩
  obtain ⟨m, hm, hvalid⟩ := (valid_attributes_iff Reference.cms_law hattrs h).mpr rfl
  exact ⟨der, m, h, hm, hvalid⟩

/-- The FAILURE of the device has no message digest. -/
theorem device_failure_invalid :
    ¬ ∀ transaction_id recipient_nonce content attrs der,
      ReplyAttributes transaction_id recipient_nonce attrs →
      build_cert_rep Reference.crates Device.ca.signing_key Device.ca.cert content attrs = .ok der →
      ∃ m, decode_message Reference.crates der = .ok m ∧
        ValidAttributes Reference.crates m content := by
  intro hclaim
  obtain ⟨tr, r, _, hrun, _⟩ := exists_run
    (failure_attrs Device.transaction_id Device.nonce .BadRequest) Device.now Db.empty
  obtain ⟨_, ⟨_, _, hno⟩ | ⟨_, _, nonce, _, rfl⟩⟩ := failure_attrs_returns hrun
  · exact hno ⟨by decide, by decide⟩
  have hattrs : ReplyAttributes Device.transaction_id Device.nonce _ := .inr ⟨_, _, hrun⟩
  obtain ⟨hdistinct, hscep⟩ :=
    echoing_oids (failure_head_oids .BadRequest) Device.transaction_id Device.nonce nonce.val
  obtain ⟨der, h⟩ := build_cert_rep_succeeds Reference.cms_law Reference.encode_law Device.ca.cert
    none (fun _ => ⟨_, rfl⟩ : ∀ msg, ∃ s,
      Reference.crates.rsa_try_sign Device.ca.signing_key msg = .ok s) hscep hdistinct
    (fun _ hno => by cases hno)
  obtain ⟨m, hm, hvalid⟩ := hclaim _ _ none _ der hattrs h
  have hmem : octets oids.ID_MESSAGE_DIGEST (Reference.crates.sha256 []) ∈
      m.attrs.filter (fun a => a.oid = oids.ID_MESSAGE_DIGEST) := by
    rw [hvalid.message_digest]
    exact List.mem_cons_self
  exact no_digest_of_no_content Reference.cms_law hattrs.scep h hm _ (List.mem_filter.mp hmem).1 rfl

end Blapki
