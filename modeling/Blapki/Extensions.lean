/-
What a CSR has to say in the certificate it is answered with.

`leaf` reads of a CSR its subject, its public key and the first subjectAltName it
requests. Everything else in the extensions comes from the options and the CA.
`Profiled` lists the extensions of a certificate by their values, and
`csr_has_no_say` says that every issued one is so, and that two CSRs for one key end
up with the same extensions but for the subjectAltName.
-/
import Blapki.Device
import Mathlib.Data.List.Forall2

set_option autoImplicit false

namespace Blapki

open Effect

/-- The extensions of a certificate. -/
def Certificate.extensions (cert : Certificate) : List Extension :=
  cert.tbs_certificate.extensions.getD []

namespace extensions

variable {X : Crates} {read : Extension → Option ExtensionValue}

/-! ## Configured sets -/

/-- The flags are the configured ones. -/
theorem mem_key_usage {names : List String} {flags : Finset KeyUsages}
    (h : key_usage names = .ok flags) (f : KeyUsages) :
    f ∈ flags ↔ ∃ name ∈ names, usage_flag name = .ok f := by
  have hfold : ∀ (names : List String) (start flags : Finset KeyUsages),
      names.foldlM (fun flags name => do
        let flag ← usage_flag name
        pure (insert flag flags)) start = .ok flags →
      (f ∈ flags ↔ f ∈ start ∨ ∃ name ∈ names, usage_flag name = .ok f) := by
    intro names
    induction names with
    | nil =>
        intro start flags h
        rw [List.foldlM_nil] at h
        rw [← Except.ok.inj h]
        simp only [List.not_mem_nil, false_and, exists_false, or_false]
    | cons name names ih =>
        intro start flags h
        rw [List.foldlM_cons] at h
        obtain ⟨start', hstart, h⟩ := bind_eq_ok.mp h
        obtain ⟨flag, hflag, hinsert⟩ := bind_eq_ok.mp hstart
        rw [ih start' flags h, ← Except.ok.inj hinsert, Finset.mem_insert]
        simp only [List.mem_cons, exists_eq_or_imp, hflag, Except.ok.injEq]
        rw [← or_assoc, or_comm (a := f = flag), eq_comm (a := f)]
  rw [hfold names ∅ flags h]
  simp only [Finset.notMem_empty, false_or]

/-- The purposes are the configured ones, in their order. -/
theorem extended_key_usage_eq_ok {names : List String} {eku : List ObjectIdentifier}
    (h : extended_key_usage X names = .ok eku) :
    List.Forall₂ (fun name oid => eku_oid X name = .ok oid) names eku := by
  induction names generalizing eku with
  | nil =>
      rw [extended_key_usage, List.mapM_nil] at h
      rw [← Except.ok.inj h]
      exact .nil
  | cons name names ih =>
      rw [extended_key_usage, List.mapM_cons] at h
      obtain ⟨oid, hoid, h⟩ := bind_eq_ok.mp h
      obtain ⟨oids, hoids, h⟩ := bind_eq_ok.mp h
      rw [← Except.ok.inj h]
      exact .cons hoid (ih hoids)

/-! ## The requested subjectAltName -/

variable (X) in
/-- The extensions a CSR requests, in order, as far as they decode. -/
def requested (attrs : List Attribute) : List Extension :=
  attrs.flatMap fun attr =>
    if attr.oid = ID_EXTENSION_REQ then
      attr.values.flatMap fun value => (X.extensions_decode value).toOption.getD []
    else []

/-- The first subjectAltName of a list of extensions. -/
def first_san (exts : List Extension) : Option Extension :=
  exts.find? fun ext => ext.extn_id = ID_CE_SUBJECT_ALT_NAME

variable (X) in
/-- These are the names in the extension. -/
def NamesOf : Option Extension → Option (List GeneralName) → Prop
  | none, san => san = none
  | some ext, san => ∃ names, X.subject_alt_name_from_der ext.extn_value = .ok names ∧
      san = some names

/-- No attribute requests extensions twice over. -/
def SingleValued (attrs : List Attribute) : Prop :=
  ∀ attr ∈ attrs, attr.oid = ID_EXTENSION_REQ → attr.values.length ≤ 1

theorem find_san_eq_ok {exts : List Extension} {san : Option (List GeneralName)}
    (h : find_san X exts = .ok san) : NamesOf X (first_san exts) san := by
  induction exts with
  | nil => exact (Except.ok.inj h).symm
  | cons ext exts ih =>
      rw [find_san] at h
      by_cases hid : ext.extn_id = ID_CE_SUBJECT_ALT_NAME
      · rw [if_pos hid] at h
        obtain ⟨names, hnames, hsan⟩ := bind_eq_ok.mp h
        rw [first_san, List.find?_cons_of_pos (by simpa using hid)]
        exact ⟨names, map_err_eq_ok.mp hnames, (Except.ok.inj hsan).symm⟩
      · rw [if_neg hid] at h
        rw [first_san, List.find?_cons_of_neg (by simpa using hid)]
        exact ih h

theorem requested_cons (attr : Attribute) (attrs : List Attribute) :
    requested X (attr :: attrs) = requested X [attr] ++ requested X attrs := by
  rw [requested, List.flatMap_cons, requested, List.flatMap_cons, List.flatMap_nil, List.append_nil]
  rfl

theorem first_san_append (exts exts' : List Extension) :
    first_san (exts ++ exts') = (first_san exts).or (first_san exts') := List.find?_append

/-- `requested_san` finds the first one of all, where no attribute has several values. -/
theorem requested_san_in_eq_ok {attrs : List Attribute} {san : Option (List GeneralName)}
    (hsingle : SingleValued attrs) (h : requested_san_in X attrs = .ok san) :
    NamesOf X (first_san (requested X attrs)) san := by
  induction attrs with
  | nil => exact (Except.ok.inj h).symm
  | cons attr attrs ih =>
      have hrest : SingleValued attrs := fun a ha => hsingle a (List.mem_cons_of_mem _ ha)
      rw [requested_cons, first_san_append]
      rw [requested_san_in] at h
      by_cases hoid : attr.oid = ID_EXTENSION_REQ
      · rw [if_neg (not_not.mpr hoid)] at h
        have hlen := hsingle attr List.mem_cons_self hoid
        rcases hvalues : attr.values with _ | ⟨value, _ | ⟨_, _⟩⟩
        · have hnone : requested X [attr] = [] := by
            simp only [requested, List.flatMap_cons, hoid, if_true, hvalues, List.flatMap_nil,
              List.append_nil]
          rw [hvalues] at h
          rw [hnone]
          exact ih hrest h
        · rw [hvalues] at h
          obtain ⟨exts, hexts, h⟩ := bind_eq_ok.mp h
          obtain ⟨found, hfound, h⟩ := bind_eq_ok.mp h
          have hone : requested X [attr] = exts := by
            simp only [requested, List.flatMap_cons, hoid, if_true, hvalues, List.flatMap_nil,
              List.append_nil, map_err_eq_ok.mp hexts]
            rfl
          have hnames := find_san_eq_ok hfound
          rw [hone]
          cases hfirst : first_san exts with
          | none =>
              rw [hfirst] at hnames
              rw [hnames] at h
              exact ih hrest h
          | some ext =>
              rw [hfirst] at hnames
              obtain ⟨names, hdecode, rfl⟩ := hnames
              exact ⟨names, hdecode, (Except.ok.inj h).symm⟩
        · rw [hvalues, List.length_cons, List.length_cons] at hlen
          omega
      · rw [if_pos hoid] at h
        have hnone : requested X [attr] = [] := by
          simp only [requested, List.flatMap_cons, if_neg hoid, List.flatMap_nil, List.append_nil]
        rw [hnone]
        exact ih hrest h

/-! ## What is added -/

variable (X) in
/-- The extension is the encoding of the value in some certificate. -/
def Encodes (v : ExtensionValue) (e : Extension) : Prop :=
  ∃ subj exts, X.to_extension subj exts v = .ok e

variable (X) in
/-- The builder got the encodings of these values, in order. -/
def Adds (vs : List ExtensionValue) (b b' : CertificateBuilder) : Prop :=
  b'.profile = b.profile ∧
    ∃ exts, b'.extensions = b.extensions ++ exts ∧ List.Forall₂ (Encodes X) vs exts

theorem Adds.trans {vs vs' : List ExtensionValue} {b b' b'' : CertificateBuilder}
    (h : Adds X vs b b') (h' : Adds X vs' b' b'') : Adds X (vs ++ vs') b b'' := by
  obtain ⟨hprofile, exts, hexts, hall⟩ := h
  obtain ⟨hprofile', exts', hexts', hall'⟩ := h'
  refine ⟨hprofile'.trans hprofile, exts ++ exts', ?_, List.rel_append hall hall'⟩
  rw [hexts', hexts, List.append_assoc]

theorem add_some_adds {b b' : CertificateBuilder} {v : Option ExtensionValue}
    (h : CertificateAuthority.add_some X b v = .ok b') : Adds X v.toList b b' := by
  rcases v with _ | v
  · rw [← Except.ok.inj h]
    exact ⟨rfl, [], (List.append_nil _).symm, .nil⟩
  · simp only [CertificateAuthority.add_some, Crates.add_extension, map_err_eq_ok, bind_eq_ok] at h
    obtain ⟨ext, hext, h⟩ := h
    rw [← Except.ok.inj h]
    exact ⟨rfl, [ext], rfl, .cons ⟨_, _, hext⟩ .nil⟩

/-- An OCSP URL as the AIA extension has it, and a CRL URL as the CDP extension. -/
def aia_value (url : String) : ExtensionValue :=
  .AuthorityInfoAccess [(ID_AD_OCSP, .UniformResourceIdentifier url)]

def cdp_value (url : String) : ExtensionValue :=
  .CrlDistributionPoints [[.UniformResourceIdentifier url]]

/-- The values of the extensions of a leaf, in order. -/
def leaf_values (usage : Finset KeyUsages) (eku : List ObjectIdentifier) (ski : Bytes)
    (aki : Option Bytes) (san : Option (List GeneralName)) (ocsp_url crl_url : Option String) :
    List ExtensionValue :=
  [.BasicConstraints false none, .KeyUsage usage] ++
    (if eku.isEmpty then [] else [.ExtendedKeyUsage eku]) ++
    [.SubjectKeyIdentifier ski, .AuthorityKeyIdentifier aki] ++
    (san.map .SubjectAltName).toList ++ (ocsp_url.map aia_value).toList ++
    (crl_url.map cdp_value).toList

theorem mapM_aia {url : Option String} {v : Option ExtensionValue}
    (h : url.mapM authority_info_access = .ok v) : v = url.map aia_value := by
  rcases url with _ | url
  · exact (Except.ok.inj h).symm
  · change (some <$> authority_info_access url) = _ at h
    simp only [authority_info_access, ia5_string_new] at h
    split_ifs at h
    · exact (Except.ok.inj h).symm
    · cases h

theorem mapM_cdp {url : Option String} {v : Option ExtensionValue}
    (h : url.mapM crl_distribution_points = .ok v) : v = url.map cdp_value := by
  rcases url with _ | url
  · exact (Except.ok.inj h).symm
  · change (some <$> crl_distribution_points url) = _ at h
    simp only [crl_distribution_points, ia5_string_new] at h
    split_ifs at h
    · exact (Except.ok.inj h).symm
    · cases h

/-- A leaf gets the configured usages, the identifiers of the two keys, the requested
subjectAltName and the configured URLs. -/
theorem add_leaf_extensions_adds {csr : CertReq} {opts : IssueOptions} {ski : Bytes}
    {aki : Option Bytes} {b b' : CertificateBuilder}
    (h : CertificateAuthority.add_leaf_extensions X csr opts ski aki b = .ok b') :
    ∃ usage eku san, key_usage opts.key_usage = .ok usage ∧
      extended_key_usage X opts.extended_key_usage = .ok eku ∧ requested_san X csr = .ok san ∧
      Adds X (leaf_values usage eku ski aki san opts.ocsp_url opts.crl_url) b b' := by
  simp only [CertificateAuthority.add_leaf_extensions, bind_eq_ok] at h
  obtain ⟨b₁, h₁, usage, husage, b₂, h₂, eku, heku, b₃, h₃, b₄, h₄, b₅, h₅, san, hsan, b₆, h₆, aia,
    haia, b₇, h₇, cdp, hcdp, h₈⟩ := h
  have heku_list : (if eku.isEmpty then none else some (ExtensionValue.ExtendedKeyUsage eku)).toList
      = if eku.isEmpty then [] else [.ExtendedKeyUsage eku] := by
    split_ifs <;> rfl
  have hadds₃ := add_some_adds h₃
  rw [heku_list] at hadds₃
  rw [mapM_aia haia] at h₇
  rw [mapM_cdp hcdp] at h₈
  have hhead := (add_some_adds h₁).trans (add_some_adds h₂)
  have hkeys := (add_some_adds h₄).trans (add_some_adds h₅)
  exact ⟨usage, eku, san, husage, heku, hsan, ((((hhead.trans hadds₃).trans hkeys).trans
    (add_some_adds h₆)).trans (add_some_adds h₇)).trans (add_some_adds h₈)⟩

/-- No two of them have one OID. -/
theorem leaf_values_nodup (usage : Finset KeyUsages) (eku : List ObjectIdentifier) (ski : Bytes)
    (aki : Option Bytes) (san : Option (List GeneralName)) (ocsp_url crl_url : Option String) :
    ((leaf_values usage eku ski aki san ocsp_url crl_url).map ExtensionValue.oid).Nodup := by
  have hall : ([⟨[2, 5, 29, 19]⟩, ⟨[2, 5, 29, 15]⟩] ++ [⟨[2, 5, 29, 37]⟩] ++
      [⟨[2, 5, 29, 14]⟩, ⟨[2, 5, 29, 35]⟩] ++ [⟨[2, 5, 29, 17]⟩] ++
      [⟨[1, 3, 6, 1, 5, 5, 7, 1, 1]⟩] ++ [⟨[2, 5, 29, 31]⟩] : List ObjectIdentifier).Nodup := by
    decide
  -- Whatever is left out, the rest is a part of the full list.
  refine hall.sublist ?_
  have hopt : ∀ {α : Type} (x : Option α) (f : α → ExtensionValue) (oid : ObjectIdentifier),
      (∀ a, (f a).oid = oid) → ((x.map f).toList.map ExtensionValue.oid).Sublist [oid] := by
    intro α x f oid hoid
    rcases x with _ | a
    · exact List.nil_sublist _
    · show [(f a).oid].Sublist [oid]
      rw [hoid]
  have heku : (List.map ExtensionValue.oid
      (if eku.isEmpty then [] else [.ExtendedKeyUsage eku])).Sublist [⟨[2, 5, 29, 37]⟩] := by
    split_ifs
    · exact List.nil_sublist _
    · exact List.Sublist.refl _
  have hsan := hopt san .SubjectAltName _ fun _ => rfl
  have haia := hopt ocsp_url aia_value _ fun _ => rfl
  have hcdp := hopt crl_url cdp_value _ fun _ => rfl
  simp only [leaf_values, List.map_append]
  exact (((((List.Sublist.refl _).append heku).append (List.Sublist.refl _)).append hsan).append
    haia).append hcdp

/-- The subjectAltName is the only one a CSR can bring about. -/
theorem leaf_values_filter (usage : Finset KeyUsages) (eku : List ObjectIdentifier) (ski : Bytes)
    (aki : Option Bytes) (san : Option (List GeneralName)) (ocsp_url crl_url : Option String) :
    (leaf_values usage eku ski aki san ocsp_url crl_url).filter (fun v => !v.by_subject)
      = leaf_values usage eku ski aki none ocsp_url crl_url := by
  have heku : (if eku.isEmpty then [] else [ExtensionValue.ExtendedKeyUsage eku]).filter
      (fun v => !v.by_subject) = if eku.isEmpty then [] else [.ExtendedKeyUsage eku] := by
    split_ifs <;> rfl
  simp only [leaf_values, List.filter_append, heku]
  cases san <;> cases ocsp_url <;> cases crl_url <;> rfl

/-! ## Encodings -/

/-- The encodings of values have their OIDs and read back as them. -/
theorem encodes_read (hlaw : X.ExtensionLaw read) {vs : List ExtensionValue}
    {exts : List Extension} (h : List.Forall₂ (Encodes X) vs exts) :
    exts.map (fun e => (e.extn_id, read e)) = vs.map fun v => (v.oid, some v) := by
  induction h with
  | nil => rfl
  | cons hv _ ih =>
      obtain ⟨subj, before, hv⟩ := hv
      rw [List.map_cons, List.map_cons, ih, hlaw.oid _ _ _ _ hv, hlaw.read _ _ _ _ hv]

/-- What is no subjectAltName encodes what is none. -/
theorem encodes_filter (hlaw : X.ExtensionLaw read) {vs : List ExtensionValue}
    {exts : List Extension} (h : List.Forall₂ (Encodes X) vs exts) :
    List.Forall₂ (Encodes X) (vs.filter fun v => !v.by_subject)
      (exts.filter fun e => e.extn_id ≠ ID_CE_SUBJECT_ALT_NAME) := by
  have hoid : ∀ v : ExtensionValue, v.oid = ID_CE_SUBJECT_ALT_NAME ↔ v.by_subject = true := by
    intro v
    cases v <;> simp [ExtensionValue.oid, ExtensionValue.by_subject, ID_CE_SUBJECT_ALT_NAME]
  induction h with
  | nil => exact .nil
  | @cons v e _ _ hv _ ih =>
      obtain ⟨subj, before, hv⟩ := hv
      have hid := hlaw.oid _ _ _ _ hv
      by_cases hsan : v.by_subject = true
      · rw [List.filter_cons_of_neg (by simp only [hsan, Bool.not_true, Bool.false_eq_true,
          not_false_eq_true]), List.filter_cons_of_neg (by
            rw [decide_eq_true_eq, hid, (hoid v).mpr hsan]
            exact fun hno => hno rfl)]
        exact ih
      · rw [List.filter_cons_of_pos (by simpa using hsan), List.filter_cons_of_pos (by
          rw [decide_eq_true_eq, hid]
          exact fun hno => hsan ((hoid v).mp hno))]
        exact .cons ⟨subj, before, hv⟩ ih

/-- Such a list of values has one encoding. -/
theorem encodes_unique (hlaw : X.ExtensionLaw read) {vs : List ExtensionValue}
    {exts exts' : List Extension} (hvs : ∀ v ∈ vs, v.by_subject = false)
    (h : List.Forall₂ (Encodes X) vs exts) (h' : List.Forall₂ (Encodes X) vs exts') :
    exts = exts' := by
  induction h generalizing exts' with
  | nil => exact (List.forall₂_nil_left_iff.mp h').symm
  | @cons v e vs exts hv _ ih =>
      obtain ⟨e', exts', hv', htail', rfl⟩ := List.forall₂_cons_left_iff.mp h'
      rw [List.forall_mem_cons] at hvs
      obtain ⟨subj, before, hv⟩ := hv
      obtain ⟨subj', before', hv'⟩ := hv'
      have hhead : e = e' := by
        rw [hlaw.by_value subj subj' before before' v hvs.1] at hv
        exact Except.ok.inj (hv.symm.trans hv')
      rw [hhead, ih hvs.2 htail']

/-! ## What is issued -/

/-- The certificate has the subject and the key of the CSR, and the extensions of the
options and the CA, with these names, under one OID each. -/
structure Profiled (X : Crates) (read : Extension → Option ExtensionValue)
    (ca : CertificateAuthority) (csr : CertReq) (opts : IssueOptions)
    (san : Option (List GeneralName)) (cert : Certificate) : Prop where
  subject : cert.tbs_certificate.subject = csr.info.subject
  public_key : cert.tbs_certificate.subject_public_key_info = csr.info.public_key
  values : ∃ usage eku ski aki,
    (∀ f, f ∈ usage ↔ ∃ name ∈ opts.key_usage, usage_flag name = .ok f) ∧
    List.Forall₂ (fun name oid => eku_oid X name = .ok oid) opts.extended_key_usage eku ∧
    X.subject_key_identifier csr.info.public_key = .ok ski ∧
    X.authority_key_identifier ca.cert.tbs_certificate.subject_public_key_info = .ok aki ∧
    cert.extensions.map (fun e => (e.extn_id, read e))
      = (leaf_values usage eku ski aki san opts.ocsp_url opts.crl_url).map fun v => (v.oid, some v)
  one_per_oid : (cert.extensions.map Extension.extn_id).Nodup

/-- The extensions of a leaf are the encodings of its values. -/
theorem leaf_encodes (hx509 : X.X509Law) (hlaw : X.ExtensionLaw read) {ca : CertificateAuthority}
    {csr : CertReq} {opts : IssueOptions} {serial : SerialNumber} {now : SystemTime}
    {cert : Certificate} (h : ca.leaf X csr opts serial now = .ok cert) :
    ∃ usage eku ski aki san, key_usage opts.key_usage = .ok usage ∧
      extended_key_usage X opts.extended_key_usage = .ok eku ∧
      X.subject_key_identifier csr.info.public_key = .ok ski ∧
      X.authority_key_identifier ca.cert.tbs_certificate.subject_public_key_info = .ok aki ∧
      requested_san X csr = .ok san ∧
      List.Forall₂ (Encodes X) (leaf_values usage eku ski aki san opts.ocsp_url opts.crl_url)
        cert.extensions := by
  simp only [CertificateAuthority.leaf, bind_eq_ok, map_err_eq_ok] at h
  obtain ⟨_, _, ski, hski, aki, haki, b, hb, b', hb', hcert⟩ := h
  obtain ⟨usage, eku, san, husage, heku, hsan, hprofile, exts, hexts, hall⟩ :=
    add_leaf_extensions_adds hb'
  refine ⟨usage, eku, ski, aki, san, husage, heku, hski, haki, hsan, ?_⟩
  have hmanual : b'.profile = .Manual (some ca.subject) :=
    hprofile.trans (hx509.builder_new _ _ _ _ _ _ _ hb).1
  rw [hlaw.builder_new _ _ _ _ _ _ _ hb, List.nil_append] at hexts
  rw [Certificate.extensions, hlaw.build _ _ _ hcert hmanual, hexts]
  exact hall

/-- **A CSR has no say in its authority.** An issued certificate has the configured
extensions, and a CSR for the same key that is issued under the same options ends up with
the same ones but for the subjectAltName, whatever else the two request. -/
theorem csr_has_no_say (hx509 : X.X509Law) (hlaw : X.ExtensionLaw read) {ca : CertificateAuthority}
    {csr : CertReq} {opts : IssueOptions} {tr : Trace} {cert : Certificate}
    (h : Returns (ca.issue X csr opts) tr (.ok cert)) :
    (∃ san, Profiled X read ca csr opts san cert ∧
      (SingleValued csr.info.attributes →
        NamesOf X (first_san (requested X csr.info.attributes)) san)) ∧
    ∀ csr' tr' cert', csr'.info.public_key = csr.info.public_key →
      Returns (ca.issue X csr' opts) tr' (.ok cert') →
      cert.extensions.filter (fun e => e.extn_id ≠ ID_CE_SUBJECT_ALT_NAME)
        = cert'.extensions.filter fun e => e.extn_id ≠ ID_CE_SUBJECT_ALT_NAME := by
  obtain ⟨bytes, now, _, hleaf⟩ := CertificateAuthority.issue_returns.mp h
  obtain ⟨usage, eku, ski, aki, san, husage, heku, hski, haki, hsan, hall⟩ :=
    leaf_encodes hx509 hlaw hleaf.symm
  have hread := encodes_read hlaw hall
  have hissued := CertificateAuthority.leaf_issued_from hx509 hleaf.symm
  refine ⟨⟨san, ⟨hissued.subject, hissued.public_key, ⟨usage, eku, ski, aki, mem_key_usage husage,
    extended_key_usage_eq_ok heku, hski, haki, hread⟩, ?_⟩, ?_⟩, ?_⟩
  · have hoids := congrArg (List.map Prod.fst) hread
    rw [List.map_map, List.map_map] at hoids
    show (cert.extensions.map (Prod.fst ∘ fun e => (e.extn_id, read e))).Nodup
    rw [hoids]
    exact leaf_values_nodup usage eku ski aki san opts.ocsp_url opts.crl_url
  · exact fun hsingle => requested_san_in_eq_ok hsingle hsan
  · intro csr' tr' cert' hkey h'
    obtain ⟨bytes', now', _, hleaf'⟩ := CertificateAuthority.issue_returns.mp h'
    obtain ⟨usage', eku', ski', aki', san', husage', heku', hski', haki', _, hall'⟩ :=
      leaf_encodes hx509 hlaw hleaf'.symm
    rw [hkey] at hski'
    obtain rfl := Except.ok.inj (husage.symm.trans husage')
    obtain rfl := Except.ok.inj (heku.symm.trans heku')
    obtain rfl := Except.ok.inj (hski.symm.trans hski')
    obtain rfl := Except.ok.inj (haki.symm.trans haki')
    have hfilter := encodes_filter hlaw hall
    have hfilter' := encodes_filter hlaw hall'
    rw [leaf_values_filter, ← leaf_values_filter usage eku ski aki san] at hfilter hfilter'
    refine encodes_unique hlaw (fun v hv => ?_) hfilter hfilter'
    rw [List.mem_filter, Bool.not_eq_true'] at hv
    exact hv.2

end extensions

/-! ## On the reference crates -/

namespace Device

/-- A request for a name. -/
def san_extension : Extension :=
  ⟨extensions.ID_CE_SUBJECT_ALT_NAME, false,
    Codec.enc [GeneralName.UniformResourceIdentifier "urn:device"]⟩

/-- Two requests for one key: the first wants a name, the second a CA certificate, twice. -/
def csr_with_san : CertReq where
  info := {
    subject := Reference.common_name "device"
    public_key := Reference.spki_from_key csr_key.pubkey
    attributes := [⟨extensions.ID_EXTENSION_REQ, [⟨.Sequence, Codec.enc [san_extension]⟩]⟩] }
  algorithm := Reference.signature_algorithm
  signature := []

def csr_for_ca : CertReq where
  info := {
    subject := Reference.common_name "Root CA"
    public_key := Reference.spki_from_key csr_key.pubkey
    attributes := List.replicate 2 ⟨extensions.ID_EXTENSION_REQ, [⟨.Sequence, Codec.enc
      [(⟨(ExtensionValue.BasicConstraints true none).oid, true,
        Codec.enc (ExtensionValue.BasicConstraints true none)⟩ : Extension)]⟩]⟩ }
  algorithm := Reference.signature_algorithm
  signature := []

theorem requested_csr_with_san :
    extensions.requested Reference.extension_crates csr_with_san.info.attributes
      = [san_extension] := by
  simp only [extensions.requested, csr_with_san, List.flatMap_cons, List.flatMap_nil, if_true,
    Reference.Extensions.extensions_decoded, List.append_nil]
  rfl

/-- Both requests are issued a certificate. -/
theorem extensions_issue (csr : CertReq) (hcsr : csr = csr_with_san ∨ csr = csr_for_ca) :
    ∃ cert, ca.leaf Reference.extension_crates csr (Scep.issue_options server profile)
      (serial_of serial_octets) now = .ok cert := by
  apply exists_ok_of_toBool
  rcases hcsr with rfl | rfl <;> decide +kernel

end Device

/-- The one with a name gets it, and they differ in nothing else. -/
theorem device_csr_has_no_say : ∃ cert cert' : Certificate,
    (∃ san, extensions.Profiled Reference.extension_crates Reference.read_extension Device.ca
      Device.csr_with_san (Scep.issue_options Device.server Device.profile) san cert ∧
      san = some [.UniformResourceIdentifier "urn:device"]) ∧
    cert.extensions.filter (fun e => e.extn_id ≠ extensions.ID_CE_SUBJECT_ALT_NAME)
      = cert'.extensions.filter fun e => e.extn_id ≠ extensions.ID_CE_SUBJECT_ALT_NAME := by
  obtain ⟨cert, hleaf⟩ := Device.extensions_issue _ (.inl rfl)
  obtain ⟨cert', hleaf'⟩ := Device.extensions_issue _ (.inr rfl)
  obtain ⟨⟨san, hprofiled, hnames⟩, hsame⟩ := extensions.csr_has_no_say
    Reference.Extensions.x509_law Reference.Extensions.extension_law
    (CertificateAuthority.issue_returns.mpr ⟨_, _, rfl, hleaf.symm⟩)
  have hsingle : extensions.SingleValued Device.csr_with_san.info.attributes := by
    intro attr hattr _
    rw [List.mem_singleton.mp hattr]
    exact le_refl _
  have hkey : Device.csr_for_ca.info.public_key = Device.csr_with_san.info.public_key := rfl
  refine ⟨cert, cert', ⟨san, hprofiled, ?_⟩, hsame Device.csr_for_ca _ cert' hkey
    (CertificateAuthority.issue_returns.mpr ⟨_, _, rfl, hleaf'.symm⟩)⟩
  have hfirst : extensions.first_san [Device.san_extension] = some Device.san_extension := rfl
  rw [Device.requested_csr_with_san, hfirst] at hnames
  obtain ⟨names, hdecode, hsan⟩ := hnames hsingle
  rw [hsan]
  exact congrArg some (Except.ok.inj (hdecode.symm.trans (Reference.Extensions.san_decoded _)))

end Blapki
