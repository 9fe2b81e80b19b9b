/-
Whether an issued certificate is one RFC 5280 allows.

A keyUsage has at least one bit set, an extendedKeyUsage and a subjectAltName have an
element, and the validity does not end before it starts. `issue` leaves an empty
extendedKeyUsage out, but not an empty keyUsage (a profile that configures none) and not
an empty subjectAltName (a CSR that requests one). `issued_well_formed_iff` says that
these two are all that can go wrong.
-/
import Blapki.Extensions

set_option autoImplicit false

namespace Blapki

open Effect

/-- A keyUsage with a bit, an extendedKeyUsage or a subjectAltName with an element. -/
def ExtensionValue.WellFormed : ExtensionValue → Prop
  | .KeyUsage flags => flags.Nonempty
  | .ExtendedKeyUsage oids => oids ≠ []
  | .SubjectAltName names => names ≠ []
  | _ => True

/-- No extension a relying party reads is empty, and the validity is an interval. -/
structure Certificate.WellFormed (read : Extension → Option ExtensionValue) (cert : Certificate) :
    Prop where
  extensions : ∀ ext ∈ cert.extensions, ∀ v, read ext = some v → v.WellFormed
  validity : cert.tbs_certificate.validity.not_before.to_date_time.unix_secs
    ≤ cert.tbs_certificate.validity.not_after.to_date_time.unix_secs

/-- A later time is a later date. -/
theorem DateTime.from_system_time_mono {t : SystemTime} {secs : Nat} {d d' : DateTime}
    (h : from_system_time t = .ok d) (h' : from_system_time (t.add_secs secs) = .ok d') :
    d.unix_secs ≤ d'.unix_secs := by
  have hsecs := (from_system_time_eq_ok.mp h).2
  have hsecs' := (from_system_time_eq_ok.mp h').2
  rw [SystemTime.secs] at hsecs hsecs'
  rw [SystemTime.add_secs] at hsecs'
  dsimp only at hsecs'
  omega

namespace extensions

variable {X : Crates} {read : Extension → Option ExtensionValue}

/-! ## The subjectAltName of a CSR -/

variable (X) in
/-- The extensions of the first value of every extensionRequest, in order, as far as they
decode: the ones that are looked at. -/
def leading (attrs : List Attribute) : List Extension :=
  attrs.flatMap fun attr =>
    if attr.oid = ID_EXTENSION_REQ then
      attr.values.head?.toList.flatMap fun value => (X.extensions_decode value).toOption.getD []
    else []

variable (X) in
/-- The first subjectAltName that is requested is the encoding of no name. -/
def RequestsNoName (attrs : List Attribute) : Prop :=
  ∃ ext, first_san (leading X attrs) = some ext ∧ X.subject_alt_name_from_der ext.extn_value = .ok []

/-- `requested_san` is the first one of all that are looked at. -/
theorem requested_san_in_leading {attrs : List Attribute} {san : Option (List GeneralName)}
    (h : requested_san_in X attrs = .ok san) : NamesOf X (first_san (leading X attrs)) san := by
  induction attrs with
  | nil => exact (Except.ok.inj h).symm
  | cons attr attrs ih =>
      rw [requested_san_in] at h
      have hcons : leading X (attr :: attrs) = leading X [attr] ++ leading X attrs := by
        simp only [leading, List.flatMap_cons, List.flatMap_nil, List.append_nil]
      rw [hcons, first_san_append]
      by_cases hoid : attr.oid = ID_EXTENSION_REQ
      · rw [if_neg (by simpa using hoid)] at h
        rcases hvalue : attr.values.head? with _ | value
        · rw [hvalue] at h
          have hnone : leading X [attr] = [] := by
            simp only [leading, List.flatMap_cons, List.flatMap_nil, hvalue, Option.toList_none,
              ite_self, List.append_nil]
          rw [hnone]
          exact ih h
        · rw [hvalue] at h
          obtain ⟨exts, hexts, h⟩ := bind_eq_ok.mp h
          obtain ⟨san', hfind, h⟩ := bind_eq_ok.mp h
          have hhead : leading X [attr] = exts := by
            simp only [leading, List.flatMap_cons, List.flatMap_nil, if_pos hoid, hvalue,
              Option.toList_some, map_err_eq_ok.mp hexts, Except.toOption, Option.getD_some,
              List.append_nil]
          have hnames := find_san_eq_ok hfind
          rw [hhead]
          -- A subjectAltName here ends the search.
          rcases hfirst : first_san exts with _ | ext
          · rw [hfirst] at hnames
            rw [hnames] at h
            exact ih h
          · rw [hfirst] at hnames
            obtain ⟨names, hdecode, hsan⟩ := hnames
            rw [hsan] at h
            exact ⟨names, hdecode, (Except.ok.inj h).symm⟩
      · rw [if_pos hoid] at h
        have hnone : leading X [attr] = [] := by
          simp only [leading, List.flatMap_cons, if_neg hoid, List.flatMap_nil, List.append_nil]
        rw [hnone]
        exact ih h

/-- The requested subjectAltName is empty just when no name is requested. -/
theorem requested_no_name {csr : CertReq} {san : Option (List GeneralName)}
    (h : requested_san X csr = .ok san) :
    san = some [] ↔ RequestsNoName X csr.info.attributes := by
  have hnames := requested_san_in_leading h
  unfold RequestsNoName
  rcases hfirst : first_san (leading X csr.info.attributes) with _ | ext
  · rw [hfirst] at hnames
    rw [hnames]
    simp only [reduceCtorEq, false_and, exists_false]
  · rw [hfirst] at hnames
    obtain ⟨names, hdecode, hsan⟩ := hnames
    simp only [hsan, Option.some.injEq, exists_eq_left', hdecode, Except.ok.injEq]

/-! ## What is encoded -/

/-- The flags are none just when no usage is configured. -/
theorem key_usage_nonempty {names : List String} {flags : Finset KeyUsages}
    (h : key_usage names = .ok flags) : flags.Nonempty ↔ names ≠ [] := by
  constructor
  · rintro ⟨f, hf⟩ hnil
    obtain ⟨name, hname, _⟩ := (mem_key_usage h f).mp hf
    rw [hnil] at hname
    exact List.not_mem_nil hname
  · intro hne
    obtain ⟨name, names', rfl⟩ := List.exists_cons_of_ne_nil hne
    -- The first name has a flag, or the whole list had failed.
    have hfold := h
    rw [key_usage, List.foldlM_cons] at hfold
    obtain ⟨start, hstart, _⟩ := bind_eq_ok.mp hfold
    obtain ⟨f, hf, _⟩ := bind_eq_ok.mp hstart
    exact ⟨f, (mem_key_usage h f).mpr ⟨name, List.mem_cons_self, hf⟩⟩

/-- Of the values of a leaf only the usage and the names can be ill-formed. -/
theorem leaf_values_well_formed (usage : Finset KeyUsages) (eku : List ObjectIdentifier)
    (ski : Bytes) (aki : Option Bytes) (san : Option (List GeneralName))
    (ocsp_url crl_url : Option String) :
    (∀ v ∈ leaf_values usage eku ski aki san ocsp_url crl_url, v.WellFormed) ↔
      usage.Nonempty ∧ san ≠ some [] := by
  have heku : ∀ v ∈ (if eku.isEmpty then [] else [ExtensionValue.ExtendedKeyUsage eku]),
      v.WellFormed := by
    intro v hv
    by_cases hempty : eku.isEmpty = true
    · rw [if_pos hempty] at hv
      exact absurd hv List.not_mem_nil
    · rw [if_neg hempty, List.mem_singleton] at hv
      rw [hv]
      exact fun hnil => hempty (List.isEmpty_iff.mpr hnil)
  have hurl : ∀ (url : Option String) (f : String → ExtensionValue),
      (∀ s, (f s).WellFormed) → ∀ v ∈ (url.map f).toList, v.WellFormed := by
    intro url f hf v hv
    rw [Option.mem_toList, Option.map_eq_some_iff] at hv
    obtain ⟨s, _, rfl⟩ := hv
    exact hf s
  have haia := hurl ocsp_url aia_value fun _ => trivial
  have hcdp := hurl crl_url cdp_value fun _ => trivial
  simp only [leaf_values, List.mem_append, or_imp, forall_and]
  constructor
  · intro h
    refine ⟨h.1.1.1.1.1 _ (List.mem_cons_of_mem _ List.mem_cons_self), fun hsan => ?_⟩
    rw [hsan] at h
    exact h.1.1.2 (.SubjectAltName []) List.mem_cons_self rfl
  · rintro ⟨husage, hsan⟩
    refine ⟨⟨⟨⟨⟨?_, heku⟩, ?_⟩, ?_⟩, haia⟩, hcdp⟩
    · simp only [List.forall_mem_cons]
      exact ⟨trivial, husage, fun _ h => absurd h List.not_mem_nil⟩
    · simp only [List.forall_mem_cons]
      exact ⟨trivial, trivial, fun _ h => absurd h List.not_mem_nil⟩
    · intro v hv
      rw [Option.mem_toList, Option.map_eq_some_iff] at hv
      obtain ⟨names, hnames, rfl⟩ := hv
      intro hnil
      rw [hnil] at hnames
      exact hsan hnames

/-- What a relying party reads in the encodings of values are the values. -/
theorem encodes_mem_read (hlaw : X.ExtensionLaw read) {vs : List ExtensionValue}
    {exts : List Extension} (h : List.Forall₂ (Encodes X) vs exts) (v : ExtensionValue) :
    (∃ ext ∈ exts, read ext = some v) ↔ v ∈ vs := by
  have hread := congrArg (List.map Prod.snd) (encodes_read hlaw h)
  rw [List.map_map, List.map_map] at hread
  have hmem : (∃ ext ∈ exts, read ext = some v) ↔
      some v ∈ exts.map (Prod.snd ∘ fun e => (e.extn_id, read e)) := by
    simp only [List.mem_map, Function.comp_apply]
  rw [hmem, hread, List.mem_map]
  constructor
  · rintro ⟨v', hv', heq⟩
    rw [← Option.some.inj heq]
    exact hv'
  · exact fun hv => ⟨v, hv, rfl⟩

end extensions

/-! ## What is issued -/

open extensions

variable {X : Crates} {read : Extension → Option ExtensionValue}

/-- What decides it, for a leaf. -/
theorem CertificateAuthority.leaf_well_formed (hx509 : X.X509Law) (hlaw : X.ExtensionLaw read)
    (hvalidity : X.ValidityLaw) {ca : CertificateAuthority} {csr : CertReq} {opts : IssueOptions}
    {serial : SerialNumber} {now : SystemTime} {cert : Certificate}
    (h : ca.leaf X csr opts serial now = .ok cert) :
    cert.WellFormed read ↔ opts.key_usage ≠ [] ∧ ¬ RequestsNoName X csr.info.attributes := by
  obtain ⟨usage, eku, ski, aki, san, husage, _, _, _, hsan, hall⟩ := leaf_encodes hx509 hlaw h
  obtain ⟨hbefore, hafter⟩ := leaf_validity hvalidity h
  rw [← key_usage_nonempty husage, ← requested_no_name hsan, ← ne_eq,
    ← leaf_values_well_formed usage eku ski aki san opts.ocsp_url opts.crl_url]
  constructor
  · intro hwell v hv
    obtain ⟨ext, hext, hread⟩ := (encodes_mem_read hlaw hall v).mpr hv
    exact hwell.extensions ext hext v hread
  · intro hvalues
    refine ⟨fun ext hext v hread => hvalues v ?_, DateTime.from_system_time_mono hbefore hafter⟩
    exact (encodes_mem_read hlaw hall v).mp ⟨ext, hext, hread⟩

/-- **Well-formedness of what is issued.** A certificate is one RFC 5280 allows just when
its profile configures a usage and its CSR does not request a subjectAltName of no name. -/
theorem issued_well_formed_iff (hx509 : X.X509Law) (hlaw : X.ExtensionLaw read)
    (hvalidity : X.ValidityLaw) {ca : CertificateAuthority} {csr : CertReq} {opts : IssueOptions}
    {tr : Trace} {cert : Certificate} (h : Returns (ca.issue X csr opts) tr (.ok cert)) :
    cert.WellFormed read ↔ opts.key_usage ≠ [] ∧ ¬ RequestsNoName X csr.info.attributes := by
  obtain ⟨bytes, now, _, hleaf⟩ := CertificateAuthority.issue_returns.mp h
  exact CertificateAuthority.leaf_well_formed hx509 hlaw hvalidity hleaf.symm

/-! ## On the reference crates -/

namespace Device

/-- A profile that configures no usage. -/
def bare_options : IssueOptions := { Scep.issue_options server profile with key_usage := [] }

/-- A request for a subjectAltName of no name. -/
def csr_with_no_name : CertReq :=
  { csr_with_san with
    info := { csr_with_san.info with
      attributes := [⟨ID_EXTENSION_REQ, [⟨.Sequence, Codec.enc
        [(⟨ID_CE_SUBJECT_ALT_NAME, false, Codec.enc ([] : List GeneralName)⟩ : Extension)]⟩]⟩] } }

/-- A certificate is issued on a run that draws this serial at this time. -/
theorem issue_returns {csr : CertReq} {opts : IssueOptions}
    (h : (ca.leaf Reference.extension_crates csr opts (serial_of serial_octets) now).toBool = true) :
    ∃ tr cert, Returns (ca.issue Reference.extension_crates csr opts) tr (.ok cert) ∧
      ca.leaf Reference.extension_crates csr opts (serial_of serial_octets) now = .ok cert := by
  obtain ⟨cert, hleaf⟩ := exists_ok_of_toBool h
  exact ⟨_, cert, CertificateAuthority.issue_returns.mpr ⟨serial_octets, now, rfl, hleaf.symm⟩, hleaf⟩

theorem requests_name : ¬ RequestsNoName Reference.extension_crates csr_with_san.info.attributes := by
  rintro ⟨ext, hfirst, hnames⟩
  have hleading : leading Reference.extension_crates csr_with_san.info.attributes
      = [san_extension] := by
    simp only [leading, csr_with_san, List.flatMap_cons, List.flatMap_nil, List.head?_cons,
      Option.toList_some, if_true, Reference.Extensions.extensions_decoded, List.append_nil]
    rfl
  have hsan : first_san [san_extension] = some san_extension := rfl
  rw [hleading, hsan] at hfirst
  rw [← Option.some.inj hfirst] at hnames
  have hdecoded := Reference.Extensions.san_decoded [.UniformResourceIdentifier "urn:device"]
  exact List.cons_ne_nil _ _ (Except.ok.inj (hdecoded.symm.trans hnames))

theorem requests_no_name :
    RequestsNoName Reference.extension_crates csr_with_no_name.info.attributes := by
  refine ⟨⟨ID_CE_SUBJECT_ALT_NAME, false, Codec.enc ([] : List GeneralName)⟩, ?_,
    Reference.Extensions.san_decoded []⟩
  have hleading : leading Reference.extension_crates csr_with_no_name.info.attributes
      = [⟨ID_CE_SUBJECT_ALT_NAME, false, Codec.enc ([] : List GeneralName)⟩] := by
    simp only [leading, csr_with_no_name, List.flatMap_cons, List.flatMap_nil, List.head?_cons,
      Option.toList_some, if_true, Reference.Extensions.extensions_decoded, List.append_nil]
    rfl
  rw [hleading]
  rfl

end Device

open Reference in
/-- The usual profile and a request for a name: the certificate is well formed. -/
theorem device_certificate_well_formed : ∃ tr cert,
    Returns (Device.ca.issue extension_crates Device.csr_with_san
      (Scep.issue_options Device.server Device.profile)) tr (.ok cert) ∧
    cert.WellFormed read_extension := by
  have hleaf : (Device.ca.leaf extension_crates Device.csr_with_san
      (Scep.issue_options Device.server Device.profile) (serial_of Device.serial_octets)
      Device.now).toBool = true := by decide +kernel
  obtain ⟨tr, cert, hissue, _⟩ := Device.issue_returns hleaf
  have husage : (Scep.issue_options Device.server Device.profile).key_usage ≠ [] := by decide
  exact ⟨tr, cert, hissue, (issued_well_formed_iff Extensions.x509_law Extensions.extension_law
    Extensions.validity_law hissue).mpr ⟨husage, Device.requests_name⟩⟩

open Reference in
/-- Under a profile without usages a keyUsage without bits is issued, and on a request for
no name a subjectAltName without names. -/
theorem device_certificate_ill_formed :
    (∃ tr cert, Returns (Device.ca.issue extension_crates Device.csr_with_san Device.bare_options)
      tr (.ok cert) ∧ ¬ cert.WellFormed read_extension) ∧
    ∃ tr cert, Returns (Device.ca.issue extension_crates Device.csr_with_no_name
      (Scep.issue_options Device.server Device.profile)) tr (.ok cert) ∧
      ¬ cert.WellFormed read_extension := by
  have hbare : (Device.ca.leaf extension_crates Device.csr_with_san Device.bare_options
      (serial_of Device.serial_octets) Device.now).toBool = true := by decide +kernel
  have hno_name : (Device.ca.leaf extension_crates Device.csr_with_no_name
      (Scep.issue_options Device.server Device.profile) (serial_of Device.serial_octets)
      Device.now).toBool = true := by decide +kernel
  obtain ⟨tr, cert, hissue, hleaf⟩ := Device.issue_returns hbare
  obtain ⟨tr', cert', hissue', hleaf'⟩ := Device.issue_returns hno_name
  refine ⟨⟨tr, cert, hissue, fun hwell => ?_⟩, tr', cert', hissue', fun hwell => ?_⟩
  · have hiff := CertificateAuthority.leaf_well_formed Extensions.x509_law
      Extensions.extension_law Extensions.validity_law hleaf
    exact (hiff.mp hwell).1 rfl
  · have hiff := CertificateAuthority.leaf_well_formed Extensions.x509_law
      Extensions.extension_law Extensions.validity_law hleaf'
    exact (hiff.mp hwell).2 Device.requests_no_name

end Blapki
