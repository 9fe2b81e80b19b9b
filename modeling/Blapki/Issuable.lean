/-
Which options a certificate can be issued under.

What `issue` takes from its options is read when a certificate is issued: the names of
the usages and of the purposes, the URLs, the validity. `issuable_iff` says that none of
them makes it fail, for any CSR and any serial, just when the names are known, the URLs
are ASCII and the validity ends before the year 10000.
-/
import Blapki.Extensions

set_option autoImplicit false

namespace Blapki

open Effect

/-! ## Errors of computed steps -/

theorem bind_eq_error {ε α β : Type} {x : Except ε α} {f : α → Except ε β} {e : ε} :
    (x >>= f) = .error e ↔ x = .error e ∨ ∃ a, x = .ok a ∧ f a = .error e := by
  rcases x with e' | a
  · have hbind : (Except.error e' : Except ε α) >>= f = .error e' := rfl
    rw [hbind]
    constructor
    · exact fun h => .inl (congrArg Except.error (Except.error.inj h))
    · rintro (h | ⟨_, hno, _⟩)
      · exact congrArg Except.error (Except.error.inj h)
      · cases hno
  · constructor
    · exact fun h => .inr ⟨a, rfl, h⟩
    · rintro (hno | ⟨_, ha, h⟩)
      · cases hno
      · rw [← Except.ok.inj ha] at h
        exact h

theorem map_err_eq_error {α : Type} {x : Except String α} {f : String → AppError} {e : AppError} :
    map_err x f = .error e ↔ ∃ m, x = .error m ∧ e = f m := by
  rcases x with m | a
  · constructor
    · exact fun h => ⟨m, rfl, (Except.error.inj h).symm⟩
    · rintro ⟨m', hm, rfl⟩
      rw [Except.error.inj hm]
      rfl
  · constructor
    · exact fun h => by cases h
    · rintro ⟨_, hno, _⟩
      cases hno

/-! ## Seven-bit text -/

/-- The text has seven-bit octets. -/
def Ascii (s : String) : Prop := s.as_bytes.all (fun b => b.toNat < 128) = true

instance (s : String) : Decidable (Ascii s) := inferInstanceAs (Decidable (_ = true))

theorem String.as_bytes_append (s t : String) : (s ++ t).as_bytes = s.as_bytes ++ t.as_bytes := by
  simp only [String.as_bytes, String.toByteArray_append, ByteArray.data_append, Array.toList_append]

theorem ascii_append {s t : String} : Ascii (s ++ t) ↔ Ascii s ∧ Ascii t := by
  unfold Ascii
  rw [String.as_bytes_append, List.all_append, Bool.and_eq_true]

theorem as_bytes_slashes (n : Nat) :
    (String.ofList (List.replicate n '/')).as_bytes = List.replicate n 0x2f := by
  induction n with
  | zero => rfl
  | succ n ih =>
      have hsplit : String.ofList (List.replicate (n + 1) '/')
          = "/" ++ String.ofList (List.replicate n '/') := by
        rw [List.replicate_succ, ← List.singleton_append, String.ofList_append]
      rw [hsplit, String.as_bytes_append, ih]
      rfl

theorem ascii_slashes (n : Nat) : Ascii (String.ofList (List.replicate n '/')) := by
  rw [Ascii, as_bytes_slashes, List.all_replicate]
  split_ifs <;> rfl

/-- What is trimmed is slashes. -/
theorem exists_trim_end_slashes (s : String) :
    ∃ n, s = trim_end_slashes s ++ String.ofList (List.replicate n '/') := by
  obtain ⟨n, hn⟩ : ∃ n, s.toList.reverse.takeWhile (fun c => c = '/') = List.replicate n '/' := by
    refine ⟨_, List.eq_replicate_of_mem fun c hc => ?_⟩
    simpa using List.mem_takeWhile_imp hc
  have hsplit := List.takeWhile_append_dropWhile (p := fun c => decide (c = '/')) (l := s.toList.reverse)
  rw [hn] at hsplit
  have hreverse := congrArg List.reverse hsplit
  rw [List.reverse_append, List.reverse_replicate, List.reverse_reverse] at hreverse
  refine ⟨n, ?_⟩
  rw [trim_end_slashes, ← String.ofList_append, hreverse, String.ofList_toList]

/-- Slashes at the end make no difference. -/
theorem ascii_trim_end_slashes (s : String) : Ascii (trim_end_slashes s) ↔ Ascii s := by
  obtain ⟨n, hlist⟩ := exists_trim_end_slashes s
  rw [hlist, ascii_append, ← hlist]
  exact ⟨fun h => ⟨h, ascii_slashes n⟩, fun h => h.1⟩

/-! ## The options -/

/-- An error of the configuration: a name or a URL it holds, or its validity. -/
def Misconfigured (e : AppError) : Prop := (∃ m, e = .Config m) ∨ ∃ m, e = der_err m

/-- A failure to build or to sign the certificate is none. -/
theorem not_misconfigured_bld_err (m : String) : ¬ Misconfigured (bld_err m) := by
  rintro (⟨_, hno⟩ | ⟨m', hno⟩)
  · cases hno
  · have htext := congrArg String.toList (AppError.Crypto.inj hno)
    simp only [String.toList_append] at htext
    exact absurd (List.cons.inj htext).1 (by decide)

namespace extensions

variable {X : Crates}

theorem usage_flag_error {name : String} {e : AppError} (h : usage_flag name = .error e) :
    Misconfigured e := by
  unfold usage_flag at h
  split at h
  all_goals first | exact .inl ⟨_, (Except.error.inj h).symm⟩ | cases h

theorem eku_oid_error {name : String} {e : AppError} (h : eku_oid X name = .error e) :
    Misconfigured e := by
  unfold eku_oid at h
  split at h
  all_goals first | cases h | skip
  obtain ⟨_, _, he⟩ := map_err_eq_error.mp h
  exact .inl ⟨_, he⟩

/-- A usage list is read to the first name that is not known. -/
theorem key_usage_error {names : List String} {e : AppError} (h : key_usage names = .error e) :
    Misconfigured e := by
  have hfold : ∀ (names : List String) (start : Finset KeyUsages),
      names.foldlM (fun flags name => do
        let flag ← usage_flag name
        pure (insert flag flags)) start = .error e → Misconfigured e := by
    intro names
    induction names with
    | nil =>
        intro start h
        cases h
    | cons name names ih =>
        intro start h
        rw [List.foldlM_cons] at h
        rcases bind_eq_error.mp h with hhead | ⟨start', _, htail⟩
        · rcases bind_eq_error.mp hhead with hflag | ⟨_, _, hno⟩
          · exact usage_flag_error hflag
          · cases hno
        · exact ih start' htail
  exact hfold names ∅ h

theorem extended_key_usage_error {names : List String} {e : AppError}
    (h : extended_key_usage X names = .error e) : Misconfigured e := by
  induction names with
  | nil => cases h
  | cons name names ih =>
      rw [extended_key_usage, List.mapM_cons] at h
      rcases bind_eq_error.mp h with hhead | ⟨_, _, h⟩
      · exact eku_oid_error hhead
      · rcases bind_eq_error.mp h with htail | ⟨_, _, hno⟩
        · exact ih htail
        · cases hno

/-- A list of usages is taken when every name is known. -/
theorem exists_key_usage {names : List String} :
    (∃ flags, key_usage names = .ok flags) ↔ ∀ name ∈ names, ∃ f, usage_flag name = .ok f := by
  have hfold : ∀ (names : List String) (start : Finset KeyUsages),
      (∃ flags, names.foldlM (fun flags name => do
        let flag ← usage_flag name
        pure (insert flag flags)) start = .ok flags) ↔
        ∀ name ∈ names, ∃ f, usage_flag name = .ok f := by
    intro names
    induction names with
    | nil =>
        intro start
        exact iff_of_true ⟨start, rfl⟩ fun _ h => absurd h List.not_mem_nil
    | cons name names ih =>
        intro start
        rw [List.foldlM_cons, List.forall_mem_cons]
        constructor
        · rintro ⟨flags, h⟩
          obtain ⟨start', hhead, htail⟩ := bind_eq_ok.mp h
          obtain ⟨f, hf, _⟩ := bind_eq_ok.mp hhead
          exact ⟨⟨f, hf⟩, (ih start').mp ⟨flags, htail⟩⟩
        · rintro ⟨⟨f, hf⟩, hnames⟩
          obtain ⟨flags, htail⟩ := (ih (insert f start)).mpr hnames
          exact ⟨flags, bind_eq_ok.mpr ⟨_, bind_eq_ok.mpr ⟨f, hf, rfl⟩, htail⟩⟩
  exact hfold names ∅

/-- A list of purposes has an extension when each of them has an OID. -/
theorem exists_extended_key_usage {names : List String} :
    (∃ oids, extended_key_usage X names = .ok oids) ↔
      ∀ name ∈ names, ∃ oid, eku_oid X name = .ok oid := by
  induction names with
  | nil => exact iff_of_true ⟨[], rfl⟩ fun _ h => absurd h List.not_mem_nil
  | cons name names ih =>
      rw [List.forall_mem_cons, ← ih, extended_key_usage, List.mapM_cons]
      constructor
      · rintro ⟨oids, h⟩
        obtain ⟨oid, hoid, h⟩ := bind_eq_ok.mp h
        obtain ⟨oids', hoids, _⟩ := bind_eq_ok.mp h
        exact ⟨⟨oid, hoid⟩, oids', hoids⟩
      · rintro ⟨⟨oid, hoid⟩, oids, hoids⟩
        exact ⟨oid :: oids, bind_eq_ok.mpr ⟨oid, hoid, bind_eq_ok.mpr ⟨oids, hoids, rfl⟩⟩⟩

/-- Both URL extensions hold an `Ia5String`. -/
structure UrlExtension (f : String → AppResult ExtensionValue) : Prop where
  ascii : ∀ url, Ascii url → ∃ v, f url = .ok v
  other : ∀ url, ¬ Ascii url → ∃ m, f url = .error (.Config m)

theorem ia5_string_new_of_ascii {url : String} (h : Ascii url) : ia5_string_new url = .ok url :=
  if_pos h

theorem ia5_string_new_other {url : String} (h : ¬ Ascii url) :
    ia5_string_new url = .error "malformed ASN.1 DER value for IA5String" := if_neg h

theorem url_authority_info_access : UrlExtension authority_info_access where
  ascii := by
    intro url h
    rw [authority_info_access, ia5_string_new_of_ascii h]
    exact ⟨_, rfl⟩
  other := by
    intro url h
    rw [authority_info_access, ia5_string_new_other h]
    exact ⟨_, rfl⟩

theorem url_crl_distribution_points : UrlExtension crl_distribution_points where
  ascii := by
    intro url h
    rw [crl_distribution_points, ia5_string_new_of_ascii h]
    exact ⟨_, rfl⟩
  other := by
    intro url h
    rw [crl_distribution_points, ia5_string_new_other h]
    exact ⟨_, rfl⟩

/-- A configured URL, if there is one, is taken when it is ASCII. -/
theorem UrlExtension.exists_mapM {f : String → AppResult ExtensionValue} (hf : UrlExtension f)
    (url : Option String) : (∃ v, url.mapM f = .ok v) ↔ ∀ u ∈ url, Ascii u := by
  rcases url with _ | u
  · exact iff_of_true ⟨none, rfl⟩ fun _ h => by cases h
  · have hmapM : (some u).mapM f = some <$> f u := rfl
    rw [hmapM]
    by_cases hu : Ascii u
    · obtain ⟨v, hv⟩ := hf.ascii u hu
      rw [hv]
      exact iff_of_true ⟨some v, rfl⟩ fun _ h => Option.some.inj h ▸ hu
    · obtain ⟨m, hm⟩ := hf.other u hu
      rw [hm]
      refine iff_of_false ?_ fun hall => hu (hall u rfl)
      rintro ⟨_, hno⟩
      cases hno

/-- A configured URL that is not taken is an error of the configuration. -/
theorem UrlExtension.mapM_error {f : String → AppResult ExtensionValue} (hf : UrlExtension f)
    {url : Option String} {e : AppError} (h : url.mapM f = .error e) : Misconfigured e := by
  rcases url with _ | u
  · cases h
  · have hmapM : (some u).mapM f = some <$> f u := rfl
    rw [hmapM] at h
    by_cases hu : Ascii u
    · obtain ⟨v, hv⟩ := hf.ascii u hu
      rw [hv] at h
      cases h
    · obtain ⟨m, hm⟩ := hf.other u hu
      rw [hm] at h
      exact .inl ⟨m, (Except.error.inj h).symm⟩

end extensions

open extensions

/-! ## Issuance -/

/-- The names are known, the URLs are ASCII, and the validity ends before the year 10000. -/
structure Issuable (X : Crates) (opts : IssueOptions) (now : SystemTime) : Prop where
  validity : DateTime.Representable (now.add_secs (opts.validity_days.toNat * 86400))
  key_usage : ∀ name ∈ opts.key_usage, ∃ f, usage_flag name = .ok f
  extended_key_usage : ∀ name ∈ opts.extended_key_usage, ∃ oid, eku_oid X name = .ok oid
  ocsp_url : ∀ url ∈ opts.ocsp_url, Ascii url
  crl_url : ∀ url ∈ opts.crl_url, Ascii url

/-- The subjectAltName a CSR requests, if any, can be read. -/
def CertReq.WellFormed (X : Crates) (csr : CertReq) : Prop := ∃ san, requested_san X csr = .ok san

/-- A sequence of steps gets past its first step when that succeeds. -/
theorem passes_of_ok {α β : Type} {x : AppResult α} {f : α → AppResult β} {r : AppResult β}
    (h : (x >>= f) = r) (hx : ∃ a, x = .ok a) : ∃ a, x = .ok a ∧ f a = r := by
  obtain ⟨a, ha⟩ := hx
  rw [ha] at h
  exact ⟨a, ha, h⟩

/-- A sequence that fails with no error of the configuration gets past a first step that fails with
such errors only. -/
theorem passes {α β : Type} {x : AppResult α} {f : α → AppResult β} {r : AppResult β}
    (h : (x >>= f) = r) (hr : ∀ e, r = .error e → ¬ Misconfigured e)
    (hx : ∀ e, x = .error e → Misconfigured e) : ∃ a, x = .ok a ∧ f a = r := by
  rcases x with e | a
  · exact absurd (hx e rfl) (hr e h.symm)
  · exact ⟨a, rfl, h⟩

namespace CertificateAuthority

variable {X : Crates}

theorem exists_add_some (hlaw : X.IssueLaw) (b : CertificateBuilder) (v : Option ExtensionValue) :
    ∃ b', add_some X b v = .ok b' := by
  rcases v with _ | v
  · exact ⟨b, rfl⟩
  · obtain ⟨e, he⟩ := hlaw.to_extension b.subject b.extensions v
    rw [add_some, Crates.add_extension, he]
    exact ⟨_, rfl⟩

/-- Under such options the extensions are added. -/
theorem exists_add_leaf_extensions (hlaw : X.IssueLaw) {csr : CertReq} (hcsr : csr.WellFormed X)
    {opts : IssueOptions} {now : SystemTime} (h : Issuable X opts now) (ski : Bytes)
    (aki : Option Bytes) (b : CertificateBuilder) :
    ∃ b', add_leaf_extensions X csr opts ski aki b = .ok b' := by
  have hadd := exists_add_some hlaw
  obtain ⟨san, hsan⟩ := hcsr
  obtain ⟨usage, husage⟩ := exists_key_usage.mpr h.key_usage
  obtain ⟨eku, heku⟩ := exists_extended_key_usage.mpr h.extended_key_usage
  obtain ⟨aia, haia⟩ := (url_authority_info_access.exists_mapM opts.ocsp_url).mpr h.ocsp_url
  obtain ⟨cdp, hcdp⟩ := (url_crl_distribution_points.exists_mapM opts.crl_url).mpr h.crl_url
  obtain ⟨b₁, h₁⟩ := hadd b (some (.BasicConstraints false none))
  obtain ⟨b₂, h₂⟩ := hadd b₁ (some (.KeyUsage usage))
  obtain ⟨b₃, h₃⟩ := hadd b₂ (if eku.isEmpty then none else some (.ExtendedKeyUsage eku))
  obtain ⟨b₄, h₄⟩ := hadd b₃ (some (.SubjectKeyIdentifier ski))
  obtain ⟨b₅, h₅⟩ := hadd b₄ (some (.AuthorityKeyIdentifier aki))
  obtain ⟨b₆, h₆⟩ := hadd b₅ (san.map .SubjectAltName)
  obtain ⟨b₇, h₇⟩ := hadd b₆ aia
  obtain ⟨b₈, h₈⟩ := hadd b₇ cdp
  refine ⟨b₈, ?_⟩
  simp only [add_leaf_extensions, bind_eq_ok]
  exact ⟨b₁, h₁, usage, husage, b₂, h₂, eku, heku, b₃, h₃, b₄, h₄, b₅, h₅, san, hsan, b₆, h₆, aia,
    haia, b₇, h₇, cdp, hcdp, h₈⟩

/-- Where the options are issuable, only building the certificate can fail. -/
theorem leaf_error_of_issuable (hlaw : X.IssueLaw) {csr : CertReq} (hcsr : csr.WellFormed X)
    {opts : IssueOptions} {now : SystemTime} (hnow : DateTime.Representable now)
    (h : Issuable X opts now) {ca : CertificateAuthority} {serial : SerialNumber} {e : AppError}
    (herror : leaf X ca csr opts serial now = .error e) : ∃ m, e = bld_err m := by
  obtain ⟨v, hv⟩ := hlaw.validity now _ hnow h.validity
  obtain ⟨ski, hski⟩ := hlaw.subject_key_identifier csr.info.public_key
  obtain ⟨aki, haki⟩ := hlaw.authority_key_identifier ca.cert.tbs_certificate.subject_public_key_info
  obtain ⟨b, hb⟩ := hlaw.builder_new (.Manual (some ca.subject)) serial v csr.info.subject
    csr.info.public_key ca.signing_key
  obtain ⟨b', hb'⟩ := exists_add_leaf_extensions hlaw hcsr h ski aki b
  have hleaf : leaf X ca csr opts serial now
      = map_err (X.certificate_builder_build b') bld_err := by
    simp only [leaf, hv, hski, haki, hb, hb', map_err, bind, Except.bind]
  rw [hleaf] at herror
  obtain ⟨m, _, he⟩ := map_err_eq_error.mp herror
  exact ⟨m, he⟩

/-- Adding them only fails for the configuration. -/
theorem add_leaf_extensions_error (hlaw : X.IssueLaw) {csr : CertReq} (hcsr : csr.WellFormed X)
    {opts : IssueOptions} {ski : Bytes} {aki : Option Bytes} {b : CertificateBuilder} {e : AppError}
    (h : add_leaf_extensions X csr opts ski aki b = .error e) : Misconfigured e := by
  by_contra hno
  have hadd := exists_add_some hlaw
  have hr : ∀ e', (.error e : AppResult CertificateBuilder) = .error e' → ¬ Misconfigured e' := by
    intro e' he
    rw [← Except.error.inj he]
    exact hno
  unfold add_leaf_extensions at h
  obtain ⟨b₁, _, h⟩ := passes_of_ok h (hadd _ _)
  obtain ⟨usage, _, h⟩ := passes h hr fun _ => key_usage_error
  obtain ⟨b₂, _, h⟩ := passes_of_ok h (hadd _ _)
  obtain ⟨eku, _, h⟩ := passes h hr fun _ => extended_key_usage_error
  obtain ⟨b₃, _, h⟩ := passes_of_ok h (hadd _ _)
  obtain ⟨b₄, _, h⟩ := passes_of_ok h (hadd _ _)
  obtain ⟨b₅, _, h⟩ := passes_of_ok h (hadd _ _)
  obtain ⟨san, _, h⟩ := passes_of_ok h hcsr
  obtain ⟨b₆, _, h⟩ := passes_of_ok h (hadd _ _)
  obtain ⟨aia, _, h⟩ := passes h hr fun _ => url_authority_info_access.mapM_error
  obtain ⟨b₇, _, h⟩ := passes_of_ok h (hadd _ _)
  obtain ⟨cdp, _, h⟩ := passes h hr fun _ => url_crl_distribution_points.mapM_error
  obtain ⟨b₈, h₈⟩ := hadd b₇ cdp
  rw [h₈] at h
  cases h

/-- Options under which no error is one of the configuration are such. -/
theorem issuable_of_leaf (hlaw : X.IssueLaw) (hvalidity : X.ValidityLaw) {csr : CertReq}
    {opts : IssueOptions} {now : SystemTime} {ca : CertificateAuthority} {serial : SerialNumber}
    (hcsr : csr.WellFormed X)
    (h : ∀ e, leaf X ca csr opts serial now = .error e → ¬ Misconfigured e) :
    Issuable X opts now := by
  obtain ⟨r, hr⟩ : ∃ r, leaf X ca csr opts serial now = r := ⟨_, rfl⟩
  rw [hr] at h
  unfold leaf at hr
  obtain ⟨v, hv, hr⟩ := passes hr h fun e he => by
    obtain ⟨m, _, rfl⟩ := map_err_eq_error.mp he
    exact .inr ⟨m, rfl⟩
  obtain ⟨ski, _, hr⟩ := passes_of_ok hr
    ((hlaw.subject_key_identifier csr.info.public_key).imp fun _ => map_err_eq_ok.mpr)
  obtain ⟨aki, _, hr⟩ := passes_of_ok hr
    ((hlaw.authority_key_identifier _).imp fun _ => map_err_eq_ok.mpr)
  obtain ⟨b, _, hr⟩ := passes_of_ok hr
    ((hlaw.builder_new _ _ _ _ _ _).imp fun _ => map_err_eq_ok.mpr)
  obtain ⟨b', hb', _⟩ := passes hr h fun _ => add_leaf_extensions_error hlaw hcsr
  simp only [add_leaf_extensions, bind_eq_ok] at hb'
  obtain ⟨_, _, usage, husage, _, _, eku, heku, _, _, _, _, _, _, _, _, _, _, aia, haia, _, _, cdp,
    hcdp, _⟩ := hb'
  have hafter := (hvalidity.from_now _ _ _ (map_err_eq_ok.mp hv)).2
  exact ⟨(DateTime.from_system_time_eq_ok.mp hafter).1, exists_key_usage.mp ⟨usage, husage⟩,
    exists_extended_key_usage.mp ⟨eku, heku⟩,
    (url_authority_info_access.exists_mapM _).mp ⟨aia, haia⟩,
    (url_crl_distribution_points.exists_mapM _).mp ⟨cdp, hcdp⟩⟩

/-- A CSR that requests nothing can be read. -/
def bare_csr : CertReq where
  info := { subject := ⟨[]⟩, public_key := ⟨⟨⟨[]⟩, none⟩, []⟩, attributes := [] }
  algorithm := ⟨⟨[]⟩, none⟩
  signature := []

/-- **Options that work.** On no well-formed CSR does `issue` fail for its configuration,
just when the options are issuable. -/
theorem issuable_iff (hlaw : X.IssueLaw) (hvalidity : X.ValidityLaw) {now : SystemTime}
    (hnow : DateTime.Representable now) (ca : CertificateAuthority) (opts : IssueOptions) :
    (∀ csr : CertReq, csr.WellFormed X → ∀ t e, Returns (ca.issue X csr opts) t (.error e) →
      ⟨Op.now, now⟩ ∈ t → ¬ Misconfigured e) ↔ Issuable X opts now := by
  constructor
  · intro h
    have hbare : bare_csr.WellFormed X := ⟨none, rfl⟩
    let octets : { b : Bytes // b.length = 16 } := ⟨List.replicate 16 0, List.length_replicate⟩
    have hleaf : ∀ e, leaf X ca bare_csr opts (serial_of octets) now = .error e →
        ¬ Misconfigured e := by
      intro e herror
      have hrun := issue_returns.mpr ⟨octets, now, rfl, herror.symm⟩
      exact h bare_csr hbare _ e hrun (List.mem_cons_of_mem _ List.mem_cons_self)
    exact issuable_of_leaf hlaw hvalidity hbare hleaf
  · intro h csr hcsr t e hrun hmem
    obtain ⟨octets, now', rfl, hleaf⟩ := issue_returns.mp hrun
    obtain rfl : now = now' := by
      simpa using hmem
    obtain ⟨m, rfl⟩ := leaf_error_of_issuable hlaw hcsr hnow h hleaf.symm
    exact not_misconfigured_bld_err m

end CertificateAuthority

end Blapki
