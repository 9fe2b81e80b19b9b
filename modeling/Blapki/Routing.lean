/-
From a certificate back to the server (`http/mod.rs`).

`ocsp_url` and `crl_url` write the id of a CA into a path as it is, and `router`
reads it out of one: a path is cut at its slashes, and a captured segment is
percent-decoded. The two agree on an id that is a segment of its own and has no escape
(`routable_iff`), and only then do the URLs in a certificate lead to its CA
(`embedded_urls_iff`).

What precedes the path is not the server's: a URL is requested relative to the
configured base. How a client writes the path is left open (`percent.Sent`).
-/
import Blapki.Percent
import Blapki.Issuable
import Blapki.Extensions
import Blapki.Resolution

set_option autoImplicit false

namespace Blapki

open Effect percent

namespace http

/-! ## The router -/

/-- The handlers of the server. -/
inductive Handler where
  | health
  | scep_get
  | scep_post
  | ocsp_get_root
  | ocsp_post
  | ocsp_get
  | crl
deriving DecidableEq, Repr

/-- The handlers of a path: `get(..)`, and `.post(..)` where there is one. -/
structure MethodRouter where
  get : Handler
  post : Option Handler
deriving DecidableEq, Repr

/-- A segment of the path of a route: fixed, or captured as `{name}`. -/
inductive Segment where
  | fixed (text : String)
  | capture (name : String)
deriving DecidableEq, Repr

structure Route where
  path : List Segment
  service : MethodRouter
deriving DecidableEq, Repr

def SCEP : MethodRouter := ⟨.scep_get, some .scep_post⟩

/-- POST a request body, or GET with the base64 request in the path. -/
def OCSP : MethodRouter := ⟨.ocsp_get_root, some .ocsp_post⟩

def CRL : MethodRouter := ⟨.crl, none⟩

/-- The routes of the server. Both SCEP paths map to the same handlers. -/
def routes : List Route := [
  ⟨[.fixed "health"], ⟨.health, none⟩⟩,
  ⟨[.fixed "scep", .capture "profile"], SCEP⟩,
  ⟨[.fixed "scep", .capture "profile", .fixed "pkiclient.exe"], SCEP⟩,
  ⟨[.fixed "ocsp", .capture "ca"], OCSP⟩,
  ⟨[.fixed "ocsp", .capture "ca", .capture "b64"], ⟨.ocsp_get, none⟩⟩,
  ⟨[.fixed "crl", .capture "ca"], CRL⟩]

/-- The parameters of a path. -/
abbrev Params : Type := List (String × String)

/-- A fixed segment is compared as it is written; a captured one is not empty and is
percent-decoded. -/
def Segment.matches : Segment → Bytes → Option Params
  | .fixed text, s => if s = text.as_bytes then some [] else none
  | .capture name, s => if s = [] then none else (from_utf8 (percent_decode s)).map fun v => [(name, v)]

def match_path : List Segment → List Bytes → Option Params
  | [], [] => some []
  | p :: ps, s :: ss => do
      let params ← p.matches s
      let rest ← match_path ps ss
      pure (params ++ rest)
  | _, _ => none

/-- The segments of a path that begins with a slash. -/
def segments : Bytes → List Bytes
  | 0x2f :: rest => rest.splitOn 0x2f
  | _ => []

/-- The handlers of a path, and its parameters. -/
def router (path : Bytes) : Option (MethodRouter × Params) :=
  routes.findSome? fun r => (match_path r.path (segments path)).map fun params => (r.service, params)

/-- Whether a segment has the place of another, whatever it decodes to. -/
def Segment.fits : Segment → Bytes → Bool
  | .fixed text, s => s = text.as_bytes
  | .capture _, s => s ≠ []

def fits_path : List Segment → List Bytes → Bool
  | [], [] => true
  | p :: ps, s :: ss => p.fits s && fits_path ps ss
  | _, _ => false

/-- The route of a path. It is found before anything is decoded. -/
def route_of (path : Bytes) : Option Route :=
  routes.find? fun r => fits_path r.path (segments path)

/-! ## One route for a path -/

theorem Segment.fits_of_matches {p : Segment} {s : Bytes} {params : Params}
    (h : p.matches s = some params) : p.fits s = true := by
  cases p with
  | fixed text =>
      rw [Segment.matches] at h
      split_ifs at h with hs
      exact decide_eq_true hs
  | capture name =>
      rw [Segment.matches] at h
      split_ifs at h with hs
      exact decide_eq_true hs

theorem fits_path_of_match_path {path : List Segment} {ss : List Bytes} {params : Params}
    (h : match_path path ss = some params) : fits_path path ss = true := by
  induction path generalizing ss params with
  | nil =>
      cases ss with
      | nil => rfl
      | cons s ss => cases h
  | cons p path ih =>
      cases ss with
      | nil => cases h
      | cons s ss =>
          obtain ⟨first, hfirst, h₁⟩ := Option.bind_eq_some_iff.mp h
          obtain ⟨rest, hrest, _⟩ := Option.bind_eq_some_iff.mp h₁
          rw [fits_path, Segment.fits_of_matches hfirst, ih hrest, Bool.and_self]

/-- Whether one path may fit both. -/
def meets_path : List Segment → List Segment → Bool
  | [], [] => true
  | .fixed text :: ps, .fixed text' :: qs => text = text' && meets_path ps qs
  | _ :: ps, _ :: qs => meets_path ps qs
  | _, _ => false

theorem meets_path_of_fits {ps qs : List Segment} {ss : List Bytes} (hp : fits_path ps ss = true)
    (hq : fits_path qs ss = true) : meets_path ps qs = true := by
  induction ps, qs using meets_path.induct generalizing ss with
  | case1 => rfl
  | case2 text ps text' qs ih =>
      cases ss with
      | nil => cases hp
      | cons s ss =>
          obtain ⟨hs, hps⟩ := Bool.and_eq_true_iff.mp hp
          obtain ⟨hs', hqs⟩ := Bool.and_eq_true_iff.mp hq
          have htext : text = text' :=
            String.as_bytes_inj.mp ((of_decide_eq_true hs).symm.trans (of_decide_eq_true hs'))
          rw [meets_path, ih hps hqs, htext, decide_eq_true rfl, Bool.and_self]
  | case3 p ps q qs hfixed ih =>
      cases ss with
      | nil => cases hp
      | cons s ss =>
          rw [meets_path.eq_3 p ps q qs hfixed]
          exact ih (Bool.and_eq_true_iff.mp hp).2 (Bool.and_eq_true_iff.mp hq).2
  | case4 ps qs hnil hfixed hcons =>
      cases ps <;> cases qs <;> cases ss <;> simp_all [fits_path]

/-- No path fits two routes, so the one whose parameters decode is the first that fits. -/
theorem route_of_router {path : Bytes} {service : MethodRouter} {params : Params}
    (h : router path = some (service, params)) : ∃ r, route_of path = some r ∧
      r.service = service ∧ match_path r.path (segments path) = some params := by
  obtain ⟨r, hr, hmap⟩ := List.exists_of_findSome?_eq_some h
  obtain ⟨ps, hmatch, hpair⟩ := Option.map_eq_some_iff.mp hmap
  obtain ⟨rfl, rfl⟩ := Prod.mk.inj hpair
  have hfits : fits_path r.path (segments path) = true := fits_path_of_match_path hmatch
  have hapart : ∀ r ∈ routes, ∀ r' ∈ routes, meets_path r.path r'.path = true → r = r' := by decide
  obtain ⟨r', hroute⟩ : ∃ r', route_of path = some r' :=
    Option.isSome_iff_exists.mp (List.find?_isSome.mpr ⟨r, hr, by exact hfits⟩)
  have hfits' : fits_path r'.path (segments path) = true := by
    simpa only [decide_eq_true_eq] using List.find?_some hroute
  obtain rfl : r' = r := hapart r' (List.mem_of_find?_eq_some hroute) r hr
    (meets_path_of_fits hfits' hfits)
  exact ⟨r', hroute, rfl, hmatch⟩

/-! ## The paths of a CA -/

theorem Segment.matches_fixed (text text' : String) :
    (Segment.fixed text).matches text'.as_bytes = if text' = text then some [] else none := by
  simp only [Segment.matches, String.as_bytes_inj]

/-- The paths that the certificates of a CA point to: `/{text}/{ca}`. -/
inductive Published : String → MethodRouter → Prop
  | ocsp : Published "ocsp" OCSP
  | crl : Published "crl" CRL

/-- The path with this last part. -/
def ca_path (text : String) (s : Bytes) : Bytes := 0x2f :: (text.as_bytes ++ 0x2f :: s)

section

variable {text : String} {service : MethodRouter}

theorem segments_ca_path (h : Published text service) (s : Bytes) :
    segments (ca_path text s) = text.as_bytes :: s.splitOn 0x2f := by
  have hslash : (0x2f : UInt8) ∉ text.as_bytes := by
    rcases h with _ | _ <;> decide
  exact List.splitOn_append_cons_self_of_not_mem hslash s

/-- One segment is captured as the CA. -/
theorem router_segment (h : Published text service) {s : Bytes} (hslash : 0x2f ∉ s) :
    router (ca_path text s)
      = ((Segment.capture "ca").matches s).map fun params => (service, params) := by
  unfold router
  rw [segments_ca_path h, List.splitOn_eq_singleton hslash]
  rcases h with _ | _ <;> cases hs : (Segment.capture "ca").matches s <;>
    simp [routes, match_path, Segment.matches_fixed, hs, OCSP, CRL]

/-- Two or more are not: one route is as long, and it is the one for a request in the path. -/
theorem router_segments (h : Published text service) {s : Bytes} (hslash : 0x2f ∈ s)
    (params : Params) : router (ca_path text s) ≠ some (service, params) := by
  obtain ⟨a, b, rfl⟩ := List.append_of_mem hslash
  obtain ⟨s₁, l₁, h₁⟩ := List.exists_cons_of_ne_nil (List.splitOn_ne_nil 0x2f a)
  obtain ⟨s₂, l₂, h₂⟩ : ∃ s₂ l₂, l₁ ++ b.splitOn 0x2f = s₂ :: l₂ :=
    List.exists_cons_of_ne_nil (List.append_ne_nil_of_right_ne_nil _ (List.splitOn_ne_nil 0x2f b))
  unfold router
  rw [segments_ca_path h, List.splitOn_append_cons_self, h₁, List.cons_append, h₂]
  rcases h with _ | _ <;> cases hs₁ : (Segment.capture "ca").matches s₁ <;>
    cases hs₂ : (Segment.capture "b64").matches s₂ <;> cases l₂ <;>
    simp [routes, match_path, Segment.matches_fixed, hs₁, hs₂, OCSP, CRL]

/-- **Which paths lead to a CA.** The last part is one segment and is decoded to the id. -/
theorem router_ca_path (h : Published text service) (s : Bytes) (ca_id : String) :
    router (ca_path text s) = some (service, [("ca", ca_id)]) ↔
      s ≠ [] ∧ 0x2f ∉ s ∧ percent_decode s = ca_id.as_bytes := by
  by_cases hslash : 0x2f ∈ s
  · exact iff_of_false (router_segments h hslash _) fun hno => hno.2.1 hslash
  · rw [router_segment h hslash, ← from_utf8_eq_some]
    by_cases hne : s = []
    · simp [Segment.matches, hne]
    · simp [Segment.matches, hne, hslash]

/-! ## Requests for a URL -/

/-- Neither `?` nor `#`, which begin a query and a fragment. -/
def is_path_octet (b : UInt8) : Bool := b ≠ 0x3f && b ≠ 0x23

/-- The part of a URL before its query and its fragment. -/
def url_path (url : String) : Bytes := url.as_bytes.takeWhile is_path_octet

/-- However a client writes the path of the URL behind the base, the request gets to these
handlers, for this CA. -/
def RoutesTo (base_url url : String) (service : MethodRouter) (ca_id : String) : Prop :=
  ∃ path, url_path url = (trim_end_slashes base_url).as_bytes ++ path ∧
    ∀ target, Sent path target → router target = some (service, [("ca", ca_id)])

/-- The base has no query and no fragment, and the id is a segment of its own that is
decoded to itself. -/
structure Routable (base_url ca_id : String) : Prop where
  base_url : 0x3f ∉ base_url.as_bytes ∧ 0x23 ∉ base_url.as_bytes
  nonempty : ca_id.as_bytes ≠ []
  slash : 0x2f ∉ ca_id.as_bytes
  delimiters : 0x3f ∉ ca_id.as_bytes ∧ 0x23 ∉ ca_id.as_bytes
  unescaped : ¬ Escaped ca_id.as_bytes

theorem takeWhile_path {u : Bytes} : u.takeWhile is_path_octet = u ↔ 0x3f ∉ u ∧ 0x23 ∉ u := by
  rw [List.takeWhile_eq_self_iff]
  constructor
  · intro h
    constructor <;> intro hmem <;> cases h _ hmem
  · rintro ⟨hquery, hfragment⟩ b hb
    have hne : b ≠ 0x3f := fun hno => hquery (hno ▸ hb)
    have hne' : b ≠ 0x23 := fun hno => hfragment (hno ▸ hb)
    simp only [is_path_octet, ne_eq, hne, hne', not_false_eq_true, decide_true, Bool.and_self]

/-- What a client writes for such a path has the same form. -/
theorem sent_ca_path (h : Published text service) {s target : Bytes}
    (hsent : Sent (ca_path text s) target) : ∃ t, target = ca_path text t ∧ Sent s t := by
  have hform : ∀ s, ca_path text s = (0x2f :: text.as_bytes ++ [0x2f]) ++ s := by
    intro s
    simp only [ca_path, List.cons_append, List.append_assoc, List.nil_append]
  have hkept : ∀ b ∈ 0x2f :: text.as_bytes ++ [0x2f], is_unreserved b = true ∨ b = 0x2f := by
    rcases h with _ | _ <;> decide +kernel
  rw [hform] at hsent
  obtain ⟨t, rfl, ht⟩ := hsent.of_kept_append hkept
  exact ⟨t, (hform t).symm, ht⟩

/-- **Which path is requested.** All that may be sent for the path gets to the CA just when
its last part is one segment and is decoded to the id. -/
theorem requests_ca_path (h : Published text service) (s : Bytes) (ca_id : String) :
    (∀ target, Sent (ca_path text s) target → router target = some (service, [("ca", ca_id)])) ↔
      s ≠ [] ∧ 0x2f ∉ s ∧ percent_decode s = ca_id.as_bytes := by
  have hsame : ∀ {t}, Sent s t → ((t ≠ [] ∧ 0x2f ∉ t ∧ percent_decode t = ca_id.as_bytes) ↔
      s ≠ [] ∧ 0x2f ∉ s ∧ percent_decode s = ca_id.as_bytes) := by
    intro t ht
    rw [ne_eq, ne_eq, ht.eq_nil, ht.mem_slash, ht.percent_decode_eq]
  constructor
  · intro hall
    obtain ⟨target, htarget⟩ := exists_sent (ca_path text s)
    obtain ⟨t, rfl, ht⟩ := sent_ca_path h htarget
    exact (hsame ht).mp ((router_ca_path h t ca_id).mp (hall _ htarget))
  · intro hs target htarget
    obtain ⟨t, rfl, ht⟩ := sent_ca_path h htarget
    exact (router_ca_path h t ca_id).mpr ((hsame ht).mpr hs)

/-- The path of a URL of a CA, where the base has no delimiter. -/
theorem url_path_ca {base_url : String} (hbase : 0x3f ∉ base_url.as_bytes ∧ 0x23 ∉ base_url.as_bytes)
    (h : Published text service) (ca_id : String) :
    url_path (base_url ++ "/" ++ text ++ "/" ++ ca_id)
      = base_url.as_bytes ++ ca_path text (url_path ca_id) := by
  have hslash : "/".as_bytes = [0x2f] := rfl
  have htext : 0x3f ∉ 0x2f :: text.as_bytes ++ [0x2f] ∧ 0x23 ∉ 0x2f :: text.as_bytes ++ [0x2f] := by
    rcases h with _ | _ <;> decide
  have hpath := List.takeWhile_eq_self_iff.mp (takeWhile_path.mpr htext)
  calc url_path (base_url ++ "/" ++ text ++ "/" ++ ca_id)
      = (base_url.as_bytes ++ (0x2f :: text.as_bytes ++ [0x2f] ++ ca_id.as_bytes)).takeWhile
          is_path_octet := by
        simp only [url_path, String.as_bytes_append, hslash, List.cons_append, List.append_assoc,
          List.nil_append]
    _ = base_url.as_bytes ++ (0x2f :: text.as_bytes ++ [0x2f] ++ url_path ca_id) := by
        rw [List.takeWhile_append_of_pos (List.takeWhile_eq_self_iff.mp (takeWhile_path.mpr hbase)),
          List.takeWhile_append_of_pos hpath, url_path]
    _ = base_url.as_bytes ++ ca_path text (url_path ca_id) := by
        simp only [ca_path, List.cons_append, List.append_assoc, List.nil_append]

/-- Trimming makes and hides no delimiter. -/
theorem mem_trim_end_slashes {b : UInt8} (hb : b ≠ 0x2f) (s : String) :
    b ∈ (trim_end_slashes s).as_bytes ↔ b ∈ s.as_bytes := by
  obtain ⟨n, hn⟩ := exists_trim_end_slashes s
  have hbytes := congrArg String.as_bytes hn
  rw [String.as_bytes_append, as_bytes_slashes] at hbytes
  rw [hbytes, List.mem_append, List.mem_replicate]
  exact ⟨.inl, fun h => h.resolve_right fun hno => hb hno.2⟩

/-- **Which ids are routable.** The URL of a CA leads to its handlers just when the base and
the id are such. -/
theorem routable_iff (h : Published text service) (base_url ca_id : String) :
    RoutesTo base_url (trim_end_slashes base_url ++ "/" ++ text ++ "/" ++ ca_id) service ca_id ↔
      Routable base_url ca_id := by
  have hquery := mem_trim_end_slashes (show (0x3f : UInt8) ≠ 0x2f by decide) base_url
  have hfragment := mem_trim_end_slashes (show (0x23 : UInt8) ≠ 0x2f by decide) base_url
  constructor
  · rintro ⟨path, hpath, hrequests⟩
    have hbase : 0x3f ∉ (trim_end_slashes base_url).as_bytes ∧
        0x23 ∉ (trim_end_slashes base_url).as_bytes := by
      rw [← takeWhile_path, List.takeWhile_eq_self_iff]
      intro b hb
      have hmem : b ∈ url_path (trim_end_slashes base_url ++ "/" ++ text ++ "/" ++ ca_id) :=
        hpath ▸ List.mem_append_left path hb
      exact List.mem_takeWhile_imp hmem
    rw [url_path_ca hbase h, List.append_cancel_left_eq] at hpath
    rw [← hpath, requests_ca_path h] at hrequests
    obtain ⟨hne, hslash, hdecode⟩ := hrequests
    -- decoding lengthens nothing, so that nothing was cut off
    have hprefix : url_path ca_id <+: ca_id.as_bytes := List.takeWhile_prefix _
    have hlength := length_percent_decode (url_path ca_id)
    rw [hdecode] at hlength
    have hwhole : url_path ca_id = ca_id.as_bytes := hprefix.eq_of_length_le hlength
    rw [hwhole] at hne hslash hdecode
    exact ⟨⟨hquery.not.mp hbase.1, hfragment.not.mp hbase.2⟩, hne, hslash, takeWhile_path.mp hwhole,
      percent_decode_eq_self.mp hdecode⟩
  · rintro ⟨hbase, hne, hslash, hdelimiters, hunescaped⟩
    refine ⟨ca_path text (url_path ca_id), url_path_ca ?_ h ca_id, ?_⟩
    · exact ⟨hquery.not.mpr hbase.1, hfragment.not.mpr hbase.2⟩
    · have hwhole : url_path ca_id = ca_id.as_bytes := takeWhile_path.mpr hdelimiters
      rw [hwhole, requests_ca_path h]
      exact ⟨hne, hslash, percent_decode_eq_self.mpr hunescaped⟩

end

/-! ## What a certificate points to -/

/-- Where an AIA extension says that an OCSP responder is. -/
def ocsp_locations : ExtensionValue → List GeneralName
  | .AuthorityInfoAccess descriptions =>
      (descriptions.filter fun d => d.1 = extensions.ID_AD_OCSP).map Prod.snd
  | _ => []

/-- Where a CDP extension says that a CRL is. -/
def crl_locations : ExtensionValue → List GeneralName
  | .CrlDistributionPoints points => points.flatten
  | _ => []

/-- The values of the extensions of a certificate, to a relying party. -/
def values (read : Extension → Option ExtensionValue) (cert : Certificate) : List ExtensionValue :=
  cert.extensions.filterMap read

/-- A certificate names one OCSP responder and one CRL, and requests for them get to the
handlers of the CA. -/
structure RoutesBack (read : Extension → Option ExtensionValue) (base_url ca_id : String)
    (cert : Certificate) : Prop where
  ocsp : ∃ url, (values read cert).flatMap ocsp_locations = [.UniformResourceIdentifier url] ∧
    RoutesTo base_url url OCSP ca_id
  crl : ∃ url, (values read cert).flatMap crl_locations = [.UniformResourceIdentifier url] ∧
    RoutesTo base_url url CRL ca_id

variable {X : Crates} {read : Extension → Option ExtensionValue}

/-- The values of a leaf name the two URLs of the options and no others. -/
theorem leaf_locations (usage : Finset KeyUsages) (eku : List ObjectIdentifier) (ski : Bytes)
    (aki : Option Bytes) (san : Option (List GeneralName)) (ocsp_url crl_url : String) :
    (extensions.leaf_values usage eku ski aki san (some ocsp_url) (some crl_url)).flatMap
        ocsp_locations = [.UniformResourceIdentifier ocsp_url] ∧
      (extensions.leaf_values usage eku ski aki san (some ocsp_url) (some crl_url)).flatMap
        crl_locations = [.UniformResourceIdentifier crl_url] := by
  have heku : ∀ f : ExtensionValue → List GeneralName, (∀ e, f (.ExtendedKeyUsage e) = []) →
      (if eku.isEmpty then [] else [ExtensionValue.ExtendedKeyUsage eku]).flatMap f = [] := by
    intro f hf
    split_ifs
    · rfl
    · rw [List.flatMap_singleton, hf]
  have hsan : ∀ f : ExtensionValue → List GeneralName, (∀ names, f (.SubjectAltName names) = []) →
      (san.map ExtensionValue.SubjectAltName).toList.flatMap f = [] := by
    intro f hf
    rcases san with _ | names
    · rfl
    · exact (List.flatMap_singleton f _).trans (hf names)
  simp only [extensions.leaf_values, List.flatMap_append, heku ocsp_locations fun _ => rfl,
    hsan ocsp_locations fun _ => rfl, heku crl_locations fun _ => rfl,
    hsan crl_locations fun _ => rfl]
  exact ⟨rfl, rfl⟩

/-- The values of an issued certificate. -/
theorem values_of_issue (hx509 : X.X509Law) (hlaw : X.ExtensionLaw read) {ca : CertificateAuthority}
    {csr : CertReq} {opts : IssueOptions} {t : Trace} {cert : Certificate}
    (h : Returns (ca.issue X csr opts) t (.ok cert)) :
    ∃ usage eku ski aki san, values read cert
      = extensions.leaf_values usage eku ski aki san opts.ocsp_url opts.crl_url := by
  obtain ⟨_, _, _, hleaf⟩ := CertificateAuthority.issue_returns.mp h
  obtain ⟨usage, eku, ski, aki, san, _, _, _, _, _, hall⟩ :=
    extensions.leaf_encodes hx509 hlaw hleaf.symm
  refine ⟨usage, eku, ski, aki, san, ?_⟩
  have hread := congrArg (List.filterMap Prod.snd) (extensions.encodes_read hlaw hall)
  rw [List.filterMap_map, List.filterMap_map] at hread
  exact hread.trans List.filterMap_some

/-- The URLs of a profile are routable when its CA is. -/
theorem routes_back_iff (hx509 : X.X509Law) (hlaw : X.ExtensionLaw read) {state : AppState}
    {rt : ProfileRuntime} {ca : CertificateAuthority} {csr : CertReq} {t : Trace}
    {cert : Certificate}
    (h : Returns (ca.issue X csr (Scep.issue_options state rt)) t (.ok cert)) :
    RoutesBack read state.base_url rt.ca_id cert ↔ Routable state.base_url rt.ca_id := by
  obtain ⟨usage, eku, ski, aki, san, hvalues⟩ := values_of_issue hx509 hlaw h
  obtain ⟨hocsp, hcrl⟩ := leaf_locations usage eku ski aki san (state.ocsp_url rt.ca_id)
    (state.crl_url rt.ca_id)
  have hocsp_url : state.ocsp_url rt.ca_id
      = trim_end_slashes state.base_url ++ "/" ++ "ocsp" ++ "/" ++ rt.ca_id := by
    simp only [AppState.ocsp_url, String.append_assoc]
    rfl
  have hcrl_url : state.crl_url rt.ca_id
      = trim_end_slashes state.base_url ++ "/" ++ "crl" ++ "/" ++ rt.ca_id := by
    simp only [AppState.crl_url, String.append_assoc]
    rfl
  constructor
  · rintro ⟨⟨url, hurl, hroutes⟩, _⟩
    rw [hvalues] at hurl
    rw [← routable_iff .ocsp, ← hocsp_url]
    have heq := hocsp.symm.trans hurl
    cases heq
    exact hroutes
  · intro hroutable
    refine ⟨⟨state.ocsp_url rt.ca_id, ?_, ?_⟩, state.crl_url rt.ca_id, ?_, ?_⟩
    · rw [hvalues]
      exact hocsp
    · rw [hocsp_url]
      exact (routable_iff .ocsp _ _).mpr hroutable
    · rw [hvalues]
      exact hcrl
    · rw [hcrl_url]
      exact (routable_iff .crl _ _).mpr hroutable

/-- **Embedded URLs lead back to the CA exactly when its id is a path segment as it is.** -/
theorem embedded_urls_iff (hx509 : X.X509Law) (hlaw : X.ExtensionLaw read) {settings : Settings}
    (hvalid : settings.validate = .ok ()) {tr : Trace} {state : AppState}
    (hbuild : Returns (app.build_state X settings) tr (.ok state)) {name : String}
    {rt : ProfileRuntime} (hrt : state.profiles.lookup name = some rt) :
    ∃ ca, state.cas.lookup rt.ca_id = some ca ∧ ∀ csr t cert,
      Returns (ca.issue X csr (Scep.issue_options state rt)) t (.ok cert) →
      (RoutesBack read settings.server.base_url rt.ca_id cert ↔
        Routable settings.server.base_url rt.ca_id) := by
  obtain ⟨ca, hca⟩ := app.build_state_profiles hvalid hbuild hrt
  obtain ⟨_, _, hbuilt⟩ := app.build_state_built hbuild
  refine ⟨ca, hca, fun csr t cert hissue => ?_⟩
  rw [← hbuilt.base_url_eq]
  exact routes_back_iff hx509 hlaw hissue

end http

/-! ## On the reference crates -/

namespace Device

open Reference

/-- The CA and the profile of the device, with another id for the CA. -/
def ca_named (id : String) : CaConfig := { ca_config ca_key with id := id }

def profile_of (id : String) : ProfileConfig := { profile_config .None with ca := id }

def settings_named (id : String) : Settings := app.with_profiles (ca_named id) [profile_of id]

theorem ca_named_loads (id : String) :
    Returns (app.load_or_bootstrap_ca extension_crates (ca_named id)) []
      (.ok (CertificateAuthority.new id ca_cert ca_key)) := by
  have hstore := keystore.InlineKeyStore.from_material_encode extension_crates
    (Codec.enc ca_cert) (Codec.enc ca_key) none
  refine app.load_inline (ca_named id) rfl rfl rfl hstore ?_
  decide +kernel

/-- Under either id the settings are accepted, the server starts, and it issues. -/
theorem named_issues (id : String) (hid : id = "root" ∨ id = "root/2026") :
    (settings_named id).validate = .ok () ∧ ∃ tr state rt ca t cert,
      Returns (app.build_state extension_crates (settings_named id)) tr (.ok state) ∧
      state.profiles.lookup "device" = some rt ∧ rt.ca_id = id ∧
      state.cas.lookup id = some ca ∧
      Returns (ca.issue extension_crates (csr "s3cret") (Scep.issue_options state rt)) t
        (.ok cert) := by
  have hvalid : (settings_named id).validate = .ok () := by
    rcases hid with rfl | rfl <;> decide +kernel
  have heach : Each (fun p => app.build_validator p none) [profile_of id] ([] ++ [])
      [.NoneValidator] := .cons (returns_pure.mpr ⟨rfl, rfl⟩) .nil
  obtain ⟨state, hbuild, hprofiles, hca⟩ := app.build_with_profiles (ca_named_loads id) heach
  obtain ⟨_, _, hbuilt⟩ := app.build_state_built hbuild
  have hrt : state.profiles.lookup "device" = some (app.runtime (profile_of id) .NoneValidator) := by
    rw [hprofiles]
    exact AList.lookup_insert _
  have hoptions : Scep.issue_options state (app.runtime (profile_of id) .NoneValidator)
      = Scep.issue_options server (app.runtime (profile_of id) .NoneValidator) := by
    have hbase : state.base_url = server.base_url := hbuilt.base_url_eq
    simp only [Scep.issue_options, AppState.ocsp_url, AppState.crl_url, hbase]
  obtain ⟨cert, hcert⟩ : ∃ cert, (CertificateAuthority.new id ca_cert ca_key).leaf extension_crates
      (csr "s3cret") (Scep.issue_options server (app.runtime (profile_of id) .NoneValidator))
      (serial_of serial_octets) now = .ok cert := by
    apply exists_ok_of_toBool
    rcases hid with rfl | rfl <;> decide +kernel
  rw [← hoptions] at hcert
  have hissue := CertificateAuthority.issue_returns.mpr ⟨_, _, rfl, hcert.symm⟩
  exact ⟨hvalid, _, state, _, _, _, cert, hbuild, hrt, rfl, hca, hissue⟩

end Device

namespace http

open Reference

/-- The URLs of the root CA are routed back. -/
theorem device_urls_route_back : ∃ cert,
    RoutesBack read_extension "http://pki.example/" "root" cert := by
  obtain ⟨hvalid, tr, state, rt, ca, t, cert, hbuild, hrt, hid, hca, hissue⟩ :=
    Device.named_issues "root" (.inl rfl)
  obtain ⟨ca', hca', hiff⟩ := embedded_urls_iff Extensions.x509_law Extensions.extension_law hvalid
    hbuild hrt
  rw [hid] at hca' hiff
  obtain rfl := Option.some.inj (hca.symm.trans hca')
  refine ⟨cert, (hiff _ t cert hissue).mpr ⟨by decide, by decide, by decide, by decide, ?_⟩⟩
  rw [← percent_decode_eq_self]
  decide

/-- The URLs of a CA with a slash in its id are not. -/
theorem device_slash_misroutes : ¬ ∀ (settings : Settings) tr state name rt ca csr t cert,
    settings.validate = .ok () →
    Returns (app.build_state extension_crates settings) tr (.ok state) →
    state.profiles.lookup name = some rt → state.cas.lookup rt.ca_id = some ca →
    Returns (ca.issue extension_crates csr (Scep.issue_options state rt)) t (.ok cert) →
    RoutesBack read_extension settings.server.base_url rt.ca_id cert := by
  intro hclaim
  obtain ⟨hvalid, tr, state, rt, ca, t, cert, hbuild, hrt, hid, hca, hissue⟩ :=
    Device.named_issues "root/2026" (.inr rfl)
  obtain ⟨_, _, hbuilt⟩ := app.build_state_built hbuild
  have hroutes := hclaim _ tr state "device" rt ca _ t cert hvalid hbuild hrt (hid ▸ hca) hissue
  rw [← hbuilt.base_url_eq, routes_back_iff Extensions.x509_law Extensions.extension_law hissue,
    hid] at hroutes
  exact hroutes.slash (by decide)

end http

end Blapki
