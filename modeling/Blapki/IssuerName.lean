/-
The issuer name in a success notification (`common_name` and `issued_info` of `http/scep.rs`).

`common_name` cuts the text of the CA's name at its commas and takes the first part that
begins with `CN=`. Escapes are not undone, and a comma in a value is not told from one
between RDNs. So what begins with `CN=` behind such a comma is taken for a common name
(`impostor`), a common name that is not alone in its RDN is missed or comes with the rest
of it, and one with an escape comes with its backslashes. `Reported` says when the name is
right all the same, `issuer_cn_iff` that it is right then only.
-/
import Blapki.Rfc4514
import Blapki.Blocks
import Blapki.Device

set_option autoImplicit false

namespace Blapki

open Rfc4514

/-! ## The parts of a name -/

namespace Scep

/-- The common name in a part between commas, to the splitter. -/
def cn_part (part : List Char) : Option (List Char) := strip_cn (trim (String.ofList part)).toList

theorem common_name_ofList (dn : List Char) :
    common_name (String.ofList dn)
      = String.ofList (((dn.splitOn ',').findSome? cn_part).getD dn) := by
  have hparts : (((dn.splitOn ',').map fun part => (trim (String.ofList part)).toList).findSome?
      strip_cn) = (dn.splitOn ',').findSome? cn_part := List.findSome?_map
  unfold common_name
  rw [String.toList_ofList]
  simp only [hparts]
  cases (dn.splitOn ',').findSome? cn_part <;> rfl

/-- The key of a common name. -/
def CN : Key where
  text := ['C', 'N']
  chars := by
    intro c hc
    simp only [List.mem_cons, List.not_mem_nil, or_false] at hc
    rcases hc with rfl | rfl <;> exact .inl rfl

theorem strip_cn_eq_some {l cn : List Char} (h : strip_cn l = some cn) :
    l = CN.text ++ '=' :: cn := by
  unfold strip_cn at h
  split at h
  · rw [Option.some.inj h]
    rfl
  · cases h

/-- An attribute is a common name by its key. -/
theorem strip_cn_key {k : Key} (h : k.text ≠ CN.text) (t : List Char) :
    strip_cn (k.text ++ '=' :: t) = none := by
  by_contra hsome
  obtain ⟨cn, hcn⟩ := Option.ne_none_iff_exists'.mp hsome
  have hsplit := congrArg (List.splitOn '=') (strip_cn_eq_some hcn)
  rw [List.splitOn_append_cons_self_of_not_mem k.delimiter.2,
    List.splitOn_append_cons_self_of_not_mem CN.delimiter.2] at hsplit
  exact h (List.cons.inj hsplit).1

/-- The visible ASCII characters are not white space. -/
theorem solid_of_visible {c : Char} (hlow : 33 ≤ c.toNat) (hhigh : c.toNat ≤ 126) :
    is_whitespace c = false := by
  simp only [is_whitespace, Bool.or_eq_false_iff, Bool.and_eq_false_iff, decide_eq_false_iff_not,
    beq_eq_false_iff_ne]
  omega

theorem solid_of_key {c : Char} (h : c.isAlphanum = true ∨ c = '-' ∨ c = '.') :
    is_whitespace c = false := by
  rcases h with h | rfl | rfl
  · simp only [Char.isAlphanum, Char.isAlpha, Char.isUpper, Char.isLower, Char.isDigit,
      Bool.or_eq_true, Bool.and_eq_true, decide_eq_true_eq, UInt32.le_iff_toNat_le] at h
    have hrange : (65 ≤ c.toNat ∧ c.toNat ≤ 90) ∨ (97 ≤ c.toNat ∧ c.toNat ≤ 122) ∨
        (48 ≤ c.toNat ∧ c.toNat ≤ 57) := or_assoc.mp h
    exact solid_of_visible (by omega) (by omega)
  · decide
  · decide

variable (hexed : Char → Bool)

/-- What follows the commas in the values of an RDN, up to the next comma. -/
def behind_commas (r : List Ava) : List (List Char) := ((print_rdn hexed r).splitOn ',').tail

/-- The first of these, in the values of some RDNs, that reads like a common name. -/
def impostor (rs : List (List Ava)) : Option (List Char) :=
  (rs.flatMap (behind_commas hexed)).findSome? cn_part

/-- What is left of the first attribute of an RDN: up to the next comma, trimmed. -/
def cut_value (a : Ava) (r : List Ava) : List Char :=
  trim_end ((print_value hexed a.value ++ if r = [] then [] else '+' :: print_rdn hexed r).takeWhile
    fun c => !(c == ','))

variable {hexed}

/-- The first part of an RDN is its first attribute, cut. -/
theorem trim_first_part (a : Ava) (r : List Ava) :
    (trim (String.ofList ((print_rdn hexed (a :: r)).takeWhile fun c => !(c == ',')))).toList
      = a.key.text ++ '=' :: cut_value hexed a r := by
  have hkey := not_separator_of_not_mem a.key.delimiter.1
  rw [print_rdn_cons, List.takeWhile_append_of_pos hkey, List.takeWhile_cons_of_pos (by decide),
    trim_of_head (fun c hc => ?_), trim_end_solid (by decide)]
  · rfl
  · rcases hlist : a.key.text with _ | ⟨d, ds⟩
    · rw [hlist] at hc
      rw [← Option.some.inj hc]
      decide
    · rw [hlist] at hc
      rw [← Option.some.inj hc]
      exact solid_of_key (a.key.chars d (hlist ▸ List.mem_cons_self))

/-- An RDN that begins with another attribute is passed over up to its first comma. -/
theorem findSome_other {r : List Ava} (h : ∀ a ∈ r.head?, a.key.text ≠ CN.text) :
    ((print_rdn hexed r).splitOn ',').findSome? cn_part
      = (behind_commas hexed r).findSome? cn_part := by
  rw [splitOn_eq_cons, List.findSome?_cons]
  rcases r with _ | ⟨a, r⟩
  · rfl
  · rw [cn_part, trim_first_part, strip_cn_key (h a rfl)]
    rfl

/-- One that begins with a common name is not. -/
theorem findSome_own (v : Value) (r : List Ava) :
    ((print_rdn hexed (⟨CN, v⟩ :: r)).splitOn ',').findSome? cn_part
      = some (cut_value hexed ⟨CN, v⟩ r) := by
  rw [splitOn_eq_cons, List.findSome?_cons, cn_part, trim_first_part]
  rfl

/-- Where no RDN begins with a common name, only impostors are found. -/
theorem findSome_others {rs : List (List Ava)} (h : ∀ r ∈ rs, ∀ a ∈ r.head?, a.key.text ≠ CN.text) :
    (rs.flatMap fun r => (print_rdn hexed r).splitOn ',').findSome? cn_part = impostor hexed rs := by
  induction rs with
  | nil => rfl
  | cons r rs ih =>
      rw [List.forall_mem_cons] at h
      rw [List.flatMap_cons, List.findSome?_append, ih h.2, findSome_other h.1, impostor, impostor,
        List.flatMap_cons, List.findSome?_append]

/-- A printed value that ends in white space ends in that of the value. -/
theorem escape_solid {v : List Char} (h : ∀ c ∈ v.getLast?, is_whitespace c = false) :
    ∀ c ∈ (escape hexed v).getLast?, is_whitespace c = false := by
  intro c hc
  rcases getLast_escape_from hc with hlast | ⟨n, hn, rfl⟩
  · exact h c hlast
  · have hrange := (digit_plain hn).2
    exact solid_of_visible (by omega) (by omega)

/-- **Which common names survive the cut.** The value is alone in its RDN, there is nothing to
escape in it, and it does not end in white space. -/
theorem cut_value_eq {v : List Char} {r : List Ava} :
    cut_value hexed ⟨CN, .text v⟩ r = v ↔
      r = [] ∧ Verbatim hexed v ∧ ∀ c ∈ v.getLast?, is_whitespace c = false := by
  have huncut : ',' ∉ v → ∀ c ∈ escape hexed v, (!(c == ',')) = true := fun hcomma =>
    not_separator_of_not_mem fun hmem => hcomma (comma_of_escape_from hmem)
  constructor
  · intro heq
    have hsolid : ∀ c ∈ v.getLast?, is_whitespace c = false := by
      intro c hc
      rw [← heq] at hc
      exact getLast_trim_end hc
    have hcomma : ',' ∉ v := by
      intro hmem
      rw [← heq] at hmem
      have hno := List.mem_takeWhile_imp (mem_trim_end hmem)
      simp at hno
    unfold cut_value print_value at heq
    rw [List.takeWhile_append_of_pos (huncut hcomma)] at heq
    by_cases hr : r = []
    · rw [if_pos hr, List.takeWhile_nil, List.append_nil, trim_end_eq_self (escape_solid hsolid),
        escape_eq_self] at heq
      exact ⟨hr, heq, hsolid⟩
    · -- the plus sign and the rest of the RDN stay
      rw [if_neg hr, List.takeWhile_cons_of_pos (by decide), trim_end_solid (by decide)] at heq
      have hlength := congrArg List.length heq
      have hescape : v.length ≤ (escape hexed v).length := length_escape_from hexed true v
      rw [List.length_append, List.length_cons] at hlength
      omega
  · rintro ⟨rfl, hverbatim, hsolid⟩
    have hcomma : ',' ∉ v := by
      intro hmem
      have hspecial := (hverbatim.plain _ hmem).1
      cases hspecial
    unfold cut_value print_value
    rw [if_pos rfl, List.append_nil, List.takeWhile_eq_self_iff.mpr (huncut hcomma),
      escape_eq_self.mpr hverbatim, trim_end_eq_self hsolid]

/-! ## The common name -/

variable (hexed)

/-- The name is reported: no impostor is printed before it and it survives, or one that reads
the same is taken for it. Where it does not begin its RDN it is not seen, and every value
is in question. -/
def Reported (pre : List (List Ava)) (before after : List Ava) (post : List (List Ava))
    (v : List Char) : Prop :=
  (impostor hexed pre = none ∧ before = [] ∧ after = [] ∧ Verbatim hexed v ∧
    ∀ c ∈ v.getLast?, is_whitespace c = false) ∨
  impostor hexed (if before.isEmpty then pre else pre ++ (before ++ ⟨CN, .text v⟩ :: after) :: post)
    = some v

variable {hexed}

/-- The text of a name is longer than a common name in it. -/
theorem length_dn {rs : List (List Ava)} {r : List Ava} {v : List Char} (hr : r ∈ rs)
    (h : ⟨CN, .text v⟩ ∈ r) : v.length < (print_dn hexed rs).length := by
  have hinfix : print_ava hexed ⟨CN, .text v⟩ <:+: print_dn hexed rs := infix_dn hr h
  have hle := hinfix.length_le
  have hescape : v.length ≤ (escape hexed v).length := length_escape_from hexed true v
  simp only [print_ava, print_value, List.length_append, List.length_cons] at hle
  omega

/-- Without a comma in a value there is no impostor. -/
theorem impostor_eq_none {rs : List (List Ava)}
    (h : ∀ r ∈ rs, ∀ a ∈ r, ∀ v, a.value = .text v → ',' ∉ v) : impostor hexed rs = none := by
  have hnil : ∀ r ∈ rs, behind_commas hexed r = [] := by
    intro r hr
    have hcomma : ',' ∉ print_rdn hexed r := fun hmem =>
      (comma_of_print_rdn hmem).elim fun a ⟨ha, v, hv, hno⟩ => h r hr a ha v hv hno
    rw [behind_commas, List.splitOn_eq_singleton hcomma, List.tail_cons]
  rw [impostor, List.flatMap_eq_nil_iff.mpr hnil, List.findSome?_nil]

/-- **What a splitter makes of the common name.** -/
theorem common_name_dn {pre : List (List Ava)} {before after : List Ava} {post : List (List Ava)}
    {v : List Char}
    (hothers : ∀ r ∈ pre ++ (before ++ after) :: post, ∀ a ∈ r, a.key.text ≠ CN.text) :
    common_name (String.ofList (print_dn hexed (pre ++ (before ++ ⟨CN, .text v⟩ :: after) :: post)))
      = String.ofList v ↔ Reported hexed pre before after post v := by
  have hpre : ∀ r ∈ pre, ∀ a ∈ r.head?, a.key.text ≠ CN.text := fun r hr a ha =>
    hothers r (List.mem_append_left _ hr) a (List.mem_of_mem_head? ha)
  have hpost : ∀ r ∈ post, ∀ a ∈ r.head?, a.key.text ≠ CN.text := fun r hr a ha =>
    hothers r (List.mem_append_right _ (List.mem_cons_of_mem _ hr)) a (List.mem_of_mem_head? ha)
  rw [common_name_ofList, splitOn_dn (by simp), String.ofList_inj]
  rcases before with _ | ⟨b, before⟩
  · -- the RDN begins with the common name: it is found if nothing was found before it
    rw [List.flatMap_append, List.findSome?_append, findSome_others hpre, List.flatMap_cons,
      List.findSome?_append, List.nil_append, findSome_own, Option.some_or]
    unfold Reported
    cases himpostor : impostor hexed pre with
    | none =>
        rw [Option.none_or, Option.getD_some, cut_value_eq]
        simp [himpostor]
    | some t =>
        rw [Option.some_or, Option.getD_some]
        simp [himpostor]
  · -- it does not, and only impostors are found
    have hown : ∀ a ∈ (b :: before ++ ⟨CN, .text v⟩ :: after).head?, a.key.text ≠ CN.text := by
      intro a ha
      rw [← Option.some.inj ha]
      exact hothers _ (List.mem_append_right _ List.mem_cons_self) b List.mem_cons_self
    have hall := List.forall_mem_append.mpr ⟨hpre, List.forall_mem_cons.mpr ⟨hown, hpost⟩⟩
    rw [findSome_others hall]
    have hlength : v.length
        < (print_dn hexed (pre ++ (b :: before ++ ⟨CN, .text v⟩ :: after) :: post)).length :=
      length_dn (List.mem_append_right pre List.mem_cons_self)
        (List.mem_append_right (b :: before) List.mem_cons_self)
    unfold Reported
    cases himpostor : impostor hexed (pre ++ (b :: before ++ ⟨CN, .text v⟩ :: after) :: post) with
    | none =>
        rw [Option.getD_none]
        refine iff_of_false (fun hno => ?_) ?_
        · rw [hno] at hlength
          exact lt_irrefl _ hlength
        · rintro (⟨_, hno, _⟩ | hno)
          · cases hno
          · rw [List.isEmpty_cons, if_neg Bool.false_ne_true, himpostor] at hno
            cases hno
    | some t =>
        rw [Option.getD_some, List.isEmpty_cons, if_neg Bool.false_ne_true, himpostor]
        simp

/-! ## The notification -/

end Scep

/-- A printer of names: it knows common names by `CN`, and prints strings as they are. What
key it has for other attributes, and which characters it writes as octets, is open. -/
structure NamePrinter where
  hexed : Char → Bool
  text : Any → Option String
  shown : AttributeTypeAndValue → Ava
  utf8 : ∀ a s, a.decode_utf8_string = .ok s → text a = some s
  printable : ∀ a s, a.decode_printable_string = .ok s → text a = some s
  ia5 : ∀ a s, a.decode_ia5_string = .ok s → text a = some s
  common_name : ∀ a s, a.oid = Reference.ID_COMMON_NAME → text a.value = some s →
    shown a = ⟨Scep.CN, .text s.toList⟩
  other : ∀ a, a.oid ≠ Reference.ID_COMMON_NAME → (shown a).key.text ≠ Scep.CN.text

def AttributeTypeAndValue.is_common_name (a : AttributeTypeAndValue) : Bool :=
  a.oid = Reference.ID_COMMON_NAME

/-- The last RDN is printed first. -/
def NamePrinter.print (P : NamePrinter) (n : Name) : String :=
  String.ofList (print_dn P.hexed (n.rdns.reverse.map (List.map P.shown)))

/-- The only common name of a name, and where it is printed. -/
structure CommonName (P : NamePrinter) (n : Name) where
  pre : List (List AttributeTypeAndValue)
  before : List AttributeTypeAndValue
  attr : AttributeTypeAndValue
  after : List AttributeTypeAndValue
  post : List (List AttributeTypeAndValue)
  value : String
  rdns : n.rdns.reverse = pre ++ (before ++ attr :: after) :: post
  oid : attr.oid = Reference.ID_COMMON_NAME
  text : P.text attr.value = some value
  alone : ∀ r ∈ pre ++ (before ++ after) :: post, ∀ a ∈ r, a.oid ≠ Reference.ID_COMMON_NAME

namespace CommonName

variable {P : NamePrinter} {n : Name}

/-- A name with one attribute of this type has one. -/
theorem exists_of_single {a : AttributeTypeAndValue}
    (h : n.rdns.flatten.filter AttributeTypeAndValue.is_common_name = [a]) {s : String}
    (hs : P.text a.value = some s) : ∃ c : CommonName P n, c.attr = a ∧ c.value = s := by
  have hprinted := (List.reverse_perm n.rdns).flatten.filter AttributeTypeAndValue.is_common_name
  rw [h, List.perm_singleton] at hprinted
  obtain ⟨hmem, hoid⟩ := List.mem_filter.mp (hprinted ▸ List.mem_singleton_self a)
  obtain ⟨r, hr, ha⟩ := List.mem_flatten.mp hmem
  obtain ⟨pre, post, hrdns⟩ := List.append_of_mem hr
  obtain ⟨before, after, rfl⟩ := List.append_of_mem ha
  -- it is all that passes the filter, so nothing around it does
  rw [hrdns] at hprinted
  have hlength := congrArg List.length hprinted
  have hself : (a :: after).filter AttributeTypeAndValue.is_common_name
      = a :: after.filter AttributeTypeAndValue.is_common_name := List.filter_cons_of_pos hoid
  simp only [List.flatten_append, List.flatten_cons, List.filter_append, hself,
    List.length_append, List.length_cons, List.length_nil] at hlength
  have hnone : ∀ l : List AttributeTypeAndValue,
      (l.filter AttributeTypeAndValue.is_common_name).length = 0 →
      ∀ b ∈ l, b.oid ≠ Reference.ID_COMMON_NAME := by
    intro l hl b hb hno
    exact List.filter_eq_nil_iff.mp (List.length_eq_zero_iff.mp hl) b hb (decide_eq_true hno)
  refine ⟨⟨pre, before, a, after, post, s, hrdns, of_decide_eq_true hoid, hs, ?_⟩, rfl, rfl⟩
  rw [List.forall_mem_append, List.forall_mem_cons]
  refine ⟨fun r hr b hb => ?_, fun b hb => ?_, fun r hr b hb => ?_⟩
  · exact hnone pre.flatten (by omega) b (List.mem_flatten.mpr ⟨r, hr, hb⟩)
  · rcases List.mem_append.mp hb with hb | hb
    · exact hnone before (by omega) b hb
    · exact hnone after (by omega) b hb
  · exact hnone post.flatten (by omega) b (List.mem_flatten.mpr ⟨r, hr, hb⟩)

/-- A common name is reported as it is. -/
def Reported (c : CommonName P n) : Prop :=
  Scep.Reported P.hexed (c.pre.map (List.map P.shown)) (c.before.map P.shown) (c.after.map P.shown)
    (c.post.map (List.map P.shown)) c.value.toList

/-- What the server makes of the printed name. -/
theorem common_name_iff (c : CommonName P n) :
    Scep.common_name (P.print n) = c.value ↔ c.Reported := by
  have hshown : n.rdns.reverse.map (List.map P.shown) = c.pre.map (List.map P.shown) ++
      (c.before.map P.shown ++ ⟨Scep.CN, .text c.value.toList⟩ :: c.after.map P.shown) ::
        c.post.map (List.map P.shown) := by
    rw [c.rdns, List.map_append, List.map_cons, List.map_append, List.map_cons,
      P.common_name _ _ c.oid c.text]
  have hothers : ∀ r ∈ c.pre.map (List.map P.shown) ++
      (c.before.map P.shown ++ c.after.map P.shown) :: c.post.map (List.map P.shown),
      ∀ a ∈ r, a.key.text ≠ Scep.CN.text := by
    rw [← List.map_append, ← List.map_cons (f := List.map P.shown), ← List.map_append]
    intro r hr a ha
    obtain ⟨r', hr', hshown_r⟩ := List.mem_map.mp hr
    rw [← hshown_r] at ha
    obtain ⟨a', ha', hshown_a⟩ := List.mem_map.mp ha
    rw [← hshown_a]
    exact P.other a' (c.alone r' hr' a' ha')
  have hiff := @Scep.common_name_dn P.hexed _ _ _ _ c.value.toList hothers
  rw [NamePrinter.print, hshown]
  rwa [String.ofList_toList] at hiff

/-- In a name without commas nothing is taken for a common name: it is reported when it is
alone in its RDN and survives. -/
theorem reported_iff_of_no_commas (c : CommonName P n)
    (h : ∀ r ∈ n.rdns, ∀ a ∈ r, ∀ v, (P.shown a).value = .text v → ',' ∉ v) :
    c.Reported ↔ c.before = [] ∧ c.after = [] ∧ Verbatim P.hexed c.value.toList ∧
      ∀ d ∈ c.value.toList.getLast?, is_whitespace d = false := by
  have hall : ∀ rs : List (List AttributeTypeAndValue), (∀ r ∈ rs, r ∈ n.rdns) →
      Scep.impostor P.hexed (rs.map (List.map P.shown)) = none := by
    intro rs hrs
    refine Scep.impostor_eq_none fun r hr a ha => ?_
    obtain ⟨r', hr', hshown_r⟩ := List.mem_map.mp hr
    rw [← hshown_r] at ha
    obtain ⟨a', ha', hshown_a⟩ := List.mem_map.mp ha
    rw [← hshown_a]
    exact h r' (hrs r' hr') a' ha'
  have hmem : ∀ r ∈ c.pre ++ (c.before ++ c.attr :: c.after) :: c.post, r ∈ n.rdns := by
    intro r hr
    exact List.mem_reverse.mp (c.rdns ▸ hr)
  have hpre := hall c.pre fun r hr => hmem r (List.mem_append_left _ hr)
  have hwhole := hall _ hmem
  rw [List.map_append, List.map_cons, List.map_append, List.map_cons,
    P.common_name _ _ c.oid c.text] at hwhole
  unfold Reported Scep.Reported
  rw [hpre, List.map_eq_nil_iff, List.map_eq_nil_iff]
  constructor
  · rintro (⟨_, hplain⟩ | himpostor)
    · exact hplain
    · split_ifs at himpostor
      · rw [hpre] at himpostor
        cases himpostor
      · rw [hwhole] at himpostor
        cases himpostor
  · exact fun hplain => .inl ⟨rfl, hplain⟩

end CommonName

namespace Scep

variable {X : Crates}

/-- **When the issuer is reported by its name.** -/
theorem issuer_cn_iff (P : NamePrinter) (hprint : ∀ n, X.name_to_string n = P.print n)
    (ca : CertificateAuthority) (issued : Certificate) (issued_der : Bytes)
    {a : AttributeTypeAndValue}
    (hsingle : ca.subject.rdns.flatten.filter AttributeTypeAndValue.is_common_name = [a])
    {cn : String} (hcn : P.text a.value = some cn) :
    ∃ c : CommonName P ca.subject, c.attr = a ∧ c.value = cn ∧
      ((issued_info X ca issued issued_der).issuer_cn = cn ↔ c.Reported) := by
  obtain ⟨c, ha, hvalue⟩ := CommonName.exists_of_single hsingle hcn
  refine ⟨c, ha, hvalue, ?_⟩
  have hinfo : (issued_info X ca issued issued_der).issuer_cn
      = common_name (X.name_to_string ca.subject) := rfl
  rw [hinfo, hprint, ← hvalue, c.common_name_iff]

end Scep

/-! ## On the reference crates -/

namespace Device

open Codec Reference Scep

/-- The arcs of an object identifier, with dots. -/
def dotted (oid : ObjectIdentifier) : Key where
  text := ['.'].intercalate (oid.arcs.map (Nat.toDigits 10))
  chars := by
    intro c hc
    rcases mem_intercalate hc with hc | ⟨l, hl, hc⟩
    · exact .inr (.inr (List.mem_singleton.mp hc))
    · obtain ⟨n, _, rfl⟩ := List.mem_map.mp hl
      have hdigit : c.isDigit = true := Nat.isDigit_of_mem_toDigits (by decide) (by decide) hc
      rw [Char.isAlphanum, hdigit, Bool.or_true]
      exact .inl rfl

/-- The key of an organisation. -/
def O : Key := ⟨['O'], fun _ hc => .inl (List.mem_singleton.mp hc ▸ rfl)⟩

/-- id-at-organizationName -/
def ID_ORGANIZATION_NAME : ObjectIdentifier := ⟨[2, 5, 4, 10]⟩

def text_of (a : Any) : Option String :=
  match a.tag with
  | .Utf8String => a.decode_utf8_string.toOption
  | .PrintableString => a.decode_printable_string.toOption
  | .Ia5String => a.decode_ia5_string.toOption
  | _ => none

/-- Two attributes have names, the others are printed in numbers. -/
def shown (a : AttributeTypeAndValue) : Ava :=
  match text_of a.value with
  | none => ⟨dotted a.oid, .hex (enc a.value)⟩
  | some s =>
      if a.oid = ID_COMMON_NAME then ⟨CN, .text s.toList⟩
      else if a.oid = ID_ORGANIZATION_NAME then ⟨O, .text s.toList⟩
      else ⟨dotted a.oid, .hex (enc a.value)⟩

theorem text_of_utf8 (s : String) : text_of ⟨.Utf8String, s.as_bytes⟩ = some s := by
  rw [text_of, Any.decode_utf8_string, if_pos rfl, from_utf8_as_bytes]
  rfl

/-- The printer of the reference crates. -/
def printer : NamePrinter where
  hexed c := c.toNat < 32 || c.toNat == 127
  text := text_of
  shown := shown
  utf8 := by
    intro a s h
    have htag : a.tag = .Utf8String := by
      by_contra hno
      rw [Any.decode_utf8_string, if_neg hno] at h
      cases h
    rw [text_of, htag, h]
    rfl
  printable := by
    intro a s h
    have htag : a.tag = .PrintableString := by
      by_contra hno
      rw [Any.decode_printable_string, if_neg fun hand => hno hand.1] at h
      cases h
    rw [text_of, htag, h]
    rfl
  ia5 := by
    intro a s h
    have htag : a.tag = .Ia5String := by
      by_contra hno
      rw [Any.decode_ia5_string, if_neg fun hand => hno hand.1] at h
      cases h
    rw [text_of, htag, h]
    rfl
  common_name := by
    intro a s hoid htext
    rw [shown, htext]
    exact if_pos hoid
  other := by
    intro a hoid
    have hdotted : (dotted a.oid).text ≠ CN.text := by
      intro hno
      have hmem : 'C' ∈ (dotted a.oid).text := hno ▸ List.mem_cons_self
      rcases mem_intercalate hmem with hc | ⟨l, hl, hc⟩
      · cases List.mem_singleton.mp hc
      · obtain ⟨n, _, rfl⟩ := List.mem_map.mp hl
        have hdigit : 'C'.isDigit = true := Nat.isDigit_of_mem_toDigits (by decide) (by decide) hc
        cases hdigit
    unfold shown
    split
    · exact hdotted
    · rw [if_neg hoid]
      split_ifs
      · exact fun hno => absurd hno (show O.text ≠ CN.text by decide)
      · exact hdotted

/-- The reference implementation with this printer. -/
def printed_crates : Crates := { crates with name_to_string := printer.print }

/-- An organisation and a common name. -/
def subject_of (o cn : String) : Name :=
  ⟨[[⟨ID_ORGANIZATION_NAME, ⟨.Utf8String, o.as_bytes⟩⟩],
    [⟨ID_COMMON_NAME, ⟨.Utf8String, cn.as_bytes⟩⟩]]⟩

/-- The CA of the device under this name. -/
def ca_of (o cn : String) : CertificateAuthority :=
  CertificateAuthority.new "root"
    { ca_cert with tbs_certificate := { ca_cert.tbs_certificate with subject := subject_of o cn } }
    ca_key

theorem single_of_subject (o cn : String) :
    (ca_of o cn).subject.rdns.flatten.filter AttributeTypeAndValue.is_common_name
      = [⟨ID_COMMON_NAME, ⟨.Utf8String, cn.as_bytes⟩⟩] := rfl

theorem shown_of_subject (o cn : String) {r : List AttributeTypeAndValue}
    (hr : r ∈ (subject_of o cn).rdns) {a : AttributeTypeAndValue} (ha : a ∈ r) {v : List Char}
    (hv : (shown a).value = .text v) : v = o.toList ∨ v = cn.toList := by
  simp only [subject_of, List.mem_cons, List.not_mem_nil, or_false] at hr
  rcases hr with rfl | rfl
  · rw [List.mem_singleton.mp ha, shown, text_of_utf8] at hv
    exact .inl (Value.text.inj hv).symm
  · rw [List.mem_singleton.mp ha, shown, text_of_utf8] at hv
    exact .inr (Value.text.inj hv).symm

/-- There is nothing to escape or to trim in this one. -/
theorem root_ca_plain : Verbatim printer.hexed "Root CA".toList ∧
    ∀ d ∈ "Root CA".toList.getLast?, is_whitespace d = false := by
  have hlist : "Root CA".toList = ['R', 'o', 'o', 't', ' ', 'C', 'A'] := by decide
  rw [hlist]
  refine ⟨⟨fun c hc => ?_, fun c hc => ?_, fun c hc => ?_⟩, fun c hc => ?_⟩
  · simp only [List.mem_cons, List.not_mem_nil, or_false] at hc
    rcases hc with rfl | rfl | rfl | rfl | rfl | rfl | rfl <;> exact ⟨rfl, rfl⟩
  · rw [← Option.some.inj hc]
    decide
  · rw [← Option.some.inj hc]
    decide
  · rw [← Option.some.inj hc]
    decide

end Device

namespace Scep

open Device Reference

/-- The common name of the root CA is reported. -/
theorem device_issuer_reported :
    (issued_info printed_crates (ca_of "Example" "Root CA") ca_cert []).issuer_cn = "Root CA" := by
  have hprint : ∀ n, printed_crates.name_to_string n = printer.print n := fun _ => rfl
  obtain ⟨c, _, hvalue, hiff⟩ := issuer_cn_iff printer hprint (ca_of "Example" "Root CA") ca_cert []
    (single_of_subject "Example" "Root CA") (text_of_utf8 "Root CA")
  have hcommas : ∀ r ∈ (ca_of "Example" "Root CA").subject.rdns, ∀ a ∈ r, ∀ v,
      (printer.shown a).value = .text v → ',' ∉ v := by
    intro r hr a ha v hv
    rcases shown_of_subject _ _ hr ha hv with rfl | rfl <;> decide
  have hown : c.before ++ c.attr :: c.after ∈ (ca_of "Example" "Root CA").subject.rdns := by
    rw [← List.mem_reverse, c.rdns]
    exact List.mem_append_right _ List.mem_cons_self
  have hlength : (c.before ++ c.attr :: c.after).length = 1 := by
    simp only [ca_of, CertificateAuthority.new, CertificateAuthority.subject, subject_of,
      List.mem_cons, List.not_mem_nil, or_false] at hown
    rcases hown with hown | hown <;> rw [hown] <;> rfl
  rw [List.length_append, List.length_cons] at hlength
  refine hiff.mpr ((c.reported_iff_of_no_commas hcommas).mpr ⟨?_, ?_, ?_, ?_⟩)
  · exact List.length_eq_zero_iff.mp (by omega)
  · exact List.length_eq_zero_iff.mp (by omega)
  · rw [hvalue]
    exact root_ca_plain.1
  · rw [hvalue]
    exact root_ca_plain.2

/-- A common name with a comma is reported up to its backslash. -/
theorem device_issuer_cut : ¬ ∀ (ca : CertificateAuthority) issued issued_der a cn,
    ca.subject.rdns.flatten.filter AttributeTypeAndValue.is_common_name = [a] →
    printer.text a.value = some cn →
    (issued_info printed_crates ca issued issued_der).issuer_cn = cn := by
  intro hclaim
  have hcn := hclaim (ca_of "Example" "Acme, Inc. Root CA") ca_cert [] _ "Acme, Inc. Root CA"
    (single_of_subject "Example" "Acme, Inc. Root CA") (text_of_utf8 "Acme, Inc. Root CA")
  have hcut : (issued_info printed_crates (ca_of "Example" "Acme, Inc. Root CA") ca_cert
      []).issuer_cn = "Acme\\" := by
    decide +kernel
  rw [hcut] at hcn
  exact absurd hcn (by decide)

end Scep

end Blapki
