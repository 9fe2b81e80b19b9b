/-
The text of a distinguished name (RFC 4514).

The RDNs are joined by `,` and the attributes of one by `+`; a value is escaped where it
would be read otherwise. Which characters a printer writes as escaped octets beyond that
is its own choice (`hexed`). A splitter that knows of no escapes cuts such a text at every
comma: `splitOn_dn` says into what.
-/
import Blapki.Octets
import Mathlib.Tactic.Common
import Mathlib.Data.List.TakeWhile

set_option autoImplicit false

namespace Blapki

namespace Rfc4514

variable (hexed : Char → Bool)

/-! ## Values -/

/-- The quotation mark, `+`, `,`, `;`, `<`, `>` and the backslash. -/
def is_special (c : Char) : Bool :=
  let n := c.toNat
  n == 34 || n == 43 || n == 44 || n == 59 || n == 60 || n == 62 || n == 92

/-- The octets of a character, each behind a backslash. -/
def octets (c : Char) : List Char :=
  (String.singleton c).as_bytes.flatMap fun b =>
    ['\\', hex.digit (b.toNat / 16), hex.digit (b.toNat % 16)]

/-- A special character, a space or `#` in front, or a space at the end. -/
def is_escaped (first last : Bool) (c : Char) : Bool :=
  is_special c || (first && (c == ' ' || c == '#')) || (last && c == ' ')

/-- What is written for a character. -/
def piece (first last : Bool) (c : Char) : List Char :=
  if is_escaped first last c then ['\\', c] else if hexed c then octets c else [c]

def escape_from (first : Bool) : List Char → List Char
  | [] => []
  | c :: cs => piece hexed first cs.isEmpty c ++ escape_from false cs

/-- A value as it is printed. -/
def escape (v : List Char) : List Char := escape_from hexed true v

/-- There is nothing to escape in the value. -/
structure Verbatim (v : List Char) : Prop where
  plain : ∀ c ∈ v, is_special c = false ∧ hexed c = false
  first : ∀ c ∈ v.head?, c ≠ ' ' ∧ c ≠ '#'
  last : ∀ c ∈ v.getLast?, c ≠ ' '

variable {hexed}

theorem as_bytes_singleton_ne_nil (c : Char) : (String.singleton c).as_bytes ≠ [] := by
  intro hno
  have hempty : (String.singleton c).as_bytes = "".as_bytes := hno
  rw [String.as_bytes_inj] at hempty
  have hlist := congrArg String.toList hempty
  simp at hlist

theorem length_octets (c : Char) : 3 ≤ (octets c).length := by
  obtain ⟨b, bs, hbytes⟩ := List.exists_cons_of_ne_nil (as_bytes_singleton_ne_nil c)
  rw [octets, hbytes, List.flatMap_cons, List.length_append]
  simp only [List.length_cons, List.length_nil]
  omega

variable (hexed) in
/-- A character stands for itself just when it is not escaped. -/
theorem length_piece (first last : Bool) (c : Char) :
    1 ≤ (piece hexed first last c).length ∧
      ((piece hexed first last c).length = 1 →
        piece hexed first last c = [c] ∧ is_escaped first last c = false ∧ hexed c = false) := by
  have hoctets := length_octets c
  unfold piece
  split_ifs with hescaped hhexed
  · simp
  · constructor
    · omega
    · omega
  · simp only [Bool.not_eq_true] at hescaped hhexed
    exact ⟨le_refl _, fun _ => ⟨rfl, hescaped, hhexed⟩⟩

variable (hexed) in
theorem length_escape_from (first : Bool) (v : List Char) :
    v.length ≤ (escape_from hexed first v).length := by
  induction v generalizing first with
  | nil => exact le_refl _
  | cons c cs ih =>
      have hpiece := (length_piece hexed first cs.isEmpty c).1
      have hrest := ih false
      rw [escape_from, List.length_append, List.length_cons]
      omega

/-- What does not call for a backslash. -/
theorem is_escaped_eq_false (first last : Bool) (c : Char) : is_escaped first last c = false ↔
    is_special c = false ∧ (first = true → c ≠ ' ' ∧ c ≠ '#') ∧ (last = true → c ≠ ' ') := by
  unfold is_escaped
  cases first <;> cases last <;> simp [and_assoc]

/-- A value is printed as it is just when there is nothing to escape. -/
theorem escape_from_eq_self {first : Bool} {v : List Char} : escape_from hexed first v = v ↔
    (∀ c ∈ v, is_special c = false ∧ hexed c = false) ∧
      (first = true → ∀ c ∈ v.head?, c ≠ ' ' ∧ c ≠ '#') ∧ ∀ c ∈ v.getLast?, c ≠ ' ' := by
  induction v generalizing first with
  | nil => simp [escape_from]
  | cons c cs ih =>
      have hlast : (∀ d ∈ (c :: cs).getLast?, d ≠ ' ') ↔
          (cs.isEmpty = true → c ≠ ' ') ∧ ∀ d ∈ cs.getLast?, d ≠ ' ' := by
        cases cs <;> simp
      have hunescaped := is_escaped_eq_false first cs.isEmpty c
      rw [hlast, List.forall_mem_cons, escape_from]
      constructor
      · intro heq
        -- the rest is as long as it was, and so the character stands for itself
        have hpiece := length_piece hexed first cs.isEmpty c
        have hrest := length_escape_from hexed false cs
        have hlength := congrArg List.length heq
        rw [List.length_append, List.length_cons] at hlength
        obtain ⟨hself, hescaped, hhexed⟩ := hpiece.2 (by omega)
        rw [hself, List.singleton_append, List.cons.injEq] at heq
        obtain ⟨hplain, _, hends⟩ := ih.mp heq.2
        obtain ⟨hspecial, hfirst, hfinal⟩ := hunescaped.mp hescaped
        refine ⟨⟨⟨hspecial, hhexed⟩, hplain⟩, fun h d hd => ?_, hfinal, hends⟩
        obtain rfl := Option.some.inj hd
        exact hfirst h
      · rintro ⟨⟨⟨hspecial, hhexed⟩, hplain⟩, hfirst, hfinal, hends⟩
        have hescaped := hunescaped.mpr ⟨hspecial, fun h => hfirst h c rfl, hfinal⟩
        have hrest : escape_from hexed false cs = cs :=
          ih.mpr ⟨hplain, fun hno => absurd hno Bool.false_ne_true, hends⟩
        rw [piece, hescaped, hhexed, hrest]
        rfl

theorem escape_eq_self {v : List Char} : escape hexed v = v ↔ Verbatim hexed v := by
  rw [escape, escape_from_eq_self]
  exact ⟨fun ⟨hplain, hfirst, hlast⟩ => ⟨hplain, hfirst rfl, hlast⟩,
    fun h => ⟨h.plain, fun _ => h.first, h.last⟩⟩

/-- A digit is a character of its own. -/
theorem digit_plain {n : Nat} (h : n < 16) :
    hex.digit n ≠ ',' ∧ 48 ≤ (hex.digit n).toNat ∧ (hex.digit n).toNat ≤ 102 := by
  have hall : ∀ n < 16, hex.digit n ≠ ',' ∧ 48 ≤ (hex.digit n).toNat ∧
      (hex.digit n).toNat ≤ 102 := by
    decide
  exact hall n h

theorem mem_digits {c : Char} {b : Bytes} (h : c ∈ hex.digits hex.digit b) :
    ∃ n < 16, c = hex.digit n := by
  induction b with
  | nil => exact absurd h List.not_mem_nil
  | cons x b ih =>
      have hlt := x.toNat_lt
      rw [hex.digits, List.mem_cons, List.mem_cons] at h
      rcases h with h | h | h
      · exact ⟨x.toNat / 16, by omega, h⟩
      · exact ⟨x.toNat % 16, by omega, h⟩
      · exact ih h

theorem mem_octets {c d : Char} (h : d ∈ octets c) : d = '\\' ∨ ∃ n < 16, d = hex.digit n := by
  obtain ⟨b, _, hd⟩ := List.mem_flatMap.mp h
  have hlt := b.toNat_lt
  simp only [List.mem_cons, List.not_mem_nil, or_false] at hd
  rcases hd with hd | hd | hd
  · exact .inl hd
  · exact .inr ⟨b.toNat / 16, by omega, hd⟩
  · exact .inr ⟨b.toNat % 16, by omega, hd⟩

/-- Printing makes no comma. -/
theorem comma_of_escape_from {first : Bool} {v : List Char}
    (h : ',' ∈ escape_from hexed first v) : ',' ∈ v := by
  induction v generalizing first with
  | nil => exact h
  | cons c cs ih =>
      rw [escape_from, List.mem_append] at h
      rcases h with h | h
      · unfold piece at h
        -- a character is escaped, written in hexadecimal or kept
        split_ifs at h
        · rw [List.mem_cons, List.mem_singleton] at h
          exact List.mem_cons.mpr (.inl (h.resolve_left (by decide)))
        · rcases mem_octets h with hno | ⟨n, hn, hno⟩
          · cases hno
          · exact absurd hno.symm (digit_plain hn).1
        · exact List.mem_cons.mpr (.inl (List.mem_singleton.mp h))
      · exact List.mem_cons_of_mem c (ih h)

theorem getLast_octets {c d : Char} (h : (octets c).getLast? = some d) :
    ∃ n < 16, d = hex.digit n := by
  obtain ⟨bs, b, hbytes⟩ := (List.eq_nil_or_concat _).resolve_left (as_bytes_singleton_ne_nil c)
  have hlt := b.toNat_lt
  rw [octets, hbytes, List.concat_eq_append, List.flatMap_append, List.flatMap_singleton,
    List.getLast?_append] at h
  exact ⟨b.toNat % 16, by omega, (Option.some.inj h).symm⟩

/-- A printed value ends as the value does, or in a digit. -/
theorem getLast_escape_from {first : Bool} {v : List Char} {d : Char}
    (h : (escape_from hexed first v).getLast? = some d) :
    v.getLast? = some d ∨ ∃ n < 16, d = hex.digit n := by
  induction v generalizing first with
  | nil => exact .inl h
  | cons c cs ih =>
      rw [escape_from] at h
      -- the last piece is that of the last character
      by_cases hcs : cs = []
      · rw [hcs, escape_from, List.append_nil, piece] at h
        rw [hcs]
        split_ifs at h
        · exact .inl h
        · exact .inr (getLast_octets h)
        · exact .inl h
      · have hlength := length_escape_from hexed false cs
        have hne : escape_from hexed false cs ≠ [] := by
          intro hno
          rw [hno] at hlength
          exact hcs (List.length_eq_zero_iff.mp (Nat.le_zero.mp hlength))
        rw [List.getLast?_append_of_ne_nil _ hne] at h
        rw [List.getLast?_cons_of_ne_nil hcs]
        exact ih h

/-! ## Names -/

variable (hexed)

/-- The type of an attribute, a short name or a dotted number. -/
structure Key where
  text : List Char
  chars : ∀ c ∈ text, c.isAlphanum = true ∨ c = '-' ∨ c = '.'

/-- A value is printed as a text or, when it is none, in hexadecimal. -/
inductive Value where
  | text (v : List Char)
  | hex (der : Bytes)
deriving DecidableEq

/-- What is printed of an attribute. -/
structure Ava where
  key : Key
  value : Value

def print_value : Value → List Char
  | .text v => escape hexed v
  | .hex der => '#' :: hex.digits hex.digit der

def print_ava (a : Ava) : List Char := a.key.text ++ '=' :: print_value hexed a.value

def print_rdn (r : List Ava) : List Char := ['+'].intercalate (r.map (print_ava hexed))

def print_dn (rs : List (List Ava)) : List Char := [','].intercalate (rs.map (print_rdn hexed))

variable {hexed}

/-- A split of joined texts splits each of them. -/
theorem splitOn_intercalate {α : Type} [BEq α] [ReflBEq α] (sep : α) {ls : List (List α)}
    (h : ls ≠ []) : ([sep].intercalate ls).splitOn sep = ls.flatMap fun l => l.splitOn sep := by
  induction ls with
  | nil => exact absurd rfl h
  | cons l ls ih =>
      by_cases hls : ls = []
      · rw [hls, List.intercalate_singleton, List.flatMap_singleton]
      · rw [List.intercalate_cons_of_ne_nil hls, List.append_assoc, List.singleton_append,
          List.splitOn_append_cons_self, ih hls, List.flatMap_cons]

/-- What a splitter at commas makes of a name. -/
theorem splitOn_dn {rs : List (List Ava)} (h : rs ≠ []) :
    (print_dn hexed rs).splitOn ',' = rs.flatMap fun r => (print_rdn hexed r).splitOn ',' := by
  have hne : rs.map (print_rdn hexed) ≠ [] := fun hno => h (List.map_eq_nil_iff.mp hno)
  rw [print_dn, splitOn_intercalate ',' hne, List.flatMap_map]

theorem not_separator_of_not_mem {α : Type} [BEq α] [LawfulBEq α] {sep : α} {l : List α}
    (h : sep ∉ l) : ∀ c ∈ l, (!(c == sep)) = true := by
  intro c hc
  have hne : c ≠ sep := fun hno => h (hno ▸ hc)
  simpa using hne

/-- The first part of a split is what precedes the first separator. -/
theorem splitOn_eq_cons {α : Type} [BEq α] [LawfulBEq α] (sep : α) (l : List α) :
    l.splitOn sep = l.takeWhile (fun c => !(c == sep)) :: (l.splitOn sep).tail := by
  by_cases h : sep ∈ l
  · obtain ⟨a, b, hl, ha⟩ := List.eq_append_cons_of_mem h
    rw [hl, List.splitOn_append_cons_self_of_not_mem ha,
      List.takeWhile_append_of_pos (not_separator_of_not_mem ha),
      List.takeWhile_cons_of_neg (by simp), List.append_nil, List.tail_cons]
  · rw [List.splitOn_eq_singleton h,
      List.takeWhile_eq_self_iff.mpr (not_separator_of_not_mem h), List.tail_cons]

/-- What is joined is in the join. -/
theorem infix_intercalate {α : Type} {sep l : List α} {ls : List (List α)} (h : l ∈ ls) :
    l <:+: sep.intercalate ls := by
  induction ls with
  | nil => exact absurd h List.not_mem_nil
  | cons l' ls ih =>
      by_cases hls : ls = []
      · rw [hls, List.mem_singleton] at h
        rw [hls, List.intercalate_singleton]
        exact h ▸ List.infix_refl _
      · rw [List.intercalate_cons_of_ne_nil hls, List.append_assoc]
        rcases List.mem_cons.mp h with rfl | h
        · exact (List.prefix_append l _).isInfix
        · exact (ih h).trans ((List.suffix_append sep _).isInfix.trans
            (List.suffix_append l' _).isInfix)

/-- An attribute is in the text of its name. -/
theorem infix_dn {rs : List (List Ava)} {r : List Ava} {a : Ava} (hr : r ∈ rs) (ha : a ∈ r) :
    print_ava hexed a <:+: print_dn hexed rs :=
  (infix_intercalate (List.mem_map_of_mem ha)).trans (infix_intercalate (List.mem_map_of_mem hr))

/-- The text of an RDN begins with its first attribute. -/
theorem print_rdn_cons (a : Ava) (r : List Ava) : print_rdn hexed (a :: r)
    = a.key.text ++ '=' :: (print_value hexed a.value
        ++ if r = [] then [] else '+' :: print_rdn hexed r) := by
  by_cases hr : r = []
  · rw [if_pos hr, hr, print_rdn, List.map_singleton, List.intercalate_singleton, print_ava,
      List.append_nil]
  · have hne : r.map (print_ava hexed) ≠ [] := fun hno => hr (List.map_eq_nil_iff.mp hno)
    rw [if_neg hr, print_rdn, List.map_cons, List.intercalate_cons_of_ne_nil hne, print_ava,
      print_rdn]
    simp only [List.append_assoc, List.cons_append, List.nil_append]

/-- A key has none of the characters that delimit. -/
theorem Key.delimiter (k : Key) : ',' ∉ k.text ∧ '=' ∉ k.text := by
  constructor <;> intro hmem <;> rcases k.chars _ hmem with h | h | h <;> revert h <;> decide

theorem mem_intercalate {α : Type} {sep : List α} {ls : List (List α)} {c : α}
    (h : c ∈ sep.intercalate ls) : c ∈ sep ∨ ∃ l ∈ ls, c ∈ l := by
  induction ls with
  | nil => exact absurd h List.not_mem_nil
  | cons l ls ih =>
      by_cases hls : ls = []
      · rw [hls, List.intercalate_singleton] at h
        exact .inr ⟨l, List.mem_cons_self, h⟩
      · rw [List.intercalate_cons_of_ne_nil hls, List.mem_append, List.mem_append] at h
        rcases h with (h | h) | h
        · exact .inr ⟨l, List.mem_cons_self, h⟩
        · exact .inl h
        · rcases ih h with h | ⟨l', hl', h⟩
          · exact .inl h
          · exact .inr ⟨l', List.mem_cons_of_mem l hl', h⟩

/-- A comma in the text of an RDN is one of a value. -/
theorem comma_of_print_rdn {r : List Ava} (h : ',' ∈ print_rdn hexed r) :
    ∃ a ∈ r, ∃ v, a.value = .text v ∧ ',' ∈ v := by
  rcases mem_intercalate h with hno | ⟨l, hl, hmem⟩
  · exact absurd hno (by decide)
  · obtain ⟨a, ha, rfl⟩ := List.mem_map.mp hl
    rw [print_ava, List.mem_append, List.mem_cons] at hmem
    -- not in the key, not the equals sign, so in the value
    rcases hmem with hno | hno | hmem
    · exact absurd hno a.key.delimiter.1
    · cases hno
    · refine ⟨a, ha, ?_⟩
      cases hvalue : a.value with
      | text v =>
          rw [hvalue] at hmem
          exact ⟨v, rfl, comma_of_escape_from hmem⟩
      | hex der =>
          rw [hvalue, print_value, List.mem_cons] at hmem
          rcases hmem with hno | hmem
          · cases hno
          · obtain ⟨n, hn, hno⟩ := mem_digits hmem
            exact absurd hno.symm (digit_plain hn).1

end Rfc4514

end Blapki
