/-
Percent-encoding (RFC 3986): how a path is decoded, and how it may be written.

Decoding is lenient, as the crate `percent-encoding` has it: a `%` that begins no
escape stands for itself. So a path is left as it is exactly when it has no escape
(`percent_decode_eq_self`). The path of a URL need not reach a server octet by octet:
a client escapes what a request line cannot hold and may escape more. `Sent` lists
what it may write for a path; all of it has the same decoding (`Sent.percent_decode_eq`)
and the same slashes (`Sent.mem_slash`).
-/
import Blapki.Octets
import Mathlib.Tactic.Common
import Mathlib.Data.List.Basic

set_option autoImplicit false

namespace Blapki

namespace percent

/-! ## Decoding -/

/-- The value of an octet as a hexadecimal digit. -/
def digit_value (b : UInt8) : Option Nat := hex.val (Char.ofNat b.toNat)

/-- The octet of two digits. -/
def octet_of (x y : UInt8) : Option UInt8 := do
  let hi ← digit_value x
  let lo ← digit_value y
  pure (UInt8.ofNat (16 * hi + lo))

/-- `percent_decode`. -/
def percent_decode : Bytes → Bytes
  | b :: x :: y :: rest =>
      if b = 0x25 then
        match octet_of x y with
        | some o => o :: percent_decode rest
        | none => b :: percent_decode (x :: y :: rest)
      else b :: percent_decode (x :: y :: rest)
  | short => short

/-- What follows a `%` begins with two digits. -/
def Digits (u : Bytes) : Prop := ∃ x y rest o, u = x :: y :: rest ∧ octet_of x y = some o

/-- There is an escape somewhere. -/
def Escaped (u : Bytes) : Prop := ∃ pre rest, u = pre ++ 0x25 :: rest ∧ Digits rest

theorem percent_decode_of_ne {b : UInt8} (h : b ≠ 0x25) (rest : Bytes) :
    percent_decode (b :: rest) = b :: percent_decode rest := by
  match rest with
  | [] => rfl
  | [_] => rfl
  | _ :: _ :: _ => rw [percent_decode, if_neg h]

theorem percent_decode_escape {x y o : UInt8} (h : octet_of x y = some o) (rest : Bytes) :
    percent_decode (0x25 :: x :: y :: rest) = o :: percent_decode rest := by
  rw [percent_decode, if_pos rfl, h]

theorem percent_decode_of_not_digits {rest : Bytes} (h : ¬ Digits rest) :
    percent_decode (0x25 :: rest) = 0x25 :: percent_decode rest := by
  match rest with
  | [] => rfl
  | [_] => rfl
  | x :: y :: rest =>
      have hnone : octet_of x y = none := by
        by_contra hsome
        obtain ⟨o, ho⟩ := Option.ne_none_iff_exists'.mp hsome
        exact h ⟨x, y, rest, o, rfl, ho⟩
      rw [percent_decode, if_pos rfl, hnone]

theorem length_percent_decode (u : Bytes) : (percent_decode u).length ≤ u.length := by
  fun_induction percent_decode u with
  | case4 => exact le_refl _
  | _ =>
      simp only [List.length_cons] at *
      omega

theorem escaped_cons (b : UInt8) (u : Bytes) :
    Escaped (b :: u) ↔ (b = 0x25 ∧ Digits u) ∨ Escaped u := by
  constructor
  · rintro ⟨_ | ⟨c, pre⟩, rest, heq, hdigits⟩
    · rw [List.nil_append, List.cons.injEq] at heq
      exact .inl ⟨heq.1, heq.2 ▸ hdigits⟩
    · rw [List.cons_append, List.cons.injEq] at heq
      exact .inr ⟨pre, rest, heq.2, hdigits⟩
  · rintro (⟨rfl, hdigits⟩ | ⟨pre, rest, rfl, hdigits⟩)
    · exact ⟨[], u, rfl, hdigits⟩
    · exact ⟨b :: pre, rest, rfl, hdigits⟩

/-- An escape has three octets. -/
theorem length_of_escaped {u : Bytes} (h : Escaped u) : 3 ≤ u.length := by
  obtain ⟨pre, _, rfl, x, y, rest, o, rfl, _⟩ := h
  simp only [List.length_append, List.length_cons]
  omega

/-- Decoding shortens what has an escape. -/
theorem length_percent_decode_lt {u : Bytes} (h : Escaped u) :
    (percent_decode u).length < u.length := by
  fun_induction percent_decode u with
  -- three octets become one here; elsewhere the escape is in the rest
  | case1 x y rest o _ _ =>
      have hle := length_percent_decode rest
      simp only [List.length_cons]
      omega
  | case2 x y rest hnone ih =>
      rw [escaped_cons] at h
      rcases h with ⟨_, x', y', rest', o, heq, ho⟩ | h
      · cases heq
        rw [hnone] at ho
        cases ho
      · exact Nat.succ_lt_succ (ih h)
  | case3 b x y rest hb ih =>
      rw [escaped_cons] at h
      exact Nat.succ_lt_succ (ih (h.resolve_left fun hno => hb hno.1))
  | case4 u hshort =>
      have hlen := length_of_escaped h
      match u with
      | [] | [_] | [_, _] => simp at hlen
      | b :: x :: y :: rest => exact absurd rfl (hshort b x y rest)

/-- Decoding leaves what has no escape as it is, and nothing else. -/
theorem percent_decode_eq_self {u : Bytes} : percent_decode u = u ↔ ¬ Escaped u := by
  constructor
  · intro heq hescaped
    have hlt := length_percent_decode_lt hescaped
    rw [heq] at hlt
    exact lt_irrefl _ hlt
  · intro h
    induction u with
    | nil => rfl
    | cons b u ih =>
        rw [escaped_cons, not_or] at h
        -- without an escape every octet stands for itself, a lone percent sign too
        by_cases hb : b = 0x25
        · rw [hb, percent_decode_of_not_digits fun hdigits => h.1 ⟨hb, hdigits⟩, ih h.2]
        · rw [percent_decode_of_ne hb, ih h.2]

/-! ## Request lines -/

/-- Letters, digits and `-._~`: an escape of these would say the same. -/
def is_unreserved (b : UInt8) : Bool :=
  let n := b.toNat
  (48 ≤ n && n ≤ 57) || (65 ≤ n && n ≤ 90) || (97 ≤ n && n ≤ 122) ||
    n == 45 || n == 46 || n == 95 || n == 126

/-- What a URI may hold: the unreserved, the reserved and `%`. -/
def is_uri_octet (b : UInt8) : Bool :=
  let n := b.toNat
  n == 33 || (35 ≤ n && n ≤ 59) || n == 61 || (63 ≤ n && n ≤ 91) || n == 93 || n == 95 ||
    (97 ≤ n && n ≤ 122) || n == 126

/-- An octet of a path that an escape may stand for: what need not be escaped is not, a
slash separates, and a `%` before two digits is an escape already. -/
structure Escapable (b : UInt8) (rest : Bytes) : Prop where
  reserved : is_unreserved b = false
  slash : b ≠ 0x2f
  no_escape : b = 0x25 → ¬ Digits rest

/-- What a client may write for a path. -/
inductive Sent : Bytes → Bytes → Prop
  | nil : Sent [] []
  | plain {b : UInt8} {u t : Bytes} : is_uri_octet b = true → Sent u t → Sent (b :: u) (b :: t)
  | escape {b x y : UInt8} {u t : Bytes} : Escapable b u → octet_of x y = some b → Sent u t →
      Sent (b :: u) (0x25 :: x :: y :: t)

/-- A digit is not escaped. -/
theorem unreserved_of_digit {b : UInt8} {v : Nat} (h : digit_value b = some v) :
    is_unreserved b = true := by
  have hall : ∀ n < 256, (digit_value (UInt8.ofNat n)).isSome = true →
      is_unreserved (UInt8.ofNat n) = true := by
    decide +kernel
  have hb := hall b.toNat b.toNat_lt
  rw [UInt8.ofNat_toNat] at hb
  exact hb (h ▸ rfl)

theorem digits_of_octet {x y o : UInt8} (h : octet_of x y = some o) :
    (∃ v, digit_value x = some v) ∧ ∃ v, digit_value y = some v := by
  unfold octet_of at h
  cases hx : digit_value x with
  | none =>
      rw [hx] at h
      cases h
  | some hi =>
      cases hy : digit_value y with
      | none =>
          rw [hx, hy] at h
          cases h
      | some lo => exact ⟨⟨hi, rfl⟩, lo, rfl⟩

theorem ne_of_digit {b c : UInt8} {v : Nat} (hb : digit_value b = some v)
    (hc : digit_value c = none) : b ≠ c := by
  rintro rfl
  rw [hb] at hc
  cases hc

namespace Sent

variable {b : UInt8} {u t : Bytes}

/-- What is not to be escaped is written as it is. -/
theorem of_kept (h : Sent (b :: u) t) (hb : is_unreserved b = true ∨ b = 0x2f) :
    ∃ t', t = b :: t' ∧ Sent u t' := by
  cases h with
  | plain _ h => exact ⟨_, rfl, h⟩
  | escape hescapable _ _ =>
      rcases hb with hb | hb
      · rw [hescapable.reserved] at hb
        cases hb
      · exact absurd hb hescapable.slash

theorem of_kept_append {p : Bytes} (h : Sent (p ++ u) t)
    (hp : ∀ b ∈ p, is_unreserved b = true ∨ b = 0x2f) : ∃ t', t = p ++ t' ∧ Sent u t' := by
  induction p generalizing t with
  | nil => exact ⟨t, rfl, h⟩
  | cons b p ih =>
      rw [List.forall_mem_cons] at hp
      obtain ⟨t₁, rfl, h₁⟩ := h.of_kept hp.1
      obtain ⟨t', rfl, h'⟩ := ih h₁ hp.2
      exact ⟨t', rfl, h'⟩

/-- A digit that is written is one of the path. -/
theorem of_digit {v : Nat} (h : Sent u (b :: t)) (hb : digit_value b = some v) :
    ∃ u', u = b :: u' ∧ Sent u' t := by
  cases h with
  | plain _ h => exact ⟨_, rfl, h⟩
  | escape _ _ _ => cases hb

/-- A client makes no escape that was none. -/
theorem digits (h : Sent u t) (hdigits : Digits t) :
    ∃ x y u' t' o, u = x :: y :: u' ∧ t = x :: y :: t' ∧ octet_of x y = some o ∧ Sent u' t' := by
  obtain ⟨x, y, t', o, rfl, ho⟩ := hdigits
  obtain ⟨⟨_, hx⟩, _, hy⟩ := digits_of_octet ho
  obtain ⟨u₁, rfl, h₁⟩ := h.of_digit hx
  obtain ⟨u', rfl, h'⟩ := h₁.of_digit hy
  exact ⟨x, y, u', t', o, rfl, rfl, ho, h'⟩

/-- A client keeps the escapes there are. -/
theorem digits_sent (h : Sent u t) (hdigits : Digits u) : Digits t := by
  obtain ⟨x, y, u', o, rfl, ho⟩ := hdigits
  obtain ⟨⟨_, hx⟩, _, hy⟩ := digits_of_octet ho
  obtain ⟨t₁, rfl, h₁⟩ := h.of_kept (.inl (unreserved_of_digit hx))
  obtain ⟨t', rfl, _⟩ := h₁.of_kept (.inl (unreserved_of_digit hy))
  exact ⟨x, y, t', o, rfl, ho⟩

/-- **However a path is written, it is decoded alike.** -/
theorem percent_decode_eq (h : Sent u t) : percent_decode t = percent_decode u := by
  induction h with
  | nil => rfl
  | @plain b u t _ h ih =>
      by_cases hb : b = 0x25
      · subst hb
        -- the percent sign was sent as it is: then the two digits after it were as well
        by_cases hdigits : Digits t
        · obtain ⟨x, y, u', t', o, rfl, rfl, ho, _⟩ := h.digits hdigits
          obtain ⟨⟨_, hx⟩, _, hy⟩ := digits_of_octet ho
          have hx_ne := ne_of_digit hx (show digit_value 0x25 = none from rfl)
          have hy_ne := ne_of_digit hy (show digit_value 0x25 = none from rfl)
          rw [percent_decode_of_ne hx_ne, percent_decode_of_ne hy_ne, percent_decode_of_ne hx_ne,
            percent_decode_of_ne hy_ne] at ih
          have hrest := (List.cons.inj (List.cons.inj ih).2).2
          rw [percent_decode_escape ho, percent_decode_escape ho, hrest]
        · rw [percent_decode_of_not_digits hdigits,
            percent_decode_of_not_digits fun hu => hdigits (h.digits_sent hu), ih]
      · rw [percent_decode_of_ne hb, percent_decode_of_ne hb, ih]
  | @escape b x y u t hescapable ho _ ih =>
      rw [percent_decode_escape ho, ih]
      by_cases hb : b = 0x25
      · subst hb
        rw [percent_decode_of_not_digits (hescapable.no_escape rfl)]
      · rw [percent_decode_of_ne hb]

/-- Slashes are neither made nor lost. -/
theorem mem_slash (h : Sent u t) : (0x2f : UInt8) ∈ t ↔ (0x2f : UInt8) ∈ u := by
  induction h with
  | nil => exact Iff.rfl
  | plain _ _ ih => rw [List.mem_cons, List.mem_cons, ih]
  | @escape b x y u t hescapable ho _ ih =>
      obtain ⟨⟨_, hx⟩, _, hy⟩ := digits_of_octet ho
      have hx_ne := (ne_of_digit hx (show digit_value 0x2f = none from rfl)).symm
      have hy_ne := (ne_of_digit hy (show digit_value 0x2f = none from rfl)).symm
      have hpercent : (0x2f : UInt8) ≠ 0x25 := by decide
      simp only [List.mem_cons, hpercent, hx_ne, hy_ne, hescapable.slash.symm, false_or, ih]

theorem eq_nil (h : Sent u t) : t = [] ↔ u = [] := by
  cases h <;> simp

end Sent

/-- Every nibble has a digit. -/
theorem exists_digit {n : Nat} (h : n < 16) : ∃ x, digit_value x = some n := by
  have hall : ∀ n : Fin 16,
      digit_value (UInt8.ofNat (if n.val < 10 then 48 + n.val else 55 + n.val)) = some n.val := by
    decide
  exact ⟨_, hall ⟨n, h⟩⟩

/-- Every octet has an escape. -/
theorem exists_octet_of (b : UInt8) : ∃ x y, octet_of x y = some b := by
  have hlt := b.toNat_lt
  obtain ⟨x, hx⟩ := exists_digit (show b.toNat / 16 < 16 by omega)
  obtain ⟨y, hy⟩ := exists_digit (show b.toNat % 16 < 16 by omega)
  refine ⟨x, y, ?_⟩
  have hsum : 16 * (b.toNat / 16) + b.toNat % 16 = b.toNat := Nat.div_add_mod _ _
  rw [octet_of, hx, hy]
  show some (UInt8.ofNat (16 * (b.toNat / 16) + b.toNat % 16)) = some b
  rw [hsum, UInt8.ofNat_toNat]

/-- Every path can be sent, since every octet has an escape. -/
theorem exists_sent (u : Bytes) : ∃ t, Sent u t := by
  induction u with
  | nil => exact ⟨[], .nil⟩
  | cons b u ih =>
      obtain ⟨t, ht⟩ := ih
      -- what may stand in a URI is sent as it is, everything else is escaped
      by_cases hb : is_uri_octet b = true
      · exact ⟨b :: t, .plain hb ht⟩
      · obtain ⟨x, y, hxy⟩ := exists_octet_of b
        refine ⟨0x25 :: x :: y :: t, .escape ⟨?_, ?_, ?_⟩ hxy ht⟩
        · by_contra hunreserved
          apply hb
          simp only [is_unreserved, is_uri_octet, Bool.not_eq_false, Bool.or_eq_true,
            Bool.and_eq_true, decide_eq_true_eq, beq_iff_eq] at hunreserved ⊢
          omega
        · rintro rfl
          exact hb rfl
        · rintro rfl
          exact absurd rfl hb

end percent

end Blapki
