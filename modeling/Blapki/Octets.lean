/-
Octet strings and their two text forms, hexadecimal and base64.

`hex` and `base64` follow the encoders of that name: lower-case hex on output
and either case on input; base64 in the standard alphabet with canonical padding
on both sides. Decoding undoes encoding, and equal hex texts are equal octets, which
a store keyed by hex text rests on.
-/
import Mathlib.Data.List.Basic
import Mathlib.Tactic.IntervalCases

set_option autoImplicit false

/-- A string of octets. -/
abbrev Bytes : Type := List UInt8

/-- The UTF-8 octets of a string. -/
def String.as_bytes (s : String) : Bytes := s.toByteArray.data.toList

/-- The string of which these are the UTF-8 octets, if there is one. -/
def from_utf8 (b : Bytes) : Option String := String.fromUTF8? ⟨b.toArray⟩

theorem String.as_bytes_inj {s t : String} : s.as_bytes = t.as_bytes ↔ s = t := by
  constructor
  · intro h
    have hdata : s.toByteArray.data = t.toByteArray.data := Array.toList_inj.mp h
    exact String.toByteArray_inj.mp (ByteArray.ext hdata)
  · rintro rfl
    rfl

/-- Reading the UTF-8 octets of a string gives the string. -/
@[simp] theorem from_utf8_as_bytes (s : String) : from_utf8 s.as_bytes = some s := by
  have hbytes : (⟨s.as_bytes.toArray⟩ : ByteArray) = s.toByteArray := by
    simp only [String.as_bytes, Array.toArray_toList]
  rw [from_utf8, hbytes]
  unfold String.fromUTF8?
  rw [dif_pos s.isValidUTF8]
  rfl

theorem from_utf8_eq_some {b : Bytes} {s : String} : from_utf8 b = some s ↔ b = s.as_bytes := by
  constructor
  · intro h
    unfold from_utf8 String.fromUTF8? at h
    split_ifs at h
    rw [← Option.some.inj h]
    rfl
  · rintro rfl
    exact from_utf8_as_bytes s

/-- Read a string of octets as an unsigned big-endian number. -/
def Bytes.toNatBE (b : Bytes) : Nat := b.foldl (fun v x => v * 256 + x.toNat) 0

namespace hex

/-- The digit of a number below 16, in lower case. -/
def digit (n : Nat) : Char := Char.ofNat (if n < 10 then 48 + n else 87 + n)

/-- The digit of a number below 16, in upper case. -/
def digit_upper (n : Nat) : Char := Char.ofNat (if n < 10 then 48 + n else 55 + n)

/-- The value of a digit in either case. -/
def val (c : Char) : Option Nat :=
  let n := c.toNat
  if 48 ≤ n ∧ n ≤ 57 then some (n - 48)
  else if 97 ≤ n ∧ n ≤ 102 then some (n - 87)
  else if 65 ≤ n ∧ n ≤ 70 then some (n - 55)
  else none

/-- The two digits of every octet. -/
def digits (f : Nat → Char) : Bytes → List Char
  | [] => []
  | b :: bs => f (b.toNat / 16) :: f (b.toNat % 16) :: digits f bs

/-- `hex::encode`. -/
def encode (b : Bytes) : String := String.ofList (digits digit b)

/-- `hex::encode_upper`. -/
def encode_upper (b : Bytes) : String := String.ofList (digits digit_upper b)

/-- The octets of a list of digits; an odd length or another character has none. -/
def undigits : List Char → Option Bytes
  | [] => some []
  | [_] => none
  | c :: d :: cs => do
      let hi ← val c
      let lo ← val d
      let rest ← undigits cs
      pure (UInt8.ofNat (16 * hi + lo) :: rest)

/-- `hex::decode`. -/
def decode (s : String) : Option Bytes := undigits s.toList

theorem val_digit {n : Nat} (h : n < 16) : val (digit n) = some n := by
  interval_cases n <;> rfl

theorem undigits_digits (b : Bytes) : undigits (digits digit b) = some b := by
  induction b with
  | nil => rfl
  | cons x b ih =>
      have hx : x.toNat < 256 := x.toNat_lt
      have hhi : val (digit (x.toNat / 16)) = some (x.toNat / 16) := val_digit (by omega)
      have hlo : val (digit (x.toNat % 16)) = some (x.toNat % 16) := val_digit (by omega)
      have hbyte : UInt8.ofNat (16 * (x.toNat / 16) + x.toNat % 16) = x := by
        rw [Nat.div_add_mod, UInt8.ofNat_toNat]
      simp only [digits, undigits, hhi, hlo, ih, Option.bind_eq_bind, Option.bind_some,
        Option.pure_def, hbyte]

/-- Decoding undoes encoding. -/
@[simp] theorem decode_encode (b : Bytes) : decode (encode b) = some b := by
  rw [decode, encode, String.toList_ofList, undigits_digits]

/-- Only the empty text stands for no octets. -/
theorem decode_eq_nil {s : String} : decode s = some [] ↔ s = "" := by
  rw [decode, ← String.toList_eq_nil_iff]
  rcases s.toList with _ | ⟨c, _ | ⟨d, cs⟩⟩
  · exact iff_of_true rfl rfl
  · exact iff_of_false (fun hno => by cases hno) (fun hno => by cases hno)
  · refine iff_of_false (fun hno => ?_) (fun hno => by cases hno)
    rw [undigits] at hno
    simp only [Option.bind_eq_bind, Option.bind_eq_some_iff] at hno
    obtain ⟨_, _, _, _, _, _, hcons⟩ := hno
    cases hcons

theorem encode_inj {a b : Bytes} : encode a = encode b ↔ a = b := by
  constructor
  · intro h
    have hdec : decode (encode a) = decode (encode b) := congrArg decode h
    rw [decode_encode, decode_encode] at hdec
    exact Option.some.inj hdec
  · rintro rfl
    rfl

end hex

namespace base64

/-- The standard alphabet. -/
def digit (n : Nat) : Char :=
  if n < 26 then Char.ofNat (65 + n)
  else if n < 52 then Char.ofNat (71 + n)
  else if n < 62 then Char.ofNat (n - 4)
  else if n = 62 then '+' else '/'

/-- The value of a character of the standard alphabet. -/
def val (c : Char) : Option Nat :=
  let n := c.toNat
  if 65 ≤ n ∧ n ≤ 90 then some (n - 65)
  else if 97 ≤ n ∧ n ≤ 122 then some (n - 71)
  else if 48 ≤ n ∧ n ≤ 57 then some (n + 4)
  else if c = '+' then some 62
  else if c = '/' then some 63
  else none

/-- Four characters for every three octets, the last group padded. -/
def digits : Bytes → List Char
  | [] => []
  | [x] => [digit (x.toNat / 4), digit (x.toNat % 4 * 16), '=', '=']
  | [x, y] =>
      [digit (x.toNat / 4), digit (x.toNat % 4 * 16 + y.toNat / 16), digit (y.toNat % 16 * 4), '=']
  | x :: y :: z :: bs =>
      digit (x.toNat / 4) :: digit (x.toNat % 4 * 16 + y.toNat / 16) ::
        digit (y.toNat % 16 * 4 + z.toNat / 64) :: digit (z.toNat % 64) :: digits bs

/-- `general_purpose::STANDARD.encode`. -/
def encode (b : Bytes) : String := String.ofList (digits b)

/-- One group of four characters. Padding stands at the end of the text only, and
the bits it cuts off are zero. -/
def group (c₁ c₂ c₃ c₄ : Char) (last : Bool) : Option Bytes := do
  let a ← val c₁
  let b ← val c₂
  if c₃ = '=' then
    if c₄ = '=' ∧ last ∧ b % 16 = 0 then some [UInt8.ofNat (a * 4 + b / 16)] else none
  else
    let c ← val c₃
    if c₄ = '=' then
      if last ∧ c % 4 = 0 then
        some [UInt8.ofNat (a * 4 + b / 16), UInt8.ofNat (b % 16 * 16 + c / 4)]
      else none
    else
      let d ← val c₄
      some [UInt8.ofNat (a * 4 + b / 16), UInt8.ofNat (b % 16 * 16 + c / 4),
        UInt8.ofNat (c % 4 * 64 + d)]

/-- The octets of a text of whole groups. -/
def undigits : List Char → Option Bytes
  | [] => some []
  | c₁ :: c₂ :: c₃ :: c₄ :: cs => do
      let head ← group c₁ c₂ c₃ c₄ cs.isEmpty
      let rest ← undigits cs
      pure (head ++ rest)
  | _ => none

/-- `general_purpose::STANDARD.decode`. -/
def decode (cs : List Char) : Option Bytes := undigits cs

theorem val_digit {n : Nat} (h : n < 64) : val (digit n) = some n := by
  interval_cases n <;> rfl

theorem digit_ne_pad {n : Nat} (h : n < 64) : digit n ≠ '=' := by
  interval_cases n <;> decide

/-- A group of four digits is read as the three octets it was made of. -/
theorem group_digits (x y z : UInt8) (last : Bool) :
    group (digit (x.toNat / 4)) (digit (x.toNat % 4 * 16 + y.toNat / 16))
      (digit (y.toNat % 16 * 4 + z.toNat / 64)) (digit (z.toNat % 64)) last = some [x, y, z] := by
  have hx : x.toNat < 256 := x.toNat_lt
  have hy : y.toNat < 256 := y.toNat_lt
  have hz : z.toNat < 256 := z.toNat_lt
  have h₁ := val_digit (n := x.toNat / 4) (by omega)
  have h₂ := val_digit (n := x.toNat % 4 * 16 + y.toNat / 16) (by omega)
  have h₃ := val_digit (n := y.toNat % 16 * 4 + z.toNat / 64) (by omega)
  have h₄ := val_digit (n := z.toNat % 64) (by omega)
  have hpad₃ := digit_ne_pad (n := y.toNat % 16 * 4 + z.toNat / 64) (by omega)
  have hpad₄ := digit_ne_pad (n := z.toNat % 64) (by omega)
  -- the three octets put together again from their four sextets
  have e₁ : x.toNat / 4 * 4 + (x.toNat % 4 * 16 + y.toNat / 16) / 16 = x.toNat := by omega
  have e₂ : (x.toNat % 4 * 16 + y.toNat / 16) % 16 * 16
      + (y.toNat % 16 * 4 + z.toNat / 64) / 4 = y.toNat := by omega
  have e₃ : (y.toNat % 16 * 4 + z.toNat / 64) % 4 * 64 + z.toNat % 64 = z.toNat := by omega
  simp only [group, h₁, h₂, h₃, h₄, if_neg hpad₃, if_neg hpad₄, Option.bind_eq_bind,
    Option.bind_some, e₁, e₂, e₃, UInt8.ofNat_toNat]

/-- Two octets fill a group up to one sign. -/
theorem group_two (x y : UInt8) :
    group (digit (x.toNat / 4)) (digit (x.toNat % 4 * 16 + y.toNat / 16))
      (digit (y.toNat % 16 * 4)) '=' true = some [x, y] := by
  have hx : x.toNat < 256 := x.toNat_lt
  have hy : y.toNat < 256 := y.toNat_lt
  have h₁ := val_digit (n := x.toNat / 4) (by omega)
  have h₂ := val_digit (n := x.toNat % 4 * 16 + y.toNat / 16) (by omega)
  have h₃ := val_digit (n := y.toNat % 16 * 4) (by omega)
  have hpad₃ := digit_ne_pad (n := y.toNat % 16 * 4) (by omega)
  have e₁ : x.toNat / 4 * 4 + (x.toNat % 4 * 16 + y.toNat / 16) / 16 = x.toNat := by omega
  have e₂ : (x.toNat % 4 * 16 + y.toNat / 16) % 16 * 16 + y.toNat % 16 * 4 / 4 = y.toNat := by omega
  have e₃ : y.toNat % 16 * 4 % 4 = 0 := by omega
  simp only [group, h₁, h₂, h₃, if_neg hpad₃, Option.bind_eq_bind,
    Option.bind_some, e₁, e₂, e₃, UInt8.ofNat_toNat, if_true, and_self]

/-- One octet fills it up to two. -/
theorem group_one (x : UInt8) :
    group (digit (x.toNat / 4)) (digit (x.toNat % 4 * 16)) '=' '=' true = some [x] := by
  have hx : x.toNat < 256 := x.toNat_lt
  have h₁ := val_digit (n := x.toNat / 4) (by omega)
  have h₂ := val_digit (n := x.toNat % 4 * 16) (by omega)
  have e₁ : x.toNat / 4 * 4 + x.toNat % 4 * 16 / 16 = x.toNat := by omega
  have e₂ : x.toNat % 4 * 16 % 16 = 0 := by omega
  simp only [group, h₁, h₂, Option.bind_eq_bind,
    Option.bind_some, e₁, e₂, UInt8.ofNat_toNat, if_true, and_self]

theorem undigits_digits (b : Bytes) : undigits (digits b) = some b := by
  induction b using digits.induct with
  | case1 => rfl
  -- the ends of one and of two octets are padded, and decoded as the last group
  | case2 x =>
      show (do
        let head ← group _ _ '=' '=' true
        let rest ← undigits []
        pure (head ++ rest)) = _
      rw [group_one]
      rfl
  | case3 x y =>
      show (do
        let head ← group _ _ _ '=' true
        let rest ← undigits []
        pure (head ++ rest)) = _
      rw [group_two]
      rfl
  | case4 x y z bs ih =>
      rw [digits, undigits, group_digits, ih]
      rfl

/-- Decoding undoes encoding. -/
theorem decode_encode (b : Bytes) : decode (encode b).toList = some b := by
  rw [decode, encode, String.toList_ofList, undigits_digits]

/-- A text of digits holds digits and padding only. -/
theorem mem_digits {c : Char} {b : Bytes} (h : c ∈ digits b) :
    c = '=' ∨ ∃ n, n < 64 ∧ c = digit n := by
  -- a digit of the alphabet, in whichever place of its group
  have hdigit : ∀ n, n < 64 → digit n = '=' ∨ ∃ m, m < 64 ∧ digit n = digit m :=
    fun n hn => .inr ⟨n, hn, rfl⟩
  induction b using digits.induct with
  | case1 => exact absurd h List.not_mem_nil
  | case2 x =>
      have hx : x.toNat < 256 := x.toNat_lt
      simp only [digits, List.mem_cons, List.not_mem_nil, or_false] at h
      rcases h with rfl | rfl | h | h
      · exact hdigit _ (by omega)
      · exact hdigit _ (by omega)
      · exact .inl h
      · exact .inl h
  | case3 x y =>
      have hx : x.toNat < 256 := x.toNat_lt
      have hy : y.toNat < 256 := y.toNat_lt
      simp only [digits, List.mem_cons, List.not_mem_nil, or_false] at h
      rcases h with rfl | rfl | rfl | h
      · exact hdigit _ (by omega)
      · exact hdigit _ (by omega)
      · exact hdigit _ (by omega)
      · exact .inl h
  | case4 x y z bs ih =>
      have hx : x.toNat < 256 := x.toNat_lt
      have hy : y.toNat < 256 := y.toNat_lt
      have hz : z.toNat < 256 := z.toNat_lt
      simp only [digits, List.mem_cons] at h
      rcases h with rfl | rfl | rfl | rfl | h
      · exact hdigit _ (by omega)
      · exact hdigit _ (by omega)
      · exact hdigit _ (by omega)
      · exact hdigit _ (by omega)
      · exact ih h

/-- A group with a dash in it is none. -/
theorem group_dash {c₁ c₂ c₃ c₄ : Char} (h : '-' ∈ [c₁, c₂, c₃, c₄]) (last : Bool) :
    group c₁ c₂ c₃ c₄ last = none := by
  have hval : val '-' = none := by decide
  have hpad : ¬ '-' = '=' := by decide
  simp only [List.mem_cons, List.not_mem_nil, or_false] at h
  -- whichever of the four it is, its value is asked for and there is none
  unfold group
  rcases h with rfl | rfl | rfl | rfl
  · rw [hval]
    rfl
  · rw [hval]
    cases val c₁ <;> rfl
  · rw [hval]
    simp only [if_neg hpad]
    cases val c₁ <;> cases val c₂ <;> rfl
  · rw [hval]
    simp only [hpad, false_and, if_false]
    cases val c₁ <;> cases val c₂ <;> cases val c₃ <;> simp

/-- A text with a dash does not decode. -/
theorem dash_of_decode {cs : List Char} {b : Bytes} (h : decode cs = some b) : '-' ∉ cs := by
  unfold decode at h
  intro hmem
  induction cs using undigits.induct generalizing b with
  | case1 => exact absurd hmem List.not_mem_nil
  | case2 c₁ c₂ c₃ c₄ cs ih =>
      rw [undigits] at h
      obtain ⟨head, hgroup, h⟩ := Option.bind_eq_some_iff.mp h
      obtain ⟨rest, hrest, _⟩ := Option.bind_eq_some_iff.mp h
      have hsplit : c₁ :: c₂ :: c₃ :: c₄ :: cs = [c₁, c₂, c₃, c₄] ++ cs := rfl
      rw [hsplit, List.mem_append] at hmem
      -- in this group, which then is not decoded, or in a later one
      rcases hmem with hmem | hmem
      · rw [group_dash hmem] at hgroup
        cases hgroup
      · exact ih hrest hmem
  | case3 cs hnil hcons =>
      unfold undigits at h
      split at h
      · exact hnil rfl
      · exact hcons _ _ _ _ _ rfl
      · cases h

end base64
