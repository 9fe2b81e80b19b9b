/-
Prefix codes: writing a value as octets that say themselves where they end.

A `Codec` reads back exactly what it wrote, whatever follows. Pairs, lists and
options of coded types are coded, and a type that goes into a coded one and back
is coded with it (`Codec.via`), so that a record needs no reader of its own.
-/
import Blapki.Octets

set_option autoImplicit false

/-- A writer, a reader of what is in front, and that the one undoes the other. -/
class Codec (α : Type) where
  enc : α → Bytes
  dec : Bytes → Option (α × Bytes)
  dec_enc : ∀ a rest, dec (enc a ++ rest) = some (a, rest)

namespace Codec

variable {α β : Type}

attribute [simp] Codec.dec_enc

/-- Read a value that is the whole text. -/
def decode [Codec α] (b : Bytes) : Except String α :=
  match dec b with
  | some (a, []) => .ok a
  | _ => .error "malformed encoding"

@[simp] theorem decode_enc [Codec α] (a : α) : decode (enc a) = .ok a := by
  have h := dec_enc a []
  rw [List.append_nil] at h
  rw [decode, h]

/-- Read a value that is the whole text and passes a check. -/
def decode_if [Codec α] (p : α → Prop) [DecidablePred p] (b : Bytes) : Except String α :=
  match (decode b : Except String α) with
  | .ok a => if p a then .ok a else .error "malformed encoding"
  | .error e => .error e

theorem decode_if_eq_ok [Codec α] {p : α → Prop} [DecidablePred p] {b : Bytes} {a : α} :
    decode_if p b = .ok a ↔ decode b = .ok a ∧ p a := by
  rw [decode_if]
  cases (decode b : Except String α) with
  | error e => exact ⟨fun hno => (by cases hno), fun hno => (by cases hno.1)⟩
  | ok a' =>
      by_cases hp : p a'
      · simp only [if_pos hp]
        exact ⟨fun h => ⟨h, Except.ok.inj h ▸ hp⟩, fun h => h.1⟩
      · simp only [if_neg hp]
        refine ⟨fun hno => (by cases hno), fun hno => ?_⟩
        exact absurd (Except.ok.inj hno.1 ▸ hno.2) hp

theorem decode_if_enc [Codec α] {p : α → Prop} [DecidablePred p] {a : α} (hp : p a) :
    decode_if p (enc a) = .ok a := decode_if_eq_ok.mpr ⟨decode_enc a, hp⟩

/-- Read the value in front of the text, whatever follows. -/
def decode_front [Codec α] (b : Bytes) : Except String α :=
  match dec b with
  | some (a, _) => .ok a
  | none => .error "malformed encoding"

@[simp] theorem decode_front_enc [Codec α] (a : α) (rest : Bytes) :
    decode_front (enc a ++ rest) = .ok a := by
  rw [decode_front, dec_enc]

/-- A type that goes into a coded one and back. -/
@[reducible] def via [Codec β] (f : α → β) (g : β → Option α) (h : ∀ a, g (f a) = some a) :
    Codec α where
  enc a := enc (f a)
  dec b := do
    let (x, rest) ← dec b
    let a ← g x
    pure (a, rest)
  dec_enc a rest := by simp only [dec_enc, h, Option.bind_eq_bind, Option.bind_some, Option.pure_def]

/-! ## Octets, pairs, lists -/

instance : Codec UInt8 where
  enc b := [b]
  dec
    | b :: rest => some (b, rest)
    | [] => none
  dec_enc _ _ := rfl

instance [Codec α] [Codec β] : Codec (α × β) where
  enc p := enc p.1 ++ enc p.2
  dec b := do
    let (x, rest) ← dec b
    let (y, rest) ← dec rest
    pure ((x, y), rest)
  dec_enc p rest := by
    simp only [List.append_assoc, dec_enc, Option.bind_eq_bind, Option.bind_some, Option.pure_def]

/-- Every element behind a one, a zero at the end. -/
def enc_list [Codec α] : List α → Bytes
  | [] => [0]
  | a :: as => 1 :: (enc a ++ enc_list as)

/-- The reader of a list, for at most `fuel` elements. -/
def dec_list [Codec α] : Nat → Bytes → Option (List α × Bytes)
  | fuel + 1, 1 :: b => do
      let (a, rest) ← dec b
      let (as, rest) ← dec_list fuel rest
      pure (a :: as, rest)
  | _, 0 :: rest => some ([], rest)
  | _, _ => none

theorem length_lt_enc_list [Codec α] (as : List α) : as.length < (enc_list as).length := by
  induction as with
  | nil => exact Nat.zero_lt_one
  | cons a as ih =>
      rw [enc_list, List.length_cons, List.length_cons, List.length_append]
      omega

theorem dec_enc_list [Codec α] (as : List α) (rest : Bytes) {fuel : Nat}
    (h : as.length ≤ fuel) : dec_list fuel (enc_list as ++ rest) = some (as, rest) := by
  induction as generalizing fuel with
  | nil => cases fuel <;> rfl
  | cons a as ih =>
      obtain ⟨fuel, rfl⟩ : ∃ n, fuel = n + 1 := ⟨fuel - 1, by
        rw [List.length_cons] at h
        omega⟩
      have hrest : dec_list fuel (enc_list as ++ rest) = some (as, rest) := by
        apply ih
        rw [List.length_cons] at h
        omega
      simp only [enc_list, List.cons_append, List.append_assoc, dec_list, dec_enc, hrest,
        Option.bind_eq_bind, Option.bind_some, Option.pure_def]

instance [Codec α] : Codec (List α) where
  enc := enc_list
  dec b := dec_list b.length b
  dec_enc as rest := by
    apply dec_enc_list
    have hlen := length_lt_enc_list as
    rw [List.length_append]
    omega

/-- A string of octets takes two octets for each of its own, and one. -/
theorem length_enc_bytes (b : Bytes) : (enc b).length = 2 * b.length + 1 := by
  show (enc_list b).length = _
  induction b with
  | nil => rfl
  | cons x b ih =>
      rw [enc_list, List.length_cons, List.length_append, ih, List.length_cons]
      show 1 + _ + 1 = _
      omega

theorem length_enc_pair [Codec α] [Codec β] (a : α) (b : β) :
    (enc (a, b)).length = (enc a).length + (enc b).length := List.length_append

theorem length_enc_cons [Codec α] (a : α) (as : List α) :
    (enc (a :: as)).length = (enc a).length + (enc as).length + 1 := by
  show (1 :: (enc a ++ enc_list as)).length = _
  rw [List.length_cons, List.length_append]
  rfl

instance [Codec α] : Codec (Option α) :=
  via Option.toList (fun as => match as with | [] => some none | [a] => some (some a) | _ => none)
    fun a => by cases a <;> rfl

/-! ## Numbers and texts -/

/-- The octets of a number, the last first, for at most `fuel` of them. -/
def octets : Nat → Nat → Bytes
  | 0, _ => []
  | fuel + 1, n => if n = 0 then [] else UInt8.ofNat (n % 256) :: octets fuel (n / 256)

/-- The number of these octets. -/
def of_octets : Bytes → Nat
  | [] => 0
  | b :: bs => b.toNat + 256 * of_octets bs

theorem of_octets_octets {fuel n : Nat} (h : n ≤ fuel) : of_octets (octets fuel n) = n := by
  induction fuel generalizing n with
  | zero =>
      obtain rfl := Nat.le_zero.mp h
      rfl
  | succ fuel ih =>
      unfold octets
      by_cases hn : n = 0
      · rw [if_pos hn, hn]
        rfl
      · -- one digit to the base 256 goes first, the rest is below the fuel that is left
        have hlow : (UInt8.ofNat (n % 256)).toNat = n % 256 := by
          rw [UInt8.toNat_ofNat']
          omega
        rw [if_neg hn, of_octets, hlow, ih (by omega)]
        omega

instance : Codec Nat :=
  via (fun n => octets n n) (fun b => some (of_octets b)) fun n => by rw [of_octets_octets (le_refl n)]

instance : Codec Char := via Char.toNat (fun n => some (Char.ofNat n)) fun c => by rw [Char.ofNat_toNat]

instance : Codec String :=
  via String.toList (fun l => some (String.ofList l)) fun s => by rw [String.ofList_toList]

instance : Codec Bool :=
  via (fun b => if b then 1 else 0) (fun n : Nat => some (n = 1)) fun b => by cases b <;> rfl

end Codec
