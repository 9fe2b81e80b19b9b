/-
The values every part of the server passes around: errors and how they surface
over HTTP, object identifiers, raw ASN.1 values, and time.

The errors of the crates the server calls are kept as their `Display` text: the
server only ever formats them into its own messages.
-/
import Blapki.Octets
import Blapki.Calendar
import Mathlib

set_option autoImplicit false

namespace Blapki

/-! ## Errors (`error.rs`) -/

/-- Top-level error type of the application. -/
inductive AppError where
  | Config (msg : String)
  | BadRequest (msg : String)
  | NotFound (msg : String)
  | Crypto (msg : String)
  | Database (e : String)
  | Upstream (msg : String)
  | Other (e : String)
deriving DecidableEq, Repr

abbrev AppResult (α : Type) : Type := Except AppError α

namespace AppError

def crypto (msg : String) : AppError := .Crypto msg

def bad_request (msg : String) : AppError := .BadRequest msg

def to_string : AppError → String
  | .Config m => s!"configuration error: {m}"
  | .BadRequest m => s!"bad request: {m}"
  | .NotFound m => s!"not found: {m}"
  | .Crypto m => s!"crypto error: {m}"
  | .Database e => s!"database error: {e}"
  | .Upstream m => s!"upstream (Intune) error: {m}"
  | .Other e => e

/-- The HTTP status an error surfaces as. -/
def status : AppError → Nat
  | .BadRequest _ => 400
  | .NotFound _ => 404
  | .Config _ | .Crypto _ | .Database _ => 500
  | .Upstream _ => 502
  | .Other _ => 500

end AppError

/-- What a client sees of a reply: status, content type and body. -/
structure Response where
  status : Nat
  content_type : String
  body : Bytes
deriving DecidableEq, Repr

/-- `StatusCode::canonical_reason`, of the server errors an `AppError` maps to. -/
def canonical_reason (status : Nat) : String :=
  if status = 502 then "Bad Gateway" else "Internal Server Error"

/-- `AppError::into_response`: only client errors echo their message back. -/
def AppError.into_response (e : AppError) : Response :=
  let body := if 500 ≤ e.status then canonical_reason e.status else e.to_string
  ⟨e.status, "text/plain; charset=utf-8", body.as_bytes⟩

/-! ## Results

`?`, `ok_or_else` and `map_err` on the results of computed steps. -/

/-- `Option::ok_or_else`. -/
def ok_or_else {α : Type} (x : Option α) (e : AppError) : AppResult α :=
  match x with
  | some a => .ok a
  | none => .error e

/-- `Result::map_err` on an error the crates report by its text. -/
def map_err {α : Type} (x : Except String α) (f : String → AppError) : AppResult α :=
  match x with
  | .ok a => .ok a
  | .error e => .error (f e)

/-- A check that returns early with an error. -/
def require (c : Prop) [Decidable c] (e : AppError) : AppResult Unit :=
  if c then .ok () else .error e

@[simp] theorem require_eq_ok {c : Prop} [Decidable c] {e : AppError} {u : Unit} :
    require c e = .ok u ↔ c := by
  by_cases hc : c <;> simp [require, hc]

@[simp] theorem ok_or_else_eq_ok {α : Type} {x : Option α} {e : AppError} {a : α} :
    ok_or_else x e = .ok a ↔ x = some a := by
  cases x <;> simp [ok_or_else]

@[simp] theorem map_err_eq_ok {α : Type} {x : Except String α} {f : String → AppError} {a : α} :
    map_err x f = .ok a ↔ x = .ok a := by
  cases x <;> simp [map_err]

/-- A sequence of computed steps succeeds when each does. -/
@[simp] theorem bind_eq_ok {ε α β : Type} {x : Except ε α} {f : α → Except ε β} {b : β} :
    (x >>= f) = .ok b ↔ ∃ a, x = .ok a ∧ f a = .ok b := by
  cases x with
  | error e => simp [bind, Except.bind]
  | ok a => simp [bind, Except.bind]

theorem map_eq_ok {ε α β : Type} {x : Except ε α} {f : α → β} {b : β} :
    x.map f = .ok b ↔ ∃ a, x = .ok a ∧ f a = b := by
  cases x with
  | error e => exact ⟨fun h => (by cases h), fun ⟨_, h, _⟩ => (by cases h)⟩
  | ok a => exact ⟨fun h => ⟨a, rfl, Except.ok.inj h⟩, fun ⟨_, ha, hf⟩ =>
      congrArg Except.ok ((congrArg f (Except.ok.inj ha)).trans hf)⟩

/-- A result that was evaluated is one of the two. -/
theorem exists_ok_of_toBool {ε α : Type} {x : Except ε α} (h : x.toBool = true) :
    ∃ a, x = .ok a := by
  cases x with
  | error e => exact Bool.noConfusion h
  | ok a => exact ⟨a, rfl⟩

theorem exists_error_of_toBool {ε α : Type} {x : Except ε α} (h : x.toBool = false) :
    ∃ e, x = .error e := by
  cases x with
  | error e => exact ⟨e, rfl⟩
  | ok a => exact Bool.noConfusion h

/-! ## Object identifiers -/

/-- `const_oid::ObjectIdentifier`. -/
structure ObjectIdentifier where
  arcs : List Nat
deriving DecidableEq, Repr

instance : ToString ObjectIdentifier := ⟨fun o => ".".intercalate (o.arcs.map toString)⟩

namespace oids

def ID_DATA : ObjectIdentifier := ⟨[1, 2, 840, 113549, 1, 7, 1]⟩
def ID_SIGNED_DATA : ObjectIdentifier := ⟨[1, 2, 840, 113549, 1, 7, 2]⟩
def ID_ENVELOPED_DATA : ObjectIdentifier := ⟨[1, 2, 840, 113549, 1, 7, 3]⟩
def ID_CONTENT_TYPE : ObjectIdentifier := ⟨[1, 2, 840, 113549, 1, 9, 3]⟩
def ID_MESSAGE_DIGEST : ObjectIdentifier := ⟨[1, 2, 840, 113549, 1, 9, 4]⟩
def RSA_ENCRYPTION : ObjectIdentifier := ⟨[1, 2, 840, 113549, 1, 1, 1]⟩

def ID_SHA1 : ObjectIdentifier := ⟨[1, 3, 14, 3, 2, 26]⟩
def ID_SHA256 : ObjectIdentifier := ⟨[2, 16, 840, 1, 101, 3, 4, 2, 1]⟩

def ID_AES_128_CBC : ObjectIdentifier := ⟨[2, 16, 840, 1, 101, 3, 4, 1, 2]⟩
def ID_AES_192_CBC : ObjectIdentifier := ⟨[2, 16, 840, 1, 101, 3, 4, 1, 22]⟩
def ID_AES_256_CBC : ObjectIdentifier := ⟨[2, 16, 840, 1, 101, 3, 4, 1, 42]⟩
/-- des-ede3-cbc (3DES) -/
def ID_DES_EDE3_CBC : ObjectIdentifier := ⟨[1, 2, 840, 113549, 3, 7]⟩
/-- des-cbc (single DES, legacy) -/
def ID_DES_CBC : ObjectIdentifier := ⟨[1, 3, 14, 3, 2, 7]⟩

end oids

/-! ## Raw ASN.1 values (`der::Any`)

A value is its tag and its content octets. The string types and OCTET STRING are
read off these directly, the way `Any::decode_as` does: the tag has to be the
type's own, and the content has to be in the type's alphabet. -/

inductive Tag where
  | Integer
  | BitString
  | OctetString
  | Null
  | Utf8String
  | PrintableString
  | Ia5String
  | Sequence
  | Set
  | Other (number : Nat)
deriving DecidableEq, Repr

structure Any where
  tag : Tag
  value : Bytes
deriving DecidableEq, Repr

/-- `Any::from(Null)`. -/
def Any.Null : Any := ⟨.Null, []⟩

/-- An octet of the ASN.1 `PrintableString` alphabet. -/
def is_printable_octet (b : UInt8) : Bool :=
  let c := b.toNat
  (65 ≤ c && c ≤ 90) || (97 ≤ c && c ≤ 122) || (48 ≤ c && c ≤ 57) || c == 32 || c == 39 ||
    c == 40 || c == 41 || (43 ≤ c && c ≤ 47) || c == 58 || c == 61 || c == 63

/-- A text of the ASN.1 `PrintableString` alphabet. -/
def Printable (s : String) : Prop := s.as_bytes.all is_printable_octet = true

instance (s : String) : Decidable (Printable s) := inferInstanceAs (Decidable (_ = true))

/-- `PrintableString::new`: accepts exactly the alphabet. -/
def PrintableString.new (value : String) : Except String String :=
  if Printable value then .ok value else .error "malformed ASN.1 DER value for PrintableString"

/-- `Any::decode_as::<PrintableString>`. -/
def Any.decode_printable_string (a : Any) : Except String String :=
  if a.tag = .PrintableString ∧ a.value.all is_printable_octet = true then
    match from_utf8 a.value with
    | some s => .ok s
    | none => .error "malformed ASN.1 DER value for PrintableString"
  else .error "unexpected ASN.1 DER tag"

/-- `Any::decode_as::<Utf8StringRef>`. -/
def Any.decode_utf8_string (a : Any) : Except String String :=
  if a.tag = .Utf8String then
    match from_utf8 a.value with
    | some s => .ok s
    | none => .error "invalid utf-8 sequence"
  else .error "unexpected ASN.1 DER tag"

/-- `Any::decode_as::<Ia5StringRef>`: seven-bit octets. -/
def Any.decode_ia5_string (a : Any) : Except String String :=
  if a.tag = .Ia5String ∧ a.value.all (fun b => b.toNat < 128) = true then
    match from_utf8 a.value with
    | some s => .ok s
    | none => .error "malformed ASN.1 DER value for IA5String"
  else .error "unexpected ASN.1 DER tag"

/-- The longest value `der` encodes. -/
def Length.MAX : Nat := 0xfffffff

/-- `OctetString::new`. -/
def OctetString.new (b : Bytes) : Except String Bytes :=
  if b.length ≤ Length.MAX then .ok b else .error "incorrect length for OCTET STRING"

/-- `Any::decode_as::<OctetString>`. -/
def Any.decode_octet_string (a : Any) : Except String Bytes :=
  if a.tag = .OctetString then OctetString.new a.value else .error "unexpected ASN.1 DER tag"

theorem OctetString.new_eq_ok {b b' : Bytes} :
    OctetString.new b = .ok b' ↔ b.length ≤ Length.MAX ∧ b' = b := by
  unfold OctetString.new
  by_cases h : b.length ≤ Length.MAX
  · rw [if_pos h]
    simp only [Except.ok.injEq, h, true_and, eq_comm]
  · rw [if_neg h]
    simp only [reduceCtorEq, h, false_and]

/-- An octet string that was read fits into a value that is written. -/
theorem Any.decode_octet_string_eq_ok {a : Any} {b : Bytes} :
    a.decode_octet_string = .ok b ↔ a = ⟨.OctetString, b⟩ ∧ b.length ≤ Length.MAX := by
  unfold Any.decode_octet_string
  obtain ⟨tag, value⟩ := a
  by_cases h : tag = .OctetString
  · rw [if_pos h, OctetString.new_eq_ok, h]
    simp only [Any.mk.injEq, true_and]
    constructor
    · rintro ⟨hlen, rfl⟩
      exact ⟨rfl, hlen⟩
    · rintro ⟨rfl, hlen⟩
      exact ⟨hlen, rfl⟩
  · rw [if_neg h]
    simp only [reduceCtorEq, Any.mk.injEq, h, false_and]

theorem PrintableString.new_eq_ok {s t : String} :
    PrintableString.new s = .ok t ↔ Printable s ∧ t = s := by
  unfold PrintableString.new
  by_cases h : Printable s
  · rw [if_pos h]
    simp only [Except.ok.injEq, h, true_and, eq_comm]
  · rw [if_neg h]
    simp only [reduceCtorEq, h, false_and]

/-- What was written as a `PrintableString` reads back. -/
theorem Any.decode_printable_string_as_bytes {s : String} (h : Printable s) :
    Any.decode_printable_string ⟨.PrintableString, s.as_bytes⟩ = .ok s := by
  unfold Any.decode_printable_string
  rw [if_pos ⟨rfl, h⟩, from_utf8_as_bytes]

/-! ## Time

A `SystemTime` is a signed count of nanoseconds from the Unix epoch. `DateTime`
is the range of `der::DateTime`, the years 1970 to 9999 in whole seconds; its
calendar fields are those of the proleptic Gregorian calendar. -/

structure SystemTime where
  nanos : Int
deriving DecidableEq, Repr

/-- Whole seconds from the epoch, rounded down. -/
def SystemTime.secs (t : SystemTime) : Int := t.nanos / 1000000000

/-- `SystemTime + Duration::from_secs`. -/
def SystemTime.add_secs (t : SystemTime) (secs : Nat) : SystemTime :=
  ⟨t.nanos + secs * 1000000000⟩

/-- The last second of the year 9999. -/
def DateTime.MAX : Nat := 253402300799

structure DateTime where
  unix_secs : Nat
  in_range : unix_secs ≤ DateTime.MAX
deriving DecidableEq, Repr

namespace DateTime

/-- `DateTime::INFINITY`, 9999-12-31T23:59:59Z. -/
def INFINITY : DateTime := ⟨MAX, le_refl _⟩

/-- The times a `DateTime` can stand for, up to the last whole second of the year
9999: a fraction after it is out of range. -/
def Representable (t : SystemTime) : Prop := 0 ≤ t.nanos ∧ t.nanos ≤ MAX * 1000000000

instance (t : SystemTime) : Decidable (Representable t) := inferInstanceAs (Decidable (_ ∧ _))

/-- `DateTime::from_system_time`: fails exactly outside the range, and drops the
fraction of a second. -/
def from_system_time (t : SystemTime) : Except String DateTime :=
  if h : Representable t then
    .ok ⟨t.secs.toNat, by
      have := h.2
      simp only [SystemTime.secs]
      omega⟩
  else .error "date/time error"

/-- Days from 0000-03-01 of the day a time falls on. -/
def march_day (d : DateTime) : Nat := d.unix_secs / 86400 + 719468

def year (d : DateTime) : Nat := Calendar.year d.march_day
def month (d : DateTime) : Nat := Calendar.month d.march_day
def day (d : DateTime) : Nat := Calendar.day d.march_day
def hour (d : DateTime) : Nat := d.unix_secs % 86400 / 3600
def minutes (d : DateTime) : Nat := d.unix_secs % 3600 / 60
def seconds (d : DateTime) : Nat := d.unix_secs % 60

/-- `{:0width}` of a number. -/
def pad (width n : Nat) : String :=
  let digits := toString n
  String.ofList (List.replicate (width - digits.length) '0') ++ digits

/-- `{:04}-{:02}-{:02}T{:02}:{:02}:{:02}Z`. -/
def to_rfc3339 (d : DateTime) : String :=
  pad 4 d.year ++ "-" ++ pad 2 d.month ++ "-" ++ pad 2 d.day ++ "T" ++ pad 2 d.hour ++ ":" ++
    pad 2 d.minutes ++ ":" ++ pad 2 d.seconds ++ "Z"

example : (DateTime.mk 1785196800 (by decide)).to_rfc3339 = "2026-07-28T00:00:00Z" := by decide

theorem eq_of_unix_secs {d d' : DateTime} (h : d.unix_secs = d'.unix_secs) : d = d' := by
  cases d
  cases d'
  cases h
  rfl

/-- A time converts when it is within the range, to the second it falls in. -/
theorem from_system_time_eq_ok {t : SystemTime} {d : DateTime} :
    from_system_time t = .ok d ↔ Representable t ∧ t.secs = d.unix_secs := by
  unfold from_system_time
  by_cases h : Representable t
  · -- before 1970 there is no date, so the seconds are a natural number
    have hsecs : 0 ≤ t.secs := by
      have hpos := h.1
      rw [SystemTime.secs]
      omega
    rw [dif_pos h]
    simp only [Except.ok.injEq, h, true_and]
    constructor
    · rintro rfl
      exact (Int.toNat_of_nonneg hsecs).symm
    · intro ht
      cases d
      simp only [mk.injEq] at ht ⊢
      omega
  · rw [dif_neg h]
    simp only [reduceCtorEq, h, false_and]

/-- Every time within the range converts. -/
theorem exists_from_system_time {t : SystemTime} (h : Representable t) :
    ∃ d, from_system_time t = .ok d := ⟨_, dif_pos h⟩

end DateTime

end Blapki
