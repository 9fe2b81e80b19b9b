/-
The encodings of a serial (`ca/serial.rs`, and where `http` writes it).

A drawn serial goes out as the octets of an INTEGER in the certificate, as decimal text to the
validator, and as hex text into the table, where the OCSP responder looks it up and the CRL reads
it back. `serial_encodings` says that all of them are of one number, and that no other serial has
any of them.
-/
import Blapki.Enrolment
import Blapki.Publication

set_option autoImplicit false

namespace Blapki

open Effect

/-! ## Octets as a number -/

theorem Bytes.foldl_eq (b : Bytes) (v : Nat) :
    b.foldl (fun v x => v * 256 + x.toNat) v = v * 256 ^ b.length + Bytes.toNatBE b := by
  induction b generalizing v with
  | nil => simp [Bytes.toNatBE]
  | cons x b ih =>
      unfold Bytes.toNatBE
      rw [List.foldl_cons, List.foldl_cons, ih, ih, List.length_cons, Nat.pow_succ]
      ring

theorem Bytes.toNatBE_cons (x : UInt8) (b : Bytes) :
    Bytes.toNatBE (x :: b) = x.toNat * 256 ^ b.length + Bytes.toNatBE b := by
  have h := Bytes.foldl_eq b (0 * 256 + x.toNat)
  rw [Nat.zero_mul, Nat.zero_add] at h
  rw [← h, Bytes.toNatBE, List.foldl_cons, Nat.zero_mul, Nat.zero_add]

theorem Bytes.toNatBE_lt (b : Bytes) : Bytes.toNatBE b < 256 ^ b.length := by
  induction b with
  | nil => simp [Bytes.toNatBE]
  | cons x b ih =>
      have hx : x.toNat + 1 ≤ 256 := x.toNat_lt
      have hmul : (x.toNat + 1) * 256 ^ b.length ≤ 256 * 256 ^ b.length :=
        Nat.mul_le_mul_right _ hx
      rw [Bytes.toNatBE_cons, List.length_cons, Nat.pow_succ]
      rw [Nat.add_mul, Nat.one_mul] at hmul
      omega

/-- Octets are determined by their number and how many there are. -/
theorem Bytes.toNatBE_inj {a b : Bytes} (hlen : a.length = b.length)
    (h : Bytes.toNatBE a = Bytes.toNatBE b) : a = b := by
  induction a generalizing b with
  | nil => exact (List.eq_nil_of_length_eq_zero hlen.symm).symm
  | cons x a ih =>
      rcases b with _ | ⟨y, b⟩
      · cases hlen
      · have hlen' : a.length = b.length := Nat.succ.inj hlen
        have ha := Bytes.toNatBE_lt a
        have hb := Bytes.toNatBE_lt b
        rw [Bytes.toNatBE_cons, Bytes.toNatBE_cons, hlen'] at h
        rw [hlen'] at ha
        have hpos : 0 < 256 ^ b.length := Nat.pow_pos (by decide)
        -- the first octet is the quotient, the others are the remainder
        have hquot : x.toNat = y.toNat := by
          have hdiv := congrArg (· / 256 ^ b.length) h
          simp only [Nat.mul_comm _ (256 ^ b.length), Nat.mul_add_div hpos,
            Nat.div_eq_of_lt ha, Nat.div_eq_of_lt hb, Nat.add_zero] at hdiv
          exact hdiv
        rw [hquot] at h
        rw [UInt8.toNat_inj.mp hquot, ih hlen' (Nat.add_left_cancel h)]

/-! ## The content of an INTEGER -/

/-- What it stands for: the first bit is the sign. -/
def integer (b : Bytes) : Int :=
  match b with
  | [] => 0
  | x :: _ => if 128 ≤ x.toNat then (Bytes.toNatBE b : Int) - 256 ^ b.length else Bytes.toNatBE b

/-- Octets that begin with one between 1 and 127 are those of a positive number. -/
theorem positive_of_head {x : UInt8} {b : Bytes} (hpos : 0 < x.toNat) (hlt : x.toNat < 128) :
    Minimal (x :: b) ∧ integer (x :: b) = Bytes.toNatBE (x :: b) ∧
      0 < Bytes.toNatBE (x :: b) := by
  refine ⟨?_, if_neg (by omega), ?_⟩
  · cases b with
    | nil => exact trivial
    | cons y b => exact ⟨fun h => by omega, fun h => by omega⟩
  · have hpow : 0 < 256 ^ b.length := Nat.pow_pos (by decide)
    rw [Bytes.toNatBE_cons]
    exact Nat.add_pos_left (Nat.mul_pos hpos hpow) _

/-! ## Decimal text -/

namespace Scep

/-- The loop of `serial_decimal` over a `u128`. -/
def to_u128 (bytes : Bytes) : BitVec 128 :=
  bytes.foldl (fun v b => (v <<< 8) ||| BitVec.ofNat 128 b.toNat) 0

/-- Shifting in an octet, where there is room for it. -/
theorem shift_or (n : Nat) (b : UInt8) : (n <<< 8) ||| b.toNat = n * 256 + b.toNat := by
  rw [← Nat.shiftLeft_add_eq_or_of_lt b.toNat_lt, Nat.shiftLeft_eq]

theorem shift_or_u128 {v : BitVec 128} (h : v.toNat < 2 ^ 120) (b : UInt8) :
    ((v <<< 8) ||| BitVec.ofNat 128 b.toNat).toNat = v.toNat * 256 + b.toNat := by
  have hb : b.toNat < 256 := b.toNat_lt
  have hshift : v.toNat <<< 8 < 2 ^ 128 := by
    rw [Nat.shiftLeft_eq]
    omega
  rw [BitVec.toNat_or, BitVec.toNat_shiftLeft, BitVec.toNat_ofNat, Nat.mod_eq_of_lt hshift,
    Nat.mod_eq_of_lt (by omega), shift_or]

/-- Sixteen octets lose no bits. -/
theorem foldl_u128 (b : Bytes) {v : BitVec 128} {k : Nat} (hv : v.toNat < 256 ^ k)
    (hk : k + b.length ≤ 16) :
    (b.foldl (fun (v : BitVec 128) b => (v <<< 8) ||| BitVec.ofNat 128 b.toNat) v).toNat
      = b.foldl (fun v b => v * 256 + b.toNat) v.toNat := by
  induction b generalizing v k with
  | nil => rfl
  | cons x b ih =>
      rw [List.length_cons] at hk
      have hle : (256 : Nat) ^ k ≤ 256 ^ 15 := Nat.pow_le_pow_right (by decide) (by omega)
      have hstep := shift_or_u128 (lt_of_lt_of_le hv (hle.trans (by decide))) x
      have hx : x.toNat < 256 := x.toNat_lt
      rw [List.foldl_cons, List.foldl_cons, ← hstep]
      refine ih (k := k + 1) ?_ (by omega)
      rw [hstep, Nat.pow_succ]
      omega

theorem to_u128_toNat {b : Bytes} (h : b.length ≤ 16) : (to_u128 b).toNat = Bytes.toNatBE b := by
  have hzero : (0 : BitVec 128).toNat < 256 ^ 0 := by decide
  exact foldl_u128 b hzero (by omega)

/-- The text is that of the number. -/
theorem serial_decimal_eq {cert : Certificate}
    (h : cert.tbs_certificate.serial_number.as_bytes.length ≤ 16) :
    serial_decimal cert
      = toString (Bytes.toNatBE cert.tbs_certificate.serial_number.as_bytes) := by
  unfold serial_decimal Bytes.toNatBE
  rw [if_pos h]
  simp only [shift_or]

/-- A number has its decimal text alone. -/
theorem toString_inj {m n : Nat} (h : toString m = toString n) : m = n := by
  have hdigits := congrArg String.toList h
  rw [Nat.toString_eq_repr, Nat.toString_eq_repr, Nat.toList_repr, Nat.toList_repr] at hdigits
  rw [← Nat.ofDigitChars_ten_toDigits (n := m), hdigits, Nat.ofDigitChars_ten_toDigits]

/-! ## Hex text -/

/-- A digit below ten, or a letter in lower case. -/
def LowerHex (c : Char) : Prop := ('0' ≤ c ∧ c ≤ '9') ∨ ('a' ≤ c ∧ c ≤ 'f')

instance (c : Char) : Decidable (LowerHex c) := inferInstanceAs (Decidable (_ ∨ _))

theorem digit_lower : ∀ n < 16, LowerHex (hex.digit n) := by decide

theorem encode_lower (b : Bytes) : ∀ c ∈ (hex.encode b).toList, LowerHex c := by
  rw [hex.encode, String.toList_ofList]
  induction b with
  | nil => exact fun c hc => absurd hc List.not_mem_nil
  | cons x b ih =>
      have hx : x.toNat < 256 := x.toNat_lt
      rw [hex.digits, List.forall_mem_cons, List.forall_mem_cons]
      exact ⟨digit_lower _ (by omega), digit_lower _ (by omega), ih⟩

/-! ## One serial -/

/-- The run of the generator: sixteen octets, whatever they are. -/
theorem random_serial_returns {tr : Trace} {r : AppResult SerialNumber} :
    Returns random_serial tr r ↔
      ∃ bytes, tr = [⟨Op.fill_bytes 16, bytes⟩] ∧ r = .ok (serial_of bytes) := by
  constructor
  · intro h
    obtain ⟨bytes, t, rfl, h₁⟩ := returns_request_bind.mp h
    obtain ⟨rfl, rfl⟩ := returns_pure.mp h₁
    exact ⟨bytes, rfl, rfl⟩
  · rintro ⟨bytes, rfl, rfl⟩
    exact returns_request_bind.mpr ⟨bytes, [], rfl, returns_pure.mpr ⟨rfl, rfl⟩⟩

/-- Everything that is written for a serial is of one number. -/
structure Encodes (X : Crates) (s : SerialNumber) : Prop where
  /-- Sixteen octets, the first between 1 and 127. -/
  octets : ∃ b bs, s.as_bytes = b :: bs ∧ 1 ≤ b.toNat ∧ b.toNat ≤ 127 ∧ bs.length = 15
  /-- A positive INTEGER without an octet too many. -/
  integer : Minimal s.as_bytes ∧ s.as_bytes.length = 16 ∧
    integer s.as_bytes = Bytes.toNatBE s.as_bytes ∧ 0 < Bytes.toNatBE s.as_bytes
  /-- The numeric branch, with all its bits. -/
  decimal : ∀ cert : Certificate, cert.tbs_certificate.serial_number = s →
    serial_decimal cert = toString (to_u128 s.as_bytes).toNat ∧
      (to_u128 s.as_bytes).toNat = Bytes.toNatBE s.as_bytes
  /-- What is stored. -/
  stored : ∀ cert : Certificate, cert.tbs_certificate.serial_number = s →
    ∀ rt ca parsed issued_der created_at,
      (issued_row X rt ca parsed cert issued_der created_at).serial = hex.encode s.as_bytes
  lower : ∀ c ∈ (hex.encode s.as_bytes).toList, LowerHex c
  /-- What the OCSP responder looks up. -/
  looked_up : ∀ entry : OcspEntry, entry.req_cert.serial_number = s →
    ∀ ca_id this_update next_update tr single,
      Returns (Ocsp.single_response X ca_id this_update next_update entry) tr (.ok single) →
      ∃ row rest, tr = ⟨Op.db (.select_status ca_id (hex.encode s.as_bytes)), .ok row⟩ :: rest
  /-- What the CRL reads. -/
  read : ∃ bytes, hex.decode (hex.encode s.as_bytes) = some bytes ∧ SerialNumber.new bytes = .ok s

variable {X : Crates}

theorem looked_up_serial {ca_id : String} {this_update next_update : DateTime} {entry : OcspEntry}
    {tr : Trace} {single : SingleResponse}
    (h : Returns (Ocsp.single_response X ca_id this_update next_update entry) tr (.ok single)) :
    ∃ row rest, tr = ⟨Op.db (.select_status ca_id
      (hex.encode entry.req_cert.serial_number.as_bytes)), .ok row⟩ :: rest := by
  obtain ⟨status, t₁, t₂, rfl, hstatus, _⟩ := returns_bind_ok.mp h
  obtain ⟨row, rfl, _⟩ := repo.status_by_serial_returns.mp hstatus
  exact ⟨row, t₂, rfl⟩

theorem length_serial_of (bytes : { b : Bytes // b.length = 16 }) :
    (serial_of bytes).as_bytes.length = 16 := by
  obtain ⟨b, bs, hoctets, _, _, hlen⟩ := serial_of_positive bytes
  rw [hoctets, List.length_cons, hlen]

/-- The decimal text of a drawn serial is that of its number, and none of its bits are lost. -/
theorem decimal_of_serial {bytes : { b : Bytes // b.length = 16 }} {cert : Certificate}
    (h : cert.tbs_certificate.serial_number = serial_of bytes) :
    serial_decimal cert = toString (to_u128 (serial_of bytes).as_bytes).toNat ∧
      (to_u128 (serial_of bytes).as_bytes).toNat = Bytes.toNatBE (serial_of bytes).as_bytes := by
  have hlen := le_of_eq (length_serial_of bytes)
  have hu128 := to_u128_toNat hlen
  rw [← h] at hlen
  exact ⟨by rw [serial_decimal_eq hlen, hu128, h], hu128⟩

theorem encodes_serial (X : Crates) (bytes : { b : Bytes // b.length = 16 }) :
    Encodes X (serial_of bytes) := by
  obtain ⟨b, bs, hoctets, hpos, hlt, hlen⟩ := serial_of_positive bytes
  have hsixteen := length_serial_of bytes
  obtain ⟨hminimal, hint, hnat⟩ := positive_of_head (b := bs) hpos hlt
  refine ⟨⟨b, bs, hoctets, hpos, Nat.le_of_lt_succ hlt, hlen⟩, ?_, ?_, ?_, encode_lower _, ?_, ?_⟩
  · rw [hoctets] at hsixteen ⊢
    exact ⟨hminimal, hsixteen, hint, hnat⟩
  · intro cert hcert
    exact decimal_of_serial hcert
  · intro cert hcert rt ca parsed issued_der created_at
    show serial_hex cert = _
    rw [serial_hex, hcert]
  · intro entry hentry ca_id this_update next_update tr single h
    rw [← hentry]
    exact looked_up_serial h
  · exact ⟨_, hex.decode_encode _, new_serial_of bytes⟩

/-- Another serial has another text in either form. -/
theorem texts_differ {bytes bytes' : { b : Bytes // b.length = 16 }}
    (hne : serial_of bytes ≠ serial_of bytes') {cert cert' : Certificate}
    (hcert : cert.tbs_certificate.serial_number = serial_of bytes)
    (hcert' : cert'.tbs_certificate.serial_number = serial_of bytes') :
    serial_decimal cert ≠ serial_decimal cert' ∧ serial_hex cert ≠ serial_hex cert' := by
  have hoctets : (serial_of bytes).as_bytes ≠ (serial_of bytes').as_bytes := by
    intro heq
    exact hne (congrArg SerialNumber.mk heq)
  constructor
  · intro hdecimal
    obtain ⟨htext, hnat⟩ := decimal_of_serial hcert
    obtain ⟨htext', hnat'⟩ := decimal_of_serial hcert'
    rw [htext, htext', hnat, hnat'] at hdecimal
    have hlen := (length_serial_of bytes).trans (length_serial_of bytes').symm
    exact hoctets (Bytes.toNatBE_inj hlen (toString_inj hdecimal))
  · intro hhex
    rw [serial_hex, serial_hex, hcert, hcert'] at hhex
    exact hoctets (hex.encode_inj.mp hhex)

/-! ## No row is skipped -/

/-- The serial of a row that a request submits was drawn. -/
theorem submitted_serial (hx509 : X.X509Law) {state : AppState} {profile : String} {body : Bytes}
    {tr : Trace} {r : AppResult Bytes} (hrun : Returns (pki_operation X state profile body) tr r)
    {row : IssuedCertificate} {e : Event Op.Res} (he : e ∈ tr) (hrow : Submits row e) :
    ∃ bytes, row.serial = hex.encode (serial_of bytes).as_bytes := by
  obtain ⟨rt, ca, parsed, enveloped, parsed_csr, issued, issued_der, created_at, hissuance, _, rfl⟩ :=
    issuance_of_submits hrun he hrow
  obtain ⟨_, _, _, hissue⟩ := hissuance.run
  obtain ⟨bytes, now, _, hleaf⟩ := CertificateAuthority.issue_returns.mp hissue
  have hserial := (CertificateAuthority.leaf_issued_from hx509 hleaf.symm).serial_number
  refine ⟨bytes, ?_⟩
  show serial_hex issued = _
  rw [serial_hex, hserial]

/-- The loop of the CRL lists a row with such a serial, unless it ends with an error. -/
theorem not_skipped {row : RevokedEntry} {bytes : { b : Bytes // b.length = 16 }}
    (hserial : row.serial = hex.encode (serial_of bytes).as_bytes) {now : SystemTime}
    {entry : Option RevokedCert} (h : Crl.revoked_cert X row now = .ok entry) :
    entry.map RevokedCert.serial_number = some (serial_of bytes) := by
  have hdecode : Crl.decode_serial row.serial = some (serial_of bytes) := by
    rw [Crl.decode_serial, hserial, hex.decode_encode, Option.bind_some, new_serial_of]
    rfl
  rw [Crl.serial_of_entry h, hdecode]

/-- **One number, however it is written.** For whatever the generator returns, the octets of
the serial, its decimal text, its hex text, what the responder looks up and what the CRL reads
are of one positive number, and no other serial has the texts. No row of an enrolment is skipped
by the CRL. -/
theorem serial_encodings (hx509 : X.X509Law) :
    (∀ tr r, Returns random_serial tr r →
      ∃ bytes s, tr = [⟨Op.fill_bytes 16, bytes⟩] ∧ r = .ok s ∧ Encodes X s) ∧
    (∀ tr tr' s s', Returns random_serial tr (.ok s) → Returns random_serial tr' (.ok s') →
      s ≠ s' → ∀ cert cert' : Certificate, cert.tbs_certificate.serial_number = s →
        cert'.tbs_certificate.serial_number = s' →
        serial_decimal cert ≠ serial_decimal cert' ∧ serial_hex cert ≠ serial_hex cert') ∧
    ∀ state profile body tr r, Returns (pki_operation X state profile body) tr r →
      ∀ row, ∀ e ∈ tr, Submits row e → ∀ revoked_at reason now entry,
        Crl.revoked_cert X ⟨row.serial, revoked_at, reason⟩ now = .ok entry →
        ∃ s date, entry = some ⟨s, date⟩ ∧ row.serial = hex.encode s.as_bytes := by
  refine ⟨?_, ?_, ?_⟩
  · intro tr r h
    obtain ⟨bytes, rfl, rfl⟩ := random_serial_returns.mp h
    exact ⟨bytes, _, rfl, rfl, encodes_serial X bytes⟩
  · intro tr tr' s s' h h' hne cert cert' hcert hcert'
    obtain ⟨bytes, _, hs⟩ := random_serial_returns.mp h
    obtain ⟨bytes', _, hs'⟩ := random_serial_returns.mp h'
    obtain rfl := Except.ok.inj hs
    obtain rfl := Except.ok.inj hs'
    exact texts_differ hne hcert hcert'
  · intro state profile body tr r hrun row e he hrow revoked_at reason now entry hentry
    obtain ⟨bytes, hserial⟩ := submitted_serial hx509 hrun he hrow
    obtain ⟨⟨s, date⟩, rfl, hs⟩ := Option.map_eq_some_iff.mp (not_skipped hserial hentry)
    obtain rfl : s = serial_of bytes := hs
    exact ⟨_, date, rfl, hserial⟩

/-- The serial of the device. -/
theorem device_serial_encodes : Encodes Reference.crates (serial_of Device.serial_octets) := by
  obtain ⟨_, s, _, hs, hencodes⟩ := (serial_encodings Reference.x509_law).1
    [⟨Op.fill_bytes 16, Device.serial_octets⟩] _ (random_serial_returns.mpr ⟨_, rfl, rfl⟩)
  rw [Except.ok.inj hs]
  exact hencodes

end Scep

end Blapki
