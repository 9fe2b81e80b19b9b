/-
Challenge validation strategies (`challenge/mod.rs`).

A profile validates the `challengePassword` of a request against a static secret,
by asking Microsoft Intune, or not at all. The calls of the trait are requests to
the environment (`Env.lean`); this file says what a call may answer. The static
and the absent validator are computed here. The Intune one is another service:
any answer is possible.
-/
import Blapki.Basic

set_option autoImplicit false

namespace Blapki

/-- Everything a validator needs to make a decision. -/
structure ValidationInput where
  transaction_id : String
  /-- DER-encoded PKCS#10 CSR. -/
  csr_der : Bytes
  challenge_password : Option String
deriving DecidableEq, Repr

/-- Details of an issued certificate needed for Intune notifications. -/
structure IssuedInfo where
  thumbprint_sha1 : String
  serial_decimal : String
  not_after_utc : String
  issuer_cn : String
deriving DecidableEq, Repr

/-- Client for the Intune SCEP validation API, as built at start-up. -/
structure IntuneClient where
  tenant_id : String
  client_id : String
  client_secret : String
  login_host : String
  intune_resource : String
deriving DecidableEq, Repr

/-- The implementations of the `ChallengeValidator` trait. -/
inductive ChallengeValidator where
  /-- Compares the CSR challenge password against a configured shared secret. -/
  | StaticSecretValidator (secret : String)
  /-- Accepts every request. Only for closed test environments. -/
  | NoneValidator
  /-- Delegates validation and notification to Microsoft Intune. -/
  | IntuneValidator (client : IntuneClient)
deriving DecidableEq, Repr

/-! ## The static secret -/

/-- Constant-time byte-slice equality (avoids leaking the secret via timing). -/
def constant_time_eq (a b : Bytes) : Bool :=
  if a.length ≠ b.length then false
  else (a.zip b).foldl (fun diff xy => diff ||| (xy.1 ^^^ xy.2)) 0 == 0

/-- `StaticSecretValidator::validate`. -/
def StaticSecretValidator.validate (secret : String) (input : ValidationInput) : AppResult Unit :=
  match input.challenge_password with
  | some pw =>
      if constant_time_eq pw.as_bytes secret.as_bytes then .ok ()
      else .error (.bad_request "incorrect challenge password")
  | none => .error (.bad_request "missing challenge password")

/-- The accumulator is zero exactly when it started at zero and no pair differs. -/
private theorem foldl_diff_eq_zero (l : List (UInt8 × UInt8)) (d : UInt8) :
    l.foldl (fun diff xy => diff ||| (xy.1 ^^^ xy.2)) d = 0 ↔
      d = 0 ∧ ∀ xy ∈ l, xy.1 = xy.2 := by
  induction l generalizing d with
  | nil => simp
  | cons xy l ih =>
      rw [List.foldl_cons, ih, UInt8.or_eq_zero_iff, UInt8.xor_eq_zero_iff, List.forall_mem_cons,
        and_assoc]

/-- The comparison is equality. -/
theorem constant_time_eq_iff (a b : Bytes) : constant_time_eq a b = true ↔ a = b := by
  unfold constant_time_eq
  by_cases hlen : a.length = b.length
  · rw [if_neg (not_not.mpr hlen), beq_iff_eq, foldl_diff_eq_zero]
    -- no difference at any position, so the lists agree at every index
    refine ⟨fun h => ?_, ?_⟩
    · refine List.ext_getElem hlen fun i ha hb => ?_
      have hmem : (a[i], b[i]) ∈ a.zip b := by
        rw [← List.getElem_zip (h := by rw [List.length_zip]; omega)]
        exact List.getElem_mem _
      exact h.2 _ hmem
    · rintro rfl
      refine ⟨rfl, fun xy hxy => ?_⟩
      obtain ⟨i, hi, rfl⟩ := List.getElem_of_mem hxy
      rw [List.getElem_zip]
  · rw [if_pos hlen]
    exact ⟨fun h => absurd h (by simp), fun h => absurd (congrArg List.length h) hlen⟩

/-- The static validator accepts exactly the requests that carry the secret. -/
theorem StaticSecretValidator.validate_eq_ok {secret : String} {input : ValidationInput} :
    StaticSecretValidator.validate secret input = .ok () ↔
      ∃ pw, input.challenge_password = some pw ∧ pw.as_bytes = secret.as_bytes := by
  unfold StaticSecretValidator.validate
  cases hpw : input.challenge_password with
  -- no password in the CSR is a wrong one
  | none => simp
  | some pw =>
      have heq := constant_time_eq_iff pw.as_bytes secret.as_bytes
      by_cases h : constant_time_eq pw.as_bytes secret.as_bytes = true
      · refine iff_of_true ?_ ⟨pw, rfl, heq.mp h⟩
        simp only [if_pos h]
      · refine iff_of_false ?_ ?_
        · simp only [if_neg h]
          exact fun hno => by cases hno
        · rintro ⟨pw', hpw', hb⟩
          cases hpw'
          exact h (heq.mpr hb)

/-! ## What a call answers -/

namespace ChallengeValidator

/-- What `validate` may answer. -/
def validates : ChallengeValidator → ValidationInput → AppResult Unit → Prop
  | .StaticSecretValidator secret, input, r => r = StaticSecretValidator.validate secret input
  | .NoneValidator, _, r => r = .ok ()
  | .IntuneValidator _, _, _ => True

/-- What `on_issued` and `on_failure` may answer: the trait's default is `Ok`. -/
def notifies : ChallengeValidator → AppResult Unit → Prop
  | .StaticSecretValidator _, r => r = .ok ()
  | .NoneValidator, r => r = .ok ()
  | .IntuneValidator _, _ => True

end ChallengeValidator

end Blapki
