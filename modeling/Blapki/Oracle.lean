/-
What a client learns of the RSA unwrap: two runs of the handler on one message,
with two unwrap functions.

Up to the unwrap the runs agree because nothing before it looks at it. Behind it
they agree in `open_` when neither unwrap gives a usable key, and in the handler
whenever no CSR comes out, because every failure on the way there has the same
reply.
-/
import Blapki.Soundness

set_option autoImplicit false

namespace Blapki

open Codec Effect

namespace Scep

variable {X : Crates}

/-! ## Nothing else looks at the unwrap -/

theorem parse_and_verify_with_unwrap (D : RsaPrivateKey → Bytes → Except String Bytes)
    (body : Bytes) : Verify.parse_and_verify (X.with_unwrap D) body = Verify.parse_and_verify X body :=
  rfl

theorem add_signed_attributes_with_unwrap (D : RsaPrivateKey → Bytes → Except String Bytes)
    (attrs : List Attribute) (b : SignerInfoBuilder) :
    add_signed_attributes (X.with_unwrap D) b attrs = add_signed_attributes X b attrs := by
  induction attrs generalizing b with
  | nil => rfl
  | cons a attrs ih =>
      rw [add_signed_attributes, add_signed_attributes]
      simp only [ih]
      rfl

theorem build_failure_with_unwrap (D : RsaPrivateKey → Bytes → Except String Bytes)
    (ca : CertificateAuthority) (parsed : ParsedRequest) (fail : FailInfo) :
    build_failure (X.with_unwrap D) ca parsed fail = build_failure X ca parsed fail := by
  unfold build_failure build_cert_rep
  simp only [add_signed_attributes_with_unwrap]
  rfl

theorem Accepted.with_unwrap {state : AppState} {profile : String} {body : Bytes}
    {rt : ProfileRuntime} {ca : CertificateAuthority} {parsed : ParsedRequest}
    {enveloped : EnvelopedData} (h : Accepted X state profile body rt ca parsed enveloped)
    (D : RsaPrivateKey → Bytes → Except String Bytes) :
    Accepted (X.with_unwrap D) state profile body rt ca parsed enveloped :=
  ⟨h.profile, h.ca, by rw [parse_and_verify_with_unwrap, h.verified], h.message_type, h.enveloped⟩

/-- Whatever the unwrap does, a request whose CSR is not recovered gets the one reply. -/
theorem pki_operation_of_unrecovered {state : AppState} {profile : String} {body : Bytes}
    {rt : ProfileRuntime} {ca : CertificateAuthority} {parsed : ParsedRequest}
    {enveloped : EnvelopedData} (hacc : Accepted X state profile body rt ca parsed enveloped)
    {D : RsaPrivateKey → Bytes → Except String Bytes} {e : AppError}
    (h : recover_csr (X.with_unwrap D) ca enveloped = .error e) :
    pki_operation (X.with_unwrap D) state profile body
      = build_failure X ca parsed .BadMessageCheck := by
  rw [pki_operation_of_accepted (hacc.with_unwrap D), h]
  exact build_failure_with_unwrap D ca parsed .BadMessageCheck

/-- The run of a FAILURE reply draws a nonce: it asks no validator and leaves the
database as it is. -/
theorem build_failure_quiet {ca : CertificateAuthority} {parsed : ParsedRequest}
    {fail : FailInfo} {tr : Trace} {r : AppResult Bytes}
    (h : Returns (build_failure X ca parsed fail) tr r) :
    (∀ v input x, ⟨Op.validate v input, x⟩ ∉ tr) ∧
      ∀ (faulty : Prop) db db', Steps (step faulty) db tr db' → db' = db := by
  have hdraws := (build_failure_returns h).1
  refine ⟨fun v input x hmem => ?_, fun faulty db db' hworld => (steps_draws hdraws).mp hworld⟩
  exact Bool.noConfusion (hdraws _ hmem)

/-! ## No oracle -/

/-- **No padding oracle.** For a message that is accepted, under any two unwraps:
the recipient is chosen, and `open_` fails before the unwrap, the same way; where
neither gives a key of the right length, `open_` returns the same; and where the
CSR comes out under neither, for whatever reason, both requests are the one
program that answers badMessageCheck, which asks no validator and changes
nothing. -/
theorem no_padding_oracle {state : AppState} {profile : String} {body : Bytes}
    {rt : ProfileRuntime} {ca : CertificateAuthority} {parsed : ParsedRequest}
    {enveloped : EnvelopedData} (hacc : Accepted X state profile body rt ca parsed enveloped)
    (D₁ D₂ : RsaPrivateKey → Bytes → Except String Bytes) :
    (Envelope.select_recipient (X.with_unwrap D₁) enveloped ca.cert
        = Envelope.select_recipient (X.with_unwrap D₂) enveloped ca.cert ∧
      Envelope.public_checks (X.with_unwrap D₁) enveloped ca.cert
        = Envelope.public_checks (X.with_unwrap D₂) enveloped ca.cert) ∧
    ((∀ o, Envelope.public_checks X enveloped ca.cert = .ok o →
        Envelope.Rejects D₁ ca.private_key o ∧ Envelope.Rejects D₂ ca.private_key o) →
      Envelope.open_ (X.with_unwrap D₁) enveloped ca.cert ca.private_key
        = Envelope.open_ (X.with_unwrap D₂) enveloped ca.cert ca.private_key) ∧
    (∀ e₁ e₂, recover_csr (X.with_unwrap D₁) ca enveloped = .error e₁ →
      recover_csr (X.with_unwrap D₂) ca enveloped = .error e₂ →
        pki_operation (X.with_unwrap D₁) state profile body
          = build_failure X ca parsed .BadMessageCheck ∧
        pki_operation (X.with_unwrap D₂) state profile body
          = build_failure X ca parsed .BadMessageCheck ∧
        ∀ tr r, Returns (build_failure X ca parsed .BadMessageCheck) tr r →
          (∀ v input x, ⟨Op.validate v input, x⟩ ∉ tr) ∧
          ∀ (faulty : Prop) db db', Steps (step faulty) db tr db' → db' = db) := by
  refine ⟨⟨rfl, ?_⟩, fun h => Envelope.open_congr_unwrap X h, ?_⟩
  · rw [Envelope.public_checks_with_unwrap, Envelope.public_checks_with_unwrap]
  · intro e₁ e₂ h₁ h₂
    exact ⟨pki_operation_of_unrecovered hacc h₁, pki_operation_of_unrecovered hacc h₂,
      fun tr r hrun => build_failure_quiet hrun⟩

/-- An unwrap that always fails and one that always gives a key of one octet cannot be
told apart on the message of the device. -/
theorem device_no_padding_oracle :
    pki_operation (Reference.crates.with_unwrap fun _ _ => .error "decryption error") Device.server
        "device" Device.pkcs_req
      = pki_operation (Reference.crates.with_unwrap fun _ _ => .ok [0]) Device.server
        "device" Device.pkcs_req := by
  obtain ⟨_, _, hreply⟩ := no_padding_oracle (Device.accepted Device.read_txn (enc (Device.csr "s3cret")))
    (fun _ _ => .error "decryption error") fun _ _ => .ok [0]
  have hfails₁ : ∃ e, recover_csr (Reference.crates.with_unwrap fun _ _ => .error "decryption error")
      Device.ca (Device.enveloped (enc (Device.csr "s3cret"))) = .error e :=
    exists_error_of_toBool (by decide +kernel)
  have hfails₂ : ∃ e, recover_csr (Reference.crates.with_unwrap fun _ _ => .ok [0])
      Device.ca (Device.enveloped (enc (Device.csr "s3cret"))) = .error e :=
    exists_error_of_toBool (by decide +kernel)
  obtain ⟨e₁, h₁⟩ := hfails₁
  obtain ⟨e₂, h₂⟩ := hfails₂
  obtain ⟨hrun₁, hrun₂, _⟩ := hreply e₁ e₂ h₁ h₂
  exact hrun₁.trans hrun₂.symm

end Scep

end Blapki
