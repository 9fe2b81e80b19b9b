/-
The protocol between the handler and the challenge validator.

Intune keeps a state per challenge and expects one closing notification for every
request it validated. `Closed` lists what the validator sees of a request and the
reply the handler goes on to build; `validator_protocol` says that every run is one
of these, or never got to the validator. What the handler does on the way for the
record only, a notification or a statement, is best effort: `handler_determined` says
that nothing it returns depends on it.
-/
import Blapki.Enrolment

set_option autoImplicit false

namespace Blapki

open Effect

namespace Scep

variable {X : Crates}

/-! ## Calls -/

/-- A call of a validator. -/
def is_call : Event Op.Res → Bool
  | ⟨.validate _ _, _⟩ | ⟨.on_issued _ _ _, _⟩ | ⟨.on_failure _ _ _, _⟩ => true
  | _ => false

/-- What the validator sees of a run. -/
def calls (tr : Trace) : Trace := tr.filter is_call

/-- A reading of the clock or a statement. -/
def Bookkeeping (e : Event Op.Res) : Prop :=
  (∃ now, e = ⟨Op.now, now⟩) ∨ ∃ q x, e = ⟨Op.db q, x⟩

theorem calls_eq_nil {tr : Trace} (h : ∀ e ∈ tr, is_call e = false) : calls tr = [] := by
  rw [calls, List.filter_eq_nil_iff]
  intro e he
  rw [h e he]
  exact Bool.false_ne_true

theorem not_call_of_draws {e : Event Op.Res} (h : draws e = true) : is_call e = false := by
  obtain ⟨o, x⟩ := e
  cases o with
  | fill_bytes n => rfl
  | thread_rng => rfl
  | _ => exact Bool.noConfusion h

theorem not_call_of_bookkeeping {e : Event Op.Res} (h : Bookkeeping e) : is_call e = false := by
  rcases h with ⟨now, rfl⟩ | ⟨q, x, rfl⟩
  · rfl
  · rfl

theorem record_bookkeeping {rt : ProfileRuntime} {parsed : ParsedRequest}
    {status message_type : String} {tr : Trace} {r : AppResult Unit}
    (h : Returns (record rt parsed status message_type) tr r) : ∀ e ∈ tr, Bookkeeping e := by
  obtain ⟨now, t, rfl, h₁⟩ := record_returns h
  rw [List.forall_mem_cons]
  refine ⟨.inl ⟨now, rfl⟩, fun e he => ?_⟩
  obtain ⟨q, x, he, _⟩ := repo.record_transaction_frame h₁ e he
  exact .inr ⟨q, x, he⟩

theorem persist_bookkeeping {rt : ProfileRuntime} {ca : CertificateAuthority}
    {parsed : ParsedRequest} {issued : Certificate} {issued_der : Bytes} {tr : Trace}
    {r : AppResult Unit} (h : Returns (persist X rt ca parsed issued issued_der) tr r) :
    ∀ e ∈ tr, Bookkeeping e := by
  obtain ⟨now, ⟨e, rfl, _⟩ | ⟨t, recorded, rfl, hrecord, _⟩⟩ := persist_returns.mp h
  · rw [List.forall_mem_cons, List.forall_mem_singleton]
    exact ⟨.inl ⟨now, rfl⟩, .inr ⟨_, _, rfl⟩⟩
  · rw [List.forall_mem_cons, List.forall_mem_cons]
    exact ⟨.inl ⟨now, rfl⟩, .inr ⟨_, _, rfl⟩, record_bookkeeping hrecord⟩

theorem calls_append {t₁ t₂ : Trace} (h₁ : calls t₁ = []) (h₂ : calls t₂ = []) :
    calls (t₁ ++ t₂) = [] := by
  rw [calls, List.filter_append, ← calls, ← calls, h₁, h₂]
  rfl

/-- The calls of a run that makes two, and nothing but bookkeeping around them. -/
theorem calls_pair (t₁ : Trace) {a b : Event Op.Res} {t₂ : Trace} (ha : is_call a = true)
    (hb : is_call b = true) (h₁ : calls t₁ = []) (h₂ : calls t₂ = []) :
    calls (a :: (t₁ ++ b :: t₂)) = [a, b] := by
  rw [calls] at h₁ h₂ ⊢
  rw [List.filter_cons_of_pos ha, List.filter_append, List.filter_cons_of_pos hb, h₁, h₂]
  rfl

/-- What a request is closed with: the calls of the validator, all about one input, and
the reply that is attempted. -/
inductive Closed (X : Crates) (state : AppState) (rt : ProfileRuntime)
    (ca : CertificateAuthority) (parsed : ParsedRequest) (parsed_csr : ParsedCsr) :
    Trace → Async Bytes → Prop
  /-- Turned down, and reported as failed. -/
  | denied {e : AppError} {notified : AppResult Unit} {tr : Trace}
      (hcalls : calls tr = [
        ⟨Op.validate rt.validator (validation_input parsed parsed_csr), .error e⟩,
        ⟨Op.on_failure rt.validator (validation_input parsed parsed_csr) e.to_string, notified⟩]) :
      Closed X state rt ca parsed parsed_csr tr (build_failure X ca parsed .BadRequest)
  /-- Approved, and reported as failed since it could not be issued. -/
  | unissued {bytes : { b : Bytes // b.length = 16 }} {now : SystemTime} {e : AppError}
      {notified : AppResult Unit} {tr rest : Trace}
      (hdrawn : tr = ⟨Op.validate rt.validator (validation_input parsed parsed_csr), .ok ()⟩ ::
        ⟨Op.fill_bytes 16, bytes⟩ :: ⟨Op.now, now⟩ :: rest)
      (hleaf : ca.leaf X parsed_csr.req (issue_options state rt) (serial_of bytes) now = .error e)
      (hcalls : calls tr = [
        ⟨Op.validate rt.validator (validation_input parsed parsed_csr), .ok ()⟩,
        ⟨Op.on_failure rt.validator (validation_input parsed parsed_csr) e.to_string, notified⟩]) :
      Closed X state rt ca parsed parsed_csr tr (build_failure X ca parsed .BadRequest)
  /-- Approved, issued, and reported as issued. -/
  | issued {bytes : { b : Bytes // b.length = 16 }} {now : SystemTime} {issued : Certificate}
      {issued_der : Bytes} {notified : AppResult Unit} {tr rest : Trace}
      (hdrawn : tr = ⟨Op.validate rt.validator (validation_input parsed parsed_csr), .ok ()⟩ ::
        ⟨Op.fill_bytes 16, bytes⟩ :: ⟨Op.now, now⟩ :: rest)
      (hleaf : ca.leaf X parsed_csr.req (issue_options state rt) (serial_of bytes) now = .ok issued)
      (hder : X.certificate_to_der issued = .ok issued_der)
      (hcalls : calls tr = [
        ⟨Op.validate rt.validator (validation_input parsed parsed_csr), .ok ()⟩,
        ⟨Op.on_issued rt.validator (validation_input parsed parsed_csr)
          (issued_info X ca issued issued_der), notified⟩]) :
      Closed X state rt ca parsed parsed_csr tr (build_success X ca parsed issued)

/-- The run went to the validator, was closed, and then built the reply. -/
structure Validated (X : Crates) (state : AppState) (profile : String) (body : Bytes) (tr : Trace)
    (r : AppResult Bytes) (rt : ProfileRuntime) (ca : CertificateAuthority)
    (parsed : ParsedRequest) (parsed_csr : ParsedCsr) (reply : Async Bytes) : Prop where
  accepted : ∃ enveloped, Accepted X state profile body rt ca parsed enveloped ∧
    recover_csr X ca enveloped = .ok parsed_csr
  closed : Closed X state rt ca parsed parsed_csr tr reply
  replied : ∃ t₁ t₂, tr = t₁ ++ t₂ ∧ calls t₂ = [] ∧ Returns reply t₂ r

/-- The request was rejected before a CSR was recovered. -/
def Rejected (X : Crates) (state : AppState) (profile : String) (body : Bytes) : Prop :=
  ∀ rt ca parsed enveloped parsed_csr, Accepted X state profile body rt ca parsed enveloped →
    recover_csr X ca enveloped ≠ .ok parsed_csr

/-- Every run is rejected early, or validated and closed. -/
theorem run_calls
    (hencode : ∀ b cert, X.certificate_builder_build b = .ok cert →
      ∃ der, X.certificate_to_der cert = .ok der)
    {state : AppState} {profile : String} {body : Bytes} {tr : Trace} {r : AppResult Bytes}
    (h : Returns (pki_operation X state profile body) tr r) :
    (calls tr = [] ∧ Rejected X state profile body) ∨
      ∃ rt ca parsed parsed_csr reply,
        Validated X state profile body tr r rt ca parsed parsed_csr reply := by
  have hdraws : ∀ {tr : Trace}, (∀ e ∈ tr, draws e = true) → calls tr = [] :=
    fun htr => calls_eq_nil fun e he => not_call_of_draws (htr e he)
  have hkeeps : ∀ {tr : Trace}, (∀ e ∈ tr, Bookkeeping e) → calls tr = [] :=
    fun htr => calls_eq_nil fun e he => not_call_of_bookkeeping (htr e he)
  rcases pki_operation_exit h with hrefused | ⟨hacc, hrecover, hreply⟩ |
    ⟨hacc, hrecover, hrecord, hreply⟩ | ⟨hacc, hrecover, hleaf, hreply⟩ |
    ⟨hacc, hrecover, hleaf, hder⟩ | ⟨hacc, hrecover, hleaf, hder, hpersist, hreply⟩
  · exact .inl ⟨rfl, fun rt ca parsed enveloped _ hacc _ => hrefused rt ca parsed enveloped hacc⟩
  · refine .inl ⟨hdraws (build_failure_returns hreply).1, ?_⟩
    intro rt ca parsed enveloped parsed_csr hacc' hrecover'
    obtain ⟨_, rfl, _, rfl⟩ := hacc.unique hacc'
    rw [hrecover] at hrecover'
    cases hrecover'
  · have hquiet := hdraws (build_failure_returns hreply).1
    have hrest := calls_append (hkeeps (record_bookkeeping hrecord)) hquiet
    exact .inr ⟨_, _, _, _, _, ⟨_, hacc, hrecover⟩, .denied (calls_pair [] rfl rfl rfl hrest),
      _ :: _ :: _, _, rfl, hquiet, hreply⟩
  · have hquiet := hdraws (build_failure_returns hreply).1
    exact .inr ⟨_, _, _, _, _, ⟨_, hacc, hrecover⟩,
      .unissued rfl hleaf (calls_pair [_, _] rfl rfl rfl hquiet),
      [_, _, _, _], _, rfl, hquiet, hreply⟩
  · -- An issued certificate is encoded.
    simp only [CertificateAuthority.leaf, bind_eq_ok, map_err_eq_ok] at hleaf
    obtain ⟨_, _, _, _, _, _, _, _, b, _, hbuild⟩ := hleaf
    obtain ⟨der, hok⟩ := hencode b _ hbuild
    rw [hok] at hder
    cases hder
  · have hquiet := hdraws (build_success_returns hreply).1
    have hkept := hkeeps (persist_bookkeeping hpersist)
    exact .inr ⟨_, _, _, _, _, ⟨_, hacc, hrecover⟩,
      .issued rfl hleaf hder (calls_pair (_ :: _ :: _) rfl rfl hkept hquiet),
      _, _, List.append_cons (_ :: _ :: _ :: _) _ _, hquiet, hreply⟩

/-! ## Best effort -/

/-- What a run depends on: the verdict of the validator and what is drawn. -/
def decisive (e : Event Op.Res) : Bool :=
  match e with
  | ⟨.validate _ _, _⟩ => true
  | e => draws e

/-- The clock shows this time. -/
def Shows (time : SystemTime) (e : Event Op.Res) : Prop := ∀ now, e = ⟨Op.now, now⟩ → now = time

section Determined

variable {time : SystemTime}

theorem not_decisive_of_bookkeeping {e : Event Op.Res} (h : Bookkeeping e) :
    decisive e = false := by
  rcases h with ⟨now, rfl⟩ | ⟨q, x, rfl⟩
  · rfl
  · rfl

theorem fill_bytes_determined (n : Nat) : Determined decisive (Shows time) (fill_bytes n) :=
  determined_request fun _ => rfl

theorem now_determined : Determined decisive (Shows time) system_time_now := by
  refine determined_request_fixed (fun _ => rfl) fun now now' h h' => ?_
  rw [h now rfl, h' now' rfl]

theorem build_failure_determined (ca : CertificateAuthority) (parsed : ParsedRequest)
    (fail : FailInfo) : Determined decisive (Shows time) (build_failure X ca parsed fail) := by
  refine determined_bind ?_ fun attrs => determined_lift _
  refine determined_bind (determined_lift _) fun _ => determined_bind (determined_lift _) fun _ => ?_
  refine determined_bind (determined_lift _) fun _ => determined_bind (determined_lift _) fun _ => ?_
  refine determined_bind (fill_bytes_determined _) fun _ => ?_
  refine determined_bind (determined_lift _) fun _ => determined_bind (determined_lift _) fun _ => ?_
  exact determined_pure _

theorem build_success_determined (ca : CertificateAuthority) (parsed : ParsedRequest)
    (issued : Certificate) : Determined decisive (Shows time) (build_success X ca parsed issued) := by
  refine determined_bind (determined_lift _) fun certs => ?_
  refine determined_bind ?_ fun env_der => determined_bind ?_ fun attrs => determined_lift _
  · refine determined_bind (fill_bytes_determined _) fun cek => ?_
    refine determined_bind (fill_bytes_determined _) fun iv => ?_
    refine determined_bind (determined_request fun _ => rfl) fun seed => ?_
    exact determined_bind (determined_lift _) fun key => determined_lift _
  · refine determined_bind (determined_lift _) fun _ => determined_bind (determined_lift _) fun _ => ?_
    refine determined_bind (determined_lift _) fun _ => ?_
    refine determined_bind (fill_bytes_determined _) fun _ => ?_
    refine determined_bind (determined_lift _) fun _ => determined_bind (determined_lift _) fun _ => ?_
    exact determined_pure _

theorem issue_determined (ca : CertificateAuthority) (csr : CertReq) (opts : IssueOptions) :
    Determined decisive (Shows time) (ca.issue X csr opts) := by
  refine determined_bind ?_ fun serial => determined_bind now_determined fun now => determined_lift _
  exact determined_bind (fill_bytes_determined _) fun bytes => determined_pure _

theorem enrol_determined (state : AppState) (rt : ProfileRuntime) (ca : CertificateAuthority)
    (parsed : ParsedRequest) (parsed_csr : ParsedCsr) :
    Determined decisive (Shows time) (enrol X state rt ca parsed parsed_csr) := by
  have hfailed : ∀ (input : ValidationInput) (message : String) tr r,
      Returns (rt.validator.on_failure input message) tr r → ∀ e ∈ tr, decisive e = false := by
    intro input message tr r h
    rw [(ChallengeValidator.on_failure_returns tr r).mp h, List.forall_mem_singleton]
    rfl
  refine determined_bind (determined_attempt ?_) fun validated => ?_
  · exact determined_bind (determined_request fun _ => rfl) fun _ => determined_lift _
  rcases validated with e | ⟨⟩
  · refine determined_best_effort (hfailed _ _) (determined_best_effort ?_
      (build_failure_determined ca parsed _))
    exact fun tr r h e he => not_decisive_of_bookkeeping (record_bookkeeping h e he)
  refine determined_bind (determined_attempt (issue_determined ca _ _)) fun issued => ?_
  rcases issued with e | issued
  · exact determined_best_effort (hfailed _ _) (build_failure_determined ca parsed _)
  refine determined_bind (determined_lift _) fun issued_der => ?_
  refine determined_best_effort ?_ (determined_best_effort ?_
    (build_success_determined ca parsed issued))
  · exact fun tr r h e he => not_decisive_of_bookkeeping (persist_bookkeeping h e he)
  · intro tr r h
    rw [(ChallengeValidator.on_issued_returns tr r).mp h, List.forall_mem_singleton]
    rfl

/-- Neither the notifications nor the statements have an influence on the result. -/
theorem handler_determined (state : AppState) (profile : String) (body : Bytes) :
    Determined decisive (Shows time) (pki_operation X state profile body) := by
  refine determined_bind (determined_lift _) fun rt => determined_bind (determined_lift _) fun ca => ?_
  refine determined_bind (determined_lift _) fun parsed => ?_
  refine determined_bind (determined_lift _) fun _ => determined_bind (determined_lift _) fun env => ?_
  cases recover_csr X ca env with
  | error e => exact build_failure_determined ca parsed _
  | ok parsed_csr => exact enrol_determined state rt ca parsed parsed_csr

end Determined

/-- **The protocol with the validator**: a run makes no call, or validates its request
and closes it with the one matching notification; and for the same verdict, draws and
time the result is the same, whatever the notifications and the statements return. -/
theorem validator_protocol
    (hencode : ∀ b cert, X.certificate_builder_build b = .ok cert →
      ∃ der, X.certificate_to_der cert = .ok der)
    {state : AppState} {profile : String} {body : Bytes} {tr : Trace} {r : AppResult Bytes}
    (h : Returns (pki_operation X state profile body) tr r) :
    ((calls tr = [] ∧ Rejected X state profile body) ∨
      ∃ rt ca parsed parsed_csr reply,
        Validated X state profile body tr r rt ca parsed parsed_csr reply) ∧
    ∀ time tr' r', Returns (pki_operation X state profile body) tr' r' →
      tr'.filter decisive = tr.filter decisive →
      (∀ e ∈ tr, Shows time e) → (∀ e ∈ tr', Shows time e) → r' = r := by
  refine ⟨run_calls hencode h, ?_⟩
  intro time tr' r' h' hsame htime htime'
  exact (handler_determined state profile body).result h' h htime' htime hsame

/-- The enrolled device is validated, and closed. -/
theorem device_validated :
    ∃ tr r rt ca parsed parsed_csr reply,
      Validated Reference.crates Device.server "device" Device.pkcs_req tr r rt ca parsed
        parsed_csr reply := by
  obtain ⟨issued, tr, der, db', _, hrun, _, _, hmem, _⟩ := Device.enrolled
  rcases (validator_protocol (fun _ _ _ => ⟨_, rfl⟩) hrun).1 with ⟨_, hrejected⟩ | hvalidated
  · -- A run that inserts recovered a CSR.
    obtain ⟨rt, ca, parsed, enveloped, parsed_csr, _, _, _, hissuance, _⟩ :=
      issuance_of_submits hrun hmem ⟨_, rfl⟩
    exact absurd hissuance.recovered (hrejected _ _ _ _ _ hissuance.accepted)
  · exact ⟨_, _, hvalidated⟩

end Scep

end Blapki
