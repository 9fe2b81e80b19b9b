/-
What an enrolment does: whom it issues to, what it stores, what it answers.

Everything here is read off the ways out of the handler (`Scep.Exit`). A
certificate comes from one of them only, `delivered`, and on the way there the
request was verified, opened, parsed and approved.
-/
import Blapki.Device
import Blapki.Lifecycle

set_option autoImplicit false

namespace Blapki

open Effect Verify

namespace Scep

variable {X : Crates}

/-! ## Recovered requests -/

/-- A recovered CSR is the parse of the octets the envelope opened to. -/
theorem recover_csr_eq_ok {ca : CertificateAuthority} {enveloped : EnvelopedData}
    {parsed_csr : ParsedCsr} (h : recover_csr X ca enveloped = .ok parsed_csr) :
    Envelope.open_ X enveloped ca.cert ca.private_key = .ok parsed_csr.der ∧
      csr.parse X parsed_csr.der = .ok parsed_csr := by
  simp only [recover_csr, bind_eq_ok] at h
  obtain ⟨c, hopen, hparse⟩ := h
  have hder := (csr.parse_eq_ok X).mp hparse
  rw [hder.2.1]
  exact ⟨hopen, hparse⟩

/-- An answer in the trace is one the world may give. -/
theorem validates_of_mem {faulty : Prop} {db db' : Db} {tr : Trace} {v : ChallengeValidator}
    {input : ValidationInput} {r : AppResult Unit} (h : Steps (step faulty) db tr db')
    (hmem : ⟨Op.validate v input, r⟩ ∈ tr) : v.validates input r := by
  obtain ⟨_, _, _, _, _, _, hstep, _⟩ := h.mem hmem
  exact hstep.1

/-! ## Whom a certificate is issued to -/

/-- What stands behind an issued certificate: a verified enrolment message, the
CSR its envelope opened to under the CA key of the profile, and the approval of
the validator of the profile for exactly that CSR. -/
structure Authorized (X : Crates) (state : AppState) (profile : String) (body : Bytes)
    (tr : Trace) (rt : ProfileRuntime) (ca : CertificateAuthority) (parsed : ParsedRequest)
    (parsed_csr : ParsedCsr) (issued : Certificate) : Prop where
  runtime : state.profiles.lookup profile = some rt
  authority : state.cas.lookup rt.ca_id = some ca
  verified : parse_and_verify X body = .ok parsed
  message_type : parsed.message_type = .PkcsReq ∨ parsed.message_type = .RenewalReq
  opened : ∃ enveloped, parsed.enveloped = some enveloped ∧
    Envelope.open_ X enveloped ca.cert ca.private_key = .ok parsed_csr.der
  csr : csr.parse X parsed_csr.der = .ok parsed_csr
  approved : ⟨Op.validate rt.validator
    ⟨parsed.transaction_id, parsed_csr.der, parsed_csr.challenge_password⟩, .ok ()⟩ ∈ tr
  secret : ∀ secret, rt.validator = .StaticSecretValidator secret →
    ∃ pw, parsed_csr.challenge_password = some pw ∧ pw.as_bytes = secret.as_bytes
  issued_from : ∃ serial, CertificateAuthority.IssuedFrom X ca parsed_csr.req serial issued

/-- A delivered certificate is authorized. -/
theorem authorized_of_delivered (hx509 : X.X509Law) {state : AppState} {profile : String}
    {body : Bytes} {rt : ProfileRuntime} {ca : CertificateAuthority} {parsed : ParsedRequest}
    {enveloped : EnvelopedData} {parsed_csr : ParsedCsr} {serial : SerialNumber} {now : SystemTime}
    {issued : Certificate} {tr : Trace} {faulty : Prop} {db db' : Db}
    (hacc : Accepted X state profile body rt ca parsed enveloped)
    (hrecover : recover_csr X ca enveloped = .ok parsed_csr)
    (hleaf : ca.leaf X parsed_csr.req (issue_options state rt) serial now = .ok issued)
    (hmem : ⟨Op.validate rt.validator (validation_input parsed parsed_csr), .ok ()⟩ ∈ tr)
    (hworld : Steps (step faulty) db tr db') :
    Authorized X state profile body tr rt ca parsed parsed_csr issued := by
  obtain ⟨hopen, hcsr⟩ := recover_csr_eq_ok hrecover
  refine ⟨hacc.profile, hacc.ca, hacc.verified, hacc.message_type,
    ⟨enveloped, hacc.enveloped, hopen⟩, hcsr, hmem, ?_,
    ⟨serial, CertificateAuthority.leaf_issued_from hx509 hleaf⟩⟩
  intro secret hstatic
  have hvalid := validates_of_mem hworld hmem
  rw [hstatic] at hvalid
  exact StaticSecretValidator.validate_eq_ok.mp hvalid.symm

/-- A persisting run adds its row or nothing. -/
theorem persist_rows {rt : ProfileRuntime} {ca : CertificateAuthority} {parsed : ParsedRequest}
    {issued : Certificate} {issued_der : Bytes} {tr : Trace} {r : AppResult Unit} {faulty : Prop}
    {db db' : Db} (hrun : Returns (persist X rt ca parsed issued issued_der) tr r)
    (hworld : Steps (step faulty) db tr db') :
    db'.issued_certificate = db.issued_certificate ∨
      ∃ created_at, db'.issued_certificate.rows = db.issued_certificate.rows ++
        [issued_row X rt ca parsed issued issued_der created_at] := by
  obtain ⟨now, ⟨e, rfl, _⟩ | ⟨t, recorded, rfl, hrecord, _⟩⟩ := persist_returns.mp hrun
  · left
    obtain ⟨u, hnow, hworld₁⟩ := steps_cons.mp hworld
    obtain ⟨u', hins, hnil⟩ := steps_cons.mp hworld₁
    obtain rfl := steps_nil.mp hnil
    rw [show u = db from hnow] at hins
    rcases repo.step_issued hins with ⟨_, hno, _⟩ | ⟨_, _, _, _, hno, _⟩ | ⟨_, _, hsame⟩
    · cases hno
    · cases hno
    · exact hsame
  · right
    obtain ⟨u, hnow, hworld₁⟩ := steps_cons.mp hworld
    obtain ⟨u', hins, hworld₂⟩ := steps_cons.mp hworld₁
    rw [show u = db from hnow] at hins
    refine ⟨utc_text now, ?_⟩
    rw [steps_frame_issued hworld₂ (record_frame hrecord)]
    have hexec := repo.step_ok hins
    rw [show u' = _ from congrArg Prod.snd hexec]
    exact (exec_insert_issued_ok (congrArg Prod.fst hexec).symm).2

/-- A persisting run adds its row under a new serial. -/
theorem persist_stores {rt : ProfileRuntime} {ca : CertificateAuthority} {parsed : ParsedRequest}
    {issued : Certificate} {issued_der : Bytes} {tr : Trace} {r : AppResult Unit} {db db' : Db}
    (hrun : Returns (persist X rt ca parsed issued issued_der) tr r)
    (hworld : Steps (step False) db tr db')
    (hnew : serial_hex issued ∉ db.issued_certificate.rows.map IssuedCertificate.serial) :
    ∃ created_at, ⟨Op.db (.insert_issued (issued_row X rt ca parsed issued issued_der created_at)),
        .ok ()⟩ ∈ tr ∧
      db'.issued_certificate.rows = db.issued_certificate.rows ++
        [issued_row X rt ca parsed issued issued_der created_at] := by
  obtain ⟨now, ⟨e, rfl, _⟩ | ⟨t, recorded, rfl, hrecord, _⟩⟩ := persist_returns.mp hrun
  · obtain ⟨u, rfl, hworld₁⟩ := steps_cons.mp hworld
    obtain ⟨u', hins, _⟩ := steps_cons.mp hworld₁
    rcases hins with hexec | ⟨hno, _⟩
    · have hok := congrArg Prod.fst hexec
      rw [exec_insert_issued_new hnew] at hok
      cases hok
    · exact absurd hno id
  · obtain ⟨u, rfl, hworld₁⟩ := steps_cons.mp hworld
    obtain ⟨u', hins, hworld₂⟩ := steps_cons.mp hworld₁
    refine ⟨utc_text now, List.mem_cons_of_mem _ List.mem_cons_self, ?_⟩
    have hexec := repo.step_ok hins
    rw [steps_frame_issued hworld₂ (record_frame hrecord),
      show u' = _ from congrArg Prod.snd hexec]
    exact (exec_insert_issued_ok (congrArg Prod.fst hexec).symm).2

/-- What `build_failure` returns to an accepted request is a FAILURE reply. -/
theorem build_failure_reply (hcms : X.CmsLaw) {ca : CertificateAuthority}
    {state : AppState} {profile : String} {body : Bytes} {rt : ProfileRuntime}
    {parsed : ParsedRequest} {enveloped : EnvelopedData} {fail : FailInfo} {tr : Trace}
    {r : AppResult Bytes} (hacc : Accepted X state profile body rt ca parsed enveloped)
    (h : Returns (build_failure X ca parsed fail) tr r) :
    ∀ der, r = .ok der → ∃ m, FailureReply X ca.signing_key ca.cert parsed fail der m := by
  intro der hder
  obtain ⟨hprint, nonce, hbuild⟩ := (build_failure_returns h).2 der hder
  obtain ⟨m, alg, haccepts⟩ := parse_and_verify_accepts X hacc.verified
  exact failure_reply hcms hprint haccepts.nonce_fits hbuild

/-- What `build_success` returns to an accepted request is a SUCCESS reply around an
envelope for the requester. -/
theorem build_success_reply (hcms : X.CmsLaw) (hrsa : X.RsaLaw) (hcipher : X.CipherLaw)
    {ca : CertificateAuthority} {state : AppState} {profile : String} {body : Bytes}
    {rt : ProfileRuntime} {parsed : ParsedRequest} {enveloped : EnvelopedData}
    {issued : Certificate} {tr : Trace} {der : Bytes}
    (hacc : Accepted X state profile body rt ca parsed enveloped)
    (h : Returns (build_success X ca parsed issued) tr (.ok der)) :
    ∃ certs env_der m, certs_only X issued = .ok certs ∧
      Envelope.EnvelopeFor X env_der parsed.recipient certs ∧
      SuccessReply X ca.signing_key ca.cert parsed env_der der m := by
  obtain ⟨hprint, certs, env_der, t, nonce, hcerts, henv, hbuild⟩ :=
    (build_success_returns h).2 der rfl
  obtain ⟨m, alg, haccepts⟩ := parse_and_verify_accepts X hacc.verified
  obtain ⟨m', hreply⟩ := success_reply hcms hprint haccepts.nonce_fits hbuild
  exact ⟨certs, env_der, m', hcerts, Envelope.build_for_envelope X hrsa hcipher henv, hreply⟩

/-- A run that ends in `build_failure` and writes nothing. -/
theorem unsuccessful_of_failure (hcms : X.CmsLaw) {ca : CertificateAuthority}
    {state : AppState} {profile : String} {body : Bytes} {rt : ProfileRuntime}
    {parsed : ParsedRequest} {enveloped : EnvelopedData} {fail : FailInfo} {t tr : Trace}
    {r : AppResult Bytes} {faulty : Prop} {db db' : Db}
    (hacc : Accepted X state profile body rt ca parsed enveloped)
    (hreply : Returns (build_failure X ca parsed fail) t r)
    (hquiet : ∀ e ∈ tr, writes_issued e = false) (hworld : Steps (step faulty) db tr db') :
    (∀ der, r = .ok der → ¬ IsSuccess X der) ∧
      db'.issued_certificate = db.issued_certificate := by
  refine ⟨fun der hder => ?_, steps_frame_issued hworld hquiet⟩
  obtain ⟨m, hm⟩ := build_failure_reply hcms hacc hreply der hder
  exact hm.not_success

/-- Only the persisting stage of a delivery touches the table. -/
theorem delivered_rows {rt : ProfileRuntime} {ca : CertificateAuthority} {parsed : ParsedRequest}
    {issued : Certificate} {issued_der : Bytes} {input : ValidationInput}
    {bytes : { b : Bytes // b.length = 16 }} {now : SystemTime} {info : IssuedInfo}
    {validated notified persisted : AppResult Unit} {t₁ t₂ : Trace} {r : AppResult Bytes}
    {faulty : Prop} {db db' : Db}
    (hpersist : Returns (persist X rt ca parsed issued issued_der) t₁ persisted)
    (hreply : Returns (build_success X ca parsed issued) t₂ r)
    (hworld : Steps (step faulty) db (⟨Op.validate rt.validator input, validated⟩ ::
      ⟨Op.fill_bytes 16, bytes⟩ :: ⟨Op.now, now⟩ ::
      (t₁ ++ ⟨Op.on_issued rt.validator input info, notified⟩ :: t₂)) db') :
    db'.issued_certificate = db.issued_certificate ∨
      ∃ created_at, db'.issued_certificate.rows = db.issued_certificate.rows ++
        [issued_row X rt ca parsed issued issued_der created_at] := by
  obtain ⟨_, ⟨_, rfl⟩, hworld₁⟩ := steps_cons.mp hworld
  obtain ⟨_, rfl, hworld₂⟩ := steps_cons.mp hworld₁
  obtain ⟨_, rfl, hworld₃⟩ := steps_cons.mp hworld₂
  obtain ⟨u, hpersisted, hworld₄⟩ := steps_append.mp hworld₃
  obtain ⟨_, ⟨_, rfl⟩, hworld₅⟩ := steps_cons.mp hworld₄
  have hafter := steps_frame_issued hworld₅ fun e he =>
    not_writes_issued_of_draws ((build_success_returns hreply).1 e he)
  rw [hafter]
  exact persist_rows hpersist hpersisted

/-- **No certificate without an authenticated, approved request.** A run of the
handler that answers SUCCESS or changes the table of issued certificates has an
authorized request behind it, and then at most one row is added, for the
certificate issued and the CA of the profile. -/
theorem certificate_needs_approval (hcms : X.CmsLaw) (hx509 : X.X509Law) {state : AppState}
    {profile : String} {body : Bytes} {tr : Trace} {r : AppResult Bytes} {faulty : Prop}
    {db db' : Db} (hrun : Returns (pki_operation X state profile body) tr r)
    (hworld : Steps (step faulty) db tr db') :
    ((∀ der, r = .ok der → ¬ IsSuccess X der) ∧
        db'.issued_certificate = db.issued_certificate) ∨
      ∃ rt ca parsed parsed_csr issued,
        Authorized X state profile body tr rt ca parsed parsed_csr issued ∧
          (db'.issued_certificate = db.issued_certificate ∨
            ∃ issued_der created_at, X.certificate_to_der issued = .ok issued_der ∧
              (issued_row X rt ca parsed issued issued_der created_at).ca_id = rt.ca_id ∧
              db'.issued_certificate.rows = db.issued_certificate.rows ++
                [issued_row X rt ca parsed issued issued_der created_at]) := by
  rcases pki_operation_exit hrun with hrefused | ⟨hacc, hrecover, hreply⟩ |
    ⟨hacc, hrecover, hrecord, hreply⟩ | ⟨hacc, hrecover, hleaf, hreply⟩ |
    ⟨hacc, hrecover, hleaf, hder⟩ | ⟨hacc, hrecover, hleaf, hder, hpersist, hreply⟩
  · refine .inl ⟨fun der hno => ?_, steps_frame_issued hworld ?_⟩
    · cases hno
    · exact fun e he => absurd he List.not_mem_nil
  · refine .inl (unsuccessful_of_failure hcms hacc hreply ?_ hworld)
    exact fun e he => not_writes_issued_of_draws ((build_failure_returns hreply).1 e he)
  · refine .inl (unsuccessful_of_failure hcms hacc hreply ?_ hworld)
    rw [List.forall_mem_cons, List.forall_mem_cons, List.forall_mem_append]
    exact ⟨rfl, rfl, record_frame hrecord, fun e he =>
      not_writes_issued_of_draws ((build_failure_returns hreply).1 e he)⟩
  · refine .inl (unsuccessful_of_failure hcms hacc hreply ?_ hworld)
    simp only [List.forall_mem_cons]
    exact ⟨rfl, rfl, rfl, rfl, fun e he =>
      not_writes_issued_of_draws ((build_failure_returns hreply).1 e he)⟩
  · refine .inl ⟨fun der hno => ?_, steps_frame_issued hworld ?_⟩
    · cases hno
    · simp only [List.forall_mem_cons]
      exact ⟨rfl, rfl, rfl, fun e he => absurd he List.not_mem_nil⟩
  · refine .inr ⟨_, _, _, _, _,
      authorized_of_delivered hx509 hacc hrecover hleaf List.mem_cons_self hworld, ?_⟩
    rcases delivered_rows hpersist hreply hworld with hsame | ⟨created_at, hrow⟩
    · exact .inl hsame
    · exact .inr ⟨_, created_at, hder, state.ids _ _ hacc.ca, hrow⟩

/-- The enrolled device is authorized. -/
theorem enrolled_device_authorized :
    ∃ tr parsed parsed_csr issued, Authorized Reference.crates Device.server "device"
      Device.pkcs_req tr Device.profile Device.ca parsed parsed_csr issued := by
  obtain ⟨issued, tr, der, db', _, hrun, hworld, _, _, hrows⟩ := Device.enrolled
  rcases certificate_needs_approval Reference.cms_law Reference.x509_law hrun hworld with
    ⟨_, hsame⟩ | ⟨rt, ca, parsed, parsed_csr, issued, hauth, _⟩
  · rw [hsame] at hrows
    cases hrows
  · obtain ⟨_, rfl⟩ := Device.lookup_singleton.mp hauth.runtime
    obtain ⟨_, rfl⟩ := Device.lookup_singleton.mp hauth.authority
    exact ⟨tr, parsed, parsed_csr, issued, hauth⟩

/-! ## What a reply says, and what was stored and reported with it -/

/-- An event that submits a row to `insert_issued`, whatever comes of it. -/
def Submits (row : IssuedCertificate) (e : Event Op.Res) : Prop :=
  ∃ x, e = ⟨Op.db (.insert_issued row), x⟩

/-- An event that reports an issued certificate to a validator. -/
def Reports (info : IssuedInfo) (e : Event Op.Res) : Prop :=
  ∃ v input x, e = ⟨Op.on_issued v input info, x⟩

/-- The events of the trace neither submit nor report a certificate. -/
def Silent (tr : Trace) : Prop :=
  ∀ e ∈ tr, (∀ row, ¬ Submits row e) ∧ ∀ info, ¬ Reports info e

theorem silent_of_draws {tr : Trace} (h : ∀ e ∈ tr, draws e = true) : Silent tr := by
  intro e he
  refine ⟨?_, ?_⟩
  · rintro row ⟨x, rfl⟩
    exact Bool.noConfusion (h _ he)
  · rintro info ⟨v, input, x, rfl⟩
    exact Bool.noConfusion (h _ he)

theorem silent_append {t₁ t₂ : Trace} (h₁ : Silent t₁) (h₂ : Silent t₂) : Silent (t₁ ++ t₂) :=
  fun e he => (List.mem_append.mp he).elim (h₁ e) (h₂ e)

theorem silent_validate {v : ChallengeValidator} {input : ValidationInput} {x : AppResult Unit} :
    Silent [⟨Op.validate v input, x⟩] := by
  intro e he
  rw [List.mem_singleton.mp he]
  exact ⟨fun row ⟨y, hno⟩ => (by cases hno), fun info ⟨_, _, y, hno⟩ => (by cases hno)⟩

theorem silent_on_failure {v : ChallengeValidator} {input : ValidationInput} {message : String}
    {x : AppResult Unit} : Silent [⟨Op.on_failure v input message, x⟩] := by
  intro e he
  rw [List.mem_singleton.mp he]
  exact ⟨fun row ⟨y, hno⟩ => (by cases hno), fun info ⟨_, _, y, hno⟩ => (by cases hno)⟩

theorem silent_now {now : SystemTime} : Silent [⟨Op.now, now⟩] := by
  intro e he
  rw [List.mem_singleton.mp he]
  exact ⟨fun row ⟨y, hno⟩ => (by cases hno), fun info ⟨_, _, y, hno⟩ => (by cases hno)⟩

/-- Issuing submits and reports nothing. -/
theorem silent_issue {bytes : { b : Bytes // b.length = 16 }} {now : SystemTime} :
    Silent [⟨Op.fill_bytes 16, bytes⟩, ⟨Op.now, now⟩] :=
  silent_append (silent_of_draws (List.forall_mem_singleton.mpr rfl)) silent_now

/-- Recording a transaction submits and reports nothing. -/
theorem silent_record {rt : ProfileRuntime} {parsed : ParsedRequest} {status message_type : String}
    {tr : Trace} {r : AppResult Unit} (h : Returns (record rt parsed status message_type) tr r) :
    Silent tr := by
  obtain ⟨now, t, rfl, h₁⟩ := record_returns h
  refine silent_append silent_now fun e he => ?_
  obtain ⟨q, x, rfl, hq⟩ := repo.record_transaction_frame h₁ e he
  refine ⟨?_, fun info ⟨v, input, x', hno⟩ => (by cases hno)⟩
  rintro row ⟨x', hno⟩
  cases hno
  exact Bool.noConfusion hq

/-- Nothing but this row is submitted, nothing but this report made. -/
def Only (row : IssuedCertificate) (info : IssuedInfo) (tr : Trace) : Prop :=
  ∀ e ∈ tr, (∀ row', Submits row' e → row' = row) ∧ ∀ info', Reports info' e → info' = info

theorem only_of_silent {row : IssuedCertificate} {info : IssuedInfo} {tr : Trace}
    (h : Silent tr) : Only row info tr := fun e he =>
  ⟨fun row' hrow => absurd hrow ((h e he).1 row'), fun info' hinfo => absurd hinfo ((h e he).2 info')⟩

theorem only_append {row : IssuedCertificate} {info : IssuedInfo} {t₁ t₂ : Trace}
    (h₁ : Only row info t₁) (h₂ : Only row info t₂) : Only row info (t₁ ++ t₂) :=
  fun e he => (List.mem_append.mp he).elim (h₁ e) (h₂ e)

/-- A notification makes its report. -/
theorem only_reports (row : IssuedCertificate) (info : IssuedInfo) (v : ChallengeValidator)
    (input : ValidationInput) (x : AppResult Unit) :
    Only row info [⟨Op.on_issued v input info, x⟩] := by
  intro e he
  rw [List.mem_singleton.mp he]
  refine ⟨fun row' ⟨y, hno⟩ => (by cases hno), ?_⟩
  rintro info' ⟨v', input', y, hy⟩
  cases hy
  rfl

/-- A SUCCESS reply delivers one certificate: the content is an envelope for the
signer certificate around it, its row was submitted and it was reported, and
nothing else was. -/
structure Delivers (X : Crates) (rt : ProfileRuntime) (ca : CertificateAuthority)
    (parsed : ParsedRequest) (tr : Trace) (der : Bytes) (m : Message) (issued : Certificate) :
    Prop where
  reply : ∃ env_der certs, SuccessReply X ca.signing_key ca.cert parsed env_der der m ∧
    Envelope.EnvelopeFor X env_der parsed.recipient certs ∧ certs_only X issued = .ok certs
  records : ∃ issued_der created_at, X.certificate_to_der issued = .ok issued_der ∧
    (∃ e ∈ tr, Submits (issued_row X rt ca parsed issued issued_der created_at) e) ∧
    (∃ e ∈ tr, Reports (issued_info X ca issued issued_der) e) ∧
    Only (issued_row X rt ca parsed issued issued_der created_at)
      (issued_info X ca issued issued_der) tr

/-- The run issued this certificate: the request was accepted, its CSR recovered, and
the CA made the certificate of it after the validator approved. -/
structure Issuance (X : Crates) (state : AppState) (profile : String) (body : Bytes)
    (rt : ProfileRuntime) (ca : CertificateAuthority) (parsed : ParsedRequest)
    (enveloped : EnvelopedData) (parsed_csr : ParsedCsr) (issued : Certificate) (tr : Trace) :
    Prop where
  accepted : Accepted X state profile body rt ca parsed enveloped
  recovered : recover_csr X ca enveloped = .ok parsed_csr
  run : ∃ t rest,
    tr = ⟨Op.validate rt.validator (validation_input parsed parsed_csr), .ok ()⟩ :: (t ++ rest) ∧
      Returns (ca.issue X parsed_csr.req (issue_options state rt)) t (.ok issued)

/-- What the persisting stage submits. -/
theorem persist_submits {rt : ProfileRuntime} {ca : CertificateAuthority} {parsed : ParsedRequest}
    {issued : Certificate} {issued_der : Bytes} {tr : Trace} {r : AppResult Unit}
    (h : Returns (persist X rt ca parsed issued issued_der) tr r) (info : IssuedInfo) :
    ∃ created_at,
      (∃ e ∈ tr, Submits (issued_row X rt ca parsed issued issued_der created_at) e) ∧
      Only (issued_row X rt ca parsed issued issued_der created_at) info tr := by
  obtain ⟨now, hcases⟩ := persist_returns.mp h
  refine ⟨utc_text now, ?_⟩
  -- Either way the trace is the clock, the insert, and events that submit nothing.
  obtain ⟨x, rest, rfl, hrest⟩ : ∃ x rest, tr = ⟨Op.now, now⟩ :: ⟨Op.db (.insert_issued
      (issued_row X rt ca parsed issued issued_der (utc_text now))), x⟩ :: rest ∧ Silent rest := by
    rcases hcases with ⟨e, rfl, _⟩ | ⟨t, recorded, rfl, hrecord, _⟩
    · exact ⟨_, [], rfl, fun e he => absurd he List.not_mem_nil⟩
    · exact ⟨_, t, rfl, silent_record hrecord⟩
  refine ⟨⟨_, List.mem_cons_of_mem _ List.mem_cons_self, x, rfl⟩, ?_⟩
  have hinsert : Only (issued_row X rt ca parsed issued issued_der (utc_text now)) info
      [⟨Op.db (.insert_issued
        (issued_row X rt ca parsed issued issued_der (utc_text now))), x⟩] := by
    intro e he
    rw [List.mem_singleton.mp he]
    refine ⟨?_, fun info' ⟨v, input, y, hno⟩ => (by cases hno)⟩
    rintro row ⟨y, hy⟩
    cases hy
    rfl
  exact only_append (only_of_silent silent_now) (only_append hinsert (only_of_silent hrest))

/-- What a delivering run submits and reports. -/
theorem delivery_submits {rt : ProfileRuntime} {ca : CertificateAuthority} {parsed : ParsedRequest}
    {input : ValidationInput} {validated notified persisted : AppResult Unit}
    {bytes : { b : Bytes // b.length = 16 }} {now : SystemTime} {issued : Certificate}
    {issued_der : Bytes} {t₁ t₂ : Trace} {r : AppResult Bytes}
    (hpersist : Returns (persist X rt ca parsed issued issued_der) t₁ persisted)
    (hreply : Returns (build_success X ca parsed issued) t₂ r) :
    ∃ created_at,
      (∃ e ∈ t₁, Submits (issued_row X rt ca parsed issued issued_der created_at) e) ∧
      Only (issued_row X rt ca parsed issued issued_der created_at)
        (issued_info X ca issued issued_der)
        (⟨Op.validate rt.validator input, validated⟩ :: ⟨Op.fill_bytes 16, bytes⟩ ::
          ⟨Op.now, now⟩ :: (t₁ ++ ⟨Op.on_issued rt.validator input
            (issued_info X ca issued issued_der), notified⟩ :: t₂)) := by
  obtain ⟨created_at, hsub, honly⟩ := persist_submits hpersist (issued_info X ca issued issued_der)
  have hreport := only_reports (issued_row X rt ca parsed issued issued_der created_at)
    (issued_info X ca issued issued_der) rt.validator input notified
  have hdraws := (build_success_returns hreply).1
  exact ⟨created_at, hsub, only_append (only_of_silent silent_validate)
    (only_append (only_of_silent silent_issue) (only_append honly
      (only_append hreport (only_of_silent (silent_of_draws hdraws)))))⟩

/-- A run submits no row, or only that of the certificate it issued. -/
theorem run_submits {state : AppState} {profile : String} {body : Bytes} {tr : Trace}
    {r : AppResult Bytes} (hrun : Returns (pki_operation X state profile body) tr r) :
    (∀ row, ∀ e ∈ tr, ¬ Submits row e) ∨
      ∃ rt ca parsed enveloped parsed_csr issued issued_der created_at,
        Issuance X state profile body rt ca parsed enveloped parsed_csr issued tr ∧
        X.certificate_to_der issued = .ok issued_der ∧
        ∀ row, ∀ e ∈ tr, Submits row e →
          row = issued_row X rt ca parsed issued issued_der created_at := by
  rcases pki_operation_exit hrun with hrefused | ⟨hacc, hrecover, hreply⟩ |
    ⟨hacc, hrecover, hrecord, hreply⟩ | ⟨hacc, hrecover, hleaf, hreply⟩ |
    ⟨hacc, hrecover, hleaf, hder⟩ | ⟨hacc, hrecover, hleaf, hder, hpersist, hreply⟩
  · exact .inl fun row e he => absurd he List.not_mem_nil
  · exact .inl fun row e he => (silent_of_draws (build_failure_returns hreply).1 e he).1 row
  · exact .inl fun row e he => (silent_append silent_validate (silent_append silent_on_failure
      (silent_append (silent_record hrecord)
        (silent_of_draws (build_failure_returns hreply).1))) e he).1 row
  · exact .inl fun row e he => (silent_append silent_validate (silent_append silent_issue
      (silent_append silent_on_failure
        (silent_of_draws (build_failure_returns hreply).1))) e he).1 row
  · exact .inl fun row e he => (silent_append silent_validate silent_issue e he).1 row
  · obtain ⟨created_at, _, honly⟩ := delivery_submits hpersist hreply
    have hissue := CertificateAuthority.issue_returns.mpr ⟨_, _, rfl, hleaf.symm⟩
    exact .inr ⟨_, _, _, _, _, _, _, created_at,
      ⟨hacc, hrecover, [⟨Op.fill_bytes 16, _⟩, ⟨Op.now, _⟩], _, rfl, hissue⟩, hder,
      fun row e he hrow => (honly e he).1 row hrow⟩

/-- A run that submits a row issued the certificate of the row. -/
theorem issuance_of_submits {state : AppState} {profile : String} {body : Bytes} {tr : Trace}
    {r : AppResult Bytes} (hrun : Returns (pki_operation X state profile body) tr r)
    {row : IssuedCertificate} {e : Event Op.Res} (he : e ∈ tr) (hrow : Submits row e) :
    ∃ rt ca parsed enveloped parsed_csr issued issued_der created_at,
      Issuance X state profile body rt ca parsed enveloped parsed_csr issued tr ∧
      X.certificate_to_der issued = .ok issued_der ∧
      row = issued_row X rt ca parsed issued issued_der created_at := by
  rcases run_submits hrun with hnone |
    ⟨rt, ca, parsed, enveloped, parsed_csr, issued, issued_der, created_at, hissuance, hder, hall⟩
  · exact absurd hrow (hnone row e he)
  · exact ⟨rt, ca, parsed, enveloped, parsed_csr, issued, issued_der, created_at, hissuance, hder,
      hall row e he hrow⟩

/-- A run submits one row. -/
theorem submits_unique {state : AppState} {profile : String} {body : Bytes} {tr : Trace}
    {r : AppResult Bytes} (hrun : Returns (pki_operation X state profile body) tr r)
    {row row' : IssuedCertificate} {e e' : Event Op.Res} (he : e ∈ tr) (hrow : Submits row e)
    (he' : e' ∈ tr) (hrow' : Submits row' e') : row = row' := by
  rcases run_submits hrun with hnone | ⟨_, _, _, _, _, _, _, _, _, _, hall⟩
  · exact absurd hrow (hnone row e he)
  · rw [hall row e he hrow, hall row' e' he' hrow']

/-- What a request inserts is a valid row with no revocation data. -/
theorem enrolments_of_run {state : AppState} {profile : String} {body : Bytes} {tr : Trace}
    {r : AppResult Bytes} (hrun : Returns (pki_operation X state profile body) tr r) :
    repo.Enrolments tr := by
  intro cert x hmem
  obtain ⟨_, _, _, _, _, _, _, _, _, _, rfl⟩ := issuance_of_submits hrun hmem ⟨x, rfl⟩
  exact ⟨rfl, rfl, rfl⟩

/-- A run through the persisting stage to a reply delivers. -/
theorem delivers_of_success (hcms : X.CmsLaw) (hrsa : X.RsaLaw) (hcipher : X.CipherLaw)
    {ca : CertificateAuthority} {state : AppState} {profile : String} {body : Bytes}
    {rt : ProfileRuntime} {parsed : ParsedRequest} {enveloped : EnvelopedData}
    {input : ValidationInput} {validated notified persisted : AppResult Unit}
    {bytes : { b : Bytes // b.length = 16 }} {now : SystemTime} {issued : Certificate}
    {issued_der der : Bytes} {t₁ t₂ : Trace}
    (hacc : Accepted X state profile body rt ca parsed enveloped)
    (hder : X.certificate_to_der issued = .ok issued_der)
    (hpersist : Returns (persist X rt ca parsed issued issued_der) t₁ persisted)
    (hreply : Returns (build_success X ca parsed issued) t₂ (.ok der)) :
    ∃ m, Answers X ca.signing_key ca.cert parsed der m ∧
      Delivers X rt ca parsed
        (⟨Op.validate rt.validator input, validated⟩ :: ⟨Op.fill_bytes 16, bytes⟩ ::
          ⟨Op.now, now⟩ :: (t₁ ++ ⟨Op.on_issued rt.validator input
            (issued_info X ca issued issued_der), notified⟩ :: t₂)) der m issued := by
  obtain ⟨certs, env_der, m, hcerts, henv, hsucc⟩ :=
    build_success_reply hcms hrsa hcipher hacc hreply
  obtain ⟨created_at, ⟨e, he, hsub⟩, honly⟩ := delivery_submits hpersist hreply
  refine ⟨m, hsucc.toAnswers, ⟨env_der, certs, hsucc, henv, hcerts⟩, issued_der, created_at, hder,
    ⟨e, ?_, hsub⟩, ⟨_, ?_, rt.validator, input, notified, rfl⟩, honly⟩
  · simp only [List.mem_cons, List.mem_append, he, true_or, or_true]
  · simp only [List.mem_cons, List.mem_append, true_or, or_true]

/-- A run that answers SUCCESS delivers. -/
theorem delivers_of_is_success (hcms : X.CmsLaw) (hrsa : X.RsaLaw) (hcipher : X.CipherLaw)
    {state : AppState} {profile : String} {body : Bytes} {tr : Trace} {der : Bytes}
    (hrun : Returns (pki_operation X state profile body) tr (.ok der)) (hsuccess : IsSuccess X der) :
    ∃ rt ca parsed enveloped m issued,
      Accepted X state profile body rt ca parsed enveloped ∧
      Delivers X rt ca parsed tr der m issued := by
  generalize hr : (Except.ok der : AppResult Bytes) = r at hrun
  rcases pki_operation_exit hrun with hrefused | ⟨hacc, hrecover, hreply⟩ |
    ⟨hacc, hrecover, hrecord, hreply⟩ | ⟨hacc, hrecover, hleaf, hreply⟩ |
    ⟨hacc, hrecover, hleaf, hder⟩ | ⟨hacc, hrecover, hleaf, hder, hpersist, hreply⟩
  · cases hr
  · obtain ⟨m, hm⟩ := build_failure_reply hcms hacc hreply der hr.symm
    exact absurd hsuccess hm.not_success
  · obtain ⟨m, hm⟩ := build_failure_reply hcms hacc hreply der hr.symm
    exact absurd hsuccess hm.not_success
  · obtain ⟨m, hm⟩ := build_failure_reply hcms hacc hreply der hr.symm
    exact absurd hsuccess hm.not_success
  · cases hr
  · subst hr
    obtain ⟨m, _, hdel⟩ := delivers_of_success hcms hrsa hcipher hacc hder hpersist hreply
    exact ⟨_, _, _, _, m, _, hacc, hdel⟩

end Scep

end Blapki
