/-
What is left behind by an enrolment that does not succeed, and what a successful
one may fail to leave.

The reply is put together after the certificate was stored and reported. The one
step of it that a client can make fail is the echo of its transactionID: the
reader takes three string types, the writer one alphabet (`atomic_iff_printable`).
The other way round, a reply is sent even when the row was lost; what holds of a
delivered certificate holds from the execution of its insert on
(`stored_then_known`).
-/
import Blapki.Oracle

set_option autoImplicit false

namespace Blapki

open Codec Effect

namespace Scep

variable {X : Crates}

/-! ## Traces of an issuance -/

/-- A state of the database that a run from empty tables leads to, with statements
failing or not. -/
def Reachable (db : Db) : Prop := ∃ tr, Steps (step True) Db.empty tr db

/-- An event that writes the status "issued" into the transaction table. -/
def RecordsIssued (e : Event Op.Res) : Prop :=
  (∃ row x, e = ⟨Op.db (.insert_transaction row), x⟩ ∧ row.status = "issued") ∨
    ∃ message_type transaction_id x,
      e = ⟨Op.db (.update_transaction "issued" message_type transaction_id), x⟩

/-- The request added no row, recorded no issuance and reported none. -/
structure Traceless (tr : Trace) (db db' : Db) : Prop where
  rows : db'.issued_certificate = db.issued_certificate
  not_recorded : ∀ e ∈ tr, ¬ RecordsIssued e
  not_reported : ∀ e ∈ tr, ∀ info, ¬ Reports info e

/-- A request that is not answered with SUCCESS leaves no trace. -/
def Atomic (X : Crates) (tr : Trace) (r : AppResult Bytes) (db db' : Db) : Prop :=
  (∀ der, r = .ok der → ¬ IsSuccess X der) → Traceless tr db db'

/-- A certificate can come of the request: it is accepted, its CSR is recovered, the
validator may approve and the CA can issue. -/
def CanIssue (X : Crates) (state : AppState) (profile : String) (body : Bytes) : Prop :=
  ∃ rt ca parsed enveloped parsed_csr bytes now issued,
    Accepted X state profile body rt ca parsed enveloped ∧
    recover_csr X ca enveloped = .ok parsed_csr ∧
    rt.validator.validates (validation_input parsed parsed_csr) (.ok ()) ∧
    ca.leaf X parsed_csr.req (issue_options state rt) (serial_of bytes) now = .ok issued

/-- An event of a request that is turned down: it writes no certificate, records no
issuance and reports none. -/
structure Harmless (e : Event Op.Res) : Prop where
  not_written : writes_issued e = false
  not_recorded : ¬ RecordsIssued e
  not_reported : ∀ info, ¬ Reports info e

theorem traceless_of_harmless {tr : Trace} {faulty : Prop} {db db' : Db}
    (hworld : Steps (step faulty) db tr db') (h : ∀ e ∈ tr, Harmless e) : Traceless tr db db' where
  rows := steps_frame_issued hworld fun e he => (h e he).not_written
  not_recorded := fun e he => (h e he).not_recorded
  not_reported := fun e he => (h e he).not_reported

/-- Nothing but a statement or a report can do harm. -/
theorem harmless_of_ne {e : Event Op.Res} (hdb : ∀ q x, e ≠ ⟨Op.db q, x⟩)
    (hissued : ∀ v input info x, e ≠ ⟨Op.on_issued v input info, x⟩) : Harmless e where
  not_written := by
    obtain ⟨o, r⟩ := e
    cases o with
    | db q => exact absurd rfl (hdb q r)
    | _ => rfl
  not_recorded := by
    rintro (⟨row, x, rfl, _⟩ | ⟨message_type, transaction_id, x, rfl⟩)
    · exact hdb _ _ rfl
    · exact hdb _ _ rfl
  not_reported := by
    rintro info ⟨v, input, x, rfl⟩
    exact hissued _ _ _ _ rfl

theorem harmless_of_draws {tr : Trace} (h : ∀ e ∈ tr, draws e = true) : ∀ e ∈ tr, Harmless e := by
  intro e he
  refine harmless_of_ne ?_ ?_
  · rintro q x rfl
    exact Bool.noConfusion (h _ he)
  · rintro v input info x rfl
    exact Bool.noConfusion (h _ he)

theorem harmless_validate (v : ChallengeValidator) (input : ValidationInput) (x : AppResult Unit) :
    Harmless ⟨Op.validate v input, x⟩ :=
  harmless_of_ne (fun _ _ hno => by cases hno) fun _ _ _ _ hno => by cases hno

theorem harmless_on_failure (v : ChallengeValidator) (input : ValidationInput) (message : String)
    (x : AppResult Unit) : Harmless ⟨Op.on_failure v input message, x⟩ :=
  harmless_of_ne (fun _ _ hno => by cases hno) fun _ _ _ _ hno => by cases hno

theorem harmless_now (now : SystemTime) : Harmless ⟨Op.now, now⟩ :=
  harmless_of_ne (fun _ _ hno => by cases hno) fun _ _ _ _ hno => by cases hno

theorem harmless_fill_bytes (n : Nat) (bytes : { b : Bytes // b.length = n }) :
    Harmless ⟨Op.fill_bytes n, bytes⟩ :=
  harmless_of_ne (fun _ _ hno => by cases hno) fun _ _ _ _ hno => by cases hno

theorem harmless_select (transaction_id : String) (x : Except String (Option String)) :
    Harmless ⟨Op.db (.select_transaction transaction_id), x⟩ where
  not_written := rfl
  not_recorded := by
    rintro (⟨row, y, hno, _⟩ | ⟨_, _, y, hno⟩)
    · cases hno
    · cases hno
  not_reported := fun info ⟨_, _, _, hno⟩ => by cases hno

/-- A request that failed is recorded as one that failed. -/
theorem harmless_record_failed {rt : ProfileRuntime} {parsed : ParsedRequest}
    {message_type : String} {tr : Trace} {r : AppResult Unit}
    (h : Returns (record rt parsed "failed" message_type) tr r) : ∀ e ∈ tr, Harmless e := by
  obtain ⟨now, t, rfl, h₁⟩ := record_returns h
  have hne : ¬ "failed" = "issued" := by decide
  rw [List.forall_mem_cons]
  refine ⟨harmless_now now, ?_⟩
  rcases repo.record_transaction_returns.mp h₁ with ⟨e, rfl, _⟩ | ⟨x, rfl, _⟩ | ⟨found, x, rfl, _⟩
  · rw [List.forall_mem_singleton]
    exact harmless_select _ _
  · rw [List.forall_mem_cons, List.forall_mem_singleton]
    refine ⟨harmless_select _ _, ⟨rfl, ?_, fun info ⟨_, _, _, hno⟩ => by cases hno⟩⟩
    rintro (⟨row, y, hrow, hstatus⟩ | ⟨_, _, y, hno⟩)
    · cases hrow
      exact hne hstatus
    · cases hno
  · rw [List.forall_mem_cons, List.forall_mem_singleton]
    refine ⟨harmless_select _ _, ⟨rfl, ?_, fun info ⟨_, _, _, hno⟩ => by cases hno⟩⟩
    rintro (⟨row, y, hno, _⟩ | ⟨_, _, y, hno⟩)
    · cases hno
    · have hop := congrArg Sigma.fst hno
      injection hop with hq
      injection hq with hstatus
      exact hne hstatus

/-! ## When a failure leaves nothing -/

/-- A request whose transactionID can be echoed, or that no certificate can come of,
is atomic. -/
theorem atomic_of_printable (hcms : X.CmsLaw) (henc : X.EncodeLaw) {state : AppState}
    {profile : String} {body : Bytes} {parsed : ParsedRequest} (hverified : Verify.parse_and_verify X body = .ok parsed)
    (hsteps : ∀ rt ca enveloped, Accepted X state profile body rt ca parsed enveloped →
      ReplySteps X state rt ca parsed enveloped)
    (hprint : CanIssue X state profile body → Printable parsed.transaction_id) {faulty : Prop}
    {db db' : Db} {tr : Trace} {r : AppResult Bytes}
    (hrun : Returns (pki_operation X state profile body) tr r)
    (hworld : Steps (step faulty) db tr db') : Atomic X tr r db db' := by
  intro hfail
  rcases pki_operation_exit hrun with hrefused | ⟨hacc, hrecover, hreply⟩ |
    ⟨hacc, hrecover, hrecord, hreply⟩ | ⟨hacc, hrecover, hleaf, hreply⟩ |
    ⟨hacc, hrecover, hleaf, hder⟩ | ⟨hacc, hrecover, hleaf, hder, hpersist, hreply⟩
  · exact traceless_of_harmless hworld fun e he => absurd he List.not_mem_nil
  · exact traceless_of_harmless hworld (harmless_of_draws (build_failure_returns hreply).1)
  · refine traceless_of_harmless hworld ?_
    rw [List.forall_mem_cons, List.forall_mem_cons, List.forall_mem_append]
    exact ⟨harmless_validate _ _ _, harmless_on_failure _ _ _ _, harmless_record_failed hrecord,
      harmless_of_draws (build_failure_returns hreply).1⟩
  · refine traceless_of_harmless hworld ?_
    rw [List.forall_mem_cons, List.forall_mem_cons, List.forall_mem_cons, List.forall_mem_cons]
    exact ⟨harmless_validate _ _ _, harmless_fill_bytes _ _, harmless_now _,
      harmless_on_failure _ _ _ _, harmless_of_draws (build_failure_returns hreply).1⟩
  · refine traceless_of_harmless hworld ?_
    rw [List.forall_mem_cons, List.forall_mem_cons, List.forall_mem_singleton]
    exact ⟨harmless_validate _ _ _, harmless_fill_bytes _ _, harmless_now _⟩
  · -- The certificate was stored and reported, so the reply has to be a SUCCESS.
    obtain rfl := Except.ok.inj (hacc.verified.symm.trans hverified)
    have hvalid := validates_of_mem hworld List.mem_cons_self
    have hprint' := hprint ⟨_, _, _, _, _, _, _, _, hacc, hrecover, hvalid, hleaf⟩
    obtain ⟨m, alg, haccepts⟩ := Verify.parse_and_verify_accepts X hacc.verified
    obtain ⟨der, rfl⟩ := build_success_ok hcms henc (hsteps _ _ _ hacc)
      ⟨_, _, _, hrecover, hleaf⟩ hprint' haccepts.nonce_fits hreply
    obtain ⟨_, certs, env_der, t, nonce, _, _, hbuild⟩ := (build_success_returns hreply).2 der rfl
    obtain ⟨m', hsuccess⟩ := success_reply hcms hprint' haccepts.nonce_fits hbuild
    exact absurd hsuccess.is_success (hfail der rfl)

/-- Another transactionID, with a certificate to come of the request: on the empty
database, with every call going through, the row is stored and no reply is
made. -/
theorem stored_without_reply {state : AppState} {profile : String} {body : Bytes}
    {rt : ProfileRuntime} {ca : CertificateAuthority} {parsed : ParsedRequest}
    {enveloped : EnvelopedData} {parsed_csr : ParsedCsr} {bytes : { b : Bytes // b.length = 16 }}
    {now : SystemTime} {issued : Certificate}
    (hcms : X.CmsLaw) (henc : X.EncodeLaw) (hsteps : ReplySteps X state rt ca parsed enveloped)
    (hacc : Accepted X state profile body rt ca parsed enveloped)
    (hrecover : recover_csr X ca enveloped = .ok parsed_csr)
    (hvalid : rt.validator.validates (validation_input parsed parsed_csr) (.ok ()))
    (hleaf : ca.leaf X parsed_csr.req (issue_options state rt) (serial_of bytes) now = .ok issued)
    (hprint : ¬ Printable parsed.transaction_id) :
    ∃ tr e db' row info, Returns (pki_operation X state profile body) tr (.error e) ∧
      Steps (step False) Db.empty tr db' ∧ (∀ e ∈ tr, succeeds e) ∧
      db'.issued_certificate.rows = [row] ∧ ∃ e ∈ tr, Reports info e := by
  obtain ⟨issued_der, hder⟩ := (hsteps.encode issued ⟨_, _, _, hrecover, hleaf⟩).1
  have hempty : ∃ t db', Returns (persist X rt ca parsed issued issued_der) t (.ok ()) ∧ _ :=
    persist_empty now
  obtain ⟨t, db', hpersist, hworld, hsucceeds, _, hrows⟩ := hempty
  obtain ⟨e, hreply⟩ := exists_build_success_error hcms henc hsteps ⟨_, _, _, hrecover, hleaf⟩
    hprint ⟨List.replicate 32 0, rfl⟩ ⟨List.replicate 16 0, rfl⟩ 0
  have hdraws := (build_success_returns hreply).1
  have hnotify : rt.validator.notifies (.ok ()) := by
    cases rt.validator with
    | StaticSecretValidator secret => rfl
    | NoneValidator => rfl
    | IntuneValidator client => trivial
  refine ⟨_, e, db', _, issued_info X ca issued issued_der,
    pki_operation_delivers (.ok ()) hacc hrecover hleaf hder hpersist hreply,
    issuing_world hvalid hnotify hworld hdraws, ?_, hrows, ?_⟩
  · rw [List.forall_mem_cons, List.forall_mem_cons, List.forall_mem_cons, List.forall_mem_append,
      List.forall_mem_cons]
    exact ⟨trivial, trivial, trivial, hsucceeds, rfl, fun e he => succeeds_of_draws (hdraws e he)⟩
  · refine ⟨⟨Op.on_issued rt.validator (validation_input parsed parsed_csr)
      (issued_info X ca issued issued_der), .ok ()⟩, ?_, _, _, _, rfl⟩
    simp only [List.mem_cons, List.mem_append, true_or, or_true]

/-- **When a failed enrolment is atomic.** For an accepted message, on every reachable
database and with every statement and notification going through: a reply that is
not a SUCCESS means that nothing was stored, recorded as issued or reported,
exactly when the transactionID is in the alphabet of the reply, or no certificate
can come of the request. -/
theorem atomic_iff_printable (hcms : X.CmsLaw) (henc : X.EncodeLaw) {state : AppState}
    {profile : String} {body : Bytes} {parsed : ParsedRequest}
    (hverified : Verify.parse_and_verify X body = .ok parsed)
    (hsteps : ∀ rt ca enveloped, Accepted X state profile body rt ca parsed enveloped →
      ReplySteps X state rt ca parsed enveloped) :
    (∀ db, Reachable db → ∀ tr r db', Returns (pki_operation X state profile body) tr r →
      Steps (step False) db tr db' → (∀ e ∈ tr, succeeds e) → Atomic X tr r db db') ↔
    (Printable parsed.transaction_id ∨ ¬ CanIssue X state profile body) := by
  constructor
  · intro hatomic
    by_contra hno
    rw [not_or, not_not] at hno
    obtain ⟨hprint, rt, ca, parsed', enveloped, parsed_csr, bytes, now, issued, hacc, hrecover,
      hvalid, hleaf⟩ := hno
    obtain rfl := Except.ok.inj (hacc.verified.symm.trans hverified)
    obtain ⟨tr, e, db', row, info, hrun, hworld, hsucceeds, hrows, _⟩ :=
      stored_without_reply hcms henc (hsteps _ _ _ hacc) hacc hrecover hvalid hleaf hprint
    have htraceless := hatomic Db.empty ⟨[], .nil _⟩ tr _ db' hrun hworld hsucceeds
      fun der hder => by cases hder
    rw [htraceless.rows] at hrows
    cases hrows
  · intro hcond db _ tr r db' hrun hworld _
    refine atomic_of_printable hcms henc hverified hsteps (fun hcan => ?_) hrun hworld
    rcases hcond with hprint | hno
    · exact hprint
    · exact absurd hcan hno

/-- For the device, with a transactionID that can be echoed. -/
theorem device_atomic : Printable Device.transaction_id ∧
    ∀ db, Reachable db → ∀ tr r db',
      Returns (pki_operation Reference.crates Device.server "device" Device.pkcs_req) tr r →
      Steps (step False) db tr db' → (∀ e ∈ tr, succeeds e) →
        Atomic Reference.crates tr r db db' := by
  have hprint : Printable Device.transaction_id := by decide
  refine ⟨hprint, (atomic_iff_printable Reference.cms_law Reference.encode_law
    (Device.verified Device.read_txn _) ?_).mpr (.inl hprint)⟩
  intro rt ca enveloped hacc
  obtain ⟨_, rfl⟩ := Device.lookup_singleton.mp hacc.profile
  obtain ⟨_, rfl⟩ := Device.lookup_singleton.mp hacc.ca
  obtain rfl := Option.some.inj hacc.enveloped
  exact Device.reply_steps _ _

/-- The same request with a UTF8String "a_b" for its transactionID gets no reply, and
its certificate is stored and reported. -/
theorem device_not_atomic :
    ∃ parsed tr e db' row info,
      Verify.parse_and_verify Reference.crates (Device.body ⟨.Utf8String, "a_b".as_bytes⟩)
        = .ok parsed ∧ parsed.message_type = .PkcsReq ∧
      Returns (pki_operation Reference.crates Device.server "device"
        (Device.body ⟨.Utf8String, "a_b".as_bytes⟩)) tr (.error e) ∧
      Steps (step False) Db.empty tr db' ∧ (∀ e ∈ tr, succeeds e) ∧
      db'.issued_certificate.rows = [row] ∧ ∃ e ∈ tr, Reports info e := by
  have htxn : Attributes.decode_string ⟨.Utf8String, "a_b".as_bytes⟩ = some "a_b" := by decide
  obtain ⟨issued, hleaf⟩ := Device.issues
  obtain ⟨tr, e, db', row, info, hrun, hworld, hsucceeds, hrows, hreport⟩ :=
    stored_without_reply Reference.cms_law Reference.encode_law (Device.reply_steps "a_b" _)
      (Device.accepted htxn _) Device.recovered_secret (Device.approved "a_b") hleaf (by decide)
  exact ⟨_, tr, e, db', row, info, Device.verified htxn _, rfl, hrun, hworld, hsucceeds, hrows,
    hreport⟩

/-! ## Delivered certificates -/

/-- The device gets a SUCCESS. -/
theorem device_success {issued : Certificate} {t : Trace} {der : Bytes}
    (h : Returns (build_success Reference.crates Device.ca
      (Device.request Device.transaction_id (enc (Device.csr "s3cret"))) issued) t (.ok der)) :
    IsSuccess Reference.crates der := by
  obtain ⟨_, _, m, _, _, hsuccess⟩ := build_success_reply Reference.cms_law Reference.rsa_law
    Reference.cipher_law (Device.accepted Device.read_txn _) h
  exact hsuccess.is_success

/-- **A delivered certificate whose insert was executed is known and revocable.** In a
whole run `w` from empty tables, of enrolments, revocations and look-ups in any
interleaving and with any statement failing, that the request was a part of: once
its insert was executed, the status of the certificate is never unknown again,
and the first revocation executed after it returns true and takes effect. -/
theorem stored_then_known (hcms : X.CmsLaw) (hrsa : X.RsaLaw) (hcipher : X.CipherLaw)
    {state : AppState} {profile : String} {body : Bytes} {tr : Trace} {der : Bytes}
    (hrun : Returns (pki_operation X state profile body) tr (.ok der)) (hsuccess : IsSuccess X der)
    {w : Trace} (hpart : tr.Sublist w) (hinserts : repo.Enrolments w) {db : Db}
    (hworld : Steps (step True) Db.empty w db) :
    ∃ rt ca parsed enveloped m issued issued_der created_at,
      Accepted X state profile body rt ca parsed enveloped ∧
      Delivers X rt ca parsed tr der m issued ∧
      let row := issued_row X rt ca parsed issued issued_der created_at
      (∃ e ∈ tr, Submits row e) ∧ row.ca_id = ca.id ∧ row.serial = serial_hex issued ∧
      (⟨Op.db (.insert_issued row), .ok ()⟩ ∈ tr →
        repo.status db ca.id (serial_hex issued) ≠ .Unknown ∧
        ∀ before after, w = before ++ ⟨Op.db (.insert_issued row), .ok ()⟩ :: after →
          (∀ e ∈ after, ¬ repo.Revokes ca.id (serial_hex issued) e) →
          ∀ reason revoked_at b tr' db',
            Returns (repo.revoke ca.id (serial_hex issued) reason revoked_at) tr' (.ok b) →
            Steps (step True) db tr' db' →
              b = true ∧ repo.status db' ca.id (serial_hex issued)
                = .Revoked (some revoked_at) (some reason)) := by
  obtain ⟨rt, ca, parsed, enveloped, m, issued, hacc, hdel⟩ :=
    delivers_of_is_success hcms hrsa hcipher hrun hsuccess
  obtain ⟨issued_der, created_at, _, hsubmits, _, _⟩ := hdel.records
  refine ⟨rt, ca, parsed, enveloped, m, issued, issued_der, created_at, hacc, hdel, hsubmits, rfl,
    rfl, ?_⟩
  intro hstored
  have hmem := hpart.subset hstored
  have hlife := repo.status_refines hworld hinserts ca.id (serial_hex issued)
  refine ⟨?_, ?_⟩
  · rw [hlife]
    intro hunknown
    exact repo.life_eq_unknown.mp hunknown _ hmem ⟨_, rfl, rfl, rfl⟩
  · intro before after hw hfirst reason revoked_at b tr' db' hrevoke hsteps
    exact repo.first_revoke hworld hinserts (repo.issuedThen_of_insert hworld hw) hfirst hrevoke
      hsteps

/-- The enrolled device is known. -/
theorem device_known :
    ∃ tr der db issued, Returns (pki_operation Reference.crates Device.server "device"
        Device.pkcs_req) tr (.ok der) ∧
      Steps (step True) Db.empty tr db ∧
      repo.status db "root" (serial_hex issued) ≠ .Unknown := by
  obtain ⟨_, tr, der, db', _, hrun, hworld, ⟨t, hreply⟩, hmem, _⟩ := Device.enrolled
  have hworld' : Steps (step True) Db.empty tr db' := steps_faulty hworld
  obtain ⟨rt, ca, parsed, _, m, issued, issued_der, created_at, _, hdel, ⟨e, he, hrow⟩, hca, _,
      hknown⟩ := stored_then_known Reference.cms_law Reference.rsa_law Reference.cipher_law hrun
      (device_success hreply) (List.Sublist.refl tr) (enrolments_of_run hrun) hworld'
  obtain ⟨_, _, _, _, _, honly⟩ := hdel.records
  -- One row is submitted, and it is the one that was inserted.
  have hsame := ((honly e he).1 _ hrow).trans ((honly _ hmem).1 _ ⟨_, rfl⟩).symm
  rw [hsame] at hca hknown
  rw [← hca] at hknown
  exact ⟨tr, der, db', issued, hrun, hworld', (hknown hmem).1⟩

/-- The device whose row was lost gets its certificate all the same, and no look-up
knows it, and no revocation meets it. -/
theorem delivered_but_unknown :
    ∃ tr der rt ca parsed m issued,
      Returns (pki_operation Reference.crates Device.server "device" Device.pkcs_req) tr (.ok der) ∧
      Steps (step True) Db.empty tr Db.empty ∧ IsSuccess Reference.crates der ∧
      Delivers Reference.crates rt ca parsed tr der m issued ∧
      repo.status Db.empty ca.id (serial_hex issued) = .Unknown ∧
      Db.empty.exec (.update_revoked ca.id (serial_hex issued) 1 "2026-08-01T00:00:00Z")
        = (.ok (0 : Nat), Db.empty) := by
  obtain ⟨_, tr, der, hrun, hworld, t, hreply⟩ := Device.enrolled_unstored
  have hsuccess := device_success hreply
  obtain ⟨rt, ca, parsed, enveloped, m, issued, _, hdel⟩ := delivers_of_is_success
    Reference.cms_law Reference.rsa_law Reference.cipher_law hrun hsuccess
  exact ⟨tr, der, rt, ca, parsed, m, issued, hrun, hworld, hsuccess, hdel, rfl, rfl⟩

end Scep

end Blapki
