/-
What is recorded of a decided request (`http/scep.rs`, `record`, `record_ok`).

A request whose CSR was recovered is denied by the validator, or cannot be issued, or is
issued. `decision_effect` says what each decision leaves in the transaction table, and
`decision_recorded_iff` when that is the truth about the request.
-/
import Blapki.Audit

set_option autoImplicit false

namespace Blapki

open Codec Effect repo

namespace Scep

variable {X : Crates}

/-- The name of a message type in the protocol. -/
def message_type_name : MessageType → String
  | .CertRep => "CertRep"
  | .PkcsReq => "PKCSReq"
  | .RenewalReq => "RenewalReq"
  | .GetCertInitial => "CertPoll"
  | .GetCert => "GetCert"
  | .GetCrl => "GetCRL"

section Decision

variable (X) (state : AppState) (rt : ProfileRuntime) (ca : CertificateAuthority)
  (parsed : ParsedRequest) (parsed_csr : ParsedCsr)

/-- The validator turned the request down. -/
def Denied (tr : Trace) : Prop :=
  ∃ e, ⟨Op.validate rt.validator (validation_input parsed parsed_csr), .error e⟩ ∈ tr

/-- The validator approved, and this is what the CA made of the request. -/
def Decided (tr : Trace) (decision : AppResult Certificate) : Prop :=
  ∃ bytes now rest,
    tr = ⟨Op.validate rt.validator (validation_input parsed parsed_csr), .ok ()⟩ ::
      ⟨Op.fill_bytes 16, bytes⟩ :: ⟨Op.now, now⟩ :: rest ∧
    ca.leaf X parsed_csr.req (issue_options state rt) (serial_of bytes) now = decision

/-- The status a request should be recorded with. -/
inductive Decision (tr : Trace) : String → Prop
  | denied : Denied rt parsed parsed_csr tr → Decision tr "failed"
  | unissued {e : AppError} : Decided X state rt ca parsed parsed_csr tr (.error e) →
      Decision tr "failed"
  | issued {issued : Certificate} : Decided X state rt ca parsed parsed_csr tr (.ok issued) →
      Decision tr "issued"

/-- The validator denied the request, or the CA made a certificate that can be encoded. -/
def Recordable (tr : Trace) : Prop :=
  Denied rt parsed parsed_csr tr ∨ ∃ issued issued_der,
    Decided X state rt ca parsed parsed_csr tr (.ok issued) ∧
      X.certificate_to_der issued = .ok issued_der

end Decision

section Effect

variable {state : AppState} {profile : String} {body : Bytes} {rt : ProfileRuntime}
  {ca : CertificateAuthority} {parsed : ParsedRequest} {enveloped : EnvelopedData}
  {parsed_csr : ParsedCsr} {tr : Trace} {r : AppResult Bytes} {db db' : Db}

/-- The decision is one. -/
theorem Decided.unique {decision decision' : AppResult Certificate}
    (h : Decided X state rt ca parsed parsed_csr tr decision)
    (h' : Decided X state rt ca parsed parsed_csr tr decision') : decision' = decision := by
  obtain ⟨bytes, now, rest, rfl, rfl⟩ := h
  obtain ⟨bytes', now', rest', htr, rfl⟩ := h'
  obtain ⟨_, htr⟩ := List.cons.inj htr
  obtain ⟨hbytes, htr⟩ := List.cons.inj htr
  obtain ⟨hnow, _⟩ := List.cons.inj htr
  cases hbytes
  cases hnow
  rfl

/-- A verdict against the request settles what is recorded. -/
theorem not_denied {tr : Trace} (h : ∀ e ∈ tr, settles e = false) :
    ¬ Denied rt parsed parsed_csr tr := by
  rintro ⟨e, he⟩
  exact Bool.noConfusion (h _ he)

/-- What a decision leaves: a record, unless nothing was issued. -/
theorem decision_effect (hacc : Accepted X state profile body rt ca parsed enveloped)
    (hrecover : recover_csr X ca enveloped = .ok parsed_csr)
    (hrun : Returns (pki_operation X state profile body) tr r)
    (hworld : Steps (step False) db tr db') (hexec : ∀ e ∈ tr, Executed e) :
    (Denied rt parsed parsed_csr tr ∧
      Recorded ⟨parsed.transaction_id, rt.name, "failed"⟩ "PKCSReq" db db') ∨
    (Recordable X state rt ca parsed parsed_csr tr ∧
      (∃ issued, Decided X state rt ca parsed parsed_csr tr (.ok issued)) ∧
      Recorded ⟨parsed.transaction_id, rt.name, "issued"⟩ "PKCSReq" db db') ∨
    (¬ Recordable X state rt ca parsed parsed_csr tr ∧ db' = db) := by
  rcases pki_operation_exit hrun with hrefused | ⟨hacc', hrecover', hreply⟩ |
    ⟨hacc', hrecover', hrecord, hreply⟩ | ⟨hacc', hrecover', hleaf, hreply⟩ |
    ⟨hacc', hrecover', hleaf, hder⟩ | ⟨hacc', hrecover', hleaf, hder, hpersist, hreply⟩
  · exact absurd hacc (hrefused _ _ _ _)
  all_goals
    obtain ⟨rfl, rfl, rfl, rfl⟩ := hacc'.unique hacc
    rw [hrecover] at hrecover'
  · cases hrecover'
  · obtain rfl := Except.ok.inj hrecover'
    obtain ⟨_, _, hrec⟩ := denied_world hrecord hreply rfl hworld
    exact .inl ⟨⟨_, List.mem_cons_self⟩, hrec⟩
  · obtain rfl := Except.ok.inj hrecover'
    obtain ⟨hquiet, _, hsame⟩ := unissued_world hreply rfl hworld
    refine .inr (.inr ⟨?_, hsame⟩)
    rintro (hdenied | ⟨issued, issued_der, hissued, _⟩)
    · exact not_denied hquiet hdenied
    · cases Decided.unique hissued ⟨_, _, _, rfl, hleaf⟩
  · obtain rfl := Except.ok.inj hrecover'
    obtain ⟨hquiet, _, hsame⟩ := unencoded_world rfl hworld
    refine .inr (.inr ⟨?_, hsame⟩)
    rintro (hdenied | ⟨issued, issued_der, hissued, hok⟩)
    · exact not_denied hquiet hdenied
    · obtain rfl := Except.ok.inj (Decided.unique hissued ⟨_, _, _, rfl, hleaf⟩)
      rw [hder] at hok
      cases hok
  · obtain rfl := Except.ok.inj hrecover'
    rcases delivered_world hpersist hreply rfl hworld with ⟨_, _, row, msg, hrefused⟩ |
      ⟨_, _, _, _, _, _, hrec⟩
    · -- The insert is among the statements that were executed.
      obtain ⟨_, hno⟩ := hexec _ hrefused
      cases hno
    · exact .inr (.inl ⟨.inr ⟨_, _, ⟨_, _, _, rfl, hleaf⟩, hder⟩, ⟨_, _, _, _, rfl, hleaf⟩, hrec⟩)

/-- **What is recorded of a decided request.** On a transactionID without a row, the
request leaves a row with its profile, the status of its decision and the name of its
message type exactly when it is a PKCSReq that was denied, or whose certificate was
issued and could be encoded. -/
theorem decision_recorded_iff (hacc : Accepted X state profile body rt ca parsed enveloped)
    (hrecover : recover_csr X ca enveloped = .ok parsed_csr)
    (hnew : ∀ row ∈ db.scep_transaction.rows, row.transaction_id ≠ parsed.transaction_id)
    (hrun : Returns (pki_operation X state profile body) tr r)
    (hworld : Steps (step False) db tr db') (hexec : ∀ e ∈ tr, Executed e) :
    (∃ status, Decision X state rt ca parsed parsed_csr tr status ∧
      ∃ row ∈ db'.scep_transaction.rows, row.transaction_id = parsed.transaction_id ∧
        row.profile = rt.name ∧ row.status = status ∧
        row.message_type = message_type_name parsed.message_type) ↔
    parsed.message_type = .PkcsReq ∧ Recordable X state rt ca parsed parsed_csr tr := by
  have hnone : cell parsed.transaction_id db = none := cell_eq_none.mpr hnew
  -- A record names the one message type.
  have hrecorded : ∀ {status}, Decision X state rt ca parsed parsed_csr tr status →
      Recordable X state rt ca parsed parsed_csr tr →
      Recorded ⟨parsed.transaction_id, rt.name, status⟩ "PKCSReq" db db' →
      ((∃ status, Decision X state rt ca parsed parsed_csr tr status ∧
        ∃ row ∈ db'.scep_transaction.rows, row.transaction_id = parsed.transaction_id ∧
          row.profile = rt.name ∧ row.status = status ∧
          row.message_type = message_type_name parsed.message_type) ↔
      parsed.message_type = .PkcsReq ∧ Recordable X state rt ca parsed parsed_csr tr) := by
    intro status hdecision hrecordable hrec
    obtain ⟨row, hrow, hstatus, htype, hprofile⟩ := hrec.row
    rw [hnone] at hprofile
    obtain ⟨hmem, hid⟩ := cell_eq_some.mp hrow
    constructor
    · rintro ⟨_, _, row', hmem', hid', _, _, htype'⟩
      obtain rfl := Option.some.inj ((cell_eq_some.mpr ⟨hmem', hid'⟩).symm.trans hrow)
      refine ⟨?_, hrecordable⟩
      rcases hacc.message_type with hpkcs | hrenewal
      · exact hpkcs
      · rw [htype, hrenewal] at htype'
        exact absurd htype' (by decide)
    · rintro ⟨hpkcs, _⟩
      refine ⟨status, hdecision, row, hmem, hid, hprofile, hstatus, ?_⟩
      rw [htype, hpkcs]
      rfl
  rcases decision_effect hacc hrecover hrun hworld hexec with ⟨hdenied, hrec⟩ |
    ⟨hrecordable, ⟨issued, hdecided⟩, hrec⟩ | ⟨hnot, hsame⟩
  · exact hrecorded (.denied hdenied) (.inl hdenied) hrec
  · exact hrecorded (.issued hdecided) hrecordable hrec
  · refine iff_of_false ?_ fun h => hnot h.2
    rintro ⟨_, _, row, hmem, hid, _⟩
    rw [hsame] at hmem
    exact hnew row hmem hid

/-- An approved request the CA cannot issue does nothing to the tables. -/
theorem unissued_effect (hacc : Accepted X state profile body rt ca parsed enveloped)
    (hrecover : recover_csr X ca enveloped = .ok parsed_csr)
    (hyes : ∀ e, ¬ rt.validator.validates (validation_input parsed parsed_csr) (.error e))
    (hno : ∀ serial now issued,
      ca.leaf X parsed_csr.req (issue_options state rt) serial now ≠ .ok issued)
    (hrun : Returns (pki_operation X state profile body) tr r)
    (hworld : Steps (step False) db tr db') : (∀ e ∈ tr, Executed e) ∧ db' = db := by
  rcases pki_operation_exit hrun with hrefused | ⟨hacc', hrecover', hreply⟩ |
    ⟨hacc', hrecover', hrecord, hreply⟩ | ⟨hacc', hrecover', hleaf, hreply⟩ |
    ⟨hacc', hrecover', hleaf, hder⟩ | ⟨hacc', hrecover', hleaf, hder, hpersist, hreply⟩
  · exact absurd hacc (hrefused _ _ _ _)
  all_goals
    obtain ⟨rfl, rfl, rfl, rfl⟩ := hacc'.unique hacc
    rw [hrecover] at hrecover'
  · cases hrecover'
  · obtain rfl := Except.ok.inj hrecover'
    obtain ⟨_, ⟨hdenied, _⟩, _⟩ := steps_cons.mp hworld
    exact absurd hdenied (hyes _)
  · exact (unissued_world hreply rfl hworld).2
  · obtain rfl := Except.ok.inj hrecover'
    exact absurd hleaf (hno _ _ _)
  · obtain rfl := Except.ok.inj hrecover'
    exact absurd hleaf (hno _ _ _)

end Effect

/-! ## Two requests of the device -/

/-- The enrolled device is recorded as issued. -/
theorem device_recorded :
    ∃ db : Db, ∃ row ∈ db.scep_transaction.rows, row.transaction_id = Device.transaction_id := by
  obtain ⟨issued, tr, der, db, _, hrun, hworld, _, _, hrows⟩ := Device.enrolled
  have hacc := Device.accepted Device.read_txn (enc (Device.csr "s3cret"))
  have hexec := executed_of_stored hrun hworld hrows
  have hrecordable : Recordable Reference.crates Device.server Device.profile Device.ca
      (Device.request Device.transaction_id (enc (Device.csr "s3cret")))
      ⟨Device.csr "s3cret", enc (Device.csr "s3cret"), some "s3cret"⟩ tr := by
    rcases decision_effect hacc Device.recovered_secret hrun hworld hexec with ⟨hdenied, _⟩ |
      ⟨hrecordable, _⟩ | ⟨_, hsame⟩
    · exact .inl hdenied
    · exact hrecordable
    · rw [hsame] at hrows
      cases hrows
  obtain ⟨_, _, row, hrow, hid, _⟩ := (decision_recorded_iff hacc Device.recovered_secret
    (fun row hrow => absurd hrow List.not_mem_nil) hrun hworld hexec).mpr ⟨rfl, hrecordable⟩
  exact ⟨db, row, hrow, hid⟩

/-- A CSR whose extensionRequest is no list of extensions. -/
private def malformed : CertReq where
  info := {
    subject := Reference.common_name "device"
    public_key := Reference.spki_from_key Device.csr_key.pubkey
    attributes := [Attributes.printable Attributes.ID_CHALLENGE_PASSWORD "s3cret",
      ⟨extensions.ID_EXTENSION_REQ, [⟨.Sequence, [0xff]⟩]⟩] }
  algorithm := Reference.signature_algorithm
  signature := []

/-- A CSR with a printable password is recovered like any other. -/
private theorem recovered_of_password {req : CertReq} {password : String}
    (hpassword : extract_challenge_password req = some password) :
    recover_csr Reference.crates Device.ca (Device.enveloped (enc req))
      = .ok ⟨req, enc req, some password⟩ := by
  have hparse : csr.parse Reference.crates (enc req) = .ok ⟨req, enc req, some password⟩ :=
    (csr.parse_eq_ok _).mpr ⟨decode_enc _, rfl, hpassword.symm⟩
  rw [recover_csr, Device.opened]
  exact hparse

private theorem malformed_recovered :
    recover_csr Reference.crates Device.ca (Device.enveloped (enc malformed))
      = .ok ⟨malformed, enc malformed, some "s3cret"⟩ :=
  recovered_of_password (by decide +kernel)

/-- The malformed request is not issued a certificate. -/
private theorem malformed_unissued (opts : IssueOptions) (serial : SerialNumber)
    (now : SystemTime) (issued : Certificate) :
    Device.ca.leaf Reference.crates malformed opts serial now ≠ .ok issued := by
  intro h
  simp only [CertificateAuthority.leaf, CertificateAuthority.add_leaf_extensions, bind_eq_ok] at h
  obtain ⟨_, _, _, _, _, _, _, _, _, ⟨_, _, _, _, _, _, _, _, _, _, _, _, _, _, san, hsan, _⟩, _⟩ := h
  have hno : (extensions.requested_san Reference.crates malformed).toBool = false := by decide +kernel
  rw [hsan] at hno
  cases hno

/-- A request that was approved and could not be issued leaves no record. -/
theorem device_denial_unrecorded :
    ¬ ∀ profile body rt ca parsed enveloped parsed_csr tr r db db',
      Accepted Reference.crates Device.server profile body rt ca parsed enveloped →
      recover_csr Reference.crates ca enveloped = .ok parsed_csr →
      (∀ row ∈ db.scep_transaction.rows, row.transaction_id ≠ parsed.transaction_id) →
      Returns (pki_operation Reference.crates Device.server profile body) tr r →
      Steps (step False) db tr db' → (∀ e ∈ tr, Executed e) →
      ∃ status, Decision Reference.crates Device.server rt ca parsed parsed_csr tr status ∧
        ∃ row ∈ db'.scep_transaction.rows, row.transaction_id = parsed.transaction_id ∧
          row.profile = rt.name ∧ row.status = status ∧
          row.message_type = message_type_name parsed.message_type := by
  intro hclaim
  have hacc := Device.accepted Device.read_txn (enc malformed)
  obtain ⟨tr, r, db', hrun, hworld, _⟩ := exists_run (pki_operation Reference.crates
    Device.server "device" (Device.pki_message ⟨.PrintableString, Device.transaction_id.as_bytes⟩
      (enc malformed))) Device.now Db.empty
  have hyes : ∀ e, ¬ Device.profile.validator.validates (validation_input
      (Device.request Device.transaction_id (enc malformed))
      ⟨malformed, enc malformed, some "s3cret"⟩) (.error e) := by
    intro e hdenied
    have hok : StaticSecretValidator.validate "s3cret" (validation_input
        (Device.request Device.transaction_id (enc malformed))
        ⟨malformed, enc malformed, some "s3cret"⟩) = .ok () :=
      StaticSecretValidator.validate_eq_ok.mpr ⟨"s3cret", rfl, rfl⟩
    cases hok.symm.trans hdenied.symm
  obtain ⟨hexec, hsame⟩ := unissued_effect hacc malformed_recovered hyes
    (fun serial now issued => malformed_unissued _ serial now issued) hrun hworld
  obtain ⟨_, _, row, hrow, _⟩ := hclaim _ _ _ _ _ _ _ _ _ _ _ hacc malformed_recovered
    (fun row hrow => absurd hrow List.not_mem_nil) hrun hworld hexec
  rw [hsame] at hrow
  exact absurd hrow List.not_mem_nil

end Scep

end Blapki
