/-
What the tables and the replies of a server at work rest on (`http/scep.rs`, `db/repo.rs`).

Requests write into the audit trail at the same time, and two of them may write under one
transaction id, so a row can have its profile from one request and its status from another.
`Written` says which statements of a log a row is from, `Entered` what a message writes and
after what, and `transactions_accounted` puts them together: what the row says was decided,
by a message of that transaction, and the certificate of an issued one is in its table.

What is told of a certificate has grounds in the same way (`answers_accounted`). Good or
revoked, it was made of a CSR that a validator approved, and revoked, a revocation by somebody
else met its row, with that date where OCSP can tell it.
-/
import Blapki.Audit
import Blapki.Consistency
import Blapki.Notification

set_option autoImplicit false

namespace Blapki

open Codec Effect

variable {X : Crates}

/-! ## Rows of the audit trail -/

namespace repo

/-- One statement leaves a row as it is, inserts it, or gives it its status. -/
theorem transaction_step {faulty : Prop} {db db' : Db} {e : Event Op.Res}
    (h : step faulty db e.1 e.2 db') {row : ScepTransaction}
    (hrow : row ∈ db'.scep_transaction.rows) :
    row ∈ db.scep_transaction.rows ∨ e = ⟨Op.db (.insert_transaction row), .ok ()⟩ ∨
      ∃ status message_type n, ∃ old ∈ db.scep_transaction.rows,
        e = ⟨Op.db (.update_transaction status message_type old.transaction_id), .ok n⟩ ∧
        row = set_transaction status message_type old := by
  obtain ⟨o, x⟩ := e
  cases o with
  | db q =>
      rcases h with h | ⟨_, _, rfl⟩
      · cases q with
        | insert_transaction first =>
            simp only [Db.exec] at h
            split at h
            · rename_i table hins
              obtain ⟨rfl, rfl⟩ := Prod.mk.inj h
              rw [(Table.insert_eq_some.mp hins).2] at hrow
              rcases List.mem_append.mp hrow with hrow | hrow
              · exact .inl hrow
              · rw [List.mem_singleton.mp hrow]
                exact .inr (.inl rfl)
            · obtain ⟨_, rfl⟩ := Prod.mk.inj h
              exact .inl hrow
        | update_transaction status message_type t =>
            obtain ⟨rfl, rfl⟩ := Prod.mk.inj h
            have hupdated : row ∈ (db.scep_transaction.update (fun r => r.transaction_id = t)
                (set_transaction status message_type) fun _ => rfl).rows := hrow
            obtain ⟨old, hold, rfl⟩ := Table.mem_update.mp hupdated
            by_cases ht : decide (old.transaction_id = t) = true
            · rw [if_pos ht]
              obtain rfl := of_decide_eq_true ht
              exact .inr (.inr ⟨status, message_type, _, old, hold, rfl, rfl⟩)
            · rw [if_neg ht]
              exact .inl hold
        | insert_issued cert =>
            simp only [Db.exec] at h
            split at h
            · obtain ⟨_, rfl⟩ := Prod.mk.inj h
              exact .inl hrow
            · obtain ⟨_, rfl⟩ := Prod.mk.inj h
              exact .inl hrow
        | _ =>
            obtain ⟨_, rfl⟩ := Prod.mk.inj h
            exact .inl hrow
      · exact .inl hrow
  | validate v input => exact .inl (h.2 ▸ hrow)
  | on_issued v input info => exact .inl (h.2 ▸ hrow)
  | on_failure v input message => exact .inl (h.2 ▸ hrow)
  | _ => exact .inl ((show db' = db from h) ▸ hrow)

/-- The statements a row is from: the one that inserted it, and the one that gave it its status
and type. -/
structure Written (tr : Trace) (row : ScepTransaction) : Prop where
  opened : ∃ first, ⟨Op.db (.insert_transaction first), .ok ()⟩ ∈ tr ∧
    row = set_transaction row.status row.message_type first
  marked : ⟨Op.db (.insert_transaction row), .ok ()⟩ ∈ tr ∨
    ∃ n, ⟨Op.db (.update_transaction row.status row.message_type row.transaction_id), .ok n⟩ ∈ tr

/-- Every row was written. -/
theorem transactions_written {faulty : Prop} {tr : Trace} {db : Db}
    (h : Steps (step faulty) Db.empty tr db) :
    ∀ row ∈ db.scep_transaction.rows, Written tr row := by
  refine h.preserves (I := fun u => ∀ row ∈ u.scep_transaction.rows, Written tr row) ?_
    fun row hrow => absurd hrow List.not_mem_nil
  intro e he u u' hu hstep row hrow
  rcases transaction_step hstep hrow with
    hrow | rfl | ⟨status, message_type, n, old, hold, rfl, rfl⟩
  · exact hu row hrow
  · exact ⟨⟨row, he, rfl⟩, .inl he⟩
  · -- an update leaves the insert that made the row as it was
    obtain ⟨first, hfirst, hold'⟩ := (hu old hold).opened
    refine ⟨⟨first, hfirst, ?_⟩, .inr ⟨n, he⟩⟩
    rw [hold']
    rfl

/-- A row that was inserted is there, whatever became of it since. -/
theorem inserted_stays {faulty : Prop} {db db' : Db} {tr : Trace}
    (h : Steps (step faulty) db tr db') {cert : IssuedCertificate}
    (hmem : ⟨Op.db (.insert_issued cert), .ok ()⟩ ∈ tr) :
    ∃ row ∈ db'.issued_certificate.rows, row.as_inserted = cert.as_inserted := by
  obtain ⟨t₁, t₂, u, u', rfl, _, hstep, hrest⟩ := h.mem hmem
  refine hrest.preserves
    (I := fun u => ∃ row ∈ u.issued_certificate.rows, row.as_inserted = cert.as_inserted) ?_
    ⟨cert, inserted_row hstep, rfl⟩
  rintro e _ s s' ⟨row, hrow, hsame⟩ hs
  rcases row_step hs hrow with hrow' | ⟨reason, date, _, _, _, hrow'⟩
  · exact ⟨row, hrow', hsame⟩
  · exact ⟨_, hrow', hsame⟩

/-- A row that is revoked was met by a revocation, with its date and reason. -/
theorem revoked_by {faulty : Prop} {tr : Trace} {db : Db} (h : Steps (step faulty) Db.empty tr db)
    (henrols : Enrolments tr) : ∀ row ∈ db.issued_certificate.rows, row.status = STATUS_REVOKED →
      ∃ date why n, row.revoked_at = some date ∧ row.revocation_reason = some why ∧ 0 < n ∧
        ⟨Op.db (.update_revoked row.ca_id row.serial why date), .ok n⟩ ∈ tr := by
  refine h.preserves (I := fun u => ∀ row ∈ u.issued_certificate.rows,
    row.status = STATUS_REVOKED → ∃ date why n, row.revoked_at = some date ∧
      row.revocation_reason = some why ∧ 0 < n ∧
      ⟨Op.db (.update_revoked row.ca_id row.serial why date), .ok n⟩ ∈ tr) ?_
    fun row hrow => absurd hrow List.not_mem_nil
  intro e he u u' hu hstep row hrow hrevoked
  rcases step_issued hstep with ⟨cert, rfl, _, hrows⟩ | ⟨ca_id, serial, why, date, rfl, htab⟩ |
    ⟨_, _, htab⟩
  · rw [hrows] at hrow
    rcases List.mem_append.mp hrow with hrow | hrow
    · exact hu row hrow hrevoked
    · -- a row is not inserted as revoked
      rw [List.mem_singleton.mp hrow, (henrols cert _ he).1] at hrevoked
      exact absurd hrevoked (by decide)
  · rw [htab] at hrow
    obtain ⟨old, hold, rfl⟩ := Table.mem_update.mp hrow
    by_cases hp : is_valid_row ca_id serial old = true
    · rw [if_pos hp] at hrevoked ⊢
      obtain ⟨rfl, rfl, _⟩ := of_decide_eq_true hp
      exact ⟨date, why, _, rfl, rfl, Table.count_pos.mpr ⟨old, hold, hp⟩, he⟩
    · rw [if_neg hp] at hrevoked ⊢
      exact hu old hold hrevoked
  · rw [htab] at hrow
    exact hu row hrow hrevoked

end repo

/-- A statement in front has seen its rows. -/
theorem guarantees_query_bind {α : Type} {P : Trace → Event Op.Res → Prop} {q : Stmt}
    {f : q.Rows → Async α} (hq : ∀ x, P [] ⟨Op.db q, x⟩)
    (hf : ∀ rows, Guarantees (fun past => P (⟨Op.db q, .ok rows⟩ :: past)) (f rows)) :
    Guarantees P (query q >>= f) := by
  refine Guarantees.bind (guarantees_request_bind hq fun _ => guarantees_lift _) ?_
  intro rows t₁ hrun
  obtain ⟨x, rfl, hx⟩ := repo.query_returns.mp hrun
  obtain rfl := map_err_eq_ok.mp hx.symm
  exact hf rows

/-! ## What a message writes -/

namespace Scep

/-- The statement writes into the audit trail. -/
def Enters : Event Op.Res → Prop
  | ⟨.db (.insert_transaction _), _⟩ => True
  | ⟨.db (.update_transaction _ _ _), _⟩ => True
  | _ => False

theorem not_enters_of_draws {e : Event Op.Res} (h : draws e = true) : ¬ Enters e := by
  obtain ⟨o, r⟩ := e
  cases o with
  | db q => cases h
  | _ => exact id

section Entered

variable (X : Crates) (state : AppState) (rt : ProfileRuntime) (ca : CertificateAuthority)
  (parsed : ParsedRequest) (parsed_csr : ParsedCsr)

/-- What became of a message, as the events bear out. -/
inductive Ruled (past : Trace) : String → Prop
  /-- The validator turned the message down. -/
  | failed {e : AppError}
      (hdenied : ⟨Op.validate rt.validator (validation_input parsed parsed_csr), .error e⟩ ∈ past) :
      Ruled past "failed"
  /-- The validator approved, the CA made a certificate of the CSR from what was drawn, and that
  was stored. -/
  | issued {octets : { b : Bytes // b.length = 16 }} {now : SystemTime} {issued : Certificate}
      {issued_der : Bytes} {created_at : String}
      (happroved : ⟨Op.validate rt.validator (validation_input parsed parsed_csr), .ok ()⟩ ∈ past)
      (hdrew : ⟨Op.fill_bytes 16, octets⟩ ∈ past) (hnow : ⟨Op.now, now⟩ ∈ past)
      (hleaf : ca.leaf X parsed_csr.req (issue_options state rt) (serial_of octets) now
        = .ok issued)
      (hder : X.certificate_to_der issued = .ok issued_der)
      (hstored : ⟨Op.db (.insert_issued
        (issued_row X rt ca parsed issued issued_der created_at)), .ok ()⟩ ∈ past) :
      Ruled past "issued"

/-- What is written into the audit trail is what became of the message. -/
def Entered (past : Trace) : Event Op.Res → Prop
  | ⟨.db (.insert_transaction row), _⟩ =>
      row.transaction_id = parsed.transaction_id ∧ row.profile = rt.name ∧
        row.message_type = "PKCSReq" ∧
        (∃ now, ⟨Op.now, now⟩ ∈ past ∧ row.created_at = utc_text now) ∧
        Ruled X state rt ca parsed parsed_csr past row.status
  | ⟨.db (.update_transaction status message_type t), _⟩ =>
      t = parsed.transaction_id ∧ message_type = "PKCSReq" ∧
        Ruled X state rt ca parsed parsed_csr past status
  | _ => True

variable {X state rt ca parsed parsed_csr}

theorem Ruled.mono {past past' : Trace} {status : String} (hsub : ∀ e ∈ past, e ∈ past')
    (h : Ruled X state rt ca parsed parsed_csr past status) :
    Ruled X state rt ca parsed parsed_csr past' status := by
  cases h with
  | failed hdenied => exact .failed (hsub _ hdenied)
  | issued happroved hdrew hnow hleaf hder hstored =>
      exact .issued (hsub _ happroved) (hsub _ hdrew) (hsub _ hnow) hleaf hder (hsub _ hstored)

/-- A step that writes nothing into the trail may come anywhere. -/
theorem entered_quiet {α : Type} {t : Async α}
    (h : ∀ tr r, Returns t tr r → ∀ e ∈ tr, ¬ Enters e) (before : Trace → Trace) :
    Guarantees (fun past => Entered X state rt ca parsed parsed_csr (before past)) t := by
  refine (guarantees_each.mpr h).mono fun past e henters => ?_
  obtain ⟨o, r⟩ := e
  cases o with
  | db q =>
      cases q with
      | insert_transaction row => exact absurd trivial henters
      | update_transaction status message_type t => exact absurd trivial henters
      | _ => trivial
  | _ => trivial

theorem build_failure_enters {fail : FailInfo} (tr : Trace) (r : AppResult Bytes)
    (h : Returns (build_failure X ca parsed fail) tr r) : ∀ e ∈ tr, ¬ Enters e :=
  fun e he => not_enters_of_draws ((build_failure_returns h).1 e he)

/-- A record is written after the clock was read for it. -/
theorem entered_record {pre : Trace} {status : String}
    (hruled : Ruled X state rt ca parsed parsed_csr pre status) :
    Guarantees (fun past => Entered X state rt ca parsed parsed_csr (pre ++ past))
      (record rt parsed status "PKCSReq") := by
  unfold record
  refine Guarantees.bind (guarantees_request_bind (fun _ => trivial) fun _ => guarantees_pure _) ?_
  intro created_at t₁ hnow
  obtain ⟨now, t₂, rfl, hpure⟩ := returns_request_bind.mp hnow
  obtain ⟨rfl, hcreated⟩ := returns_pure.mp hpure
  obtain rfl := Except.ok.inj hcreated
  unfold repo.record_transaction
  refine guarantees_query_bind (fun _ => trivial) fun existing => ?_
  split
  · refine guarantees_query_bind (fun _ => ?_) fun _ => guarantees_pure _
    exact ⟨rfl, rfl, hruled.mono fun e he => by simp [he]⟩
  · refine guarantees_request_bind (fun _ => ?_) fun _ => guarantees_lift _
    exact ⟨rfl, rfl, rfl, ⟨now, by simp, rfl⟩, hruled.mono fun e he => by simp [he]⟩

/-- A certificate is put on record when it was stored. -/
theorem entered_persist {pre : Trace} {octets : { b : Bytes // b.length = 16 }} {now : SystemTime}
    {issued : Certificate} {issued_der : Bytes}
    (happroved : ⟨Op.validate rt.validator (validation_input parsed parsed_csr), .ok ()⟩ ∈ pre)
    (hdrew : ⟨Op.fill_bytes 16, octets⟩ ∈ pre) (hclock : ⟨Op.now, now⟩ ∈ pre)
    (hleaf : ca.leaf X parsed_csr.req (issue_options state rt) (serial_of octets) now = .ok issued)
    (hder : X.certificate_to_der issued = .ok issued_der) :
    Guarantees (fun past => Entered X state rt ca parsed parsed_csr (pre ++ past))
      (persist X rt ca parsed issued issued_der) := by
  unfold persist
  refine Guarantees.bind (guarantees_request_bind (fun _ => trivial) fun _ => guarantees_pure _) ?_
  intro created_at t₁ hnow
  refine guarantees_query_bind (fun _ => trivial) fun stored => ?_
  refine Guarantees.bind (guarantees_attempt ?_) fun _ _ _ => guarantees_pure _
  have hin : ⟨Op.db (.insert_issued (issued_row X rt ca parsed issued issued_der created_at)),
      .ok ()⟩ ∈ pre ++ (t₁ ++ [⟨Op.db (.insert_issued
        (issued_row X rt ca parsed issued issued_der created_at)), .ok stored⟩]) := by simp
  have hruled := Ruled.issued (List.mem_append_left _ happroved) (List.mem_append_left _ hdrew)
    (List.mem_append_left _ hclock) hleaf hder hin
  refine (entered_record hruled).mono fun past e hentered => ?_
  simpa only [List.append_assoc, List.singleton_append] using hentered

theorem entered_deliver {pre : Trace} {octets : { b : Bytes // b.length = 16 }} {now : SystemTime}
    {issued : Certificate}
    (happroved : ⟨Op.validate rt.validator (validation_input parsed parsed_csr), .ok ()⟩ ∈ pre)
    (hdrew : ⟨Op.fill_bytes 16, octets⟩ ∈ pre) (hclock : ⟨Op.now, now⟩ ∈ pre)
    (hleaf : ca.leaf X parsed_csr.req (issue_options state rt) (serial_of octets) now
      = .ok issued) :
    Guarantees (fun past => Entered X state rt ca parsed parsed_csr (pre ++ past))
      (deliver X rt ca parsed (validation_input parsed parsed_csr) issued) := by
  unfold deliver
  refine guarantees_lift_bind fun issued_der hder => ?_
  have hpersist := entered_persist happroved hdrew hclock hleaf (map_err_eq_ok.mp hder)
  refine Guarantees.bind (guarantees_attempt hpersist) fun persisted t₁ _ => ?_
  refine Guarantees.bind (guarantees_attempt (guarantees_request_bind (fun _ => trivial)
    fun _ => guarantees_lift _)) fun _ t₂ _ => ?_
  exact entered_quiet (fun tr r h e he =>
    not_enters_of_draws ((build_success_returns h).1 e he)) _

/-- **What a message writes into the audit trail is what became of it.** -/
theorem entered_enrol :
    Guarantees (Entered X state rt ca parsed parsed_csr)
      (enrol X state rt ca parsed parsed_csr) := by
  unfold enrol
  refine (guarantees_attempt (guarantees_request_bind (fun _ => trivial)
    fun _ => guarantees_lift _)).bind fun validated t₁ hvalidated => ?_
  obtain ⟨x, hx, hrun⟩ := returns_attempt.mp hvalidated
  obtain rfl := Except.ok.inj hx
  obtain rfl := (ChallengeValidator.validate_returns _ _).mp hrun
  cases validated with
  | error e =>
      refine Guarantees.bind (guarantees_attempt (guarantees_request_bind (fun _ => trivial)
        fun _ => guarantees_lift _)) fun _ t₂ _ => ?_
      -- the denial is in the past of the record
      have hruled : Ruled X state rt ca parsed parsed_csr
          ([⟨Op.validate rt.validator (validation_input parsed parsed_csr), .error e⟩] ++ t₂)
          "failed" := .failed (List.mem_append_left _ List.mem_cons_self)
      refine Guarantees.bind (guarantees_attempt ((entered_record hruled).mono
        fun past e' hentered => ?_)) fun _ t₃ _ => ?_
      · rwa [List.append_assoc] at hentered
      exact entered_quiet build_failure_enters _
  | ok u =>
      refine Guarantees.bind (guarantees_attempt (entered_quiet (fun tr r h e he => ?_) _))
        fun issued t₂ hissued => ?_
      · obtain ⟨octets, now, rfl, _⟩ := CertificateAuthority.issue_returns.mp h
        simp only [List.mem_cons, List.not_mem_nil, or_false] at he
        rcases he with rfl | rfl
        · exact id
        · exact id
      obtain ⟨x, hx, hrun⟩ := returns_attempt.mp hissued
      obtain rfl := Except.ok.inj hx
      obtain ⟨octets, now, rfl, hleaf⟩ := CertificateAuthority.issue_returns.mp hrun
      cases issued with
      | error e =>
          refine Guarantees.bind (guarantees_attempt (guarantees_request_bind (fun _ => trivial)
            fun _ => guarantees_lift _)) fun _ t₂ _ => ?_
          exact entered_quiet build_failure_enters _
      | ok issued =>
          exact entered_deliver List.mem_cons_self (List.mem_cons_of_mem _ List.mem_cons_self)
            (List.mem_cons_of_mem _ (List.mem_cons_of_mem _ List.mem_cons_self)) hleaf.symm

end Entered

/-- Whatever writes into the audit trail is a message to a profile with a CSR. -/
theorem entered_operation {state : AppState} {profile : String} {body : Bytes} :
    Guarantees (fun past e => Enters e →
      ∃ rt ca parsed parsed_csr, Recovered X state profile body rt ca parsed parsed_csr ∧
        Entered X state rt ca parsed parsed_csr past e) (pki_operation X state profile body) := by
  unfold pki_operation
  refine guarantees_lift_bind fun rt hrt => guarantees_lift_bind fun ca hca => ?_
  refine guarantees_lift_bind fun parsed hparsed => guarantees_lift_bind fun _ htype => ?_
  refine guarantees_lift_bind fun enveloped henveloped => ?_
  cases hrecover : recover_csr X ca enveloped with
  | error e =>
      exact (guarantees_each.mpr build_failure_enters).mono fun past e hno henters =>
        absurd henters hno
  | ok parsed_csr =>
      refine entered_enrol.mono fun past e hentered _ =>
        ⟨rt, ca, parsed, parsed_csr, ?_, hentered⟩
      exact ⟨enveloped, ⟨ok_or_else_eq_ok.mp hrt, ok_or_else_eq_ok.mp hca, hparsed,
        check_message_type_eq_ok.mp htype, ok_or_else_eq_ok.mp henveloped⟩, hrecover⟩

end Scep

/-! ## The audit trail -/

/-- The request is a message of the transaction, and its insert made the row, under its profile
and at the time it read: all of the row but its status and type. -/
def Opens (X : Crates) (state : AppState) (req : http.Request) (seen : Trace)
    (row : ScepTransaction) : Prop :=
  ∃ profile body rt ca parsed parsed_csr first now, req.operation = some (profile, body) ∧
    Recovered X state profile body rt ca parsed parsed_csr ∧
    ⟨Op.db (.insert_transaction first), .ok ()⟩ ∈ seen ∧
    row = set_transaction row.status row.message_type first ∧
    first.transaction_id = parsed.transaction_id ∧ first.profile = rt.name ∧
    ⟨Op.now, now⟩ ∈ seen ∧ first.created_at = Scep.utc_text now

/-- The request is a message of the transaction, and what was seen of it bears the status out. -/
def BearsOut (X : Crates) (state : AppState) (req : http.Request) (seen : Trace)
    (transaction_id status : String) : Prop :=
  ∃ profile body rt ca parsed parsed_csr, req.operation = some (profile, body) ∧
    Recovered X state profile body rt ca parsed parsed_csr ∧
    parsed.transaction_id = transaction_id ∧
    Scep.Ruled X state rt ca parsed parsed_csr seen status

section Accounted

variable {ι : Type} [DecidableEq ι] {json : List String → List String → Bytes} {state : AppState}
  {faulty : Prop} {requests : ι → http.Request} {log : List (Option ι × Event Op.Res)} {db : Db}

theorem not_reads_of_enters {e : Event Op.Res} (h : Scep.Enters e) : ¬ http.Reads e := by
  obtain ⟨o, r⟩ := e
  cases o with
  | db q =>
      cases q with
      | insert_transaction row => exact id
      | update_transaction status message_type t => exact id
      | _ => exact h.elim
  | _ => exact h.elim

/-- What is written into the trail, a message writes when it has seen what became of it. -/
theorem Operating.entered (h : Operating X json state faulty requests log db)
    (hothers : ∀ e, (none, e) ∈ log → ¬ Scep.Enters e) {e : Event Op.Res}
    (he : e ∈ log.map Prod.snd) (henters : Scep.Enters e) :
    ∃ i profile body rt ca parsed parsed_csr past,
      (requests i).operation = some (profile, body) ∧
      Recovered X state profile body rt ca parsed parsed_csr ∧
      Scep.Entered X state rt ca parsed parsed_csr past e ∧ e ∈ events_of (some i) log ∧
      ∀ e' ∈ past, e' ∈ events_of (some i) log := by
  obtain ⟨⟨tag, _⟩, htag, rfl⟩ := List.mem_map.mp he
  cases tag with
  | none => exact absurd henters (hothers _ htag)
  | some i =>
      obtain ⟨past, rest, hevents⟩ := List.append_of_mem (mem_events_of.mpr htag)
      obtain ⟨rest', r, hrun⟩ := h.begun i
      rw [hevents, List.append_assoc, List.cons_append] at hrun
      obtain ⟨profile, body, x, hop, hpki⟩ := http.operation_of_event hrun
        (List.mem_append_right past List.mem_cons_self) (not_reads_of_enters henters)
      obtain ⟨rt, ca, parsed, parsed_csr, hrecovered, hentered⟩ :=
        Scep.entered_operation _ _ hpki past _ _ rfl henters
      refine ⟨i, profile, body, rt, ca, parsed, parsed_csr, past, hop, hrecovered, hentered,
        mem_events_of.mpr htag, ?_⟩
      intro e' he'
      rw [hevents]
      exact List.mem_append_left _ he'

/-- **The audit trail says what became of the messages.** Whatever requests the server is
handling, and whatever others do to the certificates, the insert of some message made the row,
under its profile and at its time, and some message with its id has its status: an issued one
was approved, and its certificate stored, where it is still, and a failed one was turned down.
The type is the one that is written, whatever the message was. -/
theorem transactions_accounted (h : Operating X json state faulty requests log db)
    (hothers : ∀ e, (none, e) ∈ log → ¬ Scep.Enters e) {row : ScepTransaction}
    (hrow : row ∈ db.scep_transaction.rows) :
    row.message_type = "PKCSReq" ∧
      (∃ i, Opens X state (requests i) (events_of (some i) log) row) ∧
      (∃ i, BearsOut X state (requests i) (events_of (some i) log) row.transaction_id
        row.status) ∧
      (row.status = "issued" → ∃ cert ∈ db.issued_certificate.rows,
        cert.transaction_id = some row.transaction_id) := by
  obtain ⟨⟨first, hfirst, hsame⟩, hmarked⟩ := repo.transactions_written h.world row hrow
  have hopens : ∃ i, Opens X state (requests i) (events_of (some i) log) row := by
    obtain ⟨i, profile, body, rt, ca, parsed, parsed_csr, past, hop, hrecovered,
      ⟨hid, hprofile, _, ⟨now, hnow, htime⟩, _⟩, hseen, hpast⟩ := h.entered hothers hfirst trivial
    exact ⟨i, profile, body, rt, ca, parsed, parsed_csr, first, now, hop, hrecovered, hseen, hsame,
      hid, hprofile, hpast _ hnow, htime⟩
  have hbears : row.message_type = "PKCSReq" ∧ ∃ i, BearsOut X state (requests i)
      (events_of (some i) log) row.transaction_id row.status := by
    rcases hmarked with hmem | ⟨n, hmem⟩
    · obtain ⟨i, profile, body, rt, ca, parsed, parsed_csr, past, hop, hrecovered,
        ⟨hid', _, htype, _, hruled⟩, _, hpast⟩ := h.entered hothers hmem trivial
      exact ⟨htype, i, profile, body, rt, ca, parsed, parsed_csr, hop, hrecovered, hid'.symm,
        hruled.mono hpast⟩
    · obtain ⟨i, profile, body, rt, ca, parsed, parsed_csr, past, hop, hrecovered,
        ⟨hid', htype, hruled⟩, _, hpast⟩ := h.entered hothers hmem trivial
      exact ⟨htype, i, profile, body, rt, ca, parsed, parsed_csr, hop, hrecovered, hid'.symm,
        hruled.mono hpast⟩
  refine ⟨hbears.1, hopens, hbears.2, fun hissued => ?_⟩
  obtain ⟨_, i, profile, body, rt, ca, parsed, parsed_csr, _, _, hid', hruled⟩ := hbears
  rw [hissued] at hruled
  generalize hstatus : "issued" = status at hruled
  cases hruled with
  | failed _ => exact absurd hstatus (by decide)
  | @issued octets now issued issued_der created_at _ _ _ _ _ hstored =>
      have hin := List.mem_map_of_mem (f := Prod.snd) (mem_events_of.mp hstored)
      obtain ⟨cert, hcert, hsame⟩ := repo.inserted_stays h.world hin
      have hid := congrArg IssuedCertificate.transaction_id hsame
      exact ⟨cert, hcert, hid.trans (congrArg some hid')⟩

/-- The server has handled the request of the device, and put it on record. -/
theorem Device.on_record : ∃ (log : List (Option Unit × Event Op.Res)) (db : Db)
    (row : ScepTransaction),
    Operating Reference.crates (fun _ _ => []) server False (fun _ => post) log db ∧
      (∀ e, (none, e) ∉ log) ∧ row ∈ db.scep_transaction.rows := by
  obtain ⟨issued, tr, der, db, _, hrun, hworld, _, _, hrows⟩ := enrolled
  have hserve := @http.serve_of_operation _ (fun _ _ => []) _ _ _ _ _ _ _ post_resolves rfl hrun
  have h := (@operating_empty Reference.crates Unit _ (fun _ _ => []) server False
    fun _ => post).serves (i := ()) rfl hserve hworld
  have hrow : ∃ row, row ∈ db.scep_transaction.rows := by
    obtain ⟨outcome, _, hmoves, _⟩ := Scep.run_effect hrun hworld
    cases hmoves with
    | nothing hsame =>
        rw [hsame] at hrows
        cases hrows
    | failed hsame _ =>
        rw [hsame] at hrows
        cases hrows
    | issued _ _ _ hrecorded =>
        obtain ⟨row, hcell, _⟩ := hrecorded.row
        exact ⟨row, (repo.cell_eq_some.mp hcell).1⟩
  obtain ⟨row, hrow⟩ := hrow
  refine ⟨_, db, row, h, fun e hno => ?_, hrow⟩
  obtain ⟨_, _, hno⟩ := List.mem_map.mp hno
  cases hno

/-- The record of the device is accounted for. -/
theorem device_transactions_accounted : ∃ (log : List (Option Unit × Event Op.Res)) (db : Db)
    (row : ScepTransaction), row ∈ db.scep_transaction.rows ∧
      row.message_type = "PKCSReq" ∧
      (∃ i, Opens Reference.crates Device.server Device.post (events_of (some i) log) row) ∧
      (∃ i, BearsOut Reference.crates Device.server Device.post (events_of (some i) log)
        row.transaction_id row.status) ∧
      (row.status = "issued" → ∃ cert ∈ db.issued_certificate.rows,
        cert.transaction_id = some row.transaction_id) := by
  obtain ⟨log, db, row, h, hno, hrow⟩ := Device.on_record
  exact ⟨log, db, row, hrow, transactions_accounted h (fun e he => absurd he (hno e)) hrow⟩

/-! ## What a reply rests on -/

/-- What is in front of an element starts with whatever the element is not in. -/
theorem mem_of_append_cons {α : Type} {l r past rest : List α} {x : α}
    (h : past ++ x :: rest = l ++ r) (hx : x ∉ l) : ∀ e ∈ l, e ∈ past := by
  rcases List.append_eq_append_iff.mp h with ⟨m, rfl, hm⟩ | ⟨m, rfl, _⟩
  · rcases m with _ | ⟨y, m⟩
    · rw [List.append_nil]
      exact fun e he => he
    · obtain rfl := (List.cons.inj hm).1
      exact absurd (List.mem_append_right past List.mem_cons_self) hx
  · exact fun e he => List.mem_append_left m he

/-- The certificate of this serial was made by the request: of a CSR that the validator of its
profile approved and from what the request drew, and its row was stored. -/
def Vouches (X : Crates) (state : AppState) (req : http.Request) (seen : Trace) (ca_id : String)
    (serial : SerialNumber) : Prop :=
  ∃ row rt ca parsed parsed_csr issued octets now,
    Enrolled X state req row rt ca parsed parsed_csr issued ∧
    ca.id = ca_id ∧ issued.tbs_certificate.serial_number = serial ∧
    ⟨Op.validate rt.validator (Scep.validation_input parsed parsed_csr), .ok ()⟩ ∈ seen ∧
    ⟨Op.fill_bytes 16, octets⟩ ∈ seen ∧ ⟨Op.now, now⟩ ∈ seen ∧
    ca.leaf X parsed_csr.req (Scep.issue_options state rt) (serial_of octets) now = .ok issued ∧
    ⟨Op.db (.insert_issued row), .ok ()⟩ ∈ seen

/-- Every row is vouched for. -/
theorem Operating.vouched (h : Operating X json state faulty requests log db)
    (hothers : Administered log) {row : IssuedCertificate}
    (hrow : row ∈ db.issued_certificate.rows) {serial : SerialNumber}
    (hserial : row.serial = hex.encode serial.as_bytes) :
    ∃ j, Vouches X state (requests j) (events_of (some j) log) row.ca_id serial := by
  obtain ⟨cert, hmem, hsame⟩ := repo.rows_inserted h.world row hrow
  obtain ⟨⟨tag, _⟩, htag, rfl⟩ := List.mem_map.mp hmem
  cases tag with
  | none => exact absurd htag (hothers cert _)
  | some j =>
      have hseen := mem_events_of.mpr htag
      obtain ⟨past, rest, hevents⟩ := List.append_of_mem hseen
      obtain ⟨rest', r, hrun⟩ := h.begun j
      rw [hevents, List.append_assoc, List.cons_append] at hrun
      have hin : ⟨Op.db (.insert_issued cert), .ok ()⟩ ∈
          past ++ ⟨Op.db (.insert_issued cert), .ok ()⟩ :: (rest ++ rest') :=
        List.mem_append_right past List.mem_cons_self
      obtain ⟨profile, body, x, hop, hpki⟩ := http.operation_of_event hrun hin id
      obtain ⟨rt, ca, parsed, enveloped, parsed_csr, issued, issued_der, created_at, hissuance,
        hder, rfl⟩ := Scep.issuance_of_submits hpki hin ⟨_, rfl⟩
      obtain ⟨t, rest₂, htr, hissue⟩ := hissuance.run
      obtain ⟨octets, now, rfl, hleaf⟩ := CertificateAuthority.issue_returns.mp hissue
      have hca := congrArg IssuedCertificate.ca_id hsame
      have htext := congrArg IssuedCertificate.serial hsame
      -- the approval and the draws are the first that the message saw, so before the insert
      have hbefore : ∀ e ∈ ([⟨Op.validate rt.validator (Scep.validation_input parsed parsed_csr),
          .ok ()⟩, ⟨Op.fill_bytes 16, octets⟩, ⟨Op.now, now⟩] : Trace), e ∈ past :=
        mem_of_append_cons (r := rest₂) htr (by simp)
      have hin' : ∀ e ∈ past, e ∈ events_of (some j) log := fun e he => by
        rw [hevents]
        exact List.mem_append_left _ he
      refine ⟨j, _, rt, ca, parsed, parsed_csr, issued, octets, now, ⟨?_, ?_, ?_⟩, hca.symm, ?_,
        hin' _ (hbefore _ (by simp)), hin' _ (hbefore _ (by simp)), hin' _ (hbefore _ (by simp)),
        hleaf.symm, hseen⟩
      · exact ⟨profile, body, enveloped, hop, hissuance.accepted, hissuance.recovered⟩
      · exact ⟨octets, now, hleaf.symm⟩
      · exact ⟨issued_der, created_at, hder, rfl⟩
      · have hbytes := hex.encode_inj.mp (hserial.symm.trans htext)
        cases serial with
        | mk bytes => exact (congrArg SerialNumber.mk hbytes).symm

/-- A revoked status is from a revocation by somebody else, which met the row. -/
theorem Operating.revocation (h : Operating X json state faulty requests log db)
    (hothers : Administered log) {ca_id serial : String} {revoked_at : Option String}
    {reason : Option Int} (hstatus : repo.status db ca_id serial = .Revoked revoked_at reason) :
    ∃ date why n, revoked_at = some date ∧ reason = some why ∧ 0 < n ∧
      (none, ⟨Op.db (.update_revoked ca_id serial why date), .ok n⟩) ∈ log := by
  obtain ⟨r, hr, hp, rfl, rfl, rfl⟩ := status_eq_revoked.mp hstatus
  obtain ⟨hca, hrevoked⟩ := of_decide_eq_true hp
  obtain ⟨date, why, n, hdate, hwhy, hn, hmem⟩ :=
    repo.revoked_by h.world (h.enrolments hothers) r hr hrevoked
  rw [hca] at hmem
  exact ⟨date, why, n, hdate, hwhy, hn, h.revoked_by_others hmem⟩

/-- **What is told of a certificate has grounds.** Where a reply says of a serial that it is
good or revoked, a message had its certificate made of a CSR that was approved; and where it
says revoked, a revocation by somebody else met the row, with the date that is told where that
is one in the years 1970 to 9999. -/
theorem answers_accounted (hlaw : X.StatusLaw)
    (hbits : ∀ s b, X.signature_to_bitstring s = .ok b → b = s) (hx509 : X.X509Law)
    (h : Operating X json state faulty requests log db) (hothers : Administered log) {i : ι}
    {call : http.Call} {resp : Response}
    (hcompleted : Completed X json state (requests i) call (events_of (some i) log) resp)
    {ca_id : String} {serial : SerialNumber} {a : Answer}
    (ha : Tells X ca_id serial call resp.body a)
    (hknown : a.revoked = true ∨ a = .status .Good) :
    (∃ j, Vouches X state (requests j) (events_of (some j) log) ca_id serial) ∧
      (a.revoked = true → ∃ date why n, 0 < n ∧
        (none, ⟨Op.db (.update_revoked ca_id (hex.encode serial.as_bytes) why date), .ok n⟩) ∈
          log ∧
        ∀ d t, a.date = some d → X.parse_rfc3339 date = some t → DateTime.Representable t →
          (d.unix_secs : Int) = t.secs) := by
  have h' : Operating X json state faulty requests ([] ++ log) db := h
  have hothers' : Administered ([] ++ log) := hothers
  obtain ⟨u, _, hu, hright⟩ := h'.right hlaw hbits hx509 hothers' (.nil _) h.world hcompleted ha
  have hprecedes := status_precedes hu ca_id (hex.encode serial.as_bytes)
  refine ⟨?_, fun hrevoked => ?_⟩
  · -- what is known of a serial is known of a row
    have hstatus : repo.status u ca_id (hex.encode serial.as_bytes) ≠ .Unknown := by
      intro hunknown
      rcases hknown with hrevoked | rfl
      · obtain ⟨_, _, hs⟩ := hright.revoked_iff.mp hrevoked
        cases hunknown.symm.trans hs
      · rw [hunknown] at hright
        cases hright
    have hrow : ∃ r ∈ u.issued_certificate.rows, r.ca_id = ca_id ∧
        r.serial = hex.encode serial.as_bytes := by
      by_contra hno
      exact hstatus (repo.status_of_not_mem fun r hr hkey => hno ⟨r, hr, hkey⟩)
    obtain ⟨tr, hsteps⟩ := hu
    obtain ⟨r, hr, rfl, htext⟩ := repo.row_stays hsteps hrow
    exact h.vouched hothers hr htext
  · obtain ⟨revoked_at, reason, hs⟩ := hright.revoked_iff.mp hrevoked
    have hdb : repo.status db ca_id (hex.encode serial.as_bytes) = .Revoked revoked_at reason := by
      rw [hs] at hprecedes
      generalize repo.status db ca_id (hex.encode serial.as_bytes) = s' at hprecedes
      cases hprecedes
      rfl
    obtain ⟨date, why, n, rfl, rfl, hn, hmem⟩ := h.revocation hothers hdb
    exact ⟨date, why, n, hn, hmem, fun d t hd ht hrep => hright.date_instant hd hs ht hrep⟩

end Accounted

/-- What the CRL says of the device's certificate has grounds. -/
theorem device_answers_accounted : ∃ (log : List (Option (Fin 3) × Event Op.Res)) (date : Time),
    (∃ j, Vouches Reference.crates Device.server (Device.requests j) (events_of (some j) log)
      "root" (serial_of Device.serial_octets)) ∧
    ((Answer.listed date).revoked = true → ∃ text why n, 0 < n ∧
      (none, ⟨Op.db (.update_revoked "root" (hex.encode (serial_of Device.serial_octets).as_bytes)
        why text), .ok n⟩) ∈ log ∧
      ∀ d t, (Answer.listed date).date = some d → Reference.crates.parse_rfc3339 text = some t →
        DateTime.Representable t → (d.unix_secs : Int) = t.secs) := by
  obtain ⟨past, during, db, n, listed, told, entry, single, h, hothers, _, _, hlisted, _, ha, _⟩ :=
    Device.revoked_then_asked
  obtain ⟨u, hleft, _⟩ := h.left
  exact ⟨past, entry.revocation_date, answers_accounted (i := 1) Reference.status_law
    Reference.rsa_law.bitstring Reference.x509_law hleft hothers.left hlisted ha (.inl rfl)⟩

end Blapki
