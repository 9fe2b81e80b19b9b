/-
The OCSP responder and the CRL agree.

`Says` relates a status of the table to what OCSP answers, `Lists` a revoked row
to its entry in the CRL. On the rows enrolments insert, no row is skipped and
every serial survives the way through hex text, so both relations are about the
same serials; `ocsp_crl_agree` puts them together over every reachable database.
-/
import Blapki.Responder
import Blapki.Device
import Blapki.Lifecycle

set_option autoImplicit false

namespace Blapki

open Codec Effect

variable {X : Crates}

/-! ## Reachable rows -/

/-- A row as an enrolment inserts it: fresh, under the hex text of a drawn serial. -/
def Drawn (cert : IssuedCertificate) : Prop :=
  repo.Fresh cert ∧
    ∃ bytes : { b : Bytes // b.length = 16 }, cert.serial = hex.encode (serial_of bytes).as_bytes

/-- Every row the trace inserts is one of an enrolment. -/
def Draws (tr : Trace) : Prop :=
  ∀ cert x, ⟨Op.db (.insert_issued cert), x⟩ ∈ tr → Drawn cert

/-- A date text that does not parse, or denotes a time that can be represented. -/
def Dated (X : Crates) (revoked_at : String) : Prop :=
  ∀ t, X.parse_rfc3339 revoked_at = some t → DateTime.Representable t

/-- Every revocation of the trace has such a date. -/
def Dates (X : Crates) (tr : Trace) : Prop :=
  ∀ ca_id serial reason revoked_at x,
    ⟨Op.db (.update_revoked ca_id serial reason revoked_at), x⟩ ∈ tr → Dated X revoked_at

/-- What the traces keep of every row. -/
def RowDrawn (X : Crates) (r : IssuedCertificate) : Prop :=
  (∃ bytes : { b : Bytes // b.length = 16 }, r.serial = hex.encode (serial_of bytes).as_bytes) ∧
    ∀ revoked_at, r.revoked_at = some revoked_at → Dated X revoked_at

/-- The serial of a row is drawn. -/
theorem serials_drawn {faulty : Prop} {tr : Trace} {db : Db}
    (h : Steps (step faulty) Db.empty tr db) (hdraws : Draws tr) :
    ∀ r ∈ db.issued_certificate.rows, ∃ bytes : { b : Bytes // b.length = 16 },
      r.serial = hex.encode (serial_of bytes).as_bytes := by
  intro r hr
  obtain ⟨cert, hmem, hsame⟩ := repo.rows_inserted h r hr
  obtain ⟨bytes, hserial⟩ := (hdraws cert _ hmem).2
  exact ⟨bytes, (congrArg IssuedCertificate.serial hsame).trans hserial⟩

theorem rows_drawn {faulty : Prop} {tr : Trace} {db : Db}
    (h : Steps (step faulty) Db.empty tr db) (hdraws : Draws tr) (hdates : Dates X tr) :
    ∀ r ∈ db.issued_certificate.rows, RowDrawn X r := by
  have hdated : ∀ r ∈ db.issued_certificate.rows, ∀ revoked_at, r.revoked_at = some revoked_at →
      Dated X revoked_at := by
    refine h.preserves (I := fun u => ∀ r ∈ u.issued_certificate.rows, ∀ revoked_at,
      r.revoked_at = some revoked_at → Dated X revoked_at) ?_ fun r hr => absurd hr List.not_mem_nil
    intro e he u u' hu hstep r hr revoked_at hdate
    rcases repo.step_issued hstep with ⟨cert, rfl, _, hrows⟩ |
      ⟨ca_id, serial, reason, date, rfl, htab⟩ | ⟨_, _, htab⟩
    · rw [hrows] at hr
      rcases List.mem_append.mp hr with hr | hr
      · exact hu r hr revoked_at hdate
      · rw [List.mem_singleton.mp hr, (hdraws cert _ he).1.2.1] at hdate
        cases hdate
    · rw [htab] at hr
      obtain ⟨r₀, hr₀, rfl⟩ := Table.mem_update.mp hr
      by_cases hp : is_valid_row ca_id serial r₀ = true
      · rw [if_pos hp] at hdate
        obtain rfl : date = revoked_at := Option.some.inj hdate
        exact hdates _ _ _ _ _ he
      · rw [if_neg hp] at hdate
        exact hu r₀ hr₀ revoked_at hdate
    · rw [htab] at hr
      exact hu r hr revoked_at hdate
  exact fun r hr => ⟨serials_drawn h hdraws r hr, hdated r hr⟩

/-! ## The CRL pipeline -/

namespace Crl

theorem to_time_eq_ok {t : SystemTime} {time : Time} :
    to_time t = .ok time ↔ ∃ d, DateTime.from_system_time t = .ok d ∧
      time = if d.year < 2050 then .UtcTime d else .GeneralTime d := by
  simp only [to_time, bind_eq_ok, map_err_eq_ok]
  refine exists_congr fun d => and_congr_right fun _ => ?_
  by_cases hyear : d.year < 2050
  · have hutc : utc_time d = .ok d := if_pos (Nat.le_of_lt_succ hyear)
    rw [if_pos hyear, if_pos hyear, hutc]
    constructor
    · rintro ⟨⟩
      rfl
    · rintro rfl
      rfl
  · rw [if_neg hyear, if_neg hyear]
    constructor
    · rintro ⟨⟩
      rfl
    · rintro rfl
      rfl

theorem to_time_representable {t : SystemTime} (h : DateTime.Representable t) :
    ∃ time, to_time t = .ok time ∧ (time.to_date_time.unix_secs : Int) = t.secs := by
  obtain ⟨d, hd⟩ := DateTime.exists_from_system_time h
  refine ⟨_, to_time_eq_ok.mpr ⟨d, hd, rfl⟩, ?_⟩
  have hdt : (if d.year < 2050 then Time.UtcTime d else .GeneralTime d).to_date_time = d := by
    split <;> rfl
  rw [hdt]
  exact (DateTime.from_system_time_eq_ok.mp hd).2.symm

/-- The entry stands for the row: the same serial, and the stored date where it is
an instant. -/
structure Lists (X : Crates) (row : RevokedEntry) (entry : RevokedCert) : Prop where
  serial : hex.encode entry.serial_number.as_bytes = row.serial
  date : ∀ t, stored_instant X row.revoked_at = some t →
    (entry.revocation_date.to_date_time.unix_secs : Int) = t.secs

/-- What the CRL needs of a row. -/
def Listable (X : Crates) (row : RevokedEntry) : Prop :=
  (∃ bytes : { b : Bytes // b.length = 16 }, row.serial = hex.encode (serial_of bytes).as_bytes) ∧
    ∀ t, stored_instant X row.revoked_at = some t → DateTime.Representable t

/-- No listable row is skipped. -/
theorem revoked_cert_lists {row : RevokedEntry} {now : SystemTime} (hrow : Listable X row)
    (hnow : DateTime.Representable now) :
    ∃ entry, revoked_cert X row now = .ok (some entry) ∧ Lists X row entry := by
  obtain ⟨⟨bytes, hserial⟩, hdates⟩ := hrow
  obtain ⟨fallback, hfallback, _⟩ := to_time_representable hnow
  have hdecode : hex.decode row.serial = some (serial_of bytes).as_bytes := by
    rw [hserial, hex.decode_encode]
  -- The date is the stored one where it parses, the time of the CRL where it does not.
  obtain ⟨date, hdate, hsecs⟩ : ∃ date, revocation_date X row.revoked_at now = .ok date ∧
      ∀ t, stored_instant X row.revoked_at = some t →
        (date.to_date_time.unix_secs : Int) = t.secs := by
    cases hstored : stored_instant X row.revoked_at with
    | none =>
        refine ⟨fallback, ?_, fun t ht => by cases ht⟩
        rw [revocation_date, hstored, hfallback]
        rfl
    | some t =>
        obtain ⟨date, hdate, hsecs⟩ := to_time_representable (hdates t hstored)
        refine ⟨date, ?_, fun t' ht' => ?_⟩
        · rw [revocation_date, hstored, hfallback, Option.mapM_some, hdate]
          rfl
        · cases ht'
          exact hsecs
  refine ⟨⟨serial_of bytes, date⟩, ?_, ⟨hserial.symm, hsecs⟩⟩
  simp only [revoked_cert, hdecode, new_serial_of, hdate]
  rfl

/-- The loop lists the rows one for one. -/
theorem revoked_certificates_lists {rows : List RevokedEntry} {now : SystemTime}
    (hrows : ∀ row ∈ rows, Listable X row) (hnow : DateTime.Representable now) :
    ∃ entries, revoked_certificates X now rows = .ok entries ∧
      List.Forall₂ (Lists X) rows entries := by
  induction rows with
  | nil => exact ⟨[], rfl, .nil⟩
  | cons row rows ih =>
      obtain ⟨entry, hentry, hlists⟩ := revoked_cert_lists (hrows row List.mem_cons_self) hnow
      obtain ⟨entries, hentries, hall⟩ := ih fun r hr => hrows r (List.mem_cons_of_mem _ hr)
      refine ⟨entry :: entries, ?_, .cons hlists hall⟩
      rw [revoked_certificates, hentry, hentries]
      rfl

/-- The entries of listable rows have serials that are read. -/
theorem readable_of_lists {rows : List RevokedEntry} {entries : List RevokedCert}
    (h : List.Forall₂ (Lists X) rows entries) (hrows : ∀ row ∈ rows, Listable X row) :
    ∀ entry ∈ entries, entry.serial_number.Readable := by
  induction h with
  | nil => exact fun entry hno => absurd hno List.not_mem_nil
  | @cons row entry rows entries hlists _ ih =>
      rw [List.forall_mem_cons] at hrows ⊢
      obtain ⟨⟨bytes, hserial⟩, _⟩ := hrows.1
      refine ⟨?_, ih hrows.2⟩
      rw [SerialNumber.Readable, hex.encode_inj.mp (hlists.serial.trans hserial)]
      exact readable_serial_of bytes

/-- The runs of `build_crl` in a world where statements do not fail. -/
theorem build_crl_returns {state : AppState} {ca_id : String} {ca : CertificateAuthority}
    (hca : state.cas.lookup ca_id = some ca) {tr : Trace} {r : AppResult Bytes} {db db' : Db}
    (h : Returns (build_crl X state ca_id) tr r) (hworld : Steps (step False) db tr db') :
    ∃ now, ⟨Op.now, now⟩ ∈ tr ∧ db' = db ∧
      r = crl_at X ca ((db.issued_certificate.select fun row =>
        row.ca_id = ca_id ∧ row.status = STATUS_REVOKED).map fun row =>
          ⟨row.serial, row.revoked_at, row.revocation_reason⟩) now := by
  rw [build_crl, lift_bind_of_ok (ok_or_else_eq_ok.mpr hca)] at h
  rcases returns_bind.mp h with ⟨e, _, hrows⟩ | ⟨rows, t₁, t₂, rfl, hrows, h₁⟩
  · obtain ⟨hno, _⟩ := repo.query_world hrows hworld
    cases hno
  · obtain ⟨u, hworld₁, hworld₂⟩ := steps_append.mp hworld
    obtain ⟨hok, rfl⟩ := repo.query_world hrows hworld₁
    obtain rfl : rows = _ := Except.ok.inj hok
    obtain ⟨now, tr', rfl, h₂⟩ := returns_request_bind.mp h₁
    obtain ⟨rfl, rfl⟩ := returns_lift.mp h₂
    obtain ⟨u', hnow, hnil⟩ := steps_cons.mp hworld₂
    obtain rfl := steps_nil.mp hnil
    exact ⟨now, List.mem_append_right _ List.mem_cons_self, hnow, rfl⟩

end Crl

/-! ## The OCSP pipeline -/

namespace Ocsp

/-- What OCSP answers for a status. A revocation without a usable date may be dated
anything. -/
inductive Says (X : Crates) : RevocationStatus → CertStatus → Prop
  | good : Says X .Good .Good
  | unknown : Says X .Unknown .Unknown
  | revoked {revoked_at : Option String} {reason : Option Int} {time : DateTime}
      (htime : ∀ t, stored_time X revoked_at = some t → time = t) :
      Says X (.Revoked revoked_at reason) (.Revoked ⟨time, none⟩)

/-- Reading the clock leaves the database alone. -/
theorem ocsp_now_world {tr : Trace} {r : AppResult DateTime} {faulty : Prop} {db db' : Db}
    (h : Returns ocsp_now tr r) (hworld : Steps (step faulty) db tr db') :
    db' = db ∧ ∃ t, r = .ok t := by
  obtain ⟨now, tr', rfl, h₁⟩ := returns_request_bind.mp h
  obtain ⟨rfl, rfl⟩ := returns_pure.mp h₁
  obtain ⟨u, hnow, hnil⟩ := steps_cons.mp hworld
  obtain rfl := steps_nil.mp hnil
  exact ⟨hnow, _, rfl⟩

theorem to_cert_status_world {status : RevocationStatus} {tr : Trace} {r : AppResult CertStatus}
    {faulty : Prop} {db db' : Db} (h : Returns (to_cert_status X status) tr r)
    (hworld : Steps (step faulty) db tr db') :
    db' = db ∧ ∃ cert_status, r = .ok cert_status ∧ Says X status cert_status := by
  rcases status with _ | ⟨revoked_at, reason⟩ | _
  · obtain ⟨rfl, rfl⟩ := returns_pure.mp h
    exact ⟨steps_nil.mp hworld, _, rfl, .good⟩
  · cases hstored : stored_time X revoked_at with
    | some t =>
        rw [to_cert_status, hstored] at h
        obtain ⟨rfl, rfl⟩ := returns_pure.mp h
        refine ⟨steps_nil.mp hworld, _, rfl, .revoked fun t' ht' => ?_⟩
        rw [hstored] at ht'
        exact Option.some.inj ht'
    | none =>
        rw [to_cert_status, hstored] at h
        rcases returns_bind.mp h with ⟨e, _, h₁⟩ | ⟨t, t₁, t₂, rfl, h₁, h₂⟩
        · obtain ⟨_, t, hno⟩ := ocsp_now_world h₁ hworld
          cases hno
        · obtain ⟨rfl, rfl⟩ := returns_pure.mp h₂
          rw [List.append_nil] at hworld
          obtain ⟨rfl, _⟩ := ocsp_now_world h₁ hworld
          refine ⟨rfl, _, rfl, .revoked fun t' ht' => ?_⟩
          rw [hstored] at ht'
          cases ht'
  · obtain ⟨rfl, rfl⟩ := returns_pure.mp h
    exact ⟨steps_nil.mp hworld, _, rfl, .unknown⟩

/-- A look-up answers the status, unless it fails. -/
theorem status_by_serial_world {ca_id serial : String} {tr : Trace}
    {r : AppResult RevocationStatus} {faulty : Prop} {db db' : Db}
    (h : Returns (repo.status_by_serial ca_id serial) tr r)
    (hworld : Steps (step faulty) db tr db') :
    db' = db ∧ ((faulty ∧ ∃ e, r = .error e) ∨ r = .ok (repo.status db ca_id serial)) := by
  rcases returns_bind.mp h with ⟨e, rfl, hrow⟩ | ⟨row, t₁, t₂, rfl, hrow, h₁⟩
  · rcases repo.query_steps hrow hworld with ⟨hno, _⟩ | ⟨hfaulty, _, hdb⟩
    · cases hno
    · exact ⟨hdb, .inl ⟨hfaulty, e, rfl⟩⟩
  · obtain ⟨rfl, rfl⟩ := returns_pure.mp h₁
    rw [List.append_nil] at hworld
    rcases repo.query_steps hrow hworld with ⟨hok, rfl⟩ | ⟨_, ⟨e, hno⟩, _⟩
    · obtain rfl : row = _ := Except.ok.inj hok
      exact ⟨rfl, .inr rfl⟩
    · cases hno

/-- The response to an entry: the requested CertID, and the status of its serial. -/
def Answered (X : Crates) (db : Db) (ca_id : String) (entry : OcspEntry)
    (single : SingleResponse) : Prop :=
  single.cert_id = entry.req_cert ∧
    Says X (repo.status db ca_id (hex.encode entry.req_cert.serial_number.as_bytes))
      single.cert_status

theorem single_response_world {ca_id : String} {this_update next_update : DateTime}
    {entry : OcspEntry} {tr : Trace} {r : AppResult SingleResponse} {faulty : Prop} {db db' : Db}
    (h : Returns (single_response X ca_id this_update next_update entry) tr r)
    (hworld : Steps (step faulty) db tr db') :
    db' = db ∧ ((faulty ∧ ∃ e, r = .error e) ∨
      ∃ single, r = .ok single ∧ Answered X db ca_id entry single) := by
  rcases returns_bind.mp h with ⟨e, rfl, hlookup⟩ | ⟨status, t₁, t₂, rfl, hlookup, h₁⟩
  · obtain ⟨hdb, ⟨hfaulty, _⟩ | hno⟩ := status_by_serial_world hlookup hworld
    · exact ⟨hdb, .inl ⟨hfaulty, e, rfl⟩⟩
    · cases hno
  · obtain ⟨u, hworld₁, hworld₂⟩ := steps_append.mp hworld
    obtain ⟨rfl, ⟨_, _, hno⟩ | hok⟩ := status_by_serial_world hlookup hworld₁
    · cases hno
    obtain rfl : status = _ := Except.ok.inj hok
    rcases returns_bind.mp h₁ with ⟨e, _, hstatus⟩ | ⟨cert_status, t₃, t₄, rfl, hstatus, h₂⟩
    · obtain ⟨_, _, hno, _⟩ := to_cert_status_world hstatus hworld₂
      cases hno
    · obtain ⟨rfl, rfl⟩ := returns_pure.mp h₂
      rw [List.append_nil] at hworld₂
      obtain ⟨hdb, _, hcs, hanswers⟩ := to_cert_status_world hstatus hworld₂
      cases hcs
      exact ⟨hdb, .inr ⟨_, rfl, rfl, hanswers⟩⟩

/-- The loop answers the entries one for one, in order, unless a look-up fails. -/
theorem add_responses_world {ca_id : String} {this_update next_update : DateTime}
    {entries : List OcspEntry} {builder : OcspResponseBuilder} {tr : Trace}
    {r : AppResult OcspResponseBuilder} {faulty : Prop} {db db' : Db}
    (h : Returns (add_responses X ca_id this_update next_update entries builder) tr r)
    (hworld : Steps (step faulty) db tr db') :
    db' = db ∧ ((faulty ∧ ∃ e, r = .error e) ∨
      ∃ singles, r = .ok { builder with responses := builder.responses ++ singles } ∧
        List.Forall₂ (Answered X db ca_id) entries singles) := by
  induction entries generalizing builder tr db with
  | nil =>
      obtain ⟨rfl, rfl⟩ := returns_pure.mp h
      refine ⟨steps_nil.mp hworld, .inr ⟨[], ?_, .nil⟩⟩
      rw [List.append_nil]
  | cons entry entries ih =>
      rcases returns_bind.mp h with ⟨e, rfl, h₁⟩ | ⟨single, t₁, t₂, rfl, h₁, h₂⟩
      · obtain ⟨hdb, ⟨hfaulty, _⟩ | ⟨_, hno, _⟩⟩ := single_response_world h₁ hworld
        · exact ⟨hdb, .inl ⟨hfaulty, e, rfl⟩⟩
        · cases hno
      · obtain ⟨u, hworld₁, hworld₂⟩ := steps_append.mp hworld
        obtain ⟨rfl, ⟨_, _, hno⟩ | ⟨_, hsingle, hanswered⟩⟩ := single_response_world h₁ hworld₁
        · cases hno
        cases hsingle
        obtain ⟨hdb, hfailed | ⟨singles, hr, hall⟩⟩ := ih h₂ hworld₂
        · exact ⟨hdb, .inl hfailed⟩
        · refine ⟨hdb, .inr ⟨single :: singles, ?_, .cons hanswered hall⟩⟩
          rw [hr, OcspResponseBuilder.with_single_response, List.append_assoc,
            List.singleton_append]

/-- A request is answered entry for entry, unless a statement fails or the response
cannot be signed. -/
theorem build_response_steps {state : AppState} {ca_id : String}
    {ca : CertificateAuthority} (hca : state.cas.lookup ca_id = some ca) {req_der : Bytes}
    {request : OcspRequest} (hreq : X.ocsp_request_from_der req_der = .ok request) {tr : Trace}
    {r : AppResult Bytes} {faulty : Prop} {db db' : Db}
    (h : Returns (build_response X state ca_id req_der) tr r)
    (hworld : Steps (step faulty) db tr db') :
    db' = db ∧ ((faulty ∧ ∃ e, r = .error e) ∨
      ∃ this_update builder, r = sign_response X ca request this_update builder ∧
        List.Forall₂ (Answered X db ca_id) request.request_list builder.responses) := by
  rw [build_response, lift_bind_of_ok (ok_or_else_eq_ok.mpr hca),
    lift_bind_of_ok (map_err_eq_ok.mpr hreq)] at h
  rcases returns_bind.mp h with ⟨e, _, h₁⟩ | ⟨this_update, t₁, t₂, rfl, h₁, h₂⟩
  · obtain ⟨_, t, hno⟩ := ocsp_now_world h₁ hworld
    cases hno
  obtain ⟨u, hworld₁, hworld₂⟩ := steps_append.mp hworld
  obtain ⟨rfl, _⟩ := ocsp_now_world h₁ hworld₁
  obtain ⟨now, t₃, rfl, h₃⟩ := returns_request_bind.mp h₂
  obtain ⟨u', hnow, hworld₃⟩ := steps_cons.mp hworld₂
  obtain rfl : u' = u := hnow
  rcases returns_bind.mp h₃ with ⟨e, rfl, h₄⟩ | ⟨builder, t₄, t₅, rfl, h₄, h₅⟩
  · obtain ⟨hdb, ⟨hfaulty, _⟩ | ⟨_, hno, _⟩⟩ := add_responses_world h₄ hworld₃
    · exact ⟨hdb, .inl ⟨hfaulty, e, rfl⟩⟩
    · cases hno
  · obtain ⟨v, hworld₄, hworld₅⟩ := steps_append.mp hworld₃
    obtain ⟨rfl, ⟨_, _, hno⟩ | ⟨singles, hb, hall⟩⟩ := add_responses_world h₄ hworld₄
    · cases hno
    obtain ⟨rfl, rfl⟩ := returns_lift.mp h₅
    refine ⟨steps_nil.mp hworld₅, .inr ⟨this_update, builder, rfl, ?_⟩⟩
    rw [Except.ok.inj hb]
    exact hall

/-- The answers are under the CertIDs of the entries. -/
theorem cert_ids_of_answered {db : Db} {ca_id : String} {entries : List OcspEntry}
    {singles : List SingleResponse} (h : List.Forall₂ (Answered X db ca_id) entries singles) :
    singles.map SingleResponse.cert_id = entries.map OcspEntry.req_cert := by
  induction h with
  | nil => rfl
  | cons hanswered _ ih => rw [List.map_cons, List.map_cons, ih, hanswered.1]

/-- Where no statement fails without a reason and signing goes through, the request
is answered. -/
theorem build_response_world (hlaw : X.StatusLaw) {state : AppState} {ca_id : String}
    {ca : CertificateAuthority} (hca : state.cas.lookup ca_id = some ca)
    (hsigns : X.SignsStatus (CaSigningKey.new ca.private_key)) {req_der : Bytes}
    {request : OcspRequest} (hreq : X.ocsp_request_from_der req_der = .ok request) {tr : Trace}
    {r : AppResult Bytes} {db db' : Db} (h : Returns (build_response X state ca_id req_der) tr r)
    (hworld : Steps (step False) db tr db') :
    db' = db ∧ ∃ der response, r = .ok der ∧ X.ocsp_response_from_der der = .ok response ∧
      List.Forall₂ (Answered X db ca_id) request.request_list
        response.tbs_response_data.responses := by
  obtain ⟨hdb, ⟨hno, _⟩ | ⟨this_update, builder, rfl, hall⟩⟩ :=
    build_response_steps hca hreq h hworld
  · exact absurd hno id
  obtain ⟨der, hder⟩ := exists_sign_response hsigns request this_update builder
  have hread := readable_of_ids (hlaw.ocsp_request _ _ hreq) (cert_ids_of_answered hall)
  obtain ⟨response, hresponse, hsingles, _⟩ := sign_response_eq_ok hlaw hread hder
  refine ⟨hdb, der, response, hder, hresponse, ?_⟩
  rwa [hsingles]

/-- Whatever fails, a response that is returned answers the request entry for entry. -/
theorem build_response_answers (hlaw : X.StatusLaw) {state : AppState} {ca_id : String}
    {ca : CertificateAuthority} (hca : state.cas.lookup ca_id = some ca) {req_der der : Bytes}
    {request : OcspRequest} (hreq : X.ocsp_request_from_der req_der = .ok request) {tr : Trace}
    {faulty : Prop} {db db' : Db}
    (h : Returns (build_response X state ca_id req_der) tr (.ok der))
    (hworld : Steps (step faulty) db tr db') :
    ∃ response, X.ocsp_response_from_der der = .ok response ∧
      List.Forall₂ (Answered X db ca_id) request.request_list
        response.tbs_response_data.responses := by
  obtain ⟨_, ⟨_, _, hno⟩ | ⟨this_update, builder, hsign, hall⟩⟩ :=
    build_response_steps hca hreq h hworld
  · cases hno
  have hread := readable_of_ids (hlaw.ocsp_request _ _ hreq) (cert_ids_of_answered hall)
  obtain ⟨response, hresponse, hsingles, _⟩ := sign_response_eq_ok hlaw hread hsign.symm
  refine ⟨response, hresponse, ?_⟩
  rwa [hsingles]

end Ocsp

/-! ## Agreement -/

/-- An OCSP answer that says revoked. -/
def CertStatus.is_revoked : CertStatus → Bool
  | .Revoked _ => true
  | _ => false

/-- The serials of a CRL, in order. -/
def CertificateList.serials (l : CertificateList) : List SerialNumber :=
  l.entries.map RevokedCert.serial_number

/-- The revoked rows of a CA. -/
def is_revoked_row (ca_id : String) (r : IssuedCertificate) : Bool :=
  r.ca_id = ca_id ∧ r.status = STATUS_REVOKED

/-- A CRL and the answer to an OCSP request tell the same about a CA. -/
structure Agree (X : Crates) (db : Db) (ca_id : String) (request : OcspRequest)
    (crl : CertificateList) (response : BasicOcspResponse) : Prop where
  /-- One response an entry, in order, with the requested CertID. -/
  requested : response.tbs_response_data.responses.map SingleResponse.cert_id
    = request.request_list.map OcspEntry.req_cert
  /-- A serial is listed once when it is answered revoked, and not at all otherwise. -/
  listed : ∀ single ∈ response.tbs_response_data.responses,
    crl.serials.count single.cert_id.serial_number
      = if single.cert_status.is_revoked then 1 else 0
  /-- Every listed serial is of a certificate of this CA, and of no other. -/
  own : ∀ serial ∈ crl.serials,
    (∃ r ∈ db.issued_certificate.rows, r.serial = hex.encode serial.as_bytes) ∧
      ∀ r ∈ db.issued_certificate.rows, r.serial = hex.encode serial.as_bytes → r.ca_id = ca_id
  /-- A stored instant is told by both, to the second. -/
  dated : ∀ single ∈ response.tbs_response_data.responses, ∀ entry ∈ crl.entries,
    entry.serial_number = single.cert_id.serial_number →
    ∀ r ∈ db.issued_certificate.rows, r.serial = hex.encode entry.serial_number.as_bytes →
    ∀ t, stored_instant X r.revoked_at = some t →
      ∃ info, single.cert_status = .Revoked info ∧
        info.revocation_time = entry.revocation_date.to_date_time ∧
        (info.revocation_time.unix_secs : Int) = t.secs

theorem serial_text_injective :
    Function.Injective fun serial : SerialNumber => hex.encode serial.as_bytes := by
  rintro ⟨b⟩ ⟨b'⟩ h
  have hb : b = b' := hex.encode_inj.mp h
  rw [hb]

/-- Every right member of two related lists has a left one. -/
private theorem exists_of_mem_right {α β : Type} {R : α → β → Prop} {l : List α} {l' : List β}
    (h : List.Forall₂ R l l') {b : β} (hb : b ∈ l') : ∃ a ∈ l, R a b := by
  induction h with
  | nil => exact absurd hb List.not_mem_nil
  | cons hr _ ih =>
      rcases List.mem_cons.mp hb with rfl | hb
      · exact ⟨_, List.mem_cons_self, hr⟩
      · obtain ⟨a, ha, hr'⟩ := ih hb
        exact ⟨a, List.mem_cons_of_mem _ ha, hr'⟩

/-- The listed serials, as texts, are those of the rows. -/
private theorem serial_texts {rows : List RevokedEntry} {entries : List RevokedCert}
    (h : List.Forall₂ (Crl.Lists X) rows entries) :
    (entries.map RevokedCert.serial_number).map (fun s => hex.encode s.as_bytes)
      = rows.map RevokedEntry.serial := by
  induction h with
  | nil => rfl
  | cons hlists _ ih => rw [List.map_cons, List.map_cons, List.map_cons, ih, hlists.serial]

/-- A CRL whose entries stand one for one for the revoked rows of a CA. -/
structure Covers (X : Crates) (db : Db) (ca_id : String) (entries : List RevokedCert) : Prop where
  mem : ∀ serial : SerialNumber, serial ∈ entries.map RevokedCert.serial_number ↔
    ∃ r ∈ db.issued_certificate.rows, is_revoked_row ca_id r = true ∧
      r.serial = hex.encode serial.as_bytes
  nodup : (entries.map RevokedCert.serial_number).Nodup
  date : ∀ entry ∈ entries, ∀ r ∈ db.issued_certificate.rows,
    r.serial = hex.encode entry.serial_number.as_bytes →
    ∀ t, stored_instant X r.revoked_at = some t →
      (entry.revocation_date.to_date_time.unix_secs : Int) = t.secs

theorem covers_of_lists {db : Db} {ca_id : String} {entries : List RevokedCert}
    (h : List.Forall₂ (Crl.Lists X) ((db.issued_certificate.select (is_revoked_row ca_id)).map
      fun r => ⟨r.serial, r.revoked_at, r.revocation_reason⟩) entries) :
    Covers X db ca_id entries := by
  have htexts := serial_texts h
  have hserials : ((db.issued_certificate.select (is_revoked_row ca_id)).map
      fun r => (⟨r.serial, r.revoked_at, r.revocation_reason⟩ : RevokedEntry)).map
        RevokedEntry.serial
      = (db.issued_certificate.select (is_revoked_row ca_id)).map IssuedCertificate.serial := by
    rw [List.map_map]
    rfl
  rw [hserials] at htexts
  refine ⟨fun serial => ?_, ?_, ?_⟩
  · have hmem : serial ∈ entries.map RevokedCert.serial_number ↔ hex.encode serial.as_bytes ∈
        (db.issued_certificate.select (is_revoked_row ca_id)).map IssuedCertificate.serial := by
      rw [← htexts, List.mem_map_of_injective serial_text_injective]
    rw [hmem, List.mem_map]
    constructor
    · rintro ⟨r, hr, hserial⟩
      obtain ⟨hrow, hp⟩ := List.mem_filter.mp hr
      exact ⟨r, hrow, hp, hserial⟩
    · rintro ⟨r, hrow, hp, hserial⟩
      exact ⟨r, List.mem_filter.mpr ⟨hrow, hp⟩, hserial⟩
  · refine List.Nodup.of_map (fun s : SerialNumber => hex.encode s.as_bytes) ?_
    rw [htexts]
    exact db.issued_certificate.select_unique _
  · intro entry hentry r hr hserial t ht
    -- The entry stands for some listed row, which has to be this one.
    obtain ⟨row, hrow, hlists⟩ := exists_of_mem_right h hentry
    obtain ⟨r', hr', rfl⟩ := List.mem_map.mp hrow
    have hmem : r' ∈ db.issued_certificate.rows := (List.mem_filter.mp hr').1
    have hkey : r.serial = r'.serial := hserial.trans hlists.serial
    obtain rfl := db.issued_certificate.eq_of_key hr hmem hkey
    exact hlists.date t ht

/-- A status is revoked for a revoked row, with the data of that row. -/
theorem status_eq_revoked {db : Db} {ca_id serial : String} {revoked_at : Option String}
    {reason : Option Int} :
    repo.status db ca_id serial = .Revoked revoked_at reason ↔
      ∃ r ∈ db.issued_certificate.rows, is_revoked_row ca_id r = true ∧ r.serial = serial ∧
        r.revoked_at = revoked_at ∧ r.revocation_reason = reason := by
  constructor
  · intro h
    by_cases hex : ∃ r ∈ db.issued_certificate.rows, r.ca_id = ca_id ∧ r.serial = serial
    · obtain ⟨r, hr, hca, hserial⟩ := hex
      rw [repo.status_of_mem hr hca hserial] at h
      by_cases hstatus : r.status = STATUS_REVOKED
      · rw [if_pos hstatus] at h
        cases h
        exact ⟨r, hr, decide_eq_true ⟨hca, hstatus⟩, hserial, rfl, rfl⟩
      · rw [if_neg hstatus] at h
        cases h
    · rw [repo.status_of_not_mem fun r hr hkey => hex ⟨r, hr, hkey⟩] at h
      cases h
  · rintro ⟨r, hr, hp, hserial, rfl, rfl⟩
    obtain ⟨hca, hstatus⟩ := of_decide_eq_true hp
    rw [repo.status_of_mem hr hca hserial, if_pos hstatus]

/-- OCSP answers revoked exactly for a revoked status. -/
theorem Ocsp.Says.is_revoked {s : RevocationStatus} {c : CertStatus} (h : Says X s c) :
    c.is_revoked = true ↔ ∃ revoked_at reason, s = .Revoked revoked_at reason := by
  rcases h with _ | _ | @⟨revoked_at, reason, time, htime⟩
  · exact iff_of_false (by decide) fun ⟨_, _, hno⟩ => by cases hno
  · exact iff_of_false (by decide) fun ⟨_, _, hno⟩ => by cases hno
  · exact iff_of_true rfl ⟨revoked_at, reason, rfl⟩

section Covers

variable {db : Db} {ca_id : String} {crl : CertificateList}

/-- A serial is listed once when it is answered revoked, and otherwise not at all. -/
theorem Covers.count (h : Covers X db ca_id crl.entries) {serial : SerialNumber}
    {answer : CertStatus}
    (hanswer : Ocsp.Says X (repo.status db ca_id (hex.encode serial.as_bytes)) answer) :
    crl.serials.count serial = if answer.is_revoked then 1 else 0 := by
  have hmem : serial ∈ crl.serials ↔ answer.is_revoked = true := by
    rw [hanswer.is_revoked, CertificateList.serials, h.mem]
    constructor
    · rintro ⟨r, hr, hp, hserial⟩
      exact ⟨_, _, status_eq_revoked.mpr ⟨r, hr, hp, hserial, rfl, rfl⟩⟩
    · rintro ⟨revoked_at, reason, hstatus⟩
      obtain ⟨r, hr, hp, hserial, _⟩ := status_eq_revoked.mp hstatus
      exact ⟨r, hr, hp, hserial⟩
  by_cases hrev : answer.is_revoked = true
  · rw [if_pos hrev]
    exact List.count_eq_one_of_mem h.nodup (hmem.mpr hrev)
  · rw [if_neg hrev]
    exact List.count_eq_zero.mpr fun hlisted => hrev (hmem.mp hlisted)

/-- A listed serial is that of a row of the CA, and of no other row. -/
theorem Covers.own (h : Covers X db ca_id crl.entries) {serial : SerialNumber}
    (hserial : serial ∈ crl.serials) :
    (∃ r ∈ db.issued_certificate.rows, r.serial = hex.encode serial.as_bytes) ∧
      ∀ r ∈ db.issued_certificate.rows, r.serial = hex.encode serial.as_bytes →
        r.ca_id = ca_id := by
  obtain ⟨r, hr, hp, htext⟩ := (h.mem serial).mp hserial
  refine ⟨⟨r, hr, htext⟩, fun r' hr' htext' => ?_⟩
  obtain rfl := db.issued_certificate.eq_of_key hr' hr (htext'.trans htext.symm)
  exact (of_decide_eq_true hp).1

/-- A stored instant is the date of the entry, and the one that is answered. -/
theorem Covers.dated (h : Covers X db ca_id crl.entries) {entry : RevokedCert}
    (hentry : entry ∈ crl.entries) {answer : CertStatus}
    (hanswer : Ocsp.Says X (repo.status db ca_id (hex.encode entry.serial_number.as_bytes)) answer)
    {r : IssuedCertificate} (hr : r ∈ db.issued_certificate.rows) (hdrawn : RowDrawn X r)
    (htext : r.serial = hex.encode entry.serial_number.as_bytes) {t : SystemTime}
    (ht : stored_instant X r.revoked_at = some t) :
    ∃ info, answer = .Revoked info ∧ info.revocation_time = entry.revocation_date.to_date_time ∧
      (info.revocation_time.unix_secs : Int) = t.secs := by
  obtain ⟨r', hr', hp, htext'⟩ := (h.mem entry.serial_number).mp (List.mem_map_of_mem hentry)
  obtain rfl := db.issued_certificate.eq_of_key hr hr' (htext.trans htext'.symm)
  have hstatus : repo.status db ca_id (hex.encode entry.serial_number.as_bytes)
      = .Revoked r.revoked_at r.revocation_reason :=
    status_eq_revoked.mpr ⟨r, hr, hp, htext, rfl, rfl⟩
  -- The date of the row fits, so OCSP tells it, and so does the CRL.
  obtain ⟨text, hdate, hparse⟩ := Option.bind_eq_some_iff.mp ht
  obtain ⟨d, hd⟩ := DateTime.exists_from_system_time (hdrawn.2 text hdate t hparse)
  have hstored : Ocsp.stored_time X r.revoked_at = some d := by
    rw [Ocsp.stored_time, ht, Option.bind_some, hd]
    rfl
  have hsecs : (d.unix_secs : Int) = t.secs := (DateTime.from_system_time_eq_ok.mp hd).2.symm
  have hentrysecs := h.date entry hentry r hr htext t ht
  have hsame : d = entry.revocation_date.to_date_time := by
    apply DateTime.eq_of_unix_secs
    omega
  rw [hstatus] at hanswer
  obtain _ | _ | htime := hanswer
  refine ⟨_, rfl, ?_, ?_⟩
  · rw [htime d hstored, hsame]
  · rw [htime d hstored, hsecs]

end Covers

/-- Where the CRL covers the revoked rows of a CA, the answers of OCSP agree with
it. -/
theorem agree_of_covers {db : Db} {ca_id : String} {request : OcspRequest} {crl : CertificateList}
    {response : BasicOcspResponse} (hdrawn : ∀ r ∈ db.issued_certificate.rows, RowDrawn X r)
    (hcrl : Covers X db ca_id crl.entries)
    (hocsp : List.Forall₂ (Ocsp.Answered X db ca_id) request.request_list
      response.tbs_response_data.responses) : Agree X db ca_id request crl response := by
  have hanswers : ∀ single ∈ response.tbs_response_data.responses, Ocsp.Says X
      (repo.status db ca_id (hex.encode single.cert_id.serial_number.as_bytes))
      single.cert_status := by
    intro single hsingle
    obtain ⟨entry, _, hid, hs⟩ := exists_of_mem_right hocsp hsingle
    rwa [← hid] at hs
  refine ⟨Ocsp.cert_ids_of_answered hocsp, fun single hsingle => hcrl.count (hanswers single hsingle),
    fun serial hserial => hcrl.own hserial, ?_⟩
  intro single hsingle entry hentry hserial r hr htext t ht
  have hanswer := hanswers single hsingle
  rw [← hserial] at hanswer
  exact hcrl.dated hentry hanswer hr (hdrawn r hr) htext ht

/-- **OCSP and CRL agree.** In every database reached from empty tables by inserts
of enrolments and by revocations with dates that do not parse or can be
represented, whatever failed on the way: while no statement fails and signing goes
through, a CRL of a CA is built, every OCSP request for the CA is answered, and
the two agree. The time of the CRL and that of the next one have to be
representable. -/
theorem ocsp_crl_agree (hlaw : X.StatusLaw) (hbits : ∀ s b, X.signature_to_bitstring s = .ok b → b = s)
    {state : AppState} {ca_id : String} {ca : CertificateAuthority}
    (hca : state.cas.lookup ca_id = some ca)
    (hsigns : X.SignsStatus (CaSigningKey.new ca.private_key))
    {faulty : Prop} {history : Trace} {db : Db}
    (hreach : Steps (step faulty) Db.empty history db) (hdraws : Draws history)
    (hdates : Dates X history) {t₁ t₂ : Trace} {r₁ r₂ : AppResult Bytes} {db₁ db₂ : Db}
    (hcrl : Returns (Crl.build_crl X state ca_id) t₁ r₁)
    (hworld₁ : Steps (step False) db t₁ db₁)
    (hnow : ∀ now, ⟨Op.now, now⟩ ∈ t₁ → DateTime.Representable now ∧
      DateTime.Representable (now.add_secs Crl.CRL_LIFETIME_SECS))
    {req_der : Bytes} {request : OcspRequest}
    (hreq : X.ocsp_request_from_der req_der = .ok request)
    (hocsp : Returns (Ocsp.build_response X state ca_id req_der) t₂ r₂)
    (hworld₂ : Steps (step False) db t₂ db₂) :
    ∃ crl_der crl der response, r₁ = .ok crl_der ∧
      X.certificate_list_from_der crl_der = .ok crl ∧ r₂ = .ok der ∧
      X.ocsp_response_from_der der = .ok response ∧ Agree X db ca_id request crl response := by
  have hdrawn := rows_drawn hreach hdraws hdates
  obtain ⟨now, hmem, _, rfl⟩ := Crl.build_crl_returns hca hcrl hworld₁
  obtain ⟨hthis, hnext⟩ := hnow now hmem
  obtain ⟨this_update, hthis', _⟩ := Crl.to_time_representable hthis
  obtain ⟨next_update, hnext', _⟩ := Crl.to_time_representable hnext
  have hlistable : ∀ row ∈ (db.issued_certificate.select (is_revoked_row ca_id)).map
      fun r => (⟨r.serial, r.revoked_at, r.revocation_reason⟩ : RevokedEntry),
      Crl.Listable X row := by
    intro row hrow
    obtain ⟨r, hr, rfl⟩ := List.mem_map.mp hrow
    obtain ⟨hserial, hdated⟩ := hdrawn r (List.mem_filter.mp hr).1
    refine ⟨hserial, fun t ht => ?_⟩
    obtain ⟨text, hdate, hparse⟩ := Option.bind_eq_some_iff.mp ht
    exact hdated text hdate t hparse
  obtain ⟨entries, hentries, hlists⟩ := Crl.revoked_certificates_lists hlistable hthis
  obtain ⟨crl_der, hcrl_der⟩ := Crl.exists_crl_at hsigns hentries hthis' hnext'
  obtain ⟨crl, hencodes, hcrl_entries, _⟩ := Crl.crl_at_eq_ok hlaw hbits hcrl_der
  rw [hentries] at hcrl_entries
  obtain rfl := Except.ok.inj hcrl_entries
  have hcrl_read := hencodes.read (Crl.readable_of_lists hlists hlistable)
  obtain ⟨_, der, response, hr₂, hresponse, hanswered⟩ :=
    Ocsp.build_response_world hlaw hca hsigns hreq hocsp hworld₂
  exact ⟨crl_der, crl, der, response, hcrl_der, hcrl_read, hr₂, hresponse,
    agree_of_covers hdrawn (covers_of_lists hlists) hanswered⟩

/-- Where the time of the next CRL cannot be represented, none is built. -/
theorem Crl.crl_at_next_update {ca : CertificateAuthority} {rows : List RevokedEntry}
    {now : SystemTime} {der : Bytes} (h : crl_at X ca rows now = .ok der) :
    DateTime.Representable (now.add_secs CRL_LIFETIME_SECS) := by
  simp only [crl_at, bind_eq_ok, map_err_eq_ok] at h
  obtain ⟨_, _, _, _, _, _, next_update, hnext, _⟩ := h
  obtain ⟨d, hd, _⟩ := to_time_eq_ok.mp hnext
  exact (DateTime.from_system_time_eq_ok.mp hd).1

/-! ## A revoked certificate -/

theorem Reference.signs_status (key : CaSigningKey) : Reference.crates.SignsStatus key where
  signature_algorithm := ⟨_, rfl⟩
  tbs_cert_list := fun _ => ⟨_, rfl⟩
  sign := fun _ => ⟨_, rfl⟩
  bitstring := fun _ => ⟨_, rfl⟩
  certificate_list := fun _ => ⟨_, rfl⟩
  with_nonce := fun _ _ => ⟨_, rfl⟩
  ocsp_sign := fun _ _ _ => ⟨_, rfl⟩
  ocsp_response := fun _ => ⟨_, rfl⟩

/-- A request reads back, where its serials do. -/
theorem Reference.ocsp_request_decoded {request : OcspRequest} (h : request.Readable) :
    Reference.crates.ocsp_request_from_der (enc request) = .ok request := decode_if_enc h

namespace Device

/-- The row of the enrolled device, as its CA finds it. -/
def stored : IssuedCertificate := .sample "root" (hex.encode (serial_of serial_octets).as_bytes)

/-- The database after its insert. -/
def stored_db : Db := (Db.empty.exec (.insert_issued stored)).2

/-- The database after its insert and its revocation. -/
def revoked_db : Db :=
  (stored_db.exec (.update_revoked "root" stored.serial 1 "2026-07-29T12:00:00Z")).2

/-- The insert and the revocation. -/
def history : Trace :=
  [⟨Op.db (.insert_issued stored), .ok ()⟩,
    ⟨Op.db (.update_revoked "root" stored.serial 1 "2026-07-29T12:00:00Z"), .ok (1 : Nat)⟩]

theorem history_steps : Steps (step False) Db.empty history revoked_db :=
  .cons (.inl rfl) (.cons (.inl rfl) (.nil _))

theorem history_draws : Draws history := by
  intro cert x hmem
  have hop : Op.db (.insert_issued cert) ∈ history.map Sigma.fst := List.mem_map_of_mem hmem
  rcases List.mem_cons.mp hop with heq | hop
  · cases heq
    exact ⟨⟨rfl, rfl, rfl⟩, serial_octets, rfl⟩
  · rw [List.map_singleton, List.mem_singleton] at hop
    cases hop

theorem history_dates : Dates Reference.crates history := by
  intro ca_id serial reason revoked_at x hmem
  have hop : Op.db (.update_revoked ca_id serial reason revoked_at) ∈ history.map Sigma.fst :=
    List.mem_map_of_mem hmem
  rcases List.mem_cons.mp hop with hno | hop
  · cases hno
  · rw [List.map_singleton, List.mem_singleton] at hop
    cases hop
    intro t ht
    obtain rfl : (⟨1785326400000000000⟩ : SystemTime) = t := Option.some.inj ht
    decide

/-- A CertID of the CA for a serial. The hashes are those of the reference crates. -/
def cert_id (issuer : Name) (serial : SerialNumber) : CertId where
  hash_algorithm := ⟨oids.ID_SHA1, none⟩
  issuer_name_hash := Reference.digest 20 (enc issuer)
  issuer_key_hash := Reference.digest 20 (enc ca_key.pubkey)
  serial_number := serial

/-- The question about the certificate, and one about another serial. -/
def ocsp_request : OcspRequest where
  request_list := [⟨cert_id ca_cert.tbs_certificate.subject (serial_of serial_octets)⟩,
    ⟨cert_id ca_cert.tbs_certificate.subject ⟨[1]⟩⟩]
  nonce := none

end Device

/-- OCSP and CRL agree about the revoked certificate. -/
theorem revoked_certificate_agrees : ∃ crl response,
    Agree Reference.crates Device.revoked_db "root" Device.ocsp_request crl response := by
  obtain ⟨t₁, r₁, db₁, hcrl, hworld₁, hnow⟩ :=
    exists_run (Crl.build_crl Reference.crates Device.server "root") Device.now Device.revoked_db
  obtain ⟨t₂, r₂, db₂, hocsp, hworld₂, _⟩ :=
    exists_run (Ocsp.build_response Reference.crates Device.server "root" (enc Device.ocsp_request))
      Device.now Device.revoked_db
  have htimes : DateTime.Representable Device.now ∧
      DateTime.Representable (Device.now.add_secs Crl.CRL_LIFETIME_SECS) := by decide
  have hreq : Reference.crates.ocsp_request_from_der (enc Device.ocsp_request)
      = .ok Device.ocsp_request := Reference.ocsp_request_decoded (by decide)
  obtain ⟨_, crl, _, response, _, _, _, _, hagree⟩ := ocsp_crl_agree Reference.status_law
    Reference.rsa_law.bitstring (Device.lookup_singleton.mpr ⟨rfl, rfl⟩)
    (Reference.signs_status _) Device.history_steps Device.history_draws Device.history_dates hcrl
    hworld₁ (fun now hmem => by rw [hnow now hmem]; exact htimes) hreq hocsp hworld₂
  exact ⟨crl, response, hagree⟩

/-- On the last day that can be represented the current time is, and no CRL is
built. -/
theorem no_crl_on_the_last_day : ∃ tr e db,
    Returns (Crl.build_crl Reference.crates Device.server "root") tr (.error e) ∧
    Steps (step False) Db.empty tr db ∧ ∀ now, ⟨Op.now, now⟩ ∈ tr → DateTime.Representable now := by
  obtain ⟨tr, r, db, hcrl, hworld, hnow⟩ :=
    exists_run (Crl.build_crl Reference.crates Device.server "root")
      ⟨(DateTime.MAX - 3600) * 1000000000⟩ Db.empty
  obtain ⟨now, hmem, _, hr⟩ :=
    Crl.build_crl_returns (Device.lookup_singleton.mpr ⟨rfl, rfl⟩) hcrl hworld
  refine ⟨tr, ?_⟩
  cases hout : r with
  | ok der =>
      rw [hout] at hr
      have hnext := Crl.crl_at_next_update hr.symm
      rw [hnow now hmem] at hnext
      exact absurd hnext (by decide)
  | error e =>
      rw [hout] at hcrl
      refine ⟨e, db, hcrl, hworld, fun now' hmem' => ?_⟩
      rw [hnow now' hmem']
      decide

end Blapki
