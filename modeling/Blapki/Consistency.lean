/-
What relying parties are told while the server is at work (`http/ocsp.rs`, `http/crl.rs`).

A response to many questions is put together of many look-ups, and other requests and
revocations write in between. `ocsp_linearizable` says that each of its answers was right in
the state of the log in which its serial was looked up, and that these look-ups come in the
order of the questions. A CRL is read by one statement, so all of it is of one moment.

The life of a certificate only goes forward (`status_precedes`). So what was said of a
certificate is not taken back by anything that is asked for later, by OCSP or in a CRL. A date
is told where OCSP can tell it: a stored one that does not parse, or lies outside the years
1970 to 9999, is replaced by the clock of each reply.
-/
import Blapki.Linearization
import Blapki.Operating
import Blapki.Publication

set_option autoImplicit false

namespace Blapki

open Codec Effect

variable {X : Crates}

/-! ## The OCSP responder -/

namespace Ocsp

/-- The entry was looked up, and its response is what the row stands for. -/
def LookedUp (X : Crates) (ca_id : String) (entry : OcspEntry) (single : SingleResponse)
    (e : Event Op.Res) : Prop :=
  ∃ row, e = ⟨Op.db (.select_status ca_id (hex.encode entry.req_cert.serial_number.as_bytes)),
      .ok row⟩ ∧
    single.cert_id = entry.req_cert ∧ Says X (repo.status_of_row row) single.cert_status

theorem says_of_returns {status : RevocationStatus} {tr : Trace} {cert_status : CertStatus}
    (h : Returns (to_cert_status X status) tr (.ok cert_status)) : Says X status cert_status := by
  cases status with
  | Good =>
      rw [Except.ok.inj (returns_pure.mp h).2]
      exact .good
  | Unknown =>
      rw [Except.ok.inj (returns_pure.mp h).2]
      exact .unknown
  | Revoked revoked_at reason =>
      cases hstored : stored_time X revoked_at with
      | some date =>
          rw [to_cert_status, hstored] at h
          rw [Except.ok.inj (returns_pure.mp h).2]
          exact .revoked fun t ht => Option.some.inj (hstored.symm.trans ht)
      | none =>
          rw [to_cert_status, hstored] at h
          obtain ⟨date, _, _, _, _, hpure⟩ := returns_bind_ok.mp h
          rw [Except.ok.inj (returns_pure.mp hpure).2]
          exact .revoked fun t ht => by cases hstored.symm.trans ht

theorem single_response_looked_up {ca_id : String} {this_update next_update : DateTime}
    {entry : OcspEntry} {single : SingleResponse} {tr : Trace}
    (h : Returns (single_response X ca_id this_update next_update entry) tr (.ok single)) :
    (∃ e ∈ tr, LookedUp X ca_id entry single e) ∧ single.this_update = this_update ∧
      single.next_update = some next_update := by
  obtain ⟨status, t₁, t₂, rfl, hlookup, h₁⟩ := returns_bind_ok.mp h
  obtain ⟨row, rfl, rfl⟩ := repo.status_by_serial_returns.mp hlookup
  obtain ⟨cert_status, t₃, t₄, rfl, hstatus, hpure⟩ := returns_bind_ok.mp h₁
  rw [Except.ok.inj (returns_pure.mp hpure).2]
  exact ⟨⟨_, List.mem_append_left _ (List.mem_singleton_self _), row, rfl, rfl,
    says_of_returns hstatus⟩, rfl, rfl⟩

/-- The loop looks the entries up in their order. -/
theorem add_responses_collects {ca_id : String} {this_update next_update : DateTime}
    {entries : List OcspEntry} {builder b : OcspResponseBuilder} {tr : Trace}
    (h : Returns (add_responses X ca_id this_update next_update entries builder) tr (.ok b)) :
    ∃ singles, b = { builder with responses := builder.responses ++ singles } ∧
      Collects (LookedUp X ca_id) entries singles tr ∧
      ∀ single ∈ singles, single.this_update = this_update ∧
        single.next_update = some next_update := by
  induction entries generalizing builder tr with
  | nil =>
      rw [Except.ok.inj (returns_pure.mp h).2]
      refine ⟨[], ?_, .nil tr, fun _ hno => absurd hno List.not_mem_nil⟩
      rw [List.append_nil]
  | cons entry entries ih =>
      obtain ⟨single, t₁, t₂, rfl, hhead, hrest⟩ := returns_bind_ok.mp h
      obtain ⟨⟨e, he, hlooked⟩, hwindow⟩ := single_response_looked_up hhead
      obtain ⟨singles, rfl, hcollects, hwindows⟩ := ih hrest
      refine ⟨single :: singles, ?_, .cons hlooked he hcollects,
        List.forall_mem_cons.mpr ⟨hwindow, hwindows⟩⟩
      rw [OcspResponseBuilder.with_single_response, List.append_assoc, List.singleton_append]

/-- When a client should look again: an hour after the clock was read, where that is a time. -/
def next_update_of (this_update : DateTime) (now : SystemTime) : DateTime :=
  match DateTime.from_system_time (now.add_secs NEXT_UPDATE_SECS) with
  | .ok dt => dt
  | .error _ => this_update

/-- A reply to a request is signed by the CA, echoes the nonce, and is valid for an hour. -/
structure Replies (X : Crates) (ca : CertificateAuthority) (request : OcspRequest)
    (first now : SystemTime) (body : Bytes) (response : BasicOcspResponse) : Prop where
  decoded : X.ocsp_response_from_der body = .ok response
  responder : response.tbs_response_data.responder_id = ca.cert.tbs_certificate.subject
  produced_at : response.tbs_response_data.produced_at = ocsp_time first
  nonce : response.tbs_response_data.nonce = request.nonce
  window : ∀ single ∈ response.tbs_response_data.responses,
    single.this_update = ocsp_time first ∧
      single.next_update = some (next_update_of (ocsp_time first) now)
  signed : ∃ der, X.response_data_to_der response.tbs_response_data = .ok der ∧
    X.rsa_try_sign (CaSigningKey.new ca.private_key) der = .ok response.signature

theorem add_nonce_eq_ok (hlaw : X.StatusLaw) {builder b : OcspResponseBuilder}
    {nonce : Option Bytes} (hnone : builder.nonce = none)
    (h : add_nonce X builder nonce = .ok b) : b = { builder with nonce := nonce } := by
  cases nonce with
  | none =>
      rw [← Except.ok.inj h, ← hnone]
  | some nonce => exact hlaw.with_nonce _ _ _ (map_err_eq_ok.mp h)

/-- A response that is returned is one to the request, and its answers were looked up. -/
theorem respond_collects (hlaw : X.StatusLaw) {state : AppState} {ca_id : String} {der : Bytes}
    {tr : Trace} {resp : Response} (h : Returns (respond X state ca_id der) tr (.ok resp)) :
    ∃ ca request first now body response, state.cas.lookup ca_id = some ca ∧
      X.ocsp_request_from_der der = .ok request ∧ resp = ⟨200, CT_OCSP, body⟩ ∧
      ⟨Op.now, first⟩ ∈ tr ∧ ⟨Op.now, now⟩ ∈ tr ∧
      Replies X ca request first now body response ∧
      Collects (LookedUp X ca_id) request.request_list response.tbs_response_data.responses tr := by
  obtain ⟨body, t, t', rfl, hbuild, hpure⟩ := returns_bind_ok.mp h
  obtain ⟨rfl, hresp⟩ := returns_pure.mp hpure
  obtain ⟨ca, hca, h₁⟩ := returns_lift_bind_ok.mp hbuild
  obtain ⟨request, hrequest, h₂⟩ := returns_lift_bind_ok.mp h₁
  obtain ⟨this_update, t₁, t₂, rfl, hfirst, h₃⟩ := returns_bind_ok.mp h₂
  obtain ⟨first, t₃, rfl, hclock⟩ := returns_request_bind.mp hfirst
  obtain ⟨rfl, hthis⟩ := returns_pure.mp hclock
  obtain rfl := Except.ok.inj hthis
  obtain ⟨now, t₄, rfl, h₄⟩ := returns_request_bind.mp h₃
  obtain ⟨builder, t₅, t₆, rfl, hadd, hsign⟩ := returns_bind_ok.mp h₄
  obtain ⟨singles, rfl, hcollects, hwindow⟩ := add_responses_collects hadd
  obtain ⟨rfl, hbody⟩ := returns_lift.mp hsign
  replace hbody := hbody.symm
  simp only [sign_response, bind_eq_ok, map_err_eq_ok] at hbody
  obtain ⟨b, hnonce, response, hocsp, hder⟩ := hbody
  obtain rfl := add_nonce_eq_ok hlaw rfl hnonce
  obtain ⟨hdata, data_der, hdata_der, hsignature⟩ := hlaw.ocsp_sign _ _ _ _ _ hocsp
  have hreadable : response.Readable := by
    rw [BasicOcspResponse.Readable, hdata]
    exact readable_of_ids (hlaw.ocsp_request _ _ (map_err_eq_ok.mp hrequest))
      (add_responses_ids hadd)
  refine ⟨ca, request, first, now, body, response, ok_or_else_eq_ok.mp hca,
    map_err_eq_ok.mp hrequest, Except.ok.inj hresp, by simp, by simp,
    ⟨hlaw.ocsp_response _ _ hder hreadable, ?_, ?_, ?_, ?_, data_der, hdata_der, hsignature⟩, ?_⟩
  all_goals rw [hdata]
  · rfl
  · exact hwindow
  · simpa [OcspResponseBuilder.new] using
      (hcollects.append []).prepend [⟨Op.now, first⟩, ⟨Op.now, now⟩]

/-- A look-up is answered from the state it is made in. -/
theorem answered_of_looked_up {ca_id : String} {entry : OcspEntry} {single : SingleResponse}
    {e : Event Op.Res} {faulty : Prop} {u u' : Db} (h : LookedUp X ca_id entry single e)
    (hstep : step faulty u e.1 e.2 u') : Answered X u ca_id entry single := by
  obtain ⟨row, rfl, hid, hsays⟩ := h
  refine ⟨hid, ?_⟩
  obtain ⟨hrow, _⟩ := Prod.mk.inj (repo.step_ok hstep)
  rw [Except.ok.inj hrow] at hsays
  exact hsays

end Ocsp

/-! ## Replies of the server -/

namespace http

/-- The CA and the request, where a call asks the OCSP responder. -/
def Call.question : Call → Option (String × Bytes)
  | .ocsp_post ca body => some (ca, body)
  | .ocsp_get ca b64 => (base64.decode b64.toList).map fun der => (ca, der)
  | _ => none

section Replies

variable {json : List String → List String → Bytes} {state : AppState}

/-- The two ways to ask end in the same responder. -/
theorem run_question {call : Call} {ca : String} {der : Bytes}
    (h : call.question = some (ca, der)) :
    call.run X json state = Ocsp.respond X state ca der := by
  cases call with
  | ocsp_post ca' body =>
      obtain ⟨rfl, rfl⟩ := Prod.mk.inj (Option.some.inj h)
      rfl
  | ocsp_get ca' b64 =>
      obtain ⟨der', hdecode, hpair⟩ := Option.map_eq_some_iff.mp h
      obtain ⟨rfl, rfl⟩ := Prod.mk.inj hpair
      show Ocsp.ocsp_get X state ca' b64 = _
      rw [Ocsp.ocsp_get, hdecode]
  | _ => cases h

/-- An error does not look like a success. -/
theorem status_of_error (e : AppError) : e.into_response.status ≠ 200 := by
  show e.status ≠ 200
  cases e with
  | _ => simp [AppError.status]

/-- A reply with status 200 to a request that is for a handler is what the handler returned. -/
theorem served_ok {req : Request} {call : Call} {tr : Trace} {resp : Response}
    (hcall : resolve req = .ok call) (h : Returns (serve X json state req) tr (.ok resp))
    (hok : resp.status = 200) :
    ∃ full, Returns (call.run X json state) tr (.ok full) ∧ resp = strip req.method full := by
  rcases serve_returns.mp h with ⟨_, hno, _⟩ | ⟨call', x, hcall', hrun, hx⟩
  · cases hcall.symm.trans hno
  obtain rfl := Except.ok.inj (hcall.symm.trans hcall')
  rw [Except.ok.inj hx] at hok ⊢
  cases x with
  | ok full => exact ⟨full, hrun, rfl⟩
  | error e =>
      have hstatus : (strip req.method (Scep.into_response (.error e))).status
          = e.into_response.status := by
        unfold strip
        split
        · rfl
        · rfl
      exact absurd (hstatus.symm.trans hok) (status_of_error e)

end Replies

end http

/-! ## The life of a certificate -/

/-- From unknown over good to revoked, and revoked as it was. -/
inductive RevocationStatus.Precedes : RevocationStatus → RevocationStatus → Prop
  | same (s : RevocationStatus) : Precedes s s
  | issued (s : RevocationStatus) : Precedes .Unknown s
  | revoked (revoked_at : Option String) (reason : Option Int) :
      Precedes .Good (.Revoked revoked_at reason)

/-- In a later state a status is further on, or the same. -/
theorem status_precedes {faulty : Prop} {db db' : Db} (h : Reaches (step faulty) db db')
    (ca_id serial : String) :
    (repo.status db ca_id serial).Precedes (repo.status db' ca_id serial) := by
  obtain ⟨tr, hsteps⟩ := h
  by_cases hex : ∃ r ∈ db.issued_certificate.rows, r.ca_id = ca_id ∧ r.serial = serial
  · obtain ⟨r, hr, hca, hserial⟩ := hex
    rw [repo.status_of_mem hr hca hserial]
    by_cases hrevoked : r.status = STATUS_REVOKED
    · -- a revoked row is not written again
      have hr' := repo.revoked_stays hsteps hr (by rw [hrevoked]; decide)
      rw [repo.status_of_mem hr' hca hserial]
      exact .same _
    · -- a good one stays, and may have been revoked
      obtain ⟨r', hr', hca', hserial'⟩ := repo.row_stays hsteps ⟨r, hr, hca, hserial⟩
      rw [if_neg hrevoked, repo.status_of_mem hr' hca' hserial']
      split
      · exact .revoked _ _
      · exact .same _
  · rw [repo.status_of_not_mem fun r hr hkey => hex ⟨r, hr, hkey⟩]
    exact .issued _

theorem revoked_row_stays {faulty : Prop} {db db' : Db} (h : Reaches (step faulty) db db')
    {ca_id : String} {r : IssuedCertificate} (hr : r ∈ db.issued_certificate.rows)
    (hp : is_revoked_row ca_id r = true) : r ∈ db'.issued_certificate.rows := by
  obtain ⟨tr, hsteps⟩ := h
  apply repo.revoked_stays hsteps hr
  rw [(of_decide_eq_true hp).2]
  decide

/-! ## What is told of a certificate -/

/-- What a reply says of one serial. -/
inductive Answer where
  | status (s : CertStatus)
  | listed (date : Time)
  | unlisted

namespace Answer

def revoked : Answer → Bool
  | .status s => s.is_revoked
  | .listed _ => true
  | .unlisted => false

/-- The date of a revocation. -/
def date : Answer → Option DateTime
  | .status (.Revoked info) => some info.revocation_time
  | .listed date => some date.to_date_time
  | _ => none

/-- The answer is right of a status. -/
def Right (X : Crates) (s : RevocationStatus) : Answer → Prop
  | .status c => Ocsp.Says X s c
  | .listed date => ∃ revoked_at reason, s = .Revoked revoked_at reason ∧
      ∀ t, stored_instant X revoked_at = some t →
        (date.to_date_time.unix_secs : Int) = t.secs
  | .unlisted => ∀ revoked_at reason, s ≠ .Revoked revoked_at reason

theorem Right.revoked_iff {s : RevocationStatus} {a : Answer} (h : a.Right X s) :
    a.revoked = true ↔ ∃ revoked_at reason, s = .Revoked revoked_at reason := by
  cases a with
  | status c => exact Ocsp.Says.is_revoked h
  | listed date =>
      obtain ⟨revoked_at, reason, hs, _⟩ := h
      exact ⟨fun _ => ⟨revoked_at, reason, hs⟩, fun _ => rfl⟩
  | unlisted =>
      refine ⟨fun hno => Bool.noConfusion hno, ?_⟩
      rintro ⟨revoked_at, reason, hs⟩
      exact absurd hs (h revoked_at reason)

/-- What is right of a revoked status has a date. -/
theorem Right.date_of_revoked {s : RevocationStatus} {a : Answer} (h : a.Right X s)
    {revoked_at : Option String} {reason : Option Int} (hs : s = .Revoked revoked_at reason) :
    ∃ d, a.date = some d := by
  subst hs
  cases a with
  | status c =>
      cases h with
      | revoked htime => exact ⟨_, rfl⟩
  | listed date => exact ⟨_, rfl⟩
  | unlisted => exact absurd rfl (h revoked_at reason)

/-- A date is the stored one, where OCSP can tell that. -/
theorem Right.date_eq {s : RevocationStatus} {a : Answer} (h : a.Right X s) {d d' : DateTime}
    (hd : a.date = some d) {revoked_at : Option String} {reason : Option Int}
    (hs : s = .Revoked revoked_at reason) (hstored : Ocsp.stored_time X revoked_at = some d') :
    d = d' := by
  subst hs
  cases a with
  | status c =>
      cases h with
      | revoked htime => rw [← Option.some.inj hd, htime d' hstored]
  | listed date =>
      obtain ⟨revoked_at', reason', hs, hdate⟩ := h
      cases hs
      obtain ⟨t, ht, htime⟩ := Option.bind_eq_some_iff.mp hstored
      have hsecs := hdate t ht
      rw [Option.some.inj hd] at hsecs
      cases hfrom : DateTime.from_system_time t with
      | ok d'' =>
          rw [hfrom] at htime
          rw [← Option.some.inj htime]
          have hsecs' := (DateTime.from_system_time_eq_ok.mp hfrom).2
          apply DateTime.eq_of_unix_secs
          omega
      | error e =>
          rw [hfrom] at htime
          cases htime
  | unlisted => cases hd

/-- A date is the stored instant to the second, where OCSP can tell that. -/
theorem Right.date_instant {s : RevocationStatus} {a : Answer} (h : a.Right X s) {d : DateTime}
    (hd : a.date = some d) {revoked_at : String} {reason : Option Int}
    (hs : s = .Revoked (some revoked_at) reason) {t : SystemTime}
    (ht : X.parse_rfc3339 revoked_at = some t) (hrep : DateTime.Representable t) :
    (d.unix_secs : Int) = t.secs := by
  obtain ⟨d', hd'⟩ := DateTime.exists_from_system_time hrep
  have hstored : Ocsp.stored_time X (some revoked_at) = some d' := by
    rw [Ocsp.stored_time, stored_instant, Option.bind_some, ht, Option.bind_some, hd']
    rfl
  rw [h.date_eq hd hs hstored]
  exact (DateTime.from_system_time_eq_ok.mp hd').2.symm

end Answer

/-- The reply to a request says this of a serial of a CA. -/
inductive Tells (X : Crates) (ca_id : String) (serial : SerialNumber) (call : http.Call)
    (body : Bytes) : Answer → Prop
  | status {der : Bytes} {response : BasicOcspResponse} {single : SingleResponse}
      (hquestion : call.question = some (ca_id, der))
      (hread : X.ocsp_response_from_der body = .ok response)
      (hmem : single ∈ response.tbs_response_data.responses)
      (hserial : single.cert_id.serial_number = serial) :
      Tells X ca_id serial call body (.status single.cert_status)
  | listed {crl : CertificateList} {entry : RevokedCert} (hcall : call = .crl ca_id)
      (hread : X.certificate_list_from_der body = .ok crl) (hmem : entry ∈ crl.entries)
      (hserial : entry.serial_number = serial) :
      Tells X ca_id serial call body (.listed entry.revocation_date)
  | unlisted {crl : CertificateList} (hcall : call = .crl ca_id)
      (hread : X.certificate_list_from_der body = .ok crl) (hmem : serial ∉ crl.serials) :
      Tells X ca_id serial call body .unlisted

/-! ## A CRL -/

namespace Crl

/-- A CRL that is returned lists the revoked rows of the moment it was read at. -/
theorem crl_returns (hlaw : X.StatusLaw)
    (hbits : ∀ s b, X.signature_to_bitstring s = .ok b → b = s) {state : AppState} {ca_id : String}
    {tr : Trace} {resp : Response} (h : Returns (crl X state ca_id) tr (.ok resp)) :
    ∃ rows now crl, ⟨Op.db (.select_revoked ca_id), .ok rows⟩ ∈ tr ∧
      X.Encodes resp.body crl ∧ revoked_certificates X now rows = .ok crl.entries ∧
      DateTime.Representable now := by
  obtain ⟨body, t, t', rfl, hbuild, hpure⟩ := returns_bind_ok.mp h
  rw [Except.ok.inj (returns_pure.mp hpure).2]
  obtain ⟨ca, _, h₁⟩ := returns_lift_bind_ok.mp hbuild
  rcases repo.returns_query_bind.mp h₁ with ⟨e, _, hno⟩ | ⟨rows, t₁, rfl, h₂⟩
  · cases hno
  obtain ⟨now, t₂, rfl, h₃⟩ := returns_request_bind.mp h₂
  have hcrl := (returns_lift.mp h₃).2.symm
  obtain ⟨crl, hencodes, hentries, _⟩ := crl_at_eq_ok hlaw hbits hcrl
  refine ⟨rows, now, crl, by simp, hencodes, hentries, ?_⟩
  simp only [crl_at, bind_eq_ok] at hcrl
  obtain ⟨_, _, _, _, this_update, hthis, _⟩ := hcrl
  exact exists_to_time.mp ⟨this_update, hthis⟩

theorem decode_serial_drawn (bytes : { b : Bytes // b.length = 16 }) :
    decode_serial (hex.encode (serial_of bytes).as_bytes) = some (serial_of bytes) := by
  rw [decode_serial, hex.decode_encode, Option.bind_some, new_serial_of]
  rfl

/-- Drawn rows that let the loop come to its end are listed. -/
theorem listable_of_datable {rows : List RevokedEntry}
    (hserials : ∀ row ∈ rows, ∃ bytes : { b : Bytes // b.length = 16 },
      row.serial = hex.encode (serial_of bytes).as_bytes)
    (hdatable : ∀ row ∈ rows, Datable X row) : ∀ row ∈ rows, Listable X row := by
  intro row hrow
  obtain ⟨bytes, hserial⟩ := hserials row hrow
  refine ⟨⟨bytes, hserial⟩, hdatable row hrow ?_⟩
  rw [hserial, decode_serial_drawn]
  rfl

/-- The serials of the revoked rows of a CA are those of its rows. -/
theorem revoked_serials_drawn {db : Db} {ca_id : String}
    (hdrawn : ∀ r ∈ db.issued_certificate.rows, ∃ bytes : { b : Bytes // b.length = 16 },
      r.serial = hex.encode (serial_of bytes).as_bytes) :
    ∀ row ∈ revoked_rows ca_id db, ∃ bytes : { b : Bytes // b.length = 16 },
      row.serial = hex.encode (serial_of bytes).as_bytes := by
  intro row hrow
  obtain ⟨r, hr, rfl⟩ := List.mem_map.mp hrow
  exact hdrawn r (List.mem_filter.mp hr).1

/-- The list covers the revoked rows of a CA, and reads back, where their serials are drawn. -/
theorem covers_of_entries {db : Db} {ca_id : String} {now : SystemTime}
    {entries : List RevokedCert}
    (hdrawn : ∀ r ∈ db.issued_certificate.rows, ∃ bytes : { b : Bytes // b.length = 16 },
      r.serial = hex.encode (serial_of bytes).as_bytes)
    (hnow : DateTime.Representable now)
    (h : revoked_certificates X now (revoked_rows ca_id db) = .ok entries) :
    Covers X db ca_id entries ∧ ∀ entry ∈ entries, entry.serial_number.Readable := by
  have hlistable := listable_of_datable (revoked_serials_drawn hdrawn)
    ((exists_revoked_certificates hnow).mp ⟨entries, h⟩)
  obtain ⟨entries', hentries, hlists⟩ := revoked_certificates_lists hlistable hnow
  obtain rfl := Except.ok.inj (hentries.symm.trans h)
  exact ⟨covers_of_lists hlists, readable_of_lists hlists hlistable⟩

/-- A serial is listed for a revoked status, with its date. -/
theorem right_of_listed {db : Db} {ca_id : String} {entries : List RevokedCert}
    (h : Covers X db ca_id entries) {entry : RevokedCert} (hentry : entry ∈ entries) :
    (Answer.listed entry.revocation_date).Right X
      (repo.status db ca_id (hex.encode entry.serial_number.as_bytes)) := by
  obtain ⟨r, hr, hp, htext⟩ := (h.mem entry.serial_number).mp (List.mem_map_of_mem hentry)
  refine ⟨r.revoked_at, r.revocation_reason, status_eq_revoked.mpr ⟨r, hr, hp, htext, rfl, rfl⟩,
    fun t ht => h.date entry hentry r hr htext t ht⟩

theorem right_of_unlisted {db : Db} {ca_id : String} {crl : CertificateList}
    (h : Covers X db ca_id crl.entries) {serial : SerialNumber} (hserial : serial ∉ crl.serials) :
    Answer.unlisted.Right X (repo.status db ca_id (hex.encode serial.as_bytes)) := by
  intro revoked_at reason hstatus
  obtain ⟨r, hr, hp, htext, _⟩ := status_eq_revoked.mp hstatus
  exact hserial ((h.mem serial).mpr ⟨r, hr, hp, htext⟩)

end Crl

/-! ## What a reply tells -/

/-- The call was handled, and answered in full. -/
structure Completed (X : Crates) (json : List String → List String → Bytes) (state : AppState)
    (req : http.Request) (call : http.Call) (tr : Trace) (resp : Response) : Prop where
  resolved : http.resolve req = .ok call
  full : req.method ≠ .HEAD
  returned : Returns (http.serve X json state req) tr (.ok resp)
  ok : resp.status = 200

section Right

variable {ι : Type} [DecidableEq ι] {json : List String → List String → Bytes} {state : AppState}
  {faulty : Prop} {requests : ι → http.Request} {past during : List (Option ι × Event Op.Res)}
  {db db' : Db} {ca_id : String} {serial : SerialNumber}

theorem Completed.run {req : http.Request} {call : http.Call} {tr : Trace} {resp : Response}
    (h : Completed X json state req call tr resp) :
    Returns (call.run X json state) tr (.ok resp) := by
  obtain ⟨full, hrun, hresp⟩ := http.served_ok h.resolved h.returned h.ok
  rw [http.strip, if_neg h.full] at hresp
  rw [hresp]
  exact hrun

/-- What a reply tells was right at a moment since the request came in. -/
theorem Operating.right (hlaw : X.StatusLaw)
    (hbits : ∀ s b, X.signature_to_bitstring s = .ok b → b = s) (hx509 : X.X509Law)
    (h : Operating X json state faulty requests (past ++ during) db')
    (hothers : Administered (past ++ during))
    (hpast : Steps (step faulty) Db.empty (past.map Prod.snd) db)
    (hduring : Steps (step faulty) db (during.map Prod.snd) db') {i : ι} {call : http.Call}
    {resp : Response}
    (hcompleted : Completed X json state (requests i) call (events_of (some i) during) resp)
    {a : Answer} (htells : Tells X ca_id serial call resp.body a) :
    ∃ u, Reaches (step faulty) db u ∧ Reaches (step faulty) u db' ∧
      a.Right X (repo.status u ca_id (hex.encode serial.as_bytes)) := by
  have hrun := hcompleted.run
  -- a CRL is all of the state it was read in
  have hcovers : call = .crl ca_id → ∀ crl, X.certificate_list_from_der resp.body = .ok crl →
      ∃ u, Reaches (step faulty) db u ∧ Reaches (step faulty) u db' ∧
        Covers X u ca_id crl.entries := by
    rintro rfl crl hread
    obtain ⟨rows, now, crl', hmem, hencodes, hentries, hnow⟩ := Crl.crl_returns hlaw hbits hrun
    obtain rfl := hencodes.read_eq hlaw hread
    obtain ⟨d₁, d₂, rfl⟩ := List.append_of_mem (mem_events_of.mp hmem)
    rw [List.map_append] at hduring
    obtain ⟨u, h₁, h₂⟩ := steps_append.mp hduring
    obtain ⟨u', hstep, h₃⟩ := steps_cons.mp h₂
    obtain ⟨hrows, _⟩ := Prod.mk.inj (repo.step_ok hstep)
    rw [Except.ok.inj hrows] at hentries
    rw [← List.append_assoc] at h hothers
    have hdrawn := (h.before (by
      rw [List.map_append]
      exact steps_append.mpr ⟨db, hpast, h₁⟩)).drawn hothers.left hx509
    exact ⟨u, h₁.reaches, h₂.reaches, (Crl.covers_of_entries hdrawn hnow hentries).1⟩
  cases htells with
  | @status der response single hquestion hread hsingle hserial =>
      rw [http.run_question hquestion] at hrun
      obtain ⟨_, request, _, _, body, response', _, _, hresp, _, _, hreplies, hcollects⟩ :=
        Ocsp.respond_collects hlaw hrun
      rw [hresp] at hread
      obtain rfl := Except.ok.inj (hread.symm.trans hreplies.decoded)
      -- the single response is of the moment its serial was looked up at
      have hspread := hcollects.spread hduring fun _ _ _ _ _ hlooked hstep =>
        Ocsp.answered_of_looked_up hlooked hstep
      obtain ⟨entry, u, _, hu, ⟨hid, hsays⟩, hu'⟩ := hspread.moment hsingle
      rw [← hid, hserial] at hsays
      exact ⟨u, hu, hu', hsays⟩
  | @listed crl entry hcall hread hentry hserial =>
      obtain ⟨u, hu, hu', hcrl⟩ := hcovers hcall crl hread
      refine ⟨u, hu, hu', ?_⟩
      rw [← hserial]
      exact Crl.right_of_listed hcrl hentry
  | @unlisted crl hcall hread hno =>
      obtain ⟨u, hu, hu', hcrl⟩ := hcovers hcall crl hread
      exact ⟨u, hu, hu', Crl.right_of_unlisted hcrl hno⟩

/-- The later answer takes nothing of the earlier one back. -/
structure Succeeds (X : Crates) (db : Db) (ca_id : String) (serial : SerialNumber)
    (a b : Answer) : Prop where
  /-- Revoked is revoked for good. -/
  revoked : a.revoked = true → b.revoked = true
  /-- A certificate that was known is known. -/
  known : a.revoked = true ∨ a = .status .Good → b ≠ .status .Unknown
  /-- The date stays, unless the stored one is none that OCSP can tell. -/
  dated : ∀ d d', a.date = some d → b.date = some d' → d = d' ∨
    ∃ r ∈ db.issued_certificate.rows, r.ca_id = ca_id ∧ r.serial = hex.encode serial.as_bytes ∧
      Ocsp.stored_time X r.revoked_at = none

theorem Answer.revoked_of_date {a : Answer} {d : DateTime} (h : a.date = some d) :
    a.revoked = true := by
  cases a with
  | status s =>
      cases s with
      | Revoked info => rfl
      | _ => cases h
  | listed date => rfl
  | unlisted => cases h

/-- Answers that were right of a state and of a later one. -/
theorem succeeds_of_right {a b : Answer} {u u' : Db}
    (ha : a.Right X (repo.status u ca_id (hex.encode serial.as_bytes)))
    (hb : b.Right X (repo.status u' ca_id (hex.encode serial.as_bytes)))
    (hu : Reaches (step faulty) u u') (hu' : Reaches (step faulty) u' db) :
    Succeeds X db ca_id serial a b := by
  have hprecedes := status_precedes hu ca_id (hex.encode serial.as_bytes)
  have hsame : a.revoked = true → ∃ revoked_at reason,
      repo.status u ca_id (hex.encode serial.as_bytes) = .Revoked revoked_at reason ∧
        repo.status u' ca_id (hex.encode serial.as_bytes) = .Revoked revoked_at reason := by
    intro hrevoked
    obtain ⟨revoked_at, reason, hs⟩ := ha.revoked_iff.mp hrevoked
    rw [hs] at hprecedes
    generalize repo.status u' ca_id (hex.encode serial.as_bytes) = s' at hprecedes
    cases hprecedes
    exact ⟨revoked_at, reason, hs, rfl⟩
  -- what is revoked stays so, what is known is not unknown, and a date that can be told stays
  refine ⟨fun hrevoked => ?_, fun hknown hunknown => ?_, fun d d' hd hd' => ?_⟩
  · obtain ⟨revoked_at, reason, _, hs'⟩ := hsame hrevoked
    exact hb.revoked_iff.mpr ⟨revoked_at, reason, hs'⟩
  · rw [hunknown] at hb
    have hb' : repo.status u' ca_id (hex.encode serial.as_bytes) = .Unknown := by
      generalize repo.status u' ca_id (hex.encode serial.as_bytes) = s' at hb
      cases hb
      rfl
    rcases hknown with hrevoked | rfl
    · obtain ⟨_, _, _, hs'⟩ := hsame hrevoked
      cases hb'.symm.trans hs'
    · generalize repo.status u ca_id (hex.encode serial.as_bytes) = s at ha hprecedes
      rw [hb'] at hprecedes
      cases ha
      cases hprecedes
  · obtain ⟨revoked_at, reason, hs, hs'⟩ := hsame (Answer.revoked_of_date hd)
    obtain ⟨r, hr, hp, htext, hdate, _⟩ := status_eq_revoked.mp hs'
    have hr' := revoked_row_stays hu' hr hp
    cases hstored : Ocsp.stored_time X revoked_at with
    | none => exact .inr ⟨r, hr', (of_decide_eq_true hp).1, htext, by rw [hdate, hstored]⟩
    | some date =>
        left
        rw [ha.date_eq hd hs hstored, hb.date_eq hd' hs' hstored]

/-- The row of a revocation that met one is revoked with its date. -/
theorem status_of_revocation {u u' : Db} {serial revoked_at : String} {reason : Int} {n : Nat}
    (hstep : step faulty u (.db (.update_revoked ca_id serial reason revoked_at)) (.ok n) u')
    (hn : 0 < n) : repo.status u' ca_id serial = .Revoked (some revoked_at) (some reason) := by
  have hissued := @repo.step_issued faulty u u'
    ⟨Op.db (.update_revoked ca_id serial reason revoked_at), .ok n⟩ hstep
  rcases hissued with ⟨_, hno, _⟩ | ⟨_, _, _, _, he, htab⟩ | ⟨_, hno, _⟩
  · cases hno
  · cases he
    obtain ⟨r, hr, hp⟩ := Table.count_pos.mp hn
    obtain ⟨hca, hserial, _⟩ := of_decide_eq_true hp
    have hmem : set_revoked reason revoked_at r ∈ u'.issued_certificate.rows := by
      rw [htab]
      exact Table.mem_update_of hr hp
    exact repo.status_of_mem hmem hca hserial
  · exact absurd rfl (hno _ _ _ _ _)

end Right

/-! ## A certificate that is revoked -/

/-- While no statement fails and signing goes through, the CRL of a CA is served, and covers its
revoked rows, where their serials are drawn and their dates can be represented. -/
theorem Crl.served_covers (hlaw : X.StatusLaw)
    (hbits : ∀ s b, X.signature_to_bitstring s = .ok b → b = s) {state : AppState} {ca_id : String}
    {ca : CertificateAuthority} (hca : state.cas.lookup ca_id = some ca)
    (hsigns : X.SignsStatus (CaSigningKey.new ca.private_key)) {tr : Trace} {x : AppResult Response}
    {db db' : Db}
    (hdrawn : ∀ r ∈ db.issued_certificate.rows, ∃ bytes : { b : Bytes // b.length = 16 },
      r.serial = hex.encode (serial_of bytes).as_bytes)
    (hdatable : ∀ row ∈ revoked_rows ca_id db, Datable X row)
    (hrun : Returns (crl X state ca_id) tr x) (hsteps : Steps (step False) db tr db')
    (hnow : ∀ now, ⟨Op.now, now⟩ ∈ tr → DateTime.Representable now ∧
      DateTime.Representable (now.add_secs CRL_LIFETIME_SECS)) :
    db' = db ∧ ∃ body crl, x = .ok ⟨200, CT_CRL, body⟩ ∧
      X.certificate_list_from_der body = .ok crl ∧ Covers X db ca_id crl.entries := by
  have hbuilt : ∀ t r u, Returns (build_crl X state ca_id) t r → Steps (step False) db t u →
      (∀ now, ⟨Op.now, now⟩ ∈ t → DateTime.Representable now ∧
        DateTime.Representable (now.add_secs CRL_LIFETIME_SECS)) →
      u = db ∧ ∃ body crl, r = .ok body ∧ X.certificate_list_from_der body = .ok crl ∧
        Covers X db ca_id crl.entries := by
    intro t r u hbuild hworld hclock
    obtain ⟨now, hmem, hsame, hr⟩ := build_crl_returns hca hbuild hworld
    obtain ⟨hthis, hnext⟩ := hclock now hmem
    obtain ⟨body, hbody⟩ := (exists_crl_at_iff hsigns hthis).mpr ⟨hdatable, hnext⟩
    obtain ⟨crl, hencodes, hentries, _⟩ := crl_at_eq_ok hlaw hbits hbody
    obtain ⟨hcovers, hreadable⟩ := covers_of_entries hdrawn hthis hentries
    exact ⟨hsame, body, crl, hr.trans hbody, hencodes.read hreadable, hcovers⟩
  rcases returns_bind.mp hrun with ⟨e, _, hbuild⟩ | ⟨body, t₁, t₂, rfl, hbuild, hpure⟩
  · obtain ⟨_, _, _, hno, _⟩ := hbuilt _ _ _ hbuild hsteps hnow
    cases hno
  · obtain ⟨rfl, rfl⟩ := returns_pure.mp hpure
    rw [List.append_nil] at hsteps hnow
    obtain ⟨hsame, body', crl, hbody, hread, hcovers⟩ := hbuilt _ _ _ hbuild hsteps hnow
    obtain rfl := Except.ok.inj hbody
    exact ⟨hsame, body, crl, rfl, hread, hcovers⟩

/-- While no statement fails and signing goes through, an OCSP request is answered. -/
theorem Ocsp.respond_served (hlaw : X.StatusLaw) {state : AppState} {ca_id : String}
    {ca : CertificateAuthority} (hca : state.cas.lookup ca_id = some ca)
    (hsigns : X.SignsStatus (CaSigningKey.new ca.private_key)) {der : Bytes}
    {request : OcspRequest} (hreq : X.ocsp_request_from_der der = .ok request) {tr : Trace}
    {x : AppResult Response} {db db' : Db} (hrun : Returns (respond X state ca_id der) tr x)
    (hsteps : Steps (step False) db tr db') :
    ∃ body response, x = .ok ⟨200, CT_OCSP, body⟩ ∧
      X.ocsp_response_from_der body = .ok response ∧
      List.Forall₂ (Answered X db ca_id) request.request_list
        response.tbs_response_data.responses := by
  rcases returns_bind.mp hrun with ⟨e, _, hbuild⟩ | ⟨body, t₁, t₂, rfl, hbuild, hpure⟩
  · obtain ⟨_, _, _, hno, _⟩ := build_response_world hlaw hca hsigns hreq hbuild hsteps
    cases hno
  · obtain ⟨rfl, rfl⟩ := returns_pure.mp hpure
    rw [List.append_nil] at hsteps
    obtain ⟨_, der, response, hder, hread, hanswered⟩ :=
      build_response_world hlaw hca hsigns hreq hbuild hsteps
    obtain rfl := Except.ok.inj hder
    exact ⟨body, response, rfl, hread, hanswered⟩

namespace Device

/-- The request for the CRL. -/
def fetch : http.Request := ⟨.GET, "/crl/root".as_bytes, ∅, []⟩

/-- The OCSP request about the certificate of the device. -/
def ask : http.Request := ⟨.POST, "/ocsp/root".as_bytes, ∅, enc ocsp_request⟩

theorem fetch_resolves : http.resolve fetch = .ok (.crl "root") := by
  have hroute : http.router "/crl/root".as_bytes = some (http.CRL, [("ca", "root")]) := by decide
  exact http.resolve_of_router hroute rfl rfl

theorem ask_resolves : http.resolve ask = .ok (.ocsp_post "root" (enc ocsp_request)) := by
  have hroute : http.router "/ocsp/root".as_bytes = some (http.OCSP, [("ca", "root")]) := by decide
  exact http.resolve_of_router hroute rfl rfl

def requests : Fin 3 → http.Request := ![post, fetch, ask]

/-- When the certificate is revoked. -/
def revocation_date : String := "2026-07-29T12:00:00Z"

theorem revocation_dated : Dated Reference.crates revocation_date := by
  intro t ht
  obtain rfl : (⟨1785326400000000000⟩ : SystemTime) = t := Option.some.inj ht
  decide

/-- The serial of the certificate, as a text. -/
def serial_text : String := hex.encode (serial_of serial_octets).as_bytes

/-- The certificate is on the CRL of a database where it is revoked. -/
theorem fetched {db : Db}
    (hdrawn : ∀ r ∈ db.issued_certificate.rows, ∃ bytes : { b : Bytes // b.length = 16 },
      r.serial = hex.encode (serial_of bytes).as_bytes)
    (hdatable : ∀ row ∈ Crl.revoked_rows "root" db, Crl.Datable Reference.crates row)
    {revoked_at : Option String} {reason : Option Int}
    (hrevoked : repo.status db "root" serial_text = .Revoked revoked_at reason) :
    ∃ tr resp, ∃ entry : RevokedCert,
      Completed Reference.crates (fun _ _ => []) server fetch (.crl "root") tr resp ∧
      Steps (step False) db tr db ∧
      Tells Reference.crates "root" (serial_of serial_octets) (.crl "root") resp.body
        (.listed entry.revocation_date) := by
  have htimes : DateTime.Representable now ∧
      DateTime.Representable (now.add_secs Crl.CRL_LIFETIME_SECS) := by decide
  obtain ⟨tr, x, db', hrun, hsteps, hclock⟩ :=
    exists_run (Crl.crl Reference.crates server "root") now db
  obtain ⟨rfl, body, crl, rfl, hread, hcovers⟩ := Crl.served_covers Reference.status_law
    Reference.rsa_law.bitstring (lookup_singleton.mpr ⟨rfl, rfl⟩) (Reference.signs_status _) hdrawn
    hdatable hrun hsteps fun now hmem => by rw [hclock now hmem]; exact htimes
  obtain ⟨r, hr, hp, htext, _⟩ := status_eq_revoked.mp hrevoked
  obtain ⟨entry, hentry, hserial⟩ := List.mem_map.mp
    ((hcovers.mem (serial_of serial_octets)).mpr ⟨r, hr, hp, htext⟩)
  refine ⟨tr, ⟨200, Crl.CT_CRL, body⟩, entry, ⟨fetch_resolves, by decide, ?_, rfl⟩, hsteps,
    .listed rfl hread hentry hserial⟩
  exact http.serve_returns.mpr (.inr ⟨_, _, fetch_resolves, hrun, rfl⟩)

/-- OCSP answers about the certificate. -/
theorem asked (db : Db) : ∃ tr resp db', ∃ single : SingleResponse,
    Completed Reference.crates (fun _ _ => []) server ask (.ocsp_post "root" (enc ocsp_request)) tr
      resp ∧
    Steps (step False) db tr db' ∧
    Tells Reference.crates "root" (serial_of serial_octets) (.ocsp_post "root" (enc ocsp_request))
      resp.body (.status single.cert_status) := by
  have hreq : Reference.crates.ocsp_request_from_der (enc ocsp_request) = .ok ocsp_request :=
    Reference.ocsp_request_decoded (by decide)
  obtain ⟨tr, x, db', hrun, hsteps, _⟩ :=
    exists_run (Ocsp.respond Reference.crates server "root" (enc ocsp_request)) now db
  obtain ⟨body, response, rfl, hread, hanswered⟩ := Ocsp.respond_served Reference.status_law
    (lookup_singleton.mpr ⟨rfl, rfl⟩) (Reference.signs_status _) hreq hrun hsteps
  obtain ⟨single, hmem, hid⟩ : ∃ single ∈ response.tbs_response_data.responses,
      single.cert_id.serial_number = serial_of serial_octets := by
    generalize response.tbs_response_data.responses = singles at hanswered
    obtain _ | ⟨⟨hid, _⟩, _⟩ := hanswered
    exact ⟨_, List.mem_cons_self, by rw [hid]; rfl⟩
  refine ⟨tr, ⟨200, Ocsp.CT_OCSP, body⟩, db', single, ⟨ask_resolves, by decide, ?_, rfl⟩, hsteps,
    .status rfl hread hmem hid⟩
  exact http.serve_returns.mpr (.inr ⟨_, _, ask_resolves, hrun, rfl⟩)

/-- The certificate is enrolled and revoked, the CRL is fetched, and then OCSP is asked. -/
theorem revoked_then_asked : ∃ (past during : List (Option (Fin 3) × Event Op.Res)) (db : Db)
    (n : Nat) (listed told : Response) (entry : RevokedCert) (single : SingleResponse),
    Operating Reference.crates (fun _ _ => []) server False requests (past ++ during) db ∧
    Administered (past ++ during) ∧
    ⟨Op.db (.update_revoked "root" serial_text 1 revocation_date), .ok n⟩ ∈ past.map Prod.snd ∧
    0 < n ∧
    Completed Reference.crates (fun _ _ => []) server fetch (.crl "root")
      (events_of (some 1) past) listed ∧
    Completed Reference.crates (fun _ _ => []) server ask (.ocsp_post "root" (enc ocsp_request))
      (events_of (some 2) during) told ∧
    Tells Reference.crates "root" (serial_of serial_octets) (.crl "root") listed.body
      (.listed entry.revocation_date) ∧
    Tells Reference.crates "root" (serial_of serial_octets) (.ocsp_post "root" (enc ocsp_request))
      told.body (.status single.cert_status) := by
  obtain ⟨issued, t₀, der, db₀, hleaf, hrun₀, hsteps₀, _, _, hrows₀⟩ := enrolled
  have hserial : (row transaction_id issued).serial = serial_text := by
    have hissued := CertificateAuthority.leaf_issued_from Reference.x509_law hleaf
    show Scep.serial_hex issued = _
    rw [Scep.serial_hex, hissued.serial_number]
    rfl
  have hserve₀ := @http.serve_of_operation _ (fun _ _ => []) _ _ _ _ _ _ _ post_resolves rfl hrun₀
  have h₀ := (@operating_empty Reference.crates (Fin 3) _ (fun _ _ => []) server False
    requests).serves (i := 0) rfl hserve₀ hsteps₀
  -- the row is revoked
  have hvalid : is_valid_row "root" serial_text (row transaction_id issued) = true :=
    decide_eq_true ⟨rfl, hserial, rfl⟩
  have hn : 0 < db₀.issued_certificate.count (is_valid_row "root" serial_text) := by
    refine Table.count_pos.mpr ⟨_, ?_, hvalid⟩
    rw [hrows₀]
    exact List.mem_singleton_self _
  have hstep : step False db₀ (.db (.update_revoked "root" serial_text 1 revocation_date))
      (.ok (db₀.issued_certificate.count (is_valid_row "root" serial_text)))
      (db₀.exec (.update_revoked "root" serial_text 1 revocation_date)).2 := .inl rfl
  have h₁ := h₀.revokes hstep
  have ha₁ := (administered_tagged (0 : Fin 3) t₀).append
    (fun cert x hmem => by cases List.mem_singleton.mp hmem : Administered [((none : Option (Fin 3)),
      ⟨Op.db (.update_revoked "root" serial_text 1 revocation_date),
        .ok (db₀.issued_certificate.count (is_valid_row "root" serial_text))⟩)])
  have hdatable : ∀ listed ∈ Crl.revoked_rows "root"
      (db₀.exec (.update_revoked "root" serial_text 1 revocation_date)).2,
      Crl.Datable Reference.crates listed := by
    intro listed hlisted _ t ht
    obtain ⟨r, hr, rfl⟩ := List.mem_map.mp hlisted
    have hupdated : r ∈ (db₀.issued_certificate.update (is_valid_row "root" serial_text)
        (set_revoked 1 revocation_date) fun _ => rfl).rows := (List.mem_filter.mp hr).1
    obtain ⟨r₀, hr₀, rfl⟩ := Table.mem_update.mp hupdated
    rw [hrows₀, List.mem_singleton] at hr₀
    rw [hr₀, if_pos hvalid] at ht
    exact revocation_dated t ht
  -- from here on the requests find it so
  obtain ⟨t₁, listed, entry, hlisted, hsteps₁, htells⟩ :=
    fetched (h₁.drawn ha₁ Reference.x509_law) hdatable (status_of_revocation hstep hn)
  have h₂ := h₁.serves (i := 1) (by
    rw [events_of_append, List.nil_append, events_of_tagged_other (by decide),
      events_of_cons_other (by decide), events_of_nil, List.append_nil]) hlisted.returned hsteps₁
  obtain ⟨t₂, told, db₂, single, htold, hsteps₂, htells'⟩ := asked
    (db₀.exec (.update_revoked "root" serial_text 1 revocation_date)).2
  have h₃ := h₂.serves (i := 2) (by
    rw [events_of_append, events_of_append, List.nil_append, events_of_tagged_other (by decide),
      events_of_cons_other (by decide), events_of_tagged_other (by decide), events_of_nil]
    rfl) htold.returned hsteps₂
  have ha₃ := (ha₁.append (administered_tagged 1 t₁)).append (administered_tagged 2 t₂)
  refine ⟨_, _, db₂, _, listed, told, entry, single, h₃, ha₃, ?_, hn, ?_, ?_, htells, htells'⟩
  · simp
  · rw [events_of_append, events_of_append, List.nil_append, events_of_tagged_other (by decide),
      events_of_cons_other (by decide), events_of_tagged, events_of_nil]
    exact hlisted
  · rw [events_of_tagged]
    exact htold

/-- The question about the certificate, asked twice. -/
def asked_twice : OcspRequest where
  request_list := [⟨cert_id ca_cert.tbs_certificate.subject (serial_of serial_octets)⟩,
    ⟨cert_id ca_cert.tbs_certificate.subject (serial_of serial_octets)⟩]
  nonce := none

/-- The OCSP request with both questions. -/
def ask_twice : http.Request := ⟨.POST, "/ocsp/root".as_bytes, ∅, enc asked_twice⟩

/-- What the look-up of the certificate finds. -/
def looked_up (db : Db) : Event Op.Res :=
  ⟨Op.db (.select_status "root" serial_text), (db.exec (.select_status "root" serial_text)).1⟩

/-- The certificate is revoked between the two look-ups. -/
def revoked_between : List (Option Unit × Event Op.Res) :=
  [(some (), ⟨Op.now, now⟩), (some (), ⟨Op.now, now⟩), (some (), looked_up stored_db),
    (none, ⟨Op.db (.update_revoked "root" stored.serial 1 "2026-07-29T12:00:00Z"), .ok (1 : Nat)⟩),
    (some (), looked_up revoked_db)]

theorem revoked_between_steps :
    Steps (step False) stored_db (revoked_between.map Prod.snd) revoked_db :=
  .cons rfl (.cons rfl (.cons (.inl rfl) (.cons (.inl rfl) (.cons (.inl rfl) (.nil _)))))

/-- A look-up is one answer, where its date need not be made up. -/
theorem looked_up_answers {db : Db} {row : Option StatusRow} {cert_status : CertStatus}
    {this_update next_update : DateTime} {entry : OcspEntry}
    (hserial : entry.req_cert.serial_number = serial_of serial_octets)
    (hrow : (db.exec (.select_status "root" serial_text)).1 = .ok row)
    (hstatus : Ocsp.to_cert_status Reference.crates (repo.status_of_row row) = pure cert_status) :
    Returns (Ocsp.single_response Reference.crates "root" this_update next_update entry)
      [looked_up db] (.ok ⟨entry.req_cert, cert_status, this_update, some next_update⟩) := by
  have hlookup : Returns (repo.status_by_serial "root" (hex.encode
      entry.req_cert.serial_number.as_bytes)) [looked_up db] (.ok (repo.status_of_row row)) := by
    refine repo.status_by_serial_returns.mpr ⟨row, ?_, rfl⟩
    rw [hserial, looked_up, hrow]
    rfl
  refine returns_bind_ok.mpr ⟨_, [looked_up db], [], rfl, hlookup, ?_⟩
  rw [hstatus]
  exact returns_bind_ok.mpr ⟨cert_status, [], [], rfl, returns_pure.mpr ⟨rfl, rfl⟩,
    returns_pure.mpr ⟨rfl, rfl⟩⟩

theorem ask_twice_resolves :
    http.resolve ask_twice = .ok (.ocsp_post "root" (enc asked_twice)) := by
  have hroute : http.router "/ocsp/root".as_bytes = some (http.OCSP, [("ca", "root")]) := by decide
  exact http.resolve_of_router hroute rfl rfl

/-- The request with both questions is served, though the certificate is revoked in between. -/
theorem served_between : ∃ resp, Returns (http.serve Reference.crates (fun _ _ => []) server
    ask_twice) (events_of (some ()) revoked_between) (.ok resp) ∧ resp.status = 200 := by
  have hreq : Reference.crates.ocsp_request_from_der (enc asked_twice) = .ok asked_twice :=
    Reference.ocsp_request_decoded (by decide)
  have hca : server.cas.lookup "root" = some ca := lookup_singleton.mpr ⟨rfl, rfl⟩
  have hfirst := @looked_up_answers stored_db _ .Good (Ocsp.ocsp_time now)
    (Ocsp.next_update_of (Ocsp.ocsp_time now) now)
    ⟨cert_id ca_cert.tbs_certificate.subject (serial_of serial_octets)⟩ rfl rfl rfl
  have hsecond := @looked_up_answers revoked_db _ (.Revoked ⟨⟨1785326400, by decide⟩, none⟩)
    (Ocsp.ocsp_time now) (Ocsp.next_update_of (Ocsp.ocsp_time now) now)
    ⟨cert_id ca_cert.tbs_certificate.subject (serial_of serial_octets)⟩ rfl rfl rfl
  obtain ⟨builder, hadd⟩ : ∃ builder, Returns (Ocsp.add_responses Reference.crates "root"
      (Ocsp.ocsp_time now) (Ocsp.next_update_of (Ocsp.ocsp_time now) now) asked_twice.request_list
      (OcspResponseBuilder.new ca.cert.tbs_certificate.subject))
      [looked_up stored_db, looked_up revoked_db] (.ok builder) :=
    ⟨_, returns_bind_ok.mpr ⟨_, [_], [_], rfl, hfirst,
      returns_bind_ok.mpr ⟨_, [_], [], rfl, hsecond, returns_pure.mpr ⟨rfl, rfl⟩⟩⟩⟩
  obtain ⟨der, hder⟩ :=
    Ocsp.exists_sign_response (Reference.signs_status _) asked_twice (Ocsp.ocsp_time now) builder
  have hbuild : Returns (Ocsp.build_response Reference.crates server "root" (enc asked_twice))
      (events_of (some ()) revoked_between) (.ok der) := by
    rw [Ocsp.build_response, lift_bind_of_ok (ok_or_else_eq_ok.mpr hca),
      lift_bind_of_ok (map_err_eq_ok.mpr hreq)]
    refine returns_bind_ok.mpr ⟨Ocsp.ocsp_time now, [⟨Op.now, now⟩], _, rfl, ?_, ?_⟩
    · exact returns_request_bind.mpr ⟨now, [], rfl, returns_pure.mpr ⟨rfl, rfl⟩⟩
    refine returns_request_bind.mpr ⟨now, _, rfl, ?_⟩
    exact returns_bind_ok.mpr ⟨builder, _, [], (List.append_nil _).symm, hadd,
      returns_lift.mpr ⟨rfl, hder.symm⟩⟩
  refine ⟨⟨200, Ocsp.CT_OCSP, der⟩, http.serve_returns.mpr (.inr ⟨_,
    .ok ⟨200, Ocsp.CT_OCSP, der⟩, ask_twice_resolves, ?_, rfl⟩), rfl⟩
  exact returns_bind_ok.mpr ⟨der, _, [], (List.append_nil _).symm, hbuild,
    returns_pure.mpr ⟨rfl, rfl⟩⟩

end Device

/-! ## Nothing is taken back -/

/-- **An OCSP response is linearizable.** Whatever else goes on in the log, the response to a
request is signed by the CA that was asked, and each of its answers was right in the state of
the log in which its serial was looked up, one look-up behind the other. -/
theorem ocsp_linearizable (hlaw : X.StatusLaw) {ι : Type} [DecidableEq ι]
    {json : List String → List String → Bytes} {state : AppState} {faulty : Prop}
    {log : List (ι × Event Op.Res)} {db db' : Db}
    (hworld : Steps (step faulty) db (log.map Prod.snd) db') {i : ι} {req : http.Request}
    {call : http.Call} {ca_id : String} {der : Bytes} {resp : Response}
    (hcall : http.resolve req = .ok call) (hquestion : call.question = some (ca_id, der))
    (hserved : Returns (http.serve X json state req) (events_of i log) (.ok resp))
    (hok : resp.status = 200) :
    ∃ ca request first now body response, state.cas.lookup ca_id = some ca ∧
      X.ocsp_request_from_der der = .ok request ∧
      resp = http.strip req.method ⟨200, Ocsp.CT_OCSP, body⟩ ∧
      (i, ⟨Op.now, first⟩) ∈ log ∧ (i, ⟨Op.now, now⟩) ∈ log ∧
      Ocsp.Replies X ca request first now body response ∧
      Spread (step faulty) (Ocsp.LookedUp X ca_id) (fun u => Ocsp.Answered X u ca_id) i db log
        request.request_list response.tbs_response_data.responses db' := by
  obtain ⟨full, hrun, hresp⟩ := http.served_ok hcall hserved hok
  rw [http.run_question hquestion] at hrun
  obtain ⟨ca, request, first, now, body, response, hca, hrequest, rfl, hfirst, hnow, hreplies,
    hcollects⟩ := Ocsp.respond_collects hlaw hrun
  exact ⟨ca, request, first, now, body, response, hca, hrequest, hresp, mem_events_of.mp hfirst,
    mem_events_of.mp hnow, hreplies, hcollects.spread hworld fun _ _ _ _ _ hlooked hstep =>
      Ocsp.answered_of_looked_up hlooked hstep⟩

/-- The question that is asked twice is answered so, though the certificate is revoked in
between. -/
theorem device_ocsp_linearizable : ∃ ca request first now body response,
    Reference.crates.ocsp_request_from_der (enc Device.asked_twice) = .ok request ∧
      Ocsp.Replies Reference.crates ca request first now body response ∧
      Spread (step False) (Ocsp.LookedUp Reference.crates "root")
        (fun u => Ocsp.Answered Reference.crates u "root") (some ()) Device.stored_db
        Device.revoked_between request.request_list response.tbs_response_data.responses
        Device.revoked_db := by
  obtain ⟨resp, hserved, hok⟩ := Device.served_between
  obtain ⟨ca, request, first, now, body, response, _, hrequest, _, _, _, hreplies, hspread⟩ :=
    ocsp_linearizable Reference.status_law Device.revoked_between_steps Device.ask_twice_resolves
      rfl hserved hok
  exact ⟨ca, request, first, now, body, response, hrequest, hreplies, hspread⟩

section Consistency

variable {ι : Type} [DecidableEq ι] {json : List String → List String → Bytes} {state : AppState}
  {faulty : Prop} {requests : ι → http.Request} {past during : List (Option ι × Event Op.Res)}
  {db : Db} {ca_id : String} {serial : SerialNumber}

/-- **What is told of a certificate is not taken back.** Whatever else the server does, a
reply that was complete before a request came in is not contradicted by the reply to that
request: revoked stays revoked, with its date where OCSP can tell the stored one, and a
certificate that was known is known. -/
theorem answers_never_go_back (hlaw : X.StatusLaw)
    (hbits : ∀ s b, X.signature_to_bitstring s = .ok b → b = s) (hx509 : X.X509Law)
    (h : Operating X json state faulty requests (past ++ during) db)
    (hothers : Administered (past ++ during)) {i j : ι}
    {call call' : http.Call} {resp resp' : Response}
    (hfirst : Completed X json state (requests i) call (events_of (some i) past) resp)
    (hsecond : Completed X json state (requests j) call' (events_of (some j) during) resp')
    {a b : Answer} (ha : Tells X ca_id serial call resp.body a)
    (hb : Tells X ca_id serial call' resp'.body b) : Succeeds X db ca_id serial a b := by
  obtain ⟨u, hleft, hduring⟩ := h.left
  have hothers' := hothers.left
  rw [← List.nil_append past] at hleft hothers'
  obtain ⟨v, _, hv, hright⟩ :=
    hleft.right hlaw hbits hx509 hothers' (.nil _) hleft.world hfirst ha
  obtain ⟨v', hv', hlast, hright'⟩ :=
    h.right hlaw hbits hx509 hothers hleft.world hduring hsecond hb
  exact succeeds_of_right hright hright' (hv.trans hv') hlast

/-- What the CRL has listed, OCSP does not take back. -/
theorem device_never_goes_back : ∃ db, ∃ (entry : RevokedCert) (single : SingleResponse),
    Succeeds Reference.crates db "root" (serial_of Device.serial_octets)
      (.listed entry.revocation_date) (.status single.cert_status) := by
  obtain ⟨past, during, db, n, listed, told, entry, single, h, hothers, _, _, hlisted, htold, ha,
    hb⟩ := Device.revoked_then_asked
  exact ⟨db, entry, single, answers_never_go_back (i := 1) (j := 2) Reference.status_law
    Reference.rsa_law.bitstring Reference.x509_law h hothers hlisted htold ha hb⟩

/-- **A revocation takes effect.** Once a revocation has met its row, every reply to a request
that comes in says so, by OCSP and in the CRL, with the instant that was given where that is a
date in the years 1970 to 9999. -/
theorem revocation_takes_effect (hlaw : X.StatusLaw)
    (hbits : ∀ s b, X.signature_to_bitstring s = .ok b → b = s) (hx509 : X.X509Law)
    (h : Operating X json state faulty requests (past ++ during) db)
    (hothers : Administered (past ++ during)) {reason : Int} {revoked_at : String} {n : Nat}
    (hrevoked : ⟨Op.db (.update_revoked ca_id (hex.encode serial.as_bytes) reason revoked_at),
      .ok n⟩ ∈ past.map Prod.snd) (hn : 0 < n) {i : ι} {call : http.Call} {resp : Response}
    (hcompleted : Completed X json state (requests i) call (events_of (some i) during) resp)
    {a : Answer} (ha : Tells X ca_id serial call resp.body a) :
    ∃ d, a.date = some d ∧ ∀ t, X.parse_rfc3339 revoked_at = some t →
      DateTime.Representable t → (d.unix_secs : Int) = t.secs := by
  obtain ⟨u, hleft, hduring⟩ := h.left
  obtain ⟨_, _, v, v', _, _, hstep, hrest⟩ := hleft.world.mem hrevoked
  obtain ⟨w, hw, hlast, hright⟩ :=
    h.right hlaw hbits hx509 hothers hleft.world hduring hcompleted ha
  have hstatus := status_of_revocation hstep hn
  have hprecedes := status_precedes (hrest.reaches.trans hw) ca_id (hex.encode serial.as_bytes)
  rw [hstatus] at hprecedes
  have hlater : repo.status w ca_id (hex.encode serial.as_bytes)
      = .Revoked (some revoked_at) (some reason) := by
    generalize repo.status w ca_id (hex.encode serial.as_bytes) = s at hprecedes
    cases hprecedes
    rfl
  obtain ⟨d, hd⟩ := hright.date_of_revoked hlater
  refine ⟨d, hd, fun t ht hrep => ?_⟩
  exact hright.date_instant hd hlater ht hrep

end Consistency

/-- The revocation of the device takes effect. -/
theorem device_revocation_takes_effect : ∃ (single : SingleResponse) (d : DateTime),
    (Answer.status single.cert_status).date = some d ∧
      ∀ t, Reference.crates.parse_rfc3339 Device.revocation_date = some t →
        DateTime.Representable t → (d.unix_secs : Int) = t.secs := by
  obtain ⟨past, during, db, n, listed, told, entry, single, h, hothers, hrevoked, hn, _, htold, _,
    hb⟩ := Device.revoked_then_asked
  exact ⟨single, revocation_takes_effect (i := 2) Reference.status_law
    Reference.rsa_law.bitstring Reference.x509_law h hothers hrevoked hn htold hb⟩

end Blapki
