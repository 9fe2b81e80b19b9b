/-
Whose certificates the OCSP responder of a CA answers about.

A CertID names a certificate by three things: the hashes of the issuer's name and
key, and the serial. The responder looks the serial up under the CA it was asked
at and leaves the hashes alone, so its answers are about certificates of that CA
exactly as far as the requests are: `ocsp_answers_own_iff`. The digests and the
encoding of a name are parameters here, since the responder uses neither.
-/
import Blapki.Agreement

set_option autoImplicit false

namespace Blapki

open Codec Effect

namespace Ocsp

variable {X : Crates} (digests : ObjectIdentifier → Option (Bytes → Bytes))
  (name_to_der : Name → Bytes)

/-! ## CertIDs -/

/-- The issuer hashes are those of this CA, under the hash algorithm of the CertID. -/
def Names (ca : CertificateAuthority) (id : CertId) : Prop :=
  ∃ digest, digests id.hash_algorithm.oid = some digest ∧
    id.issuer_name_hash = digest (name_to_der ca.cert.tbs_certificate.subject) ∧
    id.issuer_key_hash
      = digest ca.cert.tbs_certificate.subject_public_key_info.subject_public_key

/-- The serial is recorded under this CA. -/
def Recorded (db : Db) (ca_id : String) (serial : SerialNumber) : Prop :=
  ∃ r ∈ db.issued_certificate.rows, r.ca_id = ca_id ∧ r.serial = hex.encode serial.as_bytes

/-- The CertID identifies a certificate issued by this CA. -/
def Identifies (db : Db) (ca_id : String) (ca : CertificateAuthority) (id : CertId) : Prop :=
  Names digests name_to_der ca id ∧ Recorded db ca_id id.serial_number

/-- An answer about the certificate asked for, which says good or revoked of the CA's
own certificates only. -/
def AnswersOwn (db : Db) (ca_id : String) (ca : CertificateAuthority) (entry : OcspEntry)
    (single : SingleResponse) : Prop :=
  single.cert_id = entry.req_cert ∧
    (single.cert_status ≠ .Unknown → Identifies digests name_to_der db ca_id ca entry.req_cert)

/-! ## What an answer depends on -/

/-- A serial is known exactly when it is recorded. -/
theorem known_iff_recorded {db : Db} {ca_id : String} {serial : SerialNumber} {c : CertStatus}
    (h : Says X (repo.status db ca_id (hex.encode serial.as_bytes)) c) :
    c ≠ .Unknown ↔ Recorded db ca_id serial := by
  by_cases hrec : Recorded db ca_id serial
  · refine iff_of_true ?_ hrec
    obtain ⟨r, hr, hca, hserial⟩ := hrec
    rw [repo.status_of_mem hr hca hserial] at h
    intro hno
    rw [hno] at h
    by_cases hrev : r.status = STATUS_REVOKED
    · rw [if_pos hrev] at h
      cases h
    · rw [if_neg hrev] at h
      cases h
  · refine iff_of_false ?_ hrec
    rw [repo.status_of_not_mem fun r hr hkey => hrec ⟨r, hr, hkey.1, hkey.2⟩] at h
    cases h
    exact not_not.mpr rfl

/-- One answer is about an own certificate unless it is about a recorded serial under
other hashes. -/
theorem answers_own_iff {db : Db} {ca_id : String} {ca : CertificateAuthority} {entry : OcspEntry}
    {single : SingleResponse} (h : Answered X db ca_id entry single) :
    AnswersOwn digests name_to_der db ca_id ca entry single ↔
      (Recorded db ca_id entry.req_cert.serial_number →
        Names digests name_to_der ca entry.req_cert) := by
  have hknown := known_iff_recorded h.2
  rw [AnswersOwn, hknown]
  constructor
  · intro hown hrec
    exact (hown.2 hrec).1
  · intro hnames
    exact ⟨h.1, fun hrec => ⟨hnames hrec, hrec⟩⟩

/-- A list of answers, entry for entry. -/
theorem all_answers_own_iff {db : Db} {ca_id : String} {ca : CertificateAuthority}
    {entries : List OcspEntry} {singles : List SingleResponse}
    (h : List.Forall₂ (Answered X db ca_id) entries singles) :
    List.Forall₂ (AnswersOwn digests name_to_der db ca_id ca) entries singles ↔
      ∀ entry ∈ entries, Recorded db ca_id entry.req_cert.serial_number →
        Names digests name_to_der ca entry.req_cert := by
  induction h with
  | nil => exact iff_of_true .nil fun entry hentry => absurd hentry List.not_mem_nil
  | cons hanswered _ ih =>
      rw [List.forall₂_cons, List.forall_mem_cons, answers_own_iff digests name_to_der hanswered, ih]

/-- **The responder answers about certificates of its own CA exactly when it is asked
about no other.** In every state of the database, whatever fails: a response
that is returned says good or revoked of certificates of the CA only if and only
if every entry with a recorded serial has the hashes of the CA. -/
theorem ocsp_answers_own_iff (hlaw : X.StatusLaw) {state : AppState} {ca_id : String}
    {ca : CertificateAuthority} (hca : state.cas.lookup ca_id = some ca) {req_der der : Bytes}
    {request : OcspRequest} (hreq : X.ocsp_request_from_der req_der = .ok request) {tr : Trace}
    {faulty : Prop} {db db' : Db} (hrun : Returns (build_response X state ca_id req_der) tr (.ok der))
    (hworld : Steps (step faulty) db tr db') :
    ∃ response, X.ocsp_response_from_der der = .ok response ∧
      (List.Forall₂ (AnswersOwn digests name_to_der db ca_id ca) request.request_list
          response.tbs_response_data.responses ↔
        ∀ entry ∈ request.request_list, Recorded db ca_id entry.req_cert.serial_number →
          Names digests name_to_der ca entry.req_cert) := by
  obtain ⟨response, hresponse, hall⟩ := build_response_answers hlaw hca hreq hrun hworld
  exact ⟨response, hresponse, all_answers_own_iff digests name_to_der hall⟩

end Ocsp

/-! ## A certificate of another CA -/

namespace Device

/-- The digests of the reference crates. -/
def digests (oid : ObjectIdentifier) : Option (Bytes → Bytes) :=
  if oid = oids.ID_SHA1 then some (Reference.digest 20)
  else if oid = oids.ID_SHA256 then some (Reference.digest 32)
  else none

/-- A CertID of this CA names it. -/
theorem names_cert_id (serial : SerialNumber) :
    Ocsp.Names digests enc ca (cert_id ca_cert.tbs_certificate.subject serial) :=
  ⟨_, rfl, rfl, rfl⟩

/-- A CertID under the hashes of another name and key. -/
def foreign_cert_id : CertId where
  hash_algorithm := ⟨oids.ID_SHA1, none⟩
  issuer_name_hash := List.replicate 20 0xaa
  issuer_key_hash := List.replicate 20 0xbb
  serial_number := serial_of serial_octets

theorem not_names_foreign : ¬ Ocsp.Names digests enc ca foreign_cert_id := by
  rintro ⟨digest, hdigest, hname, _⟩
  obtain rfl : Reference.digest 20 = digest := Option.some.inj hdigest
  exact absurd hname (by decide)

theorem stored_steps :
    Steps (step False) Db.empty [⟨Op.db (.insert_issued stored), .ok ()⟩] stored_db :=
  .cons (.inl rfl) (.nil _)

/-- The question about the certificate of the other CA. -/
def foreign_request : OcspRequest := ⟨[⟨foreign_cert_id⟩], none⟩

/-- A question on the stored database is answered. -/
theorem answered {request : OcspRequest} (hrequest : request.Readable) : ∃ tr der db',
    Returns (Ocsp.build_response Reference.crates server "root" (enc request)) tr (.ok der) ∧
      Steps (step False) stored_db tr db' := by
  obtain ⟨tr, r, db', hrun, hworld, _⟩ :=
    exists_run (Ocsp.build_response Reference.crates server "root" (enc request)) now stored_db
  obtain ⟨_, der, _, rfl, _⟩ := Ocsp.build_response_world Reference.status_law
    (lookup_singleton.mpr ⟨rfl, rfl⟩) (Reference.signs_status _)
    (Reference.ocsp_request_decoded hrequest) hrun hworld
  exact ⟨tr, der, db', hrun, hworld⟩

end Device

namespace Ocsp

/-- The question about the device is answered about it, and the one about another
serial is about nobody. -/
theorem device_answered_own : ∃ response, List.Forall₂
    (AnswersOwn Device.digests enc Device.stored_db "root" Device.ca)
    Device.ocsp_request.request_list response := by
  obtain ⟨tr, der, db', hrun, hworld⟩ :=
    @Device.answered Device.ocsp_request (by decide)
  obtain ⟨response, _, hiff⟩ := ocsp_answers_own_iff Device.digests enc Reference.status_law
    (Device.lookup_singleton.mpr ⟨rfl, rfl⟩) (Reference.ocsp_request_decoded (by decide))
    hrun hworld
  refine ⟨_, hiff.mpr fun entry hentry _ => ?_⟩
  rcases List.mem_cons.mp hentry with rfl | hentry
  · exact Device.names_cert_id _
  · rw [List.mem_singleton.mp hentry]
    exact Device.names_cert_id _

/-- **A certificate of another CA is answered good** when its serial is recorded
here. -/
theorem foreign_certificate_good : ∃ history tr der db' response single,
    Steps (step False) Db.empty history Device.stored_db ∧
    Returns (build_response Reference.crates Device.server "root" (enc Device.foreign_request)) tr
      (.ok der) ∧
    Steps (step False) Device.stored_db tr db' ∧
    Reference.crates.ocsp_response_from_der der = .ok response ∧
    response.tbs_response_data.responses = [single] ∧ single.cert_id = Device.foreign_cert_id ∧
    single.cert_status = .Good ∧ ¬ Names Device.digests enc Device.ca single.cert_id := by
  obtain ⟨tr, der, db', hrun, hworld⟩ :=
    @Device.answered Device.foreign_request (by decide)
  obtain ⟨response, hresponse, hall⟩ := build_response_answers Reference.status_law
    (Device.lookup_singleton.mpr ⟨rfl, rfl⟩) (Reference.ocsp_request_decoded (by decide))
    hrun hworld
  obtain ⟨single, singles, ⟨hid, hsays⟩, hnil, hlist⟩ := List.forall₂_cons_left_iff.mp hall
  rw [List.forall₂_nil_left_iff.mp hnil] at hlist
  have hgood : repo.status Device.stored_db "root" (hex.encode
      (serial_of Device.serial_octets).as_bytes) = .Good := by decide
  have hstatus : single.cert_status = .Good := by
    change Says Reference.crates (repo.status Device.stored_db "root" (hex.encode
      (serial_of Device.serial_octets).as_bytes)) single.cert_status at hsays
    rw [hgood] at hsays
    cases hc : single.cert_status with
    | Good => rfl
    | Revoked info =>
        rw [hc] at hsays
        cases hsays
    | Unknown =>
        rw [hc] at hsays
        cases hsays
  have hid' : single.cert_id = Device.foreign_cert_id := hid
  refine ⟨_, tr, der, db', response, single, Device.stored_steps, hrun, hworld, hresponse, hlist,
    hid', hstatus, ?_⟩
  rw [hid']
  exact Device.not_names_foreign

end Ocsp

end Blapki
