/-
What one bad row does to the CRL (`http/crl.rs`, `build_crl`).

A row goes through the hex decoder, the serial, the RFC 3339 parser and the conversion of
the date. The first two skip it where they fail, the third falls back on the time of the
CRL, and the last one ends the loop. An empty text passes the first two, as a serial of no
octets, and no reader takes the list that it is written to. `crl_published_iff` says for which
rows there is a CRL that lists every serial that decodes.
-/
import Blapki.Agreement

set_option autoImplicit false

namespace Blapki

open Codec Effect

namespace Crl

variable {X : Crates} {now : SystemTime}

/-- The serial of a row, where its text is one. -/
def decode_serial (serial : String) : Option SerialNumber :=
  (hex.decode serial).bind fun bytes => (SerialNumber.new bytes).toOption

/-- A row with a serial has a date that can be represented, where it parses. -/
def Datable (X : Crates) (row : RevokedEntry) : Prop :=
  (decode_serial row.serial).isSome = true → ∀ t, stored_instant X row.revoked_at = some t →
    DateTime.Representable t

/-- What the list needs of a row: a serial that is not empty, and such a date. -/
def Publishable (X : Crates) (row : RevokedEntry) : Prop := row.serial ≠ "" ∧ Datable X row

/-! ## One row -/

/-- A serial that decodes is read back, but for that of the empty text. -/
theorem readable_of_decode {text : String} {serial : SerialNumber}
    (h : decode_serial text = some serial) : serial.Readable ↔ text ≠ "" := by
  obtain ⟨bytes, hbytes, hnew⟩ := Option.bind_eq_some_iff.mp h
  have hserial : SerialNumber.new bytes = .ok serial := by
    cases hx : SerialNumber.new bytes with
    | ok s =>
        rw [hx] at hnew
        rw [Option.some.inj hnew]
    | error e =>
        rw [hx] at hnew
        cases hnew
  rw [SerialNumber.new_readable hserial, not_iff_not, ← hex.decode_eq_nil, hbytes,
    Option.some.injEq]

/-- The empty text decodes. -/
theorem decode_serial_empty : decode_serial "" = some ⟨[]⟩ := rfl

theorem exists_to_time {t : SystemTime} : (∃ time, to_time t = .ok time) ↔
    DateTime.Representable t := by
  constructor
  · rintro ⟨time, h⟩
    obtain ⟨d, hd, _⟩ := to_time_eq_ok.mp h
    exact (DateTime.from_system_time_eq_ok.mp hd).1
  · intro h
    obtain ⟨time, htime, _⟩ := to_time_representable h
    exact ⟨time, htime⟩

/-- A date that parses is converted, one that does not is replaced. -/
theorem exists_revocation_date {revoked_at : Option String} (hnow : DateTime.Representable now) :
    (∃ date, revocation_date X revoked_at now = .ok date) ↔
      ∀ t, stored_instant X revoked_at = some t → DateTime.Representable t := by
  obtain ⟨fallback, hfallback⟩ := exists_to_time.mpr hnow
  rw [revocation_date, hfallback]
  cases hstored : stored_instant X revoked_at with
  | none => exact ⟨fun _ t ht => (by cases ht), fun _ => ⟨fallback, rfl⟩⟩
  | some t =>
      rw [Option.mapM_some]
      constructor
      · rintro ⟨date, hdate⟩ t' ht'
        obtain rfl := Option.some.inj ht'
        cases htime : to_time t with
        | ok time => exact exists_to_time.mp ⟨time, htime⟩
        | error e =>
            rw [htime] at hdate
            cases hdate
      · intro hall
        obtain ⟨time, htime⟩ := exists_to_time.mpr (hall t rfl)
        refine ⟨time, ?_⟩
        rw [htime]
        rfl

/-- A row is listed under its serial, or skipped when it has none. -/
theorem revoked_cert_eq (row : RevokedEntry) : revoked_cert X row now =
    match decode_serial row.serial with
    | none => pure none
    | some serial_number => (revocation_date X row.revoked_at now).map fun date =>
        some ⟨serial_number, date⟩ := by
  rw [revoked_cert, decode_serial]
  cases hex.decode row.serial with
  | none => rfl
  | some bytes =>
      cases hnew : SerialNumber.new bytes with
      | ok serial_number =>
          simp only [Option.bind_some, hnew]
          rfl
      | error e =>
          simp only [Option.bind_some, hnew]
          rfl

/-- The loop goes on after a row exactly when its date, if it has a serial, is usable. -/
theorem exists_revoked_cert {row : RevokedEntry} (hnow : DateTime.Representable now) :
    (∃ entry, revoked_cert X row now = .ok entry) ↔ Datable X row := by
  rw [revoked_cert_eq, Datable]
  cases hserial : decode_serial row.serial with
  | none => exact ⟨fun _ hno => (by cases hno), fun _ => ⟨none, rfl⟩⟩
  | some serial_number =>
      rw [Option.isSome_some, ← exists_revocation_date hnow]
      constructor
      · rintro ⟨entry, hentry⟩ _
        obtain ⟨date, hdate, _⟩ := map_eq_ok.mp hentry
        exact ⟨date, hdate⟩
      · intro h
        obtain ⟨date, hdate⟩ := h rfl
        exact ⟨some ⟨serial_number, date⟩, map_eq_ok.mpr ⟨date, hdate, rfl⟩⟩

/-- The entry of a row has its serial. -/
theorem serial_of_entry {row : RevokedEntry} {entry : Option RevokedCert}
    (h : revoked_cert X row now = .ok entry) :
    entry.map RevokedCert.serial_number = decode_serial row.serial := by
  rw [revoked_cert_eq] at h
  cases hserial : decode_serial row.serial with
  | none =>
      rw [hserial] at h
      obtain rfl := Except.ok.inj h
      rfl
  | some serial_number =>
      rw [hserial] at h
      obtain ⟨date, _, rfl⟩ := map_eq_ok.mp h
      rfl

/-! ## All rows -/

/-- The loop comes to its end exactly when every row lets it. -/
theorem exists_revoked_certificates {rows : List RevokedEntry} (hnow : DateTime.Representable now) :
    (∃ entries, revoked_certificates X now rows = .ok entries) ↔ ∀ row ∈ rows, Datable X row := by
  induction rows with
  | nil => exact ⟨fun _ row hrow => absurd hrow List.not_mem_nil, fun _ => ⟨[], rfl⟩⟩
  | cons row rows ih =>
      rw [List.forall_mem_cons, ← ih, ← exists_revoked_cert hnow, revoked_certificates]
      constructor
      · rintro ⟨entries, h⟩
        obtain ⟨entry, hentry, h₁⟩ := bind_eq_ok.mp h
        obtain ⟨rest, hrest, _⟩ := bind_eq_ok.mp h₁
        exact ⟨⟨entry, hentry⟩, rest, hrest⟩
      · rintro ⟨⟨entry, hentry⟩, rest, hrest⟩
        exact ⟨_, bind_eq_ok.mpr ⟨entry, hentry, bind_eq_ok.mpr ⟨rest, hrest, rfl⟩⟩⟩

/-- The entries of a CRL are the serials that decode, in the order of the rows. -/
theorem serials_of_entries {rows : List RevokedEntry} {entries : List RevokedCert}
    (h : revoked_certificates X now rows = .ok entries) :
    entries.map RevokedCert.serial_number = rows.filterMap fun row => decode_serial row.serial := by
  induction rows generalizing entries with
  | nil =>
      obtain rfl := Except.ok.inj h
      rfl
  | cons row rows ih =>
      rw [revoked_certificates] at h
      obtain ⟨entry, hentry, h₁⟩ := bind_eq_ok.mp h
      obtain ⟨rest, hrest, hentries⟩ := bind_eq_ok.mp h₁
      obtain rfl := Except.ok.inj hentries
      have hserial := serial_of_entry hentry
      rw [List.map_append, ih hrest, List.filterMap_cons, ← hserial]
      cases entry with
      | none => rfl
      | some entry => rfl

/-- The entries read back exactly when no text among the rows is empty. -/
theorem readable_of_entries {rows : List RevokedEntry} {entries : List RevokedCert}
    (h : revoked_certificates X now rows = .ok entries) :
    (∀ entry ∈ entries, entry.serial_number.Readable) ↔ ∀ row ∈ rows, row.serial ≠ "" := by
  have hserials := serials_of_entries h
  constructor
  · intro hread row hrow hempty
    have hmem : (⟨[]⟩ : SerialNumber) ∈ entries.map RevokedCert.serial_number := by
      rw [hserials]
      exact List.mem_filterMap.mpr ⟨row, hrow, by rw [hempty]; exact decode_serial_empty⟩
    obtain ⟨entry, hentry, heq⟩ := List.mem_map.mp hmem
    have hno := hread entry hentry
    rw [heq] at hno
    exact hno.1
  · intro hrows entry hentry
    have hmem : entry.serial_number ∈ rows.filterMap fun row => decode_serial row.serial := by
      rw [← hserials]
      exact List.mem_map_of_mem hentry
    obtain ⟨row, hrow, hdecode⟩ := List.mem_filterMap.mp hmem
    exact (readable_of_decode hdecode).mpr (hrows row hrow)

/-! ## The list -/

/-- The revoked rows of a CA. -/
def revoked_rows (ca_id : String) (db : Db) : List RevokedEntry :=
  (db.issued_certificate.select fun row =>
    row.ca_id = ca_id ∧ row.status = STATUS_REVOKED).map fun row =>
      ⟨row.serial, row.revoked_at, row.revocation_reason⟩

/-- From the rows on, there is a CRL exactly when every row lets the loop go on and the
time of the next CRL can be represented. -/
theorem exists_crl_at_iff {ca : CertificateAuthority} {rows : List RevokedEntry}
    (hsigns : X.SignsStatus (CaSigningKey.new ca.private_key)) (hnow : DateTime.Representable now) :
    (∃ der, crl_at X ca rows now = .ok der) ↔
      (∀ row ∈ rows, Datable X row) ∧
        DateTime.Representable (now.add_secs CRL_LIFETIME_SECS) := by
  constructor
  · rintro ⟨der, h⟩
    have hnext := crl_at_next_update h
    rw [crl_at] at h
    obtain ⟨entries, hentries, _⟩ := bind_eq_ok.mp h
    exact ⟨(exists_revoked_certificates hnow).mp ⟨entries, hentries⟩, hnext⟩
  · rintro ⟨hrows, hnext⟩
    obtain ⟨entries, hentries⟩ := (exists_revoked_certificates hnow).mpr hrows
    obtain ⟨this_update, hthis⟩ := exists_to_time.mpr hnow
    obtain ⟨next_update, hnext'⟩ := exists_to_time.mpr hnext
    exact exists_crl_at hsigns hentries hthis hnext'

/-- **When a CRL is published.** At a time that can be represented, the revoked rows of a
CA have a CRL that is read and lists every serial among them that decodes, and nothing else,
exactly when none of them has an empty serial, the dates of those rows can be represented where
they parse, and the time of the next CRL can. -/
theorem crl_published_iff (hlaw : X.StatusLaw)
    (hbits : ∀ s b, X.signature_to_bitstring s = .ok b → b = s) {state : AppState} {ca_id : String}
    {ca : CertificateAuthority} (hca : state.cas.lookup ca_id = some ca)
    (hsigns : X.SignsStatus (CaSigningKey.new ca.private_key)) {tr : Trace} {r : AppResult Bytes}
    {db db' : Db} (hrun : Returns (build_crl X state ca_id) tr r)
    (hworld : Steps (step False) db tr db') (hclock : ∀ t, ⟨Op.now, t⟩ ∈ tr → t = now)
    (hnow : DateTime.Representable now) :
    (∃ der crl, r = .ok der ∧ X.certificate_list_from_der der = .ok crl ∧
      crl.entries.map RevokedCert.serial_number
        = (revoked_rows ca_id db).filterMap fun row => decode_serial row.serial) ↔
    (∀ row ∈ revoked_rows ca_id db, Publishable X row) ∧
      DateTime.Representable (now.add_secs CRL_LIFETIME_SECS) := by
  obtain ⟨t, hmem, _, hr⟩ := build_crl_returns hca hrun hworld
  obtain rfl := hclock t hmem
  change r = crl_at X ca (revoked_rows ca_id db) t at hr
  have hbuilt := @exists_crl_at_iff X t ca (revoked_rows ca_id db) hsigns hnow
  constructor
  · rintro ⟨der, crl, hder, hread, _⟩
    have hcrl := hr.symm.trans hder
    obtain ⟨hrows, hnext⟩ := hbuilt.mp ⟨der, hcrl⟩
    obtain ⟨crl', hencodes, hentries, _⟩ := crl_at_eq_ok hlaw hbits hcrl
    -- what was read is what was built, and no reader takes a serial of no octets
    obtain rfl := hencodes.read_eq hlaw hread
    have hserials := (readable_of_entries hentries).mp (hlaw.list_readable _ _ _ hencodes.written hread)
    exact ⟨fun row hrow => ⟨hserials row hrow, hrows row hrow⟩, hnext⟩
  · rintro ⟨hrows, hnext⟩
    obtain ⟨der, hder⟩ := hbuilt.mpr ⟨fun row hrow => (hrows row hrow).2, hnext⟩
    obtain ⟨crl, hencodes, hentries, _⟩ := crl_at_eq_ok hlaw hbits hder
    have hreadable := (readable_of_entries hentries).mpr fun row hrow => (hrows row hrow).1
    exact ⟨der, crl, hr.trans hder, hencodes.read hreadable, serials_of_entries hentries⟩

end Crl

/-! ## Two dates -/

namespace Device

/-- The database with the row revoked at this date. -/
def revoked_at (date : String) : Db :=
  (stored_db.exec (.update_revoked "root" stored.serial 1 date)).2

/-- The row that is listed. -/
def revoked_entry (date : String) : RevokedEntry := ⟨stored.serial, some date, some 1⟩

theorem revoked_rows_at (date : String) :
    Crl.revoked_rows "root" (revoked_at date) = [revoked_entry date] := rfl

end Device

namespace Crl

/-- A date that does not parse does not keep the row off the list. -/
theorem device_crl_published : ∃ crl : CertificateList,
    crl.entries.map RevokedCert.serial_number = [serial_of Device.serial_octets] := by
  obtain ⟨tr, r, db, hrun, hworld, hclock⟩ := exists_run (build_crl Reference.crates Device.server
    "root") Device.now (Device.revoked_at "yesterday")
  have hdate : ∀ row ∈ revoked_rows "root" (Device.revoked_at "yesterday"),
      Publishable Reference.crates row := by
    rw [Device.revoked_rows_at, List.forall_mem_singleton]
    refine ⟨by decide +kernel, fun _ t ht => ?_⟩
    have hno : stored_instant Reference.crates (some "yesterday") = none := by decide
    cases hno.symm.trans ht
  obtain ⟨_, crl, _, _, hentries⟩ := (crl_published_iff Reference.status_law
    Reference.rsa_law.bitstring (Device.lookup_singleton.mpr ⟨rfl, rfl⟩)
    (Reference.signs_status _) hrun hworld hclock (by decide)).mpr ⟨hdate, by decide⟩
  refine ⟨crl, hentries.trans ?_⟩
  rw [Device.revoked_rows_at]
  decide +kernel

/-- A date before 1970 does, and keeps off every other row with it. -/
theorem device_crl_refused :
    ¬ ∀ db tr r db', Returns (build_crl Reference.crates Device.server "root") tr r →
      Steps (step False) db tr db' → (∀ t, ⟨Op.now, t⟩ ∈ tr → t = Device.now) →
      ∃ der, r = .ok der := by
  intro hclaim
  obtain ⟨tr, r, db, hrun, hworld, hclock⟩ := exists_run (build_crl Reference.crates Device.server
    "root") Device.now (Device.revoked_at "1969-07-20T20:17:40Z")
  obtain ⟨der, hder⟩ := hclaim _ tr r db hrun hworld hclock
  obtain ⟨t, hmem, _, hr⟩ := build_crl_returns (Device.lookup_singleton.mpr ⟨rfl, rfl⟩) hrun hworld
  obtain rfl := hclock t hmem
  have hrows := ((exists_crl_at_iff
    (Reference.signs_status _) (by decide)).mp ⟨der, hr.symm.trans hder⟩).1
  have hepoch := hrows _ (List.mem_singleton_self _) (by decide +kernel) ⟨-14182940000000000⟩
    (by decide)
  exact absurd hepoch (by decide)

end Crl

end Blapki
