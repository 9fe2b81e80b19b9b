/-
Requests that are captured and sent again (`http/scep.rs`, `pki_operation`).

The handler keeps nothing of a message but its row in the transaction table, which it
does not read before it issues, and of its nonce nothing. Whoever sends a message again
is served again. `one_certificate_per_submission` says what does hold of any traffic:
no more certificates come of a message than times it was sent.
-/
import Blapki.Interleaving
import Blapki.Enrolment
import Mathlib.Data.Set.Card

set_option autoImplicit false

namespace Blapki

open Codec Effect repo

namespace Scep

variable {X : Crates} {ι : Type}

/-- A message somebody sends to a profile. -/
structure Submission where
  profile : String
  body : Bytes

/-- What two submissions, or anything else that goes on, leave in the log, in the order in
which it happened. The tag `none` is for what is no submission. -/
abbrev Log (ι : Type) := List (Option ι × Event Op.Res)

/-- The row was inserted while this submission was handled. -/
def Inserted (w : Log ι) (i : ι) (row : IssuedCertificate) : Prop :=
  (some i, ⟨Op.db (.insert_issued row.as_inserted), .ok ()⟩) ∈ w

/-- The row is the one of the certificate this run of the handler issued. -/
def Stems (X : Crates) (state : AppState) (s : Submission) (tr : Trace)
    (row : IssuedCertificate) : Prop :=
  ∃ rt ca parsed enveloped parsed_csr issued issued_der created_at,
    Issuance X state s.profile s.body rt ca parsed enveloped parsed_csr issued tr ∧
    X.certificate_to_der issued = .ok issued_der ∧
    row.as_inserted = issued_row X rt ca parsed issued issued_der created_at

section Traffic

variable [DecidableEq ι]

/-- Submissions handled at once, each as far as it has come, among other traffic that
inserts no certificate. Nothing is assumed of the messages: two may be the same. -/
structure Traffic (X : Crates) (state : AppState) (faulty : Prop) (submissions : ι → Submission)
    (w : Log ι) (db : Db) : Prop where
  world : Steps (step faulty) Db.empty (w.map Prod.snd) db
  handled : ∀ i, ∃ tr r,
    Returns (pki_operation X state (submissions i).profile (submissions i).body) tr r ∧
      events_of (some i) w <+: tr
  others : ∀ row x, (none, ⟨Op.db (.insert_issued row), x⟩) ∉ w

variable {state : AppState} {faulty : Prop} {submissions : ι → Submission} {w : Log ι} {db : Db}

/-- Every row came of a submission. -/
theorem Traffic.inserted (h : Traffic X state faulty submissions w db) {row : IssuedCertificate}
    (hrow : row ∈ db.issued_certificate.rows) : ∃ i, Inserted w i row := by
  obtain ⟨cert, hmem, hsame⟩ := rows_inserted h.world row hrow
  obtain ⟨⟨tag, e⟩, htag, rfl⟩ := List.mem_map.mp hmem
  cases tag with
  | none => exact absurd htag (h.others _ _)
  | some i =>
      obtain ⟨tr, r, hrun, hbegins⟩ := h.handled i
      have hfresh := enrolments_of_run hrun cert _ (hbegins.subset (mem_events_of.mpr htag))
      refine ⟨i, ?_⟩
      rw [Inserted, hsame, as_inserted_of_fresh hfresh]
      exact htag

/-- A submission inserts one row. -/
theorem Traffic.inserted_by (h : Traffic X state faulty submissions w db) {i : ι}
    {row row' : IssuedCertificate} (hrow : row ∈ db.issued_certificate.rows)
    (hrow' : row' ∈ db.issued_certificate.rows) (hi : Inserted w i row)
    (hi' : Inserted w i row') : row = row' := by
  obtain ⟨tr, r, hrun, hbegins⟩ := h.handled i
  have hsame : row.as_inserted = row'.as_inserted :=
    submits_unique hrun (hbegins.subset (mem_events_of.mpr hi)) ⟨_, rfl⟩
      (hbegins.subset (mem_events_of.mpr hi')) ⟨_, rfl⟩
  have hserial : row.as_inserted.serial = row'.as_inserted.serial := by rw [hsame]
  exact db.issued_certificate.eq_of_key hrow hrow' hserial

/-- A row is inserted by one submission. -/
theorem Traffic.inserted_once (h : Traffic X state faulty submissions w db) {i j : ι}
    {row : IssuedCertificate} (hi : Inserted w i row) (hj : Inserted w j row) : i = j := by
  by_contra hne
  obtain ⟨a, b, hw⟩ := List.append_of_mem hj
  have hworld := h.world
  rw [hw, List.map_append, List.map_cons] at hworld
  have hagain : ⟨Op.db (.insert_issued row.as_inserted), .ok ()⟩ ∉
      a.map Prod.snd ++ b.map Prod.snd := lifecycle_once hworld rfl rfl
  rw [← List.map_append] at hagain
  refine hagain (List.mem_map.mpr ⟨(some i, _), ?_, rfl⟩)
  rw [Inserted, hw] at hi
  rcases List.mem_append.mp hi with hi | hi
  · exact List.mem_append_left _ hi
  · rcases List.mem_cons.mp hi with hi | hi
    · exact absurd (Option.some.inj (congrArg Prod.fst hi)) hne
    · exact List.mem_append_right _ hi

/-- The row is the one of the certificate its submission was issued. -/
theorem Traffic.stems (h : Traffic X state faulty submissions w db) {i : ι}
    {row : IssuedCertificate} (hi : Inserted w i row) :
    ∃ tr r, Returns (pki_operation X state (submissions i).profile (submissions i).body) tr r ∧
      events_of (some i) w <+: tr ∧ Stems X state (submissions i) tr row := by
  obtain ⟨tr, r, hrun, hbegins⟩ := h.handled i
  exact ⟨tr, r, hrun, hbegins,
    issuance_of_submits hrun (hbegins.subset (mem_events_of.mpr hi)) ⟨_, rfl⟩⟩

/-- **A certificate per submission.** Of whatever is sent, and sent again, each row of the
table comes of one submission, different rows of different ones, and is the row of the
certificate that submission was issued. So there are no more rows of a message than
submissions of it. -/
theorem one_certificate_per_submission (h : Traffic X state faulty submissions w db) :
    ∃ origin : Fin db.issued_certificate.rows.length → ι, Function.Injective origin ∧
      (∀ k, (∀ i, Inserted w i (db.issued_certificate.rows.get k) ↔ i = origin k) ∧
        ∃ tr r, Returns (pki_operation X state (submissions (origin k)).profile
            (submissions (origin k)).body) tr r ∧
          events_of (some (origin k)) w <+: tr ∧
          Stems X state (submissions (origin k)) tr (db.issued_certificate.rows.get k)) ∧
      ∀ body, {k | (submissions (origin k)).body = body}.encard
        ≤ {i | (submissions i).body = body}.encard := by
  have hmem := fun k => List.get_mem db.issued_certificate.rows k
  choose origin horigin using fun k => h.inserted (hmem k)
  have hinjective : Function.Injective origin := by
    intro k k' hk
    have hk' := horigin k'
    rw [← hk] at hk'
    exact (List.Nodup.get_inj_iff db.issued_certificate.unique.of_map).mp
      (h.inserted_by (hmem k) (hmem k') (horigin k) hk')
  refine ⟨origin, hinjective, fun k => ⟨fun i => ⟨fun hi => h.inserted_once hi (horigin k), ?_⟩,
    h.stems (horigin k)⟩, fun body => ?_⟩
  · rintro rfl
    exact horigin k
  · exact Set.encard_le_encard_of_injOn (f := origin) (fun k hk => hk) hinjective.injOn

end Traffic

/-! ## A message sent twice -/

/-- Octets of another serial. -/
private def other_octets : { b : Bytes // b.length = 16 } := ⟨List.replicate 16 2, rfl⟩

/-- Sent again, the request of the device is served again. -/
private theorem device_served_again {issued : Certificate} {db : Db}
    (hrows : db.issued_certificate.rows = [Device.row Device.transaction_id issued])
    (hleaf : Device.ca.leaf Reference.crates (Device.csr "s3cret")
      (issue_options Device.server Device.profile) (serial_of Device.serial_octets) Device.now
        = .ok issued) :
    ∃ tr r db' row, Returns (pki_operation Reference.crates Device.server "device"
        Device.pkcs_req) tr r ∧ Steps (step False) db tr db' ∧
      ⟨Op.db (.insert_issued row), .ok ()⟩ ∈ tr ∧ row.as_inserted = row ∧
      Device.row Device.transaction_id issued ≠ row ∧
      db'.issued_certificate.rows = [Device.row Device.transaction_id issued, row] := by
  obtain ⟨again, hagain⟩ : ∃ again, Device.ca.leaf Reference.crates (Device.csr "s3cret")
      (issue_options Device.server Device.profile) (serial_of other_octets) Device.now
        = .ok again := exists_ok_of_toBool (by decide +kernel)
  have hserial : ∀ {octets : { b : Bytes // b.length = 16 }} {cert : Certificate},
      Device.ca.leaf Reference.crates (Device.csr "s3cret")
        (issue_options Device.server Device.profile) (serial_of octets) Device.now = .ok cert →
      serial_hex cert = hex.encode (clear_top_bit octets.val) := by
    intro octets cert h
    rw [serial_hex, (CertificateAuthority.leaf_issued_from Reference.x509_law h).serial_number,
      serial_of_as_bytes]
  have hother : serial_hex again ≠ serial_hex issued := by
    rw [hserial hagain, hserial hleaf]
    decide
  obtain ⟨t, persisted, db', hpersist, hworld, _⟩ := exists_run (persist Reference.crates
    Device.profile Device.ca (Device.request Device.transaction_id (enc (Device.csr "s3cret"))) again
      (enc again)) Device.now db
  obtain ⟨created_at, hmem, hrows'⟩ := persist_stores hpersist hworld (by
    rw [hrows]
    exact fun hno => hother (List.mem_singleton.mp hno))
  obtain ⟨_, der, _, hrun, hsteps⟩ := Device.enrols Device.read_txn (by decide) hagain hpersist
    hworld
  refine ⟨_, _, db', _, hrun, hsteps, ?_, rfl, fun hno => ?_, by rw [hrows', hrows]; rfl⟩
  · simp only [List.mem_cons, List.mem_append, hmem, true_or, or_true]
  · exact hother (congrArg IssuedCertificate.serial hno).symm

/-- The request of the device, sent twice, and the two rows it leaves. -/
private theorem sent_twice : ∃ (w : Log Bool) (db : Db) (row row' : IssuedCertificate),
    Traffic Reference.crates Device.server False (fun _ => ⟨"device", Device.pkcs_req⟩) w db ∧
      db.issued_certificate.rows = [row, row'] ∧ row ≠ row' ∧ Inserted w false row ∧
      Inserted w true row' := by
  obtain ⟨issued, tr, der, db, hleaf, hrun, hworld, _, hmem, hrows⟩ := Device.enrolled
  obtain ⟨tr', r', db', row, hrun', hworld', hmem', hfresh, hne, hrows'⟩ :=
    device_served_again hrows hleaf
  refine ⟨tr.map (Prod.mk (some false)) ++ tr'.map (Prod.mk (some true)), db', _, row,
    ⟨?_, ?_, fun cert x hno => ?_⟩, hrows', hne, ?_, ?_⟩
  · rw [List.map_append, List.map_map, List.map_map]
    exact steps_append.mpr ⟨db, (List.map_id tr).symm ▸ hworld, (List.map_id tr').symm ▸ hworld'⟩
  · intro i
    rw [events_of_append]
    cases i with
    | false =>
        refine ⟨tr, _, hrun, ?_⟩
        rw [events_of_tagged, events_of_tagged_other (by decide), List.append_nil]
    | true =>
        refine ⟨tr', _, hrun', ?_⟩
        rw [events_of_tagged, events_of_tagged_other (by decide), List.nil_append]
  · rcases List.mem_append.mp hno with hno | hno
    · obtain ⟨_, _, hno⟩ := List.mem_map.mp hno
      cases hno
    · obtain ⟨_, _, hno⟩ := List.mem_map.mp hno
      cases hno
  · exact List.mem_append_left _ (List.mem_map_of_mem hmem)
  · rw [Inserted, hfresh]
    exact List.mem_append_right _ (List.mem_map_of_mem hmem')

/-- Both submissions of the device's request are served, each with a certificate of its own. -/
theorem device_served_twice :
    ∃ (w : Log Bool) (db : Db) (origin : Fin db.issued_certificate.rows.length → Bool),
      Traffic Reference.crates Device.server False (fun _ => ⟨"device", Device.pkcs_req⟩) w db ∧
        db.issued_certificate.rows.length = 2 ∧ Function.Injective origin ∧
        ∀ k, Inserted w (origin k) (db.issued_certificate.rows.get k) := by
  obtain ⟨w, db, row, row', htraffic, hrows, _⟩ := sent_twice
  obtain ⟨origin, hinjective, horigin, _⟩ := one_certificate_per_submission htraffic
  exact ⟨w, db, origin, htraffic, congrArg List.length hrows, hinjective,
    fun k => ((horigin k).1 (origin k)).mpr rfl⟩

/-- The device's one message, sent twice, has two certificates. -/
theorem device_replayed :
    ¬ ∀ (submissions : Bool → Submission) (w : Log Bool) (db : Db),
      Traffic Reference.crates Device.server False submissions w db →
      ∀ row ∈ db.issued_certificate.rows, ∀ row' ∈ db.issued_certificate.rows, ∀ i j,
        Inserted w i row → Inserted w j row' → submissions i = submissions j → row = row' := by
  intro hclaim
  obtain ⟨w, db, row, row', htraffic, hrows, hne, hfirst, hsecond⟩ := sent_twice
  refine hne (hclaim _ w db htraffic row ?_ row' ?_ false true hfirst hsecond rfl)
  · rw [hrows]
    exact List.mem_cons_self
  · rw [hrows]
    exact List.mem_cons_of_mem _ List.mem_cons_self

end Scep

end Blapki
