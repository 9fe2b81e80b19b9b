/-
The life of a certificate in the database.

A run is a trace of statements of any number of calls, interleaved in any order.
For one CA and serial it is read by a three-state machine, `next`: unknown until
the insert, good from there to the first revocation, revoked with that date and
reason ever after. `status_refines` says that the table follows the machine, and
`life_cases` what the state of the machine says about the trace.
-/
import Blapki.Repo

set_option autoImplicit false

namespace Blapki

open Effect

/-- The row as it was inserted, before any revocation. -/
def IssuedCertificate.as_inserted (row : IssuedCertificate) : IssuedCertificate :=
  { row with status := STATUS_VALID, revoked_at := none, revocation_reason := none }

namespace repo

/-! ## One statement -/

/-- The writing events are the inserts and the revocations. -/
private theorem writes_issued_cases {e : Event Op.Res} (h : writes_issued e = true) :
    (∃ (cert : IssuedCertificate) (x : Except String Unit),
      e = ⟨Op.db (.insert_issued cert), x⟩) ∨
    ∃ (ca_id serial : String) (reason : Int) (revoked_at : String) (x : Except String Nat),
      e = ⟨Op.db (.update_revoked ca_id serial reason revoked_at), x⟩ := by
  obtain ⟨o, r⟩ := e
  rcases o with q | _ | _ | _ | _ | _ | _ | _ | _ | _ | _ | _ | _
  · rcases q with cert | _ | _ | ⟨ca_id, serial, reason, revoked_at⟩ | _ | _ | _
    · exact .inl ⟨cert, r, rfl⟩
    · exact Bool.noConfusion h
    · exact Bool.noConfusion h
    · exact .inr ⟨ca_id, serial, reason, revoked_at, r, rfl⟩
    all_goals exact Bool.noConfusion h
  all_goals exact Bool.noConfusion h

/-- A statement that fails neither inserts nor revokes. -/
private theorem not_write_of_error {q : Stmt} {x : Except String q.Rows} {msg : String}
    (hx : x = .error msg) :
    (∀ cert y, (⟨Op.db q, x⟩ : Event Op.Res) ≠ ⟨Op.db (.insert_issued cert), .ok y⟩) ∧
      ∀ ca_id serial reason revoked_at y, (⟨Op.db q, x⟩ : Event Op.Res)
        ≠ ⟨Op.db (.update_revoked ca_id serial reason revoked_at), .ok y⟩ := by
  rw [hx]
  constructor
  · intro cert y hno
    cases hno
  · intro ca_id serial reason revoked_at y hno
    cases hno

/-- What an event can do to the table: insert a row under a new serial, rewrite
the valid row of a certificate, or nothing. -/
theorem step_issued {faulty : Prop} {db db' : Db} {e : Event Op.Res}
    (h : step faulty db e.1 e.2 db') :
    (∃ cert, e = ⟨Op.db (.insert_issued cert), .ok ()⟩ ∧
      cert.serial ∉ db.issued_certificate.rows.map IssuedCertificate.serial ∧
      db'.issued_certificate.rows = db.issued_certificate.rows ++ [cert]) ∨
    (∃ ca_id serial reason revoked_at,
      e = ⟨Op.db (.update_revoked ca_id serial reason revoked_at),
        .ok (db.issued_certificate.count (is_valid_row ca_id serial))⟩ ∧
      db'.issued_certificate = db.issued_certificate.update (is_valid_row ca_id serial)
        (set_revoked reason revoked_at) (fun _ => rfl)) ∨
    ((∀ cert x, e ≠ ⟨Op.db (.insert_issued cert), .ok x⟩) ∧
      (∀ ca_id serial reason revoked_at x,
        e ≠ ⟨Op.db (.update_revoked ca_id serial reason revoked_at), .ok x⟩) ∧
      db'.issued_certificate = db.issued_certificate) := by
  -- only an insert or a revocation can write, and then only if it was executed
  by_cases hw : writes_issued e = true
  · rcases writes_issued_cases hw with ⟨cert, x, rfl⟩ | ⟨ca_id, serial, reason, date, x, rfl⟩
    · rcases h with h | ⟨_, ⟨msg, hmsg⟩, rfl⟩
      · have hx : x = (db.exec (.insert_issued cert)).1 := congrArg Prod.fst h
        have hdb : db' = (db.exec (.insert_issued cert)).2 := congrArg Prod.snd h
        rcases x with msg | u
        · obtain ⟨hins, hrev⟩ := not_write_of_error (q := .insert_issued cert) rfl
          refine .inr (.inr ⟨hins, hrev, ?_⟩)
          rw [hdb, exec_insert_issued_error hx.symm]
        · obtain ⟨hnew, hrows⟩ := exec_insert_issued_ok hx.symm
          refine .inl ⟨cert, rfl, hnew, ?_⟩
          rw [hdb, hrows]
      · obtain ⟨hins, hrev⟩ := not_write_of_error (q := .insert_issued cert) hmsg
        exact .inr (.inr ⟨hins, hrev, rfl⟩)
    · rcases h with h | ⟨_, ⟨msg, hmsg⟩, rfl⟩
      · have hx : x = (db.exec (.update_revoked ca_id serial reason date)).1 := congrArg Prod.fst h
        have hdb : db' = (db.exec (.update_revoked ca_id serial reason date)).2 :=
          congrArg Prod.snd h
        rw [hx, hdb]
        exact .inr (.inl ⟨ca_id, serial, reason, date, rfl, rfl⟩)
      · obtain ⟨hins, hrev⟩ :=
          not_write_of_error (q := .update_revoked ca_id serial reason date) hmsg
        exact .inr (.inr ⟨hins, hrev, rfl⟩)
  · have hw' : writes_issued e = false := Bool.eq_false_iff.mpr hw
    refine .inr (.inr ⟨?_, ?_, step_frame_issued hw' h⟩)
    · rintro cert x rfl
      exact hw rfl
    · rintro ca_id serial reason revoked_at x rfl
      exact hw rfl

/-- A row that no revocation of its certificate meets is kept by every statement;
there is no statement that removes one. -/
theorem row_step {faulty : Prop} {db db' : Db} {e : Event Op.Res}
    (h : step faulty db e.1 e.2 db') {r : IssuedCertificate}
    (hr : r ∈ db.issued_certificate.rows) :
    r ∈ db'.issued_certificate.rows ∨
      ∃ reason revoked_at n, r.status = STATUS_VALID ∧
        e = ⟨Op.db (.update_revoked r.ca_id r.serial reason revoked_at), .ok n⟩ ∧
        set_revoked reason revoked_at r ∈ db'.issued_certificate.rows := by
  rcases step_issued h with ⟨cert, rfl, _, hrows⟩ | ⟨ca_id, serial, reason, date, rfl, hdb⟩ |
    ⟨_, _, hdb⟩
  · rw [hrows]
    exact .inl (List.mem_append_left _ hr)
  · rw [hdb]
    by_cases hp : is_valid_row ca_id serial r = true
    · obtain ⟨rfl, rfl, hstatus⟩ := of_decide_eq_true hp
      exact .inr ⟨reason, date, _, hstatus, rfl, Table.mem_update_of hr hp⟩
    · exact .inl (Table.mem_update_of_not hr (Bool.eq_false_iff.mpr hp))
  · rw [hdb]
    exact .inl hr

/-- A row that is not valid stays as it is over every trace. -/
theorem revoked_stays {faulty : Prop} {db db' : Db} {tr : Trace}
    (h : Steps (step faulty) db tr db') {r : IssuedCertificate}
    (hr : r ∈ db.issued_certificate.rows) (hstatus : r.status ≠ STATUS_VALID) :
    r ∈ db'.issued_certificate.rows := by
  refine h.preserves (I := fun u => r ∈ u.issued_certificate.rows) ?_ hr
  intro e _ u u' hu hstep
  rcases row_step hstep hu with hr' | ⟨_, _, _, hvalid, _⟩
  · exact hr'
  · exact absurd hvalid hstatus

/-- A serial that is taken stays taken, by a row of the same CA. -/
theorem row_stays {faulty : Prop} {db db' : Db} {tr : Trace}
    (h : Steps (step faulty) db tr db') {ca_id serial : String}
    (hr : ∃ r ∈ db.issued_certificate.rows, r.ca_id = ca_id ∧ r.serial = serial) :
    ∃ r ∈ db'.issued_certificate.rows, r.ca_id = ca_id ∧ r.serial = serial := by
  refine h.preserves
    (I := fun u => ∃ r ∈ u.issued_certificate.rows, r.ca_id = ca_id ∧ r.serial = serial) ?_ hr
  rintro e _ u u' ⟨r, hr, hca, hserial⟩ hstep
  rcases row_step hstep hr with hr' | ⟨reason, date, _, _, _, hr'⟩
  · exact ⟨r, hr', hca, hserial⟩
  · exact ⟨_, hr', hca, hserial⟩

/-! ## The invariant of the rows -/

/-- What an enrolment inserts: a valid row with no revocation data. -/
def Fresh (cert : IssuedCertificate) : Prop :=
  cert.status = STATUS_VALID ∧ cert.revoked_at = none ∧ cert.revocation_reason = none

theorem as_inserted_of_fresh {cert : IssuedCertificate} (h : Fresh cert) :
    cert.as_inserted = cert := by
  obtain ⟨hstatus, hrevoked, hreason⟩ := h
  rw [IssuedCertificate.as_inserted, ← hstatus, ← hrevoked, ← hreason]

/-- Every row was inserted at some point. -/
theorem rows_inserted {faulty : Prop} {tr : Trace} {db : Db}
    (h : Steps (step faulty) Db.empty tr db) :
    ∀ row ∈ db.issued_certificate.rows, ∃ cert, ⟨Op.db (.insert_issued cert), .ok ()⟩ ∈ tr ∧
      row.as_inserted = cert.as_inserted := by
  refine h.preserves (I := fun u => ∀ row ∈ u.issued_certificate.rows, ∃ cert,
    ⟨Op.db (.insert_issued cert), .ok ()⟩ ∈ tr ∧ row.as_inserted = cert.as_inserted) ?_
    fun row hrow => absurd hrow List.not_mem_nil
  intro e he u u' hu hstep row hrow
  rcases step_issued hstep with ⟨cert, rfl, _, hrows⟩ | ⟨_, _, reason, date, rfl, htab⟩ |
    ⟨_, _, htab⟩
  · rw [hrows] at hrow
    rcases List.mem_append.mp hrow with hrow | hrow
    · exact hu row hrow
    · rw [List.mem_singleton.mp hrow]
      exact ⟨cert, he, rfl⟩
  · rw [htab] at hrow
    obtain ⟨row₀, hrow₀, rfl⟩ := Table.mem_update.mp hrow
    obtain ⟨cert, hcert, hsame⟩ := hu row₀ hrow₀
    refine ⟨cert, hcert, ?_⟩
    rw [← hsame]
    split
    · rfl
    · rfl
  · rw [htab] at hrow
    exact hu row hrow

/-- A row is as its enrolment inserted it, or revoked with date and reason. -/
def RowOk (r : IssuedCertificate) : Prop :=
  Fresh r ∨ r.status = STATUS_REVOKED ∧
    ∃ revoked_at reason, r.revoked_at = some revoked_at ∧ r.revocation_reason = some reason

/-- Every insert of the trace is one of an enrolment. -/
def Enrolments (tr : Trace) : Prop :=
  ∀ cert x, ⟨Op.db (.insert_issued cert), x⟩ ∈ tr → Fresh cert

/-- Every row of the table is in order. -/
def RowsOk (db : Db) : Prop := ∀ r ∈ db.issued_certificate.rows, RowOk r

theorem rowsOk_empty : RowsOk Db.empty := fun _ hr => absurd hr List.not_mem_nil

theorem rowsOk_step {faulty : Prop} {db db' : Db} {e : Event Op.Res}
    (h : step faulty db e.1 e.2 db')
    (he : ∀ cert x, e = ⟨Op.db (.insert_issued cert), x⟩ → Fresh cert) (hdb : RowsOk db) :
    RowsOk db' := by
  intro r hr
  rcases step_issued h with ⟨cert, rfl, _, hrows⟩ | ⟨ca_id, serial, reason, date, rfl, htab⟩ |
    ⟨_, _, htab⟩
  · rw [hrows] at hr
    rcases List.mem_append.mp hr with hr | hr
    · exact hdb r hr
    · rw [List.mem_singleton.mp hr]
      exact .inl (he cert _ rfl)
  · rw [htab] at hr
    obtain ⟨r₀, hr₀, rfl⟩ := Table.mem_update.mp hr
    -- a row the revocation meets gets its date and reason
    by_cases hp : is_valid_row ca_id serial r₀ = true
    · rw [if_pos hp]
      exact .inr ⟨rfl, date, reason, rfl, rfl⟩
    · rw [if_neg hp]
      exact hdb r₀ hr₀
  · rw [htab] at hr
    exact hdb r hr

theorem rowsOk_steps {faulty : Prop} {db db' : Db} {tr : Trace}
    (h : Steps (step faulty) db tr db') (htr : Enrolments tr) (hdb : RowsOk db) : RowsOk db' := by
  refine h.preserves ?_ hdb
  intro e he u u' hu hstep
  refine rowsOk_step hstep ?_ hu
  rintro cert x rfl
  exact htr cert x he

/-! ## The state machine -/

/-- What `status_by_serial` answers in a state of the database. -/
def status (db : Db) (ca_id serial : String) : RevocationStatus :=
  status_of_row ((db.issued_certificate.first (is_row ca_id serial)).map fun r =>
    ⟨r.status, r.revoked_at, r.revocation_reason⟩)

/-- The life of one certificate under one event. -/
def next (ca_id serial : String) (s : RevocationStatus) : Event Op.Res → RevocationStatus
  | ⟨.db (.insert_issued cert), .ok _⟩ =>
      if cert.ca_id = ca_id ∧ cert.serial = serial ∧ s = .Unknown then .Good else s
  | ⟨.db (.update_revoked ca_id' serial' reason revoked_at), .ok _⟩ =>
      if ca_id' = ca_id ∧ serial' = serial ∧ s = .Good then
        .Revoked (some revoked_at) (some reason)
      else s
  | _ => s

/-- The life of one certificate over a trace. -/
def life (ca_id serial : String) (tr : Trace) : RevocationStatus :=
  tr.foldl (next ca_id serial) .Unknown

theorem status_of_mem {db : Db} {ca_id serial : String} {r : IssuedCertificate}
    (hr : r ∈ db.issued_certificate.rows) (hca : r.ca_id = ca_id) (hserial : r.serial = serial) :
    status db ca_id serial
      = if r.status = STATUS_REVOKED then .Revoked r.revoked_at r.revocation_reason else .Good := by
  have hfirst : db.issued_certificate.first (is_row ca_id serial) = some r := by
    refine db.issued_certificate.first_eq_some hr (decide_eq_true ⟨hca, hserial⟩) ?_
    intro r' hr'
    rw [hserial]
    exact (of_decide_eq_true hr').2
  rw [status, hfirst]
  rfl

theorem status_of_not_mem {db : Db} {ca_id serial : String}
    (h : ∀ r ∈ db.issued_certificate.rows, ¬ (r.ca_id = ca_id ∧ r.serial = serial)) :
    status db ca_id serial = .Unknown := by
  have hfirst : db.issued_certificate.first (is_row ca_id serial) = none :=
    Table.first_eq_none.mpr fun r hr => decide_eq_false (h r hr)
  rw [status, hfirst]
  rfl

/-- The state is good for a valid row, and only for one. -/
theorem status_eq_good {db : Db} (hdb : RowsOk db) {ca_id serial : String} :
    status db ca_id serial = .Good ↔
      ∃ r ∈ db.issued_certificate.rows, is_valid_row ca_id serial r = true := by
  constructor
  · intro h
    by_cases hex : ∃ r ∈ db.issued_certificate.rows, r.ca_id = ca_id ∧ r.serial = serial
    · obtain ⟨r, hr, hca, hserial⟩ := hex
      rw [status_of_mem hr hca hserial] at h
      rcases hdb r hr with hfresh | ⟨hrev, _⟩
      · exact ⟨r, hr, decide_eq_true ⟨hca, hserial, hfresh.1⟩⟩
      · rw [if_pos hrev] at h
        cases h
    · rw [status_of_not_mem fun r hr hkey => hex ⟨r, hr, hkey⟩] at h
      cases h
  · rintro ⟨r, hr, hp⟩
    obtain ⟨hca, hserial, hvalid⟩ := of_decide_eq_true hp
    rw [status_of_mem hr hca hserial, hvalid]
    exact if_neg (by decide)

/-- A row under a new serial makes its certificate good. -/
theorem status_insert {db db' : Db} (hdb' : RowsOk db') {cert : IssuedCertificate}
    (hfresh : Fresh cert)
    (hnew : cert.serial ∉ db.issued_certificate.rows.map IssuedCertificate.serial)
    (hrows : db'.issued_certificate.rows = db.issued_certificate.rows ++ [cert])
    (ca_id serial : String) : status db' ca_id serial
      = if cert.ca_id = ca_id ∧ cert.serial = serial ∧ status db ca_id serial = .Unknown then .Good
        else status db ca_id serial := by
  have hcert : cert ∈ db'.issued_certificate.rows := by
    rw [hrows]
    exact List.mem_append_right _ List.mem_cons_self
  by_cases hkey : cert.ca_id = ca_id ∧ cert.serial = serial
  · -- The serial is new, so there was no row under it.
    have hunknown : status db ca_id serial = .Unknown := by
      refine status_of_not_mem fun r hr hr' => hnew ?_
      rw [hkey.2, ← hr'.2]
      exact List.mem_map_of_mem hr
    rw [if_pos ⟨hkey.1, hkey.2, hunknown⟩]
    exact (status_eq_good hdb').mpr ⟨cert, hcert, decide_eq_true ⟨hkey.1, hkey.2, hfresh.1⟩⟩
  · rw [if_neg fun hno => hkey ⟨hno.1, hno.2.1⟩]
    have hlast : is_row ca_id serial cert = false := decide_eq_false hkey
    have hfirst : db'.issued_certificate.first (is_row ca_id serial)
        = db.issued_certificate.first (is_row ca_id serial) := by
      rw [Table.first, hrows, List.find?_append, List.find?_singleton, hlast]
      exact Option.or_none
    rw [status, hfirst, status]

/-- A revocation of a certificate moves its state from good. -/
theorem status_update {db db' : Db} (hdb : RowsOk db) {ca' serial' date : String} {reason : Int}
    (htab : db'.issued_certificate = db.issued_certificate.update (is_valid_row ca' serial')
      (set_revoked reason date) (fun _ => rfl)) (ca_id serial : String) :
    status db' ca_id serial
      = if ca' = ca_id ∧ serial' = serial ∧ status db ca_id serial = .Good then
          .Revoked (some date) (some reason)
        else status db ca_id serial := by
  by_cases hex : ∃ r ∈ db.issued_certificate.rows, r.ca_id = ca_id ∧ r.serial = serial
  · obtain ⟨r, hr, hca, hserial⟩ := hex
    by_cases hp : is_valid_row ca' serial' r = true
    · obtain ⟨hca', hserial', hvalid⟩ := of_decide_eq_true hp
      have hgood : status db ca_id serial = .Good :=
        (status_eq_good hdb).mpr ⟨r, hr, decide_eq_true ⟨hca, hserial, hvalid⟩⟩
      have hmem : set_revoked reason date r ∈ db'.issued_certificate.rows := by
        rw [htab]
        exact Table.mem_update_of hr hp
      rw [if_pos ⟨hca'.symm.trans hca, hserial'.symm.trans hserial, hgood⟩,
        status_of_mem hmem hca hserial]
      rfl
    · have hmem : r ∈ db'.issued_certificate.rows := by
        rw [htab]
        exact Table.mem_update_of_not hr (Bool.eq_false_iff.mpr hp)
      have hsame : status db' ca_id serial = status db ca_id serial := by
        rw [status_of_mem hmem hca hserial, status_of_mem hr hca hserial]
      rw [hsame, if_neg]
      -- A good certificate has a valid row, and `r` is the only row of the serial.
      rintro ⟨rfl, rfl, hgood⟩
      obtain ⟨r', hr', hp'⟩ := (status_eq_good hdb).mp hgood
      have hkey := of_decide_eq_true hp'
      obtain rfl := db.issued_certificate.eq_of_key hr hr' (hserial.trans hkey.2.1.symm)
      exact hp hp'
  · have hsame : status db' ca_id serial = .Unknown := by
      refine status_of_not_mem fun r hr hkey => hex ?_
      rw [htab] at hr
      obtain ⟨r₀, hr₀, rfl⟩ := Table.mem_update.mp hr
      refine ⟨r₀, hr₀, ?_⟩
      by_cases hp : is_valid_row ca' serial' r₀ = true
      · rwa [if_pos hp] at hkey
      · rwa [if_neg hp] at hkey
    rw [hsame, status_of_not_mem fun r hr hkey => hex ⟨r, hr, hkey⟩, if_neg]
    rintro ⟨_, _, hno⟩
    cases hno

/-- One event moves the state of every certificate as `next` says. -/
theorem status_step {faulty : Prop} {db db' : Db} {e : Event Op.Res}
    (h : step faulty db e.1 e.2 db')
    (he : ∀ cert x, e = ⟨Op.db (.insert_issued cert), x⟩ → Fresh cert) (hdb : RowsOk db)
    (ca_id serial : String) : status db' ca_id serial = next ca_id serial (status db ca_id serial) e := by
  have hdb' := rowsOk_step h he hdb
  rcases step_issued h with ⟨cert, rfl, hnew, hrows⟩ | ⟨ca', serial', reason, date, rfl, htab⟩ |
    ⟨hins, hrev, htab⟩
  · exact status_insert hdb' (he cert _ rfl) hnew hrows ca_id serial
  · exact status_update hdb htab ca_id serial
  · have hsame : status db' ca_id serial = status db ca_id serial := by
      rw [status, htab, status]
    rw [hsame]
    unfold next
    split
    · exact absurd rfl (hins _ _)
    · exact absurd rfl (hrev _ _ _ _ _)
    · rfl

/-- **The table follows the machine.** -/
theorem status_refines {faulty : Prop} {db : Db} {tr : Trace}
    (h : Steps (step faulty) Db.empty tr db) (htr : Enrolments tr) (ca_id serial : String) :
    status db ca_id serial = life ca_id serial tr := by
  refine h.refines (I := RowsOk) (fun u => status u ca_id serial) (next ca_id serial) ?_
    rowsOk_empty
  intro e he u u' hu hstep
  have hfresh : ∀ cert x, e = ⟨Op.db (.insert_issued cert), x⟩ → Fresh cert := by
    rintro cert x rfl
    exact htr cert x he
  exact ⟨rowsOk_step hstep hfresh hu, status_step hstep hfresh hu ca_id serial⟩

/-! ## What the machine says about the trace -/

/-- The event inserts a row for the certificate. -/
def Inserts (ca_id serial : String) (e : Event Op.Res) : Prop :=
  ∃ cert, cert.ca_id = ca_id ∧ cert.serial = serial ∧ e = ⟨Op.db (.insert_issued cert), .ok ()⟩

/-- The event is a revocation of the certificate that was executed, whether it met
a row or not. -/
def Revokes (ca_id serial : String) (e : Event Op.Res) : Prop :=
  ∃ reason revoked_at n, e = ⟨Op.db (.update_revoked ca_id serial reason revoked_at), .ok n⟩

/-- The trace inserts the certificate, and `after` is what it does from then on. -/
def IssuedThen (ca_id serial : String) (tr after : Trace) : Prop :=
  ∃ before e, tr = before ++ e :: after ∧ Inserts ca_id serial e ∧
    ∀ e' ∈ before, ¬ Inserts ca_id serial e'

/-- The first revocation in the trace is one with this date and reason. -/
def FirstRevoked (ca_id serial revoked_at : String) (reason : Int) (tr : Trace) : Prop :=
  ∃ before after n,
    tr = before ++ ⟨Op.db (.update_revoked ca_id serial reason revoked_at), .ok n⟩ :: after ∧
      ∀ e ∈ before, ¬ Revokes ca_id serial e

section Life

variable {ca_id serial : String}

theorem next_unknown {e : Event Op.Res} (h : ¬ Inserts ca_id serial e) :
    next ca_id serial .Unknown e = .Unknown := by
  unfold next
  split
  · rename_i cert x
    rw [if_neg]
    rintro ⟨hca, hserial, _⟩
    exact h ⟨cert, hca, hserial, rfl⟩
  · rw [if_neg]
    rintro ⟨_, _, hno⟩
    cases hno
  · rfl

theorem next_inserts {e : Event Op.Res} (h : Inserts ca_id serial e) :
    next ca_id serial .Unknown e = .Good := by
  obtain ⟨cert, rfl, rfl, rfl⟩ := h
  exact if_pos ⟨rfl, rfl, rfl⟩

theorem next_good {e : Event Op.Res} (h : ¬ Revokes ca_id serial e) :
    next ca_id serial .Good e = .Good := by
  unfold next
  split
  · rw [if_neg]
    rintro ⟨_, _, hno⟩
    cases hno
  · rename_i ca' serial' reason date x
    rw [if_neg]
    rintro ⟨rfl, rfl, _⟩
    exact h ⟨reason, date, x, rfl⟩
  · rfl

theorem next_revoked (revoked_at : Option String) (reason : Option Int) (e : Event Op.Res) :
    next ca_id serial (.Revoked revoked_at reason) e = .Revoked revoked_at reason := by
  unfold next
  split
  · rw [if_neg]
    rintro ⟨_, _, hno⟩
    cases hno
  · rw [if_neg]
    rintro ⟨_, _, hno⟩
    cases hno
  · rfl

/-- A state that no event of the trace leaves is the state at its end. -/
private theorem foldl_next {s : RevocationStatus} {tr : Trace}
    (h : ∀ e ∈ tr, next ca_id serial s e = s) : tr.foldl (next ca_id serial) s = s := by
  induction tr with
  | nil => rfl
  | cons e tr ih =>
      rw [List.foldl_cons, h e List.mem_cons_self]
      exact ih fun e' he' => h e' (List.mem_cons_of_mem _ he')

theorem life_unknown {tr : Trace} (h : ∀ e ∈ tr, ¬ Inserts ca_id serial e) :
    life ca_id serial tr = .Unknown :=
  foldl_next fun e he => next_unknown (h e he)

/-- From the insert on, the life goes on from good. -/
private theorem life_issued {tr after : Trace} (h : IssuedThen ca_id serial tr after) :
    life ca_id serial tr = after.foldl (next ca_id serial) .Good := by
  obtain ⟨before, e, rfl, hins, hbefore⟩ := h
  rw [life, List.foldl_append, List.foldl_cons,
    foldl_next fun e he => next_unknown (hbefore e he), next_inserts hins]

theorem life_good {tr after : Trace} (h : IssuedThen ca_id serial tr after)
    (hrev : ∀ e ∈ after, ¬ Revokes ca_id serial e) : life ca_id serial tr = .Good := by
  rw [life_issued h]
  exact foldl_next fun e he => next_good (hrev e he)

theorem life_revoked {tr after : Trace} {revoked_at : String} {reason : Int}
    (h : IssuedThen ca_id serial tr after)
    (hrev : FirstRevoked ca_id serial revoked_at reason after) :
    life ca_id serial tr = .Revoked (some revoked_at) (some reason) := by
  obtain ⟨u₁, u₂, n, rfl, hfirst⟩ := hrev
  rw [life_issued h, List.foldl_append, List.foldl_cons,
    foldl_next fun e he => next_good (hfirst e he)]
  have hrevokes : next ca_id serial .Good
      ⟨Op.db (.update_revoked ca_id serial reason revoked_at), .ok n⟩
        = .Revoked (some revoked_at) (some reason) := if_pos ⟨rfl, rfl, rfl⟩
  rw [hrevokes]
  exact foldl_next fun e _ => next_revoked _ _ e

/-- Every trace is in one of three cases. -/
theorem life_cases (ca_id serial : String) (tr : Trace) :
    (∀ e ∈ tr, ¬ Inserts ca_id serial e) ∨
    (∃ after, IssuedThen ca_id serial tr after ∧ ∀ e ∈ after, ¬ Revokes ca_id serial e) ∨
    ∃ after revoked_at reason, IssuedThen ca_id serial tr after ∧
      FirstRevoked ca_id serial revoked_at reason after := by
  by_cases hins : ∃ e ∈ tr, Inserts ca_id serial e
  · obtain ⟨before, e, after, rfl, he, hbefore⟩ := exists_first hins
    have hissued : IssuedThen ca_id serial (before ++ e :: after) after :=
      ⟨before, e, rfl, he, hbefore⟩
    by_cases hrev : ∃ e ∈ after, Revokes ca_id serial e
    · obtain ⟨u₁, e', u₂, rfl, ⟨reason, date, n, rfl⟩, hfirst⟩ := exists_first hrev
      exact .inr (.inr ⟨_, date, reason, hissued, u₁, u₂, n, rfl, hfirst⟩)
    · exact .inr (.inl ⟨after, hissued, fun e he hno => hrev ⟨e, he, hno⟩⟩)
  · exact .inl fun e he hno => hins ⟨e, he, hno⟩

theorem life_eq_unknown {tr : Trace} :
    life ca_id serial tr = .Unknown ↔ ∀ e ∈ tr, ¬ Inserts ca_id serial e := by
  refine ⟨fun h => ?_, life_unknown⟩
  rcases life_cases ca_id serial tr with hno | ⟨after, hi, hr⟩ | ⟨after, _, _, hi, hr⟩
  · exact hno
  · rw [life_good hi hr] at h
    cases h
  · rw [life_revoked hi hr] at h
    cases h

theorem life_eq_good {tr : Trace} :
    life ca_id serial tr = .Good ↔
      ∃ after, IssuedThen ca_id serial tr after ∧ ∀ e ∈ after, ¬ Revokes ca_id serial e := by
  refine ⟨fun h => ?_, fun ⟨after, hi, hr⟩ => life_good hi hr⟩
  rcases life_cases ca_id serial tr with hno | ⟨after, hi, hr⟩ | ⟨after, _, _, hi, hr⟩
  · rw [life_unknown hno] at h
    cases h
  · exact ⟨after, hi, hr⟩
  · rw [life_revoked hi hr] at h
    cases h

end Life

/-! ## The life cycle -/

/-- A statement that was executed did what `Db.exec` says. -/
theorem step_ok {faulty : Prop} {db db' : Db} {q : Stmt} {x : q.Rows}
    (h : step faulty db (.db q) (.ok x) db') : (Except.ok x, db') = db.exec q := by
  rcases h with h | ⟨_, ⟨e, he⟩, _⟩
  · exact h
  · cases he

/-- A serial that is taken is not inserted again. -/
theorem not_inserted_again {faulty : Prop} {db db' : Db} {tr : Trace}
    (h : Steps (step faulty) db tr db') {r : IssuedCertificate}
    (hr : r ∈ db.issued_certificate.rows) {cert : IssuedCertificate}
    (hserial : cert.serial = r.serial) : ⟨Op.db (.insert_issued cert), .ok ()⟩ ∉ tr := by
  intro hmem
  obtain ⟨t₁, t₂, u, u', rfl, h₁, hstep, _⟩ := h.mem hmem
  obtain ⟨r', hr', _, hserial'⟩ := row_stays h₁ ⟨r, hr, rfl, rfl⟩
  obtain ⟨hnew, _⟩ := exec_insert_issued_ok (congrArg Prod.fst (step_ok hstep)).symm
  apply hnew
  rw [hserial, ← hserial']
  exact List.mem_map_of_mem hr'

/-- The row of an insert that was executed is there right after it. -/
theorem inserted_row {faulty : Prop} {db db' : Db} {cert : IssuedCertificate}
    (h : step faulty db (.db (.insert_issued cert)) (.ok ()) db') :
    cert ∈ db'.issued_certificate.rows := by
  have hexec := step_ok h
  obtain ⟨_, hrows⟩ := exec_insert_issued_ok (congrArg Prod.fst hexec).symm
  rw [show db' = _ from congrArg Prod.snd hexec, hrows]
  exact List.mem_append_right _ List.mem_cons_self

section Fields

variable {faulty : Prop} {tr : Trace} {db : Db}

/-- A serial is inserted once. -/
theorem lifecycle_once (h : Steps (step faulty) Db.empty tr db) {before after : Trace}
    {cert cert' : IssuedCertificate}
    (htr : tr = before ++ ⟨Op.db (.insert_issued cert), .ok ()⟩ :: after)
    (hserial : cert'.serial = cert.serial) :
    ⟨Op.db (.insert_issued cert'), .ok ()⟩ ∉ before ++ after := by
  subst htr
  obtain ⟨u, h₁, h₂⟩ := steps_append.mp h
  obtain ⟨u', hstep, h₃⟩ := steps_cons.mp h₂
  intro hmem
  rcases List.mem_append.mp hmem with hmem | hmem
  · obtain ⟨t₁, t₂, v, v', rfl, _, hstep', h₄⟩ := h₁.mem hmem
    have hlater : Steps (step faulty) v' (t₂ ++ ⟨Op.db (.insert_issued cert), .ok ()⟩ :: after) db :=
      steps_append.mpr ⟨u, h₄, h₂⟩
    exact not_inserted_again hlater (inserted_row hstep') hserial.symm
      (List.mem_append_right _ List.mem_cons_self)
  · exact not_inserted_again h₃ (inserted_row hstep) hserial hmem

/-- A revocation returns true exactly when it is the first one after the insert, and
returning false it changed nothing. -/
theorem lifecycle_revoke (h : Steps (step faulty) Db.empty tr db) (htr : Enrolments tr)
    {ca_id serial revoked_at : String} {reason : Int} {b : Bool} {tr' : Trace} {db' : Db}
    (hrun : Returns (repo.revoke ca_id serial reason revoked_at) tr' (.ok b))
    (hsteps : Steps (step faulty) db tr' db') :
    (b = true ↔ ∃ after, IssuedThen ca_id serial tr after ∧
      ∀ e ∈ after, ¬ Revokes ca_id serial e) ∧ (b = false → db' = db) := by
  obtain ⟨n, rfl, rfl⟩ := revoke_returns.mp hrun
  obtain ⟨u, hstep, hnil⟩ := steps_cons.mp hsteps
  obtain rfl := steps_nil.mp hnil
  obtain ⟨hn, rfl⟩ := Prod.mk.inj (step_ok hstep)
  obtain rfl : n = _ := Except.ok.inj hn
  rw [decide_eq_true_eq, decide_eq_false_iff_not, Nat.not_lt, Nat.le_zero]
  refine ⟨?_, fun hzero => ?_⟩
  · rw [Table.count_pos, ← status_eq_good (rowsOk_steps h htr rowsOk_empty),
      status_refines h htr, life_eq_good]
  · rw [Table.count_eq_zero] at hzero
    exact congrArg (fun t => Db.mk t db.scep_transaction) (Table.update_of_none hzero)

/-- An insert that was executed starts the life of its certificate: nothing before it is of
the same serial. -/
theorem issuedThen_of_insert (h : Steps (step faulty) Db.empty tr db) {before after : Trace}
    {cert : IssuedCertificate}
    (htr : tr = before ++ ⟨Op.db (.insert_issued cert), .ok ()⟩ :: after) :
    IssuedThen cert.ca_id cert.serial tr after := by
  refine ⟨before, _, htr, ⟨cert, rfl, rfl, rfl⟩, ?_⟩
  rintro e he ⟨cert', _, hserial, rfl⟩
  exact lifecycle_once h htr hserial (List.mem_append_left _ he)

/-- The first revocation after it takes effect. -/
theorem first_revoke (h : Steps (step faulty) Db.empty tr db) (htr : Enrolments tr)
    {ca_id serial revoked_at : String} {reason : Int} {after : Trace}
    (hissued : IssuedThen ca_id serial tr after) (hfirst : ∀ e ∈ after, ¬ Revokes ca_id serial e)
    {b : Bool} {tr' : Trace} {db' : Db}
    (hrun : Returns (repo.revoke ca_id serial reason revoked_at) tr' (.ok b))
    (hsteps : Steps (step faulty) db tr' db') :
    b = true ∧ repo.status db' ca_id serial = .Revoked (some revoked_at) (some reason) := by
  refine ⟨(lifecycle_revoke h htr hrun hsteps).1.mpr ⟨after, hissued, hfirst⟩, ?_⟩
  obtain ⟨n, rfl, _⟩ := revoke_returns.mp hrun
  have htr' : Enrolments
      (tr ++ [⟨Op.db (.update_revoked ca_id serial reason revoked_at), .ok n⟩]) := by
    intro cert x hmem
    rcases List.mem_append.mp hmem with hmem | hmem
    · exact htr cert x hmem
    · cases List.mem_singleton.mp hmem
  rw [status_refines (steps_append.mpr ⟨db, h, hsteps⟩) htr']
  obtain ⟨before, e, rfl, hins, hbefore⟩ := hissued
  have hissued' : IssuedThen ca_id serial
      (before ++ e :: after ++ [⟨Op.db (.update_revoked ca_id serial reason revoked_at), .ok n⟩])
      (after ++ [⟨Op.db (.update_revoked ca_id serial reason revoked_at), .ok n⟩]) :=
    ⟨before, e, by rw [List.append_assoc, List.cons_append], hins, hbefore⟩
  exact life_revoked hissued' ⟨after, [], n, rfl, hfirst⟩

end Fields

end repo

end Blapki
