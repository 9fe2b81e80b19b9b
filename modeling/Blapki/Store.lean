/-
The database (`db/mod.rs`, and the statements of `db/repo.rs`).

The two tables with their primary keys, and the SQL statements the repository
issues, each with the type of its result. `Db.exec` runs one statement, and one
statement is what the backend runs atomically. A statement that breaks a key
constraint reports an error and changes nothing.
-/
import Blapki.Table
import Blapki.Basic

set_option autoImplicit false

namespace Blapki

/-! ## Rows -/

/-- Certificate status values. -/
def STATUS_VALID : String := "valid"
def STATUS_REVOKED : String := "revoked"

/-- A record of a certificate this server issued. -/
structure IssuedCertificate where
  serial : String
  ca_id : String
  subject : String
  not_before : String
  not_after : String
  der_b64 : String
  thumbprint_sha1 : String
  transaction_id : Option String
  profile : Option String
  status : String
  created_at : String
  revoked_at : Option String
  revocation_reason : Option Int
deriving DecidableEq, Repr

/-- A row as an enrolment inserts it, for the examples: of a CA, under a serial. -/
def IssuedCertificate.sample (ca_id serial : String) : IssuedCertificate where
  serial := serial
  ca_id := ca_id
  subject := "CN=device"
  not_before := "2026-07-28T00:00:00Z"
  not_after := "2027-07-28T00:00:00Z"
  der_b64 := "MAA="
  thumbprint_sha1 := "00"
  transaction_id := some "t1"
  profile := some "device"
  status := STATUS_VALID
  created_at := "2026-07-28T00:00:00Z"
  revoked_at := none
  revocation_reason := none

/-- A row of `scep_transaction`. -/
structure ScepTransaction where
  transaction_id : String
  profile : String
  status : String
  message_type : String
  created_at : String
deriving DecidableEq, Repr

/-- The columns `status_by_serial` selects. -/
structure StatusRow where
  status : String
  revoked_at : Option String
  revocation_reason : Option Int
deriving DecidableEq, Repr

/-- A revoked entry for building a CRL. -/
structure RevokedEntry where
  serial : String
  revoked_at : Option String
  reason : Option Int
deriving DecidableEq, Repr

/-- The two tables, each under its primary key. -/
structure Db where
  issued_certificate : Table IssuedCertificate String IssuedCertificate.serial
  scep_transaction : Table ScepTransaction String ScepTransaction.transaction_id

/-- The database right after `migrate`. -/
def Db.empty : Db := ⟨Table.empty, Table.empty⟩

/-! ## Statements -/

/-- The statements of the repository, with what is bound to their placeholders. -/
inductive Stmt where
  | insert_issued (cert : IssuedCertificate)
  | select_status (ca_id serial : String)
  | select_revoked (ca_id : String)
  | update_revoked (ca_id serial : String) (reason : Int) (revoked_at : String)
  | select_transaction (transaction_id : String)
  | update_transaction (status message_type transaction_id : String)
  | insert_transaction (row : ScepTransaction)
deriving DecidableEq, Repr

/-- What a statement returns: the rows of a query, the number of rows affected. -/
abbrev Stmt.Rows : Stmt → Type
  | .insert_issued _ => Unit
  | .select_status _ _ => Option StatusRow
  | .select_revoked _ => List RevokedEntry
  | .update_revoked _ _ _ _ => Nat
  | .select_transaction _ => Option String
  | .update_transaction _ _ _ => Nat
  | .insert_transaction _ => Unit

/-- `WHERE ca_id = ? AND serial = ?`. -/
def is_row (ca_id serial : String) (r : IssuedCertificate) : Bool :=
  r.ca_id = ca_id ∧ r.serial = serial

/-- `WHERE ca_id = ? AND serial = ? AND status = 'valid'`. -/
def is_valid_row (ca_id serial : String) (r : IssuedCertificate) : Bool :=
  r.ca_id = ca_id ∧ r.serial = serial ∧ r.status = STATUS_VALID

/-- `SET status = 'revoked', revoked_at = ?, revocation_reason = ?`. -/
def set_revoked (reason : Int) (revoked_at : String) (r : IssuedCertificate) :
    IssuedCertificate :=
  { r with status := STATUS_REVOKED, revoked_at := some revoked_at,
           revocation_reason := some reason }

/-- `SET status = ?, message_type = ?`. -/
def set_transaction (status message_type : String) (r : ScepTransaction) : ScepTransaction :=
  { r with status := status, message_type := message_type }

/-- Run one statement. -/
def Db.exec (db : Db) : (q : Stmt) → Except String q.Rows × Db
  | .insert_issued cert =>
      match db.issued_certificate.insert cert with
      | some t => (.ok (), { db with issued_certificate := t })
      | none => (.error "UNIQUE constraint failed: issued_certificate.serial", db)
  | .select_status ca_id serial =>
      (.ok ((db.issued_certificate.first (is_row ca_id serial)).map fun r =>
        ⟨r.status, r.revoked_at, r.revocation_reason⟩), db)
  | .select_revoked ca_id =>
      (.ok ((db.issued_certificate.select fun r =>
        r.ca_id = ca_id ∧ r.status = STATUS_REVOKED).map fun r =>
          ⟨r.serial, r.revoked_at, r.revocation_reason⟩), db)
  | .update_revoked ca_id serial reason revoked_at =>
      let p := is_valid_row ca_id serial
      let t := db.issued_certificate.update p (set_revoked reason revoked_at) (fun _ => rfl)
      (.ok (db.issued_certificate.count p), { db with issued_certificate := t })
  | .select_transaction transaction_id =>
      (.ok ((db.scep_transaction.first fun r => r.transaction_id = transaction_id).map
        ScepTransaction.transaction_id), db)
  | .update_transaction status message_type transaction_id =>
      let p : ScepTransaction → Bool := fun r => r.transaction_id = transaction_id
      let t := db.scep_transaction.update p (set_transaction status message_type) (fun _ => rfl)
      (.ok (db.scep_transaction.count p), { db with scep_transaction := t })
  | .insert_transaction row =>
      match db.scep_transaction.insert row with
      | some t => (.ok (), { db with scep_transaction := t })
      | none => (.error "UNIQUE constraint failed: scep_transaction.transaction_id", db)

/-- A statement that may change `issued_certificate`. -/
def Stmt.writes_issued : Stmt → Bool
  | .insert_issued _ | .update_revoked _ _ _ _ => true
  | _ => false

/-- The other statements leave `issued_certificate` as it is. -/
theorem exec_frame_issued (db : Db) {q : Stmt} (h : q.writes_issued = false) :
    (db.exec q).2.issued_certificate = db.issued_certificate := by
  cases q with
  | insert_issued cert => exact Bool.noConfusion h
  | update_revoked ca_id serial reason revoked_at => exact Bool.noConfusion h
  | insert_transaction row =>
      simp only [Db.exec]
      cases db.scep_transaction.insert row <;> rfl
  | select_status ca_id serial => rfl
  | select_revoked ca_id => rfl
  | select_transaction transaction_id => rfl
  | update_transaction status message_type transaction_id => rfl

/-- An insert into no rows goes through. -/
theorem exec_insert_issued_empty {db : Db} (hdb : db.issued_certificate = Table.empty)
    (cert : IssuedCertificate) : ∃ db', db.exec (.insert_issued cert) = (.ok (), db') ∧
      db'.issued_certificate.rows = [cert] ∧ db'.scep_transaction = db.scep_transaction := by
  have hnew : cert.serial ∉ db.issued_certificate.rows.map IssuedCertificate.serial := by
    rw [hdb]
    exact List.not_mem_nil
  have hins : db.issued_certificate.insert cert = some ⟨[cert], List.nodup_singleton _⟩ := by
    refine Table.insert_eq_some.mpr ⟨hnew, ?_⟩
    rw [hdb]
    rfl
  refine ⟨⟨⟨[cert], List.nodup_singleton _⟩, db.scep_transaction⟩, ?_, rfl, rfl⟩
  simp only [Db.exec, hins]

/-- The insert of a first transaction goes in, and leaves the other table alone. -/
theorem exec_insert_transaction_empty {db : Db} (hdb : db.scep_transaction = Table.empty)
    (row : ScepTransaction) : ∃ db', db.exec (.insert_transaction row) = (.ok (), db') ∧
      db'.scep_transaction.rows = [row] ∧ db'.issued_certificate = db.issued_certificate := by
  have hnew : row.transaction_id ∉ db.scep_transaction.rows.map ScepTransaction.transaction_id := by
    rw [hdb]
    exact List.not_mem_nil
  have hins : db.scep_transaction.insert row = some ⟨[row], List.nodup_singleton _⟩ := by
    refine Table.insert_eq_some.mpr ⟨hnew, ?_⟩
    rw [hdb]
    rfl
  refine ⟨⟨db.issued_certificate, ⟨[row], List.nodup_singleton _⟩⟩, ?_, rfl, rfl⟩
  simp only [Db.exec, hins]

/-- An insert that goes through appends its row, under a serial not seen before. -/
theorem exec_insert_issued_ok {db : Db} {cert : IssuedCertificate}
    (h : (db.exec (.insert_issued cert)).1 = .ok ()) :
    cert.serial ∉ db.issued_certificate.rows.map IssuedCertificate.serial ∧
      (db.exec (.insert_issued cert)).2.issued_certificate.rows
        = db.issued_certificate.rows ++ [cert] := by
  simp only [Db.exec] at h ⊢
  cases hins : db.issued_certificate.insert cert with
  | none =>
      rw [hins] at h
      exact absurd h (by simp)
  | some t => exact Table.insert_eq_some.mp hins

/-- A row under a new serial goes in. -/
theorem exec_insert_issued_new {db : Db} {cert : IssuedCertificate}
    (h : cert.serial ∉ db.issued_certificate.rows.map IssuedCertificate.serial) :
    (db.exec (.insert_issued cert)).1 = .ok () := by
  simp only [Db.exec]
  cases hins : db.issued_certificate.insert cert with
  | none =>
      obtain ⟨r, hr, hkey⟩ := Table.insert_eq_none.mp hins
      exact absurd (hkey ▸ List.mem_map_of_mem hr) h
  | some t => rfl

/-- An insert that is refused changes nothing. -/
theorem exec_insert_issued_error {db : Db} {cert : IssuedCertificate} {e : String}
    (h : (db.exec (.insert_issued cert)).1 = .error e) :
    (db.exec (.insert_issued cert)).2 = db := by
  simp only [Db.exec] at h ⊢
  cases hins : db.issued_certificate.insert cert with
  | none => rfl
  | some t =>
      rw [hins] at h
      exact absurd h (by simp)

end Blapki
