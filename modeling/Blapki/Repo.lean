/-
Repository functions over the issued-certificate and transaction tables
(`db/repo.rs`).

Each function is one statement, `record_transaction` two. A run of the server is
a trace of statements of any number of them, interleaved in any order, so what
holds over every trace holds over every interleaving.

The life of one certificate, by CA and serial, is `RevocationStatus` under
`next`: unknown until its insert, good from there to the first revocation,
revoked from then on. `status_refines` connects the table to it.
-/
import Blapki.Env

set_option autoImplicit false

namespace Blapki

open Effect

/-! ## The functions -/

/-- The revocation status of a serial, for OCSP. -/
inductive RevocationStatus where
  | Good
  | Revoked (revoked_at : Option String) (reason : Option Int)
  | Unknown
deriving DecidableEq, Repr

namespace repo

/-- Insert a newly issued certificate. -/
def insert_issued (cert : IssuedCertificate) : Async Unit := query (.insert_issued cert)

/-- The status a selected row stands for. -/
def status_of_row : Option StatusRow → RevocationStatus
  | none => .Unknown
  | some row =>
      if row.status = STATUS_REVOKED then .Revoked row.revoked_at row.revocation_reason else .Good

/-- Look up the status of a certificate by serial (hex, lowercase) within a CA. -/
def status_by_serial (ca_id serial : String) : Async RevocationStatus := do
  let row ← query (.select_status ca_id serial)
  pure (status_of_row row)

/-- List all revoked certificates for a CA. -/
def list_revoked (ca_id : String) : Async (List RevokedEntry) := query (.select_revoked ca_id)

/-- Mark a certificate revoked. -/
def revoke (ca_id serial : String) (reason : Int) (revoked_at : String) : Async Bool := do
  let rows_affected ← query (.update_revoked ca_id serial reason revoked_at)
  pure (decide (0 < rows_affected))

/-- Record a SCEP transaction (best-effort audit trail). Upsert-ish: update if the
transaction id already exists. -/
def record_transaction (transaction_id profile status message_type created_at : String) :
    Async Unit := do
  let existing ← query (.select_transaction transaction_id)
  if existing.isSome then
    let _ ← query (.update_transaction status message_type transaction_id)
    pure ()
  else
    query (.insert_transaction ⟨transaction_id, profile, status, message_type, created_at⟩)

/-! ## Their runs -/

/-- A query is one statement; its failure is `AppError::Database`. -/
theorem query_returns {q : Stmt} {tr : Trace} {r : AppResult q.Rows} :
    Returns (query q) tr r ↔
      ∃ x : Except String q.Rows, tr = [⟨Op.db q, x⟩] ∧ r = map_err x .Database :=
  returns_request_lift

/-- A query is its execution, unless it failed and changed nothing. -/
theorem query_steps {q : Stmt} {tr : Trace} {r : AppResult q.Rows} {faulty : Prop} {db db' : Db}
    (h : Returns (query q) tr r) (hworld : Steps (step faulty) db tr db') :
    (r = map_err (db.exec q).1 .Database ∧ db' = (db.exec q).2) ∨
      faulty ∧ (∃ e, r = .error e) ∧ db' = db := by
  obtain ⟨x, rfl, rfl⟩ := query_returns.mp h
  obtain ⟨u, hstep, hnil⟩ := steps_cons.mp hworld
  obtain rfl := steps_nil.mp hnil
  rcases hstep with hexec | ⟨hfaulty, ⟨e, he⟩, hsame⟩
  · left
    have hx : x = (db.exec q).1 := congrArg Prod.fst hexec
    exact ⟨by rw [hx], congrArg Prod.snd hexec⟩
  · right
    have hx : x = .error e := he
    exact ⟨hfaulty, ⟨.Database e, by rw [hx]; rfl⟩, hsame⟩

/-- Where no statement fails without a reason, a query is its execution. -/
theorem query_world {q : Stmt} {tr : Trace} {r : AppResult q.Rows} {db db' : Db}
    (h : Returns (query q) tr r) (hworld : Steps (step False) db tr db') :
    r = map_err (db.exec q).1 .Database ∧ db' = (db.exec q).2 := by
  rcases query_steps h hworld with hexec | ⟨hno, _⟩
  · exact hexec
  · exact absurd hno id

/-- A query in front of a task. -/
theorem returns_query_bind {α : Type} {q : Stmt} {f : q.Rows → Async α} {tr : Trace}
    {r : AppResult α} :
    Returns (query q >>= f) tr r ↔
      (∃ e, tr = [⟨Op.db q, .error e⟩] ∧ r = .error (.Database e)) ∨
        ∃ a tr', tr = ⟨Op.db q, .ok a⟩ :: tr' ∧ Returns (f a) tr' r := by
  rw [returns_bind]
  constructor
  · rintro (⟨e, rfl, h⟩ | ⟨a, t₁, t₂, rfl, h₁, h₂⟩)
    · obtain ⟨x, rfl, hx⟩ := query_returns.mp h
      rcases x with e' | a
      · cases hx
        exact .inl ⟨e', rfl, rfl⟩
      · cases hx
    · obtain ⟨x, rfl, hx⟩ := query_returns.mp h₁
      rw [map_err_eq_ok.mp hx.symm]
      exact .inr ⟨a, t₂, rfl, h₂⟩
  · rintro (⟨e, rfl, rfl⟩ | ⟨a, tr', rfl, h⟩)
    · exact .inl ⟨_, rfl, query_returns.mpr ⟨.error e, rfl, rfl⟩⟩
    · exact .inr ⟨a, _, tr', rfl, query_returns.mpr ⟨.ok a, rfl, rfl⟩, h⟩

/-- A query whose rows are read by a function. -/
theorem query_map_returns {α : Type} {q : Stmt} {f : q.Rows → α} {tr : Trace} {r : AppResult α} :
    Returns (query q >>= fun rows => pure (f rows)) tr r ↔
      ∃ x : Except String q.Rows, tr = [⟨Op.db q, x⟩] ∧ r = (map_err x .Database).map f := by
  rw [returns_query_bind]
  constructor
  · rintro (⟨e, rfl, rfl⟩ | ⟨rows, tr', rfl, h⟩)
    · exact ⟨.error e, rfl, rfl⟩
    · obtain ⟨rfl, rfl⟩ := returns_pure.mp h
      exact ⟨.ok rows, rfl, rfl⟩
  · rintro ⟨x, rfl, rfl⟩
    rcases x with e | rows
    · exact .inl ⟨e, rfl, rfl⟩
    · exact .inr ⟨rows, [], rfl, returns_pure.mpr ⟨rfl, rfl⟩⟩

/-- `revoke` returns whether its statement met a row. -/
theorem revoke_returns {ca_id serial revoked_at : String} {reason : Int} {tr : Trace} {b : Bool} :
    Returns (revoke ca_id serial reason revoked_at) tr (.ok b) ↔
      ∃ n : Nat, tr = [⟨Op.db (.update_revoked ca_id serial reason revoked_at), .ok n⟩] ∧
        b = decide (0 < n) := by
  constructor
  · intro h
    rcases returns_query_bind.mp h with ⟨e, _, he⟩ | ⟨n, tr', rfl, h₁⟩
    · cases he
    · obtain ⟨rfl, hb⟩ := returns_pure.mp h₁
      exact ⟨n, rfl, Except.ok.inj hb⟩
  · rintro ⟨n, rfl, rfl⟩
    exact returns_query_bind.mpr (.inr ⟨n, [], rfl, returns_pure.mpr ⟨rfl, rfl⟩⟩)

/-- `status_by_serial` returns what the selected row stands for. -/
theorem status_by_serial_returns {ca_id serial : String} {tr : Trace} {s : RevocationStatus} :
    Returns (status_by_serial ca_id serial) tr (.ok s) ↔
      ∃ row : Option StatusRow, tr = [⟨Op.db (.select_status ca_id serial), .ok row⟩] ∧
        s = status_of_row row := by
  constructor
  · intro h
    rcases returns_query_bind.mp h with ⟨e, _, he⟩ | ⟨row, tr', rfl, h₁⟩
    · cases he
    · obtain ⟨rfl, hs⟩ := returns_pure.mp h₁
      exact ⟨row, rfl, Except.ok.inj hs⟩
  · rintro ⟨row, rfl, rfl⟩
    exact returns_query_bind.mpr (.inr ⟨row, [], rfl, returns_pure.mpr ⟨rfl, rfl⟩⟩)

/-- Recording a transaction looks it up and, unless that failed, inserts it or updates
it. -/
theorem record_transaction_returns {transaction_id profile status message_type created_at : String}
    {tr : Trace} {r : AppResult Unit} :
    Returns (record_transaction transaction_id profile status message_type created_at) tr r ↔
      (∃ e, tr = [⟨Op.db (.select_transaction transaction_id), .error e⟩] ∧
        r = .error (.Database e)) ∨
      (∃ x : Except String Unit, tr = [⟨Op.db (.select_transaction transaction_id), .ok none⟩,
          ⟨Op.db (.insert_transaction ⟨transaction_id, profile, status, message_type, created_at⟩),
            x⟩] ∧ r = map_err x .Database) ∨
      ∃ (found : String) (x : Except String Nat),
        tr = [⟨Op.db (.select_transaction transaction_id), .ok (some found)⟩,
          ⟨Op.db (.update_transaction status message_type transaction_id), x⟩] ∧
        r = (map_err x .Database).map fun _ => () := by
  constructor
  · intro h
    rcases returns_query_bind.mp h with ⟨e, rfl, rfl⟩ | ⟨existing, tr', rfl, h₁⟩
    · exact .inl ⟨e, rfl, rfl⟩
    · rcases existing with _ | found
      · obtain ⟨x, rfl, rfl⟩ := query_returns.mp h₁
        exact .inr (.inl ⟨x, rfl, rfl⟩)
      · rcases returns_query_bind.mp h₁ with ⟨e, rfl, rfl⟩ | ⟨n, tr'', rfl, h₂⟩
        · exact .inr (.inr ⟨found, .error e, rfl, rfl⟩)
        · obtain ⟨rfl, rfl⟩ := returns_pure.mp h₂
          exact .inr (.inr ⟨found, .ok n, rfl, rfl⟩)
  · rintro (⟨e, rfl, rfl⟩ | ⟨x, rfl, rfl⟩ | ⟨found, x, rfl, rfl⟩)
    · exact returns_query_bind.mpr (.inl ⟨e, rfl, rfl⟩)
    · exact returns_query_bind.mpr (.inr ⟨none, _, rfl, query_returns.mpr ⟨x, rfl, rfl⟩⟩)
    · refine returns_query_bind.mpr (.inr ⟨some found, _, rfl, ?_⟩)
      rcases x with e | n
      · exact returns_query_bind.mpr (.inl ⟨e, rfl, rfl⟩)
      · exact returns_query_bind.mpr (.inr ⟨n, [], rfl, returns_pure.mpr ⟨rfl, rfl⟩⟩)

/-- What holds of the three statements holds of every event of a call. -/
theorem record_transaction_forall
    {transaction_id profile status message_type created_at : String} {p : Stmt → Prop}
    (hselect : p (.select_transaction transaction_id))
    (hinsert : p (.insert_transaction ⟨transaction_id, profile, status, message_type, created_at⟩))
    (hupdate : p (.update_transaction status message_type transaction_id))
    {tr : Trace} {r : AppResult Unit}
    (h : Returns (record_transaction transaction_id profile status message_type created_at) tr r) :
    ∀ e ∈ tr, ∃ q x, e = ⟨Op.db q, x⟩ ∧ p q := by
  rcases record_transaction_returns.mp h with ⟨e, rfl, _⟩ | ⟨x, rfl, _⟩ | ⟨found, x, rfl, _⟩
  · rw [List.forall_mem_singleton]
    exact ⟨_, _, rfl, hselect⟩
  · rw [List.forall_mem_cons, List.forall_mem_singleton]
    exact ⟨⟨_, _, rfl, hselect⟩, _, _, rfl, hinsert⟩
  · rw [List.forall_mem_cons, List.forall_mem_singleton]
    exact ⟨⟨_, _, rfl, hselect⟩, _, _, rfl, hupdate⟩

/-- Recording a transaction touches the transaction table only. -/
theorem record_transaction_frame {transaction_id profile status message_type created_at : String}
    {tr : Trace} {r : AppResult Unit}
    (h : Returns (record_transaction transaction_id profile status message_type created_at) tr r) :
    ∀ e ∈ tr, ∃ q x, e = ⟨Op.db q, x⟩ ∧ q.writes_issued = false :=
  record_transaction_forall (p := fun q => q.writes_issued = false) rfl rfl rfl h

end repo

end Blapki
