/-
What the server asks of its environment, and how the environment may react.

Every effect of the server is one request: a database statement, a call of a
challenge validator, random octets, the clock, and at start-up the process
environment and the file system. A server function with effects is an `Async`, a
task over these requests, so a statement about its runs covers every answer.

`step` is the world the requests go to. Its state is the database; the answers
of the clock, of the random number generator and of Intune are arbitrary. With
`faulty` any database statement may fail without an effect (a value too long for
its column, a lost connection), without it a statement fails only on a key
conflict.
-/
import Blapki.Effect
import Blapki.Store
import Blapki.Challenge
import Blapki.Crates

set_option autoImplicit false

namespace Blapki

open Effect

/-- The requests. -/
inductive Op where
  | db (q : Stmt)
  | validate (v : ChallengeValidator) (input : ValidationInput)
  | on_issued (v : ChallengeValidator) (input : ValidationInput) (info : IssuedInfo)
  | on_failure (v : ChallengeValidator) (input : ValidationInput) (message : String)
  | fill_bytes (n : Nat)
  | thread_rng
  | now
  | env_var (name : String)
  | connect (url : String)
  | path_exists (path : String)
  | read_file (path : String)
  | create_dir_all (path : String)
  | write_file (path : String) (contents : Bytes)
deriving DecidableEq

/-- The answers of a request. -/
abbrev Op.Res : Op → Type
  | .db q => Except String q.Rows
  | .validate _ _ => AppResult Unit
  | .on_issued _ _ _ => AppResult Unit
  | .on_failure _ _ _ => AppResult Unit
  | .fill_bytes n => { b : Bytes // b.length = n }
  | .thread_rng => Seed
  | .now => SystemTime
  | .env_var _ => Option String
  | .connect _ => Except String Unit
  | .path_exists _ => Bool
  | .read_file _ => Except String Bytes
  | .create_dir_all _ => Except String Unit
  | .write_file _ _ => Except String Unit

/-- A server function with effects. -/
abbrev Async (α : Type) : Type := Task Op Op.Res AppError α

/-- A trace of exchanges with the environment. -/
abbrev Trace : Type := List (Event Op.Res)

/-! ## The requests as functions -/

/-- Run a statement; `?` turns its failure into `AppError::Database`. -/
def query (q : Stmt) : Async q.Rows := do
  let r : Except String q.Rows ← request (Op.db q)
  map_err r .Database

/-- `rng.fill_bytes(&mut buf)` on a buffer of `n` octets. -/
def fill_bytes (n : Nat) : Async { b : Bytes // b.length = n } := request (Op.fill_bytes n)

/-- The generator `rand::thread_rng()` handed to a crate. -/
def thread_rng : Async Seed := request Op.thread_rng

/-- `SystemTime::now()`. -/
def system_time_now : Async SystemTime := request Op.now

namespace ChallengeValidator

/-- Approve or reject a request before issuance. -/
def validate (v : ChallengeValidator) (input : ValidationInput) : Async Unit := do
  let r : AppResult Unit ← request (Op.validate v input)
  r

/-- Called after a certificate is issued (Intune success notification). -/
def on_issued (v : ChallengeValidator) (input : ValidationInput) (info : IssuedInfo) :
    Async Unit := do
  let r : AppResult Unit ← request (Op.on_issued v input info)
  r

/-- Called when issuance fails (Intune failure notification). -/
def on_failure (v : ChallengeValidator) (input : ValidationInput) (message : String) :
    Async Unit := do
  let r : AppResult Unit ← request (Op.on_failure v input message)
  r

/-- A call of a validator is one event, and its result the answer. -/
theorem validate_returns {v : ChallengeValidator} {input : ValidationInput} (tr : Trace)
    (r : AppResult Unit) :
    Returns (v.validate input) tr r ↔ tr = [⟨Op.validate v input, r⟩] := by
  rw [validate, returns_request_lift]
  exact exists_eq_right'

theorem on_issued_returns {v : ChallengeValidator} {input : ValidationInput} {info : IssuedInfo}
    (tr : Trace) (r : AppResult Unit) :
    Returns (v.on_issued input info) tr r ↔ tr = [⟨Op.on_issued v input info, r⟩] := by
  rw [on_issued, returns_request_lift]
  exact exists_eq_right'

theorem on_failure_returns {v : ChallengeValidator} {input : ValidationInput} {message : String}
    (tr : Trace) (r : AppResult Unit) :
    Returns (v.on_failure input message) tr r ↔ tr = [⟨Op.on_failure v input message, r⟩] := by
  rw [on_failure, returns_request_lift]
  exact exists_eq_right'

end ChallengeValidator

/-! ## The world -/

/-- How the world may react to a request. -/
def step (faulty : Prop) (db : Db) : (o : Op) → o.Res → Db → Prop
  | .db q, r, db' => (r, db') = db.exec q ∨ (faulty ∧ (∃ e, r = .error e) ∧ db' = db)
  | .validate v input, r, db' => v.validates input r ∧ db' = db
  | .on_issued v _ _, r, db' => v.notifies r ∧ db' = db
  | .on_failure v _ _, r, db' => v.notifies r ∧ db' = db
  | _, _, db' => db' = db

/-- What may happen without faults may happen with them. -/
theorem step_faulty {faulty : Prop} {db db' : Db} {o : Op} {r : o.Res} (h : step False db o r db') :
    step faulty db o r db' := by
  cases o with
  | db q =>
      rcases h with h | ⟨hno, _⟩
      · exact .inl h
      · exact absurd hno id
  | _ => exact h

theorem steps_faulty {faulty : Prop} {db db' : Db} {tr : Trace}
    (h : Steps (step False) db tr db') : Steps (step faulty) db tr db' :=
  h.mono fun _ _ _ _ hstep => step_faulty hstep

/-- One such world: the clock stands at `now`, nothing fails without a reason, and a
service that is asked approves. -/
def serve (now : SystemTime) (db : Db) : (o : Op) → o.Res × Db
  | .db q => db.exec q
  | .validate (.StaticSecretValidator secret) input =>
      (StaticSecretValidator.validate secret input, db)
  | .validate _ _ | .on_issued _ _ _ | .on_failure _ _ _ => (.ok (), db)
  | .fill_bytes n => (⟨List.replicate n 1, List.length_replicate⟩, db)
  | .thread_rng => (0, db)
  | .now => (now, db)
  | .env_var _ => (none, db)
  | .path_exists _ => (false, db)
  | .read_file _ => (.error "no such file", db)
  | .connect _ | .create_dir_all _ | .write_file _ _ => (.ok (), db)

theorem step_serve (now : SystemTime) (db : Db) (o : Op) :
    step False db o (serve now db o).1 (serve now db o).2 := by
  cases o with
  | db q => exact .inl rfl
  | validate v input => cases v <;> exact ⟨by first | rfl | trivial, rfl⟩
  | on_issued v input info => cases v <;> exact ⟨by first | rfl | trivial, rfl⟩
  | on_failure v input message => cases v <;> exact ⟨by first | rfl | trivial, rfl⟩
  | _ => rfl

/-- Every server function has a run in every state of the database, at every time. -/
theorem exists_run {α : Type} (t : Async α) (now : SystemTime) (db : Db) :
    ∃ tr r db', Returns t tr r ∧ Steps (step False) db tr db' ∧
      ∀ now', ⟨Op.now, now'⟩ ∈ tr → now' = now := by
  refine ⟨_, _, _, run_eval (serve now) t.run db, steps_eval (step_serve now) t.run db, ?_⟩
  intro now' hmem
  obtain ⟨u, hu⟩ := mem_eval hmem
  exact hu

/-- An event that may change `issued_certificate`. -/
def writes_issued : Event Op.Res → Bool
  | ⟨.db q, _⟩ => q.writes_issued
  | _ => false

/-- An event that draws random octets, and touches nothing. -/
def draws : Event Op.Res → Bool
  | ⟨.fill_bytes _, _⟩ => true
  | ⟨.thread_rng, _⟩ => true
  | _ => false

theorem not_writes_issued_of_draws {e : Event Op.Res} (h : draws e = true) :
    writes_issued e = false := by
  obtain ⟨o, r⟩ := e
  rcases o with q | _ | _ | _ | _ | _ | _ | _ | _ | _ | _ | _ | _
  · exact Bool.noConfusion h
  all_goals rfl

/-- The world may answer draws in any way, and nothing changes. -/
theorem steps_draws {faulty : Prop} {db db' : Db} {tr : Trace} (h : ∀ e ∈ tr, draws e = true) :
    Steps (step faulty) db tr db' ↔ db' = db := by
  have hstep : ∀ e ∈ tr, ∀ u u', step faulty u e.1 e.2 u' ↔ u' = u := by
    rintro ⟨o, r⟩ he u u'
    have hdraws := h _ he
    -- of all operations only two draw
    rcases o with q | _ | _ | _ | _ | _ | _ | _ | _ | _ | _ | _ | _
    case fill_bytes => exact Iff.rfl
    case thread_rng => exact Iff.rfl
    all_goals exact Bool.noConfusion hdraws
  clear h
  induction tr with
  | nil => exact steps_nil
  | cons e tr ih =>
      rw [steps_cons]
      have ih' := ih fun e' he' => hstep e' (List.mem_cons_of_mem _ he')
      constructor
      · rintro ⟨u, hu, htr⟩
        rw [(hstep e List.mem_cons_self _ _).mp hu] at htr
        exact ih'.mp htr
      · intro hdb
        exact ⟨db, (hstep e List.mem_cons_self _ _).mpr rfl, ih'.mpr hdb⟩

/-- Only the statements that write `issued_certificate` change it. -/
theorem step_frame_issued {faulty : Prop} {db db' : Db} {e : Event Op.Res}
    (he : writes_issued e = false) (h : step faulty db e.1 e.2 db') :
    db'.issued_certificate = db.issued_certificate := by
  obtain ⟨o, r⟩ := e
  cases o with
  | db q =>
      -- executed, it is no statement on the table; failed, it did nothing
      rcases h with h | ⟨_, _, rfl⟩
      · rw [show db' = (db.exec q).2 from congrArg Prod.snd h]
        exact exec_frame_issued db he
      · rfl
  | validate v input => rw [h.2]
  | on_issued v input info => rw [h.2]
  | on_failure v input message => rw [h.2]
  | fill_bytes n => exact congrArg Db.issued_certificate h
  | thread_rng => exact congrArg Db.issued_certificate h
  | now => exact congrArg Db.issued_certificate h
  | env_var name => exact congrArg Db.issued_certificate h
  | connect url => exact congrArg Db.issued_certificate h
  | path_exists path => exact congrArg Db.issued_certificate h
  | read_file path => exact congrArg Db.issued_certificate h
  | create_dir_all path => exact congrArg Db.issued_certificate h
  | write_file path contents => exact congrArg Db.issued_certificate h

/-- A trace with no write of `issued_certificate` leaves it as it is. -/
theorem steps_frame_issued {faulty : Prop} {db db' : Db} {tr : Trace}
    (h : Steps (step faulty) db tr db') (htr : ∀ e ∈ tr, writes_issued e = false) :
    db'.issued_certificate = db.issued_certificate :=
  h.frame fun e he _ _ hstep => step_frame_issued (htr e he) hstep

end Blapki
