/-
CAs that share one database (`db/mod.rs`, `db/repo.rs`).

The repository scopes every query by CA and serial, so what a CA sees should be a map
from its serials to their status, `Register`, whatever the other CAs do. The primary
key of the table is the serial alone, and an insert goes by the key.

`own_history` says how far that reaches: the calls of a CA run by themselves, with the
results they had among the others, as long as no serial of it was inserted for another
CA first.
-/
import Blapki.Repo

set_option autoImplicit false

namespace Blapki

open Effect

namespace repo

/-! ## Calls -/

/-- A call of the repository on the certificates of a CA. -/
inductive Call where
  | insert_issued (cert : IssuedCertificate)
  | revoke (ca_id serial : String) (reason : Int) (revoked_at : String)
  | status_by_serial (ca_id serial : String)
  | list_revoked (ca_id : String)
deriving DecidableEq

namespace Call

/-- What a call returns. -/
abbrev Res : Call → Type
  | .insert_issued _ => Unit
  | .revoke _ _ _ _ => Bool
  | .status_by_serial _ _ => RevocationStatus
  | .list_revoked _ => List RevokedEntry

/-- The function that is called. -/
def run : (c : Call) → Async c.Res
  | .insert_issued cert => repo.insert_issued cert
  | .revoke ca_id serial reason revoked_at => repo.revoke ca_id serial reason revoked_at
  | .status_by_serial ca_id serial => repo.status_by_serial ca_id serial
  | .list_revoked ca_id => repo.list_revoked ca_id

/-- The CA a call is made for. -/
def ca_id : Call → String
  | .insert_issued cert => cert.ca_id
  | .revoke ca_id _ _ _ => ca_id
  | .status_by_serial ca_id _ => ca_id
  | .list_revoked ca_id => ca_id

/-- The statement of a call. -/
def stmt : Call → Stmt
  | .insert_issued cert => .insert_issued cert
  | .revoke ca_id serial reason revoked_at => .update_revoked ca_id serial reason revoked_at
  | .status_by_serial ca_id serial => .select_status ca_id serial
  | .list_revoked ca_id => .select_revoked ca_id

/-- What a call makes of the result of its statement. -/
def result : (c : Call) → Except String c.stmt.Rows → AppResult c.Res
  | .insert_issued _, x => map_err x .Database
  | .revoke _ _ _ _, x => (map_err x .Database).map fun n : Nat => decide (0 < n)
  | .status_by_serial _ _, x => (map_err x .Database).map status_of_row
  | .list_revoked _, x => map_err x .Database

/-- A call is its one statement. -/
theorem run_returns (c : Call) {tr : Trace} {r : AppResult c.Res} :
    Returns c.run tr r ↔ ∃ x, tr = [⟨Op.db c.stmt, x⟩] ∧ r = c.result x := by
  cases c with
  | insert_issued cert => exact query_returns
  | list_revoked ca_id => exact query_returns
  | revoke ca_id serial reason revoked_at => exact query_map_returns
  | status_by_serial ca_id serial => exact query_map_returns

end Call

/-- A history of calls with their results, each run in the database the ones before
it left. -/
inductive History : Db → List ((c : Call) × AppResult c.Res) → Db → Prop
  | nil (db : Db) : History db [] db
  | cons {db u db' : Db} {c : Call} {r : AppResult c.Res} {tr : Trace}
      {h : List ((c : Call) × AppResult c.Res)} :
      Returns c.run tr r → Steps (step False) db tr u → History u h db' →
      History db (⟨c, r⟩ :: h) db'

/-- The calls of a history. -/
def calls_of (h : List ((c : Call) × AppResult c.Res)) : List Call := h.map Sigma.fst

/-- The calls of a history for one CA, with their results. -/
def own (a : String) (h : List ((c : Call) × AppResult c.Res)) :
    List ((c : Call) × AppResult c.Res) := h.filter fun e => e.1.ca_id = a

section History

variable {db db' : Db} {c : Call} {r : AppResult c.Res} {h h' : List ((c : Call) × AppResult c.Res)}

/-- A call returns what its statement gives, and leaves what its statement leaves. -/
theorem history_cons :
    History db (⟨c, r⟩ :: h) db' ↔
      r = c.result (db.exec c.stmt).1 ∧ History (db.exec c.stmt).2 h db' := by
  constructor
  · intro hrun
    cases hrun with
    | cons hcall hworld hrest =>
        obtain ⟨x, rfl, hr⟩ := c.run_returns.mp hcall
        obtain ⟨u, hstep, hnil⟩ := steps_cons.mp hworld
        obtain rfl := steps_nil.mp hnil
        -- no statement fails, so the answer is that of the database
        rcases hstep with hexec | ⟨hno, _⟩
        · have hx : x = (db.exec c.stmt).1 := congrArg Prod.fst hexec
          obtain rfl : _ = (db.exec c.stmt).2 := congrArg Prod.snd hexec
          rw [hx] at hr
          exact ⟨hr, hrest⟩
        · exact absurd hno id
  · rintro ⟨rfl, hrest⟩
    exact .cons (c.run_returns.mpr ⟨_, rfl, rfl⟩) (steps_cons.mpr ⟨_, .inl rfl, .nil _⟩) hrest

/-- Calls can always be made. -/
theorem exists_history (db : Db) (calls : List Call) :
    ∃ h db', History db h db' ∧ calls_of h = calls := by
  induction calls generalizing db with
  | nil => exact ⟨[], db, .nil db, rfl⟩
  | cons c calls ih =>
      obtain ⟨h, db', hrun, rfl⟩ := ih (db.exec c.stmt).2
      exact ⟨⟨c, _⟩ :: h, db', history_cons.mpr ⟨rfl, hrun⟩, rfl⟩

/-- The calls determine the results. -/
theorem history_unique {u u' : Db} (hrun : History db h u) (hrun' : History db h' u')
    (hcalls : calls_of h' = calls_of h) : h' = h := by
  induction h generalizing h' db with
  | nil => exact List.map_eq_nil_iff.mp hcalls
  | cons e h ih =>
      obtain ⟨c, r⟩ := e
      obtain ⟨⟨c', r'⟩, t, rfl, hc, ht⟩ := List.map_eq_cons_iff.mp hcalls
      obtain rfl : c' = c := hc
      obtain ⟨rfl, hrest⟩ := history_cons.mp hrun
      obtain ⟨rfl, hrest'⟩ := history_cons.mp hrun'
      rw [ih hrest hrest' ht]

theorem own_cons (a : String) (e : (c : Call) × AppResult c.Res) :
    own a (e :: h) = if e.1.ca_id = a then e :: own a h else own a h := by
  rw [own, List.filter_cons]
  simp only [decide_eq_true_eq]
  rfl

theorem calls_own (a : String) :
    calls_of (own a h) = (calls_of h).filter fun c => c.ca_id = a := by
  rw [calls_of, own, calls_of, List.filter_map]
  rfl

end History

/-! ## The rows of one CA -/

/-- A row of the CA. -/
def of_ca (a : String) (r : IssuedCertificate) : Bool := r.ca_id = a

/-- The second database holds the rows the first has for the CA, and no others. -/
def Apart (a : String) (db db₁ : Db) : Prop :=
  db₁.issued_certificate = db.issued_certificate.restrict (of_ca a)

section Apart

variable {a : String} {db db₁ : Db}

theorem of_ca_of_is_row {s : String} (r : IssuedCertificate) (h : is_row a s r = true) :
    of_ca a r = true := decide_eq_true (of_decide_eq_true h).1

theorem of_ca_of_is_valid_row {s : String} (r : IssuedCertificate)
    (h : is_valid_row a s r = true) : of_ca a r = true := decide_eq_true (of_decide_eq_true h).1

/-- A call for another CA leaves the rows alone. -/
theorem apart_other {c : Call} (hca : c.ca_id ≠ a) (h : Apart a db db₁) :
    Apart a (db.exec c.stmt).2 db₁ := by
  cases c with
  | status_by_serial ca_id serial => exact h
  | list_revoked ca_id => exact h
  -- a revocation of another CA meets none of the rows that are kept
  | revoke ca_id serial reason revoked_at =>
      refine h.trans (Table.restrict_update_other (t := db.issued_certificate)
        (f := set_revoked reason revoked_at) (fun _ => rfl) (fun _ => rfl) fun r hr => ?_).symm
      have hrow : r.ca_id = ca_id := (of_decide_eq_true hr).1
      exact decide_eq_false fun hno => hca (hrow.symm.trans hno)
  | insert_issued cert =>
      simp only [Call.stmt, Db.exec]
      cases hins : db.issued_certificate.insert cert with
      | none => exact h
      | some t => exact h.trans (Table.restrict_insert_other hins (decide_eq_false hca)).symm

/-- A call for the CA that is no insert returns the same, and keeps the rows the same. -/
theorem apart_own {c : Call} (hca : c.ca_id = a) (hc : ∀ cert, c ≠ .insert_issued cert)
    (h : Apart a db db₁) :
    (db₁.exec c.stmt).1 = (db.exec c.stmt).1 ∧ Apart a (db.exec c.stmt).2 (db₁.exec c.stmt).2 := by
  cases c with
  | insert_issued cert => exact absurd rfl (hc cert)
  | status_by_serial ca_id serial =>
      obtain rfl : ca_id = a := hca
      refine ⟨?_, h⟩
      -- the look-up, the list and the count see rows of the CA only
      have hfirst := Table.first_restrict (t := db.issued_certificate)
        (of_ca_of_is_row (a := ca_id) (s := serial))
      rw [← h] at hfirst
      simp only [Call.stmt, Db.exec, hfirst]
  | list_revoked ca_id =>
      obtain rfl : ca_id = a := hca
      refine ⟨?_, h⟩
      have hselect := Table.select_restrict (t := db.issued_certificate) (p := of_ca ca_id)
        (q := fun r => r.ca_id = ca_id ∧ r.status = STATUS_REVOKED)
        fun r hr => decide_eq_true (of_decide_eq_true hr).1
      rw [← h] at hselect
      simp only [Call.stmt, Db.exec, hselect]
  | revoke ca_id serial reason revoked_at =>
      obtain rfl : ca_id = a := hca
      constructor
      · have hcount := Table.count_restrict (t := db.issued_certificate)
          (of_ca_of_is_valid_row (a := ca_id) (s := serial))
        rw [← h] at hcount
        simp only [Call.stmt, Db.exec, hcount]
      · have hupdate := Table.restrict_update (t := db.issued_certificate) (p := of_ca ca_id)
          (q := is_valid_row ca_id serial) (f := set_revoked reason revoked_at)
          (fun _ => rfl) fun _ => rfl
        rw [← h] at hupdate
        exact hupdate.symm

/-- The CA whose row holds a serial. -/
def owner (db : Db) (serial : String) : Option String :=
  (db.issued_certificate.first fun r => r.serial = serial).map IssuedCertificate.ca_id

theorem owner_eq_none {s : String} :
    owner db s = none ↔ ∀ r ∈ db.issued_certificate.rows, r.serial ≠ s := by
  rw [owner, Option.map_eq_none_iff, Table.first_eq_none]
  exact forall₂_congr fun r _ => decide_eq_false_iff_not

theorem owner_eq_some {s ca : String} :
    owner db s = some ca ↔ ∃ r ∈ db.issued_certificate.rows, r.serial = s ∧ r.ca_id = ca := by
  rw [owner, Option.map_eq_some_iff]
  constructor
  · rintro ⟨r, hfirst, hca⟩
    obtain ⟨hr, hserial⟩ := Table.first_mem hfirst
    exact ⟨r, hr, of_decide_eq_true hserial, hca⟩
  · rintro ⟨r, hr, hserial, hca⟩
    refine ⟨r, Table.first_eq_some _ hr (decide_eq_true hserial) fun r' hr' => ?_, hca⟩
    exact (of_decide_eq_true hr').trans hserial.symm

/-- An insert goes through for a serial without an owner. -/
theorem exec_insert_issued_new {cert : IssuedCertificate} (h : owner db cert.serial = none) :
    ∃ t, db.issued_certificate.insert cert = some t ∧
      db.exec (.insert_issued cert) = (.ok (), { db with issued_certificate := t }) := by
  cases hins : db.issued_certificate.insert cert with
  | none =>
      obtain ⟨r, hr, hserial⟩ := Table.insert_eq_none.mp hins
      exact absurd hserial (owner_eq_none.mp h r hr)
  | some t =>
      refine ⟨t, rfl, ?_⟩
      simp only [Db.exec, hins]

/-- An insert is refused for a serial that has an owner. -/
theorem exec_insert_issued_taken {cert : IssuedCertificate} {ca : String}
    (h : owner db cert.serial = some ca) :
    db.exec (.insert_issued cert)
      = (.error "UNIQUE constraint failed: issued_certificate.serial", db) := by
  obtain ⟨r, hr, hserial, _⟩ := owner_eq_some.mp h
  have hins : db.issued_certificate.insert cert = none := Table.insert_eq_none.mpr ⟨r, hr, hserial⟩
  simp only [Db.exec, hins]

/-- The owner of a serial in the rows of the CA. -/
theorem owner_apart (h : Apart a db db₁) (s : String) :
    owner db₁ s = (owner db s).filter fun ca => ca = a := by
  cases hs : owner db s with
  | none =>
      refine owner_eq_none.mpr fun r hr => owner_eq_none.mp hs r ?_
      rw [h, Table.restrict_rows] at hr
      exact List.mem_of_mem_filter hr
  | some ca =>
      obtain ⟨r, hr, hserial, hca⟩ := owner_eq_some.mp hs
      -- a serial has one row, so it is of the CA or of no use to it
      by_cases hown : ca = a
      · rw [Option.filter_some, if_pos (decide_eq_true hown), owner_eq_some]
        refine ⟨r, ?_, hserial, hca⟩
        rw [h, Table.restrict_rows]
        exact List.mem_filter_of_mem hr (decide_eq_true (hca.trans hown))
      · rw [Option.filter_some, if_neg (mt of_decide_eq_true hown), owner_eq_none]
        intro r' hr' hserial'
        rw [h, Table.restrict_rows] at hr'
        obtain ⟨hmem, hca'⟩ := List.mem_filter.mp hr'
        obtain rfl := db.issued_certificate.eq_of_key hr hmem (hserial.trans hserial'.symm)
        exact hown (hca.symm.trans (of_decide_eq_true hca'))

/-- An insert for the CA returns the same unless the serial is held by another CA, and
then keeps the rows the same. -/
theorem apart_insert {cert : IssuedCertificate} (hca : cert.ca_id = a) (h : Apart a db db₁) :
    ((db₁.exec (.insert_issued cert)).1 = (db.exec (.insert_issued cert)).1 ↔
      (owner db cert.serial).or (some a) = some a) ∧
    ((owner db cert.serial).or (some a) = some a →
      Apart a (db.exec (.insert_issued cert)).2 (db₁.exec (.insert_issued cert)).2) := by
  have hown := owner_apart h cert.serial
  cases hs : owner db cert.serial with
  | none =>
      rw [hs] at hown
      obtain ⟨t, hins, hexec⟩ := exec_insert_issued_new hs
      obtain ⟨t₁, hins₁, hexec₁⟩ := exec_insert_issued_new hown
      rw [hexec, hexec₁]
      refine ⟨iff_of_true rfl rfl, fun _ => ?_⟩
      rw [h, Table.restrict_insert hins (decide_eq_true hca)] at hins₁
      exact (Option.some.inj hins₁).symm
  | some ca =>
      rw [hs, Option.filter_some] at hown
      rw [exec_insert_issued_taken hs, Option.some_or]
      -- taken by the CA itself it is refused in both, taken by another only in one
      by_cases hsame : ca = a
      · rw [if_pos (decide_eq_true hsame)] at hown
        rw [exec_insert_issued_taken hown]
        exact ⟨iff_of_true rfl (congrArg some hsame), fun _ => h⟩
      · rw [if_neg (mt of_decide_eq_true hsame)] at hown
        obtain ⟨t₁, _, hexec₁⟩ := exec_insert_issued_new hown
        rw [hexec₁]
        refine ⟨iff_of_false (fun hno => ?_) fun hno => hsame (Option.some.inj hno),
          fun hno => absurd (Option.some.inj hno) hsame⟩
        cases hno

end Apart

/-! ## Serials of two CAs -/

/-- The CA an insert claims a serial for. -/
def Call.claims (serial : String) : Call → Option String
  | .insert_issued cert => if cert.serial = serial then some cert.ca_id else none
  | _ => none

/-- The CA that is the first to insert a serial. -/
def first_owner (calls : List Call) (serial : String) : Option String :=
  calls.findSome? (Call.claims serial)

/-- Every serial the CA inserts is its own, in the database or by the first insert. -/
def Sole (a : String) (db : Db) (calls : List Call) : Prop :=
  ∀ cert, Call.insert_issued cert ∈ calls → cert.ca_id = a →
    (owner db cert.serial).or (first_owner calls cert.serial) = some a

/-- A call makes its CA the owner of a free serial it claims, and no other call changes
an owner. -/
theorem owner_exec (db : Db) (c : Call) (s : String) :
    owner (db.exec c.stmt).2 s = (owner db s).or (c.claims s) := by
  cases c with
  | status_by_serial ca_id serial => exact Option.or_none.symm
  | list_revoked ca_id => exact Option.or_none.symm
  | revoke ca_id serial reason revoked_at =>
      refine Eq.trans ?_ Option.or_none.symm
      have hfirst := Table.first_update (t := db.issued_certificate) (p := is_valid_row ca_id serial)
        (q := fun r => r.serial = s) (f := set_revoked reason revoked_at) (fun _ => rfl)
        fun _ => rfl
      refine (congrArg (Option.map IssuedCertificate.ca_id) hfirst).trans ?_
      rw [Option.map_map, owner]
      -- a revocation changes no owner
      congr 1
      funext r
      by_cases hp : is_valid_row ca_id serial r = true
      · simp only [Function.comp_apply, if_pos hp, set_revoked]
      · simp only [Function.comp_apply, if_neg hp]
  | insert_issued cert =>
      simp only [Call.stmt, Call.claims]
      cases hs : owner db cert.serial with
      | some ca =>
          rw [exec_insert_issued_taken hs]
          by_cases hserial : cert.serial = s
          · rw [← hserial, hs, Option.some_or]
          · rw [if_neg hserial, Option.or_none]
      | none =>
          obtain ⟨t, hins, hexec⟩ := exec_insert_issued_new hs
          rw [hexec, owner, Table.first, (Table.insert_eq_some.mp hins).2, List.find?_append,
            List.find?_singleton, Option.map_or, owner, Table.first]
          by_cases hserial : cert.serial = s
          · rw [if_pos hserial, if_pos (decide_eq_true hserial)]
            rfl
          · rw [if_neg hserial, if_neg (mt of_decide_eq_true hserial)]
            rfl

theorem owner_first_owner (db : Db) (c : Call) (calls : List Call) (s : String) :
    (owner (db.exec c.stmt).2 s).or (first_owner calls s)
      = (owner db s).or (first_owner (c :: calls) s) := by
  rw [owner_exec, first_owner, first_owner, List.findSome?_cons, Option.or_assoc]
  cases c.claims s with
  | none => rfl
  | some ca => rfl

/-- The condition on the rest of a history, after a call that is no insert for the CA. -/
theorem sole_cons {a : String} {db : Db} {c : Call} {calls : List Call}
    (hc : ∀ cert, c = .insert_issued cert → cert.ca_id ≠ a) :
    Sole a db (c :: calls) ↔ Sole a (db.exec c.stmt).2 calls := by
  constructor
  · intro h cert hmem hca
    rw [owner_first_owner]
    exact h cert (List.mem_cons_of_mem _ hmem) hca
  · intro h cert hmem hca
    rw [← owner_first_owner]
    rcases List.mem_cons.mp hmem with hhead | hmem
    · exact absurd hca (hc cert hhead.symm)
    · exact h cert hmem hca

/-- A CA is alone with its serials after an insert for it, when the serial was no other's. -/
theorem sole_insert {a : String} {db : Db} {cert : IssuedCertificate} {calls : List Call}
    (hca : cert.ca_id = a) :
    Sole a db (.insert_issued cert :: calls) ↔
      (owner db cert.serial).or (some a) = some a ∧
        Sole a (db.exec (.insert_issued cert)).2 calls := by
  have hfirst : first_owner (.insert_issued cert :: calls) cert.serial = some a := by
    rw [first_owner, List.findSome?_cons, Call.claims, if_pos rfl, hca]
  constructor
  · intro h
    have hhead := h cert List.mem_cons_self hca
    rw [hfirst] at hhead
    refine ⟨hhead, fun cert' hmem hca' => ?_⟩
    have hrest := h cert' (List.mem_cons_of_mem _ hmem) hca'
    rwa [← owner_first_owner] at hrest
  · rintro ⟨hhead, hrest⟩ cert' hmem hca'
    -- the insert at hand, or one behind it
    rcases List.mem_cons.mp hmem with heq | hmem
    · obtain rfl := Call.insert_issued.inj heq
      rw [hfirst]
      exact hhead
    · rw [← owner_first_owner]
      exact hrest cert' hmem hca'

/-- The result of an insert tells how its statement went. -/
theorem database_inj {x y : Except String Unit}
    (h : map_err x .Database = map_err y .Database) : x = y := by
  rcases x with e | ⟨⟩
  · rcases y with e' | ⟨⟩
    · rw [AppError.Database.inj (Except.error.inj h)]
    · cases h
  · rcases y with e' | ⟨⟩
    · cases h
    · rfl

/-- **The calls of a CA, run by themselves**, return what they returned among the others
exactly when every serial the CA inserts is its own. -/
theorem own_history {a : String} {db db' db₁ : Db} {h : List ((c : Call) × AppResult c.Res)}
    (hrun : History db h db') (hap : Apart a db db₁) :
    (∃ u, History db₁ (own a h) u) ↔ Sole a db (calls_of h) := by
  induction h generalizing db db₁ with
  | nil => exact iff_of_true ⟨db₁, .nil db₁⟩ fun _ hno => absurd hno List.not_mem_nil
  | cons e h ih =>
      obtain ⟨c, r⟩ := e
      obtain ⟨rfl, hrest⟩ := history_cons.mp hrun
      show _ ↔ Sole a db (c :: calls_of h)
      by_cases hca : c.ca_id = a
      · rw [own_cons, if_pos hca]
        simp only [history_cons]
        rw [exists_and_left]
        -- an insert is where the two can part, any other call of the CA is answered alike
        by_cases hins : ∃ cert, c = .insert_issued cert
        · obtain ⟨cert, rfl⟩ := hins
          obtain ⟨hsame, hnext⟩ := apart_insert hca hap
          rw [sole_insert hca, ← hsame]
          constructor
          · rintro ⟨hres, hown⟩
            have hexec := database_inj hres
            exact ⟨hexec.symm, (ih hrest (hnext (hsame.mp hexec.symm))).mp hown⟩
          · rintro ⟨hexec, hsole⟩
            refine ⟨?_, (ih hrest (hnext (hsame.mp hexec))).mpr hsole⟩
            exact congrArg _ hexec.symm
        · obtain ⟨hres, hnext⟩ := apart_own hca (fun cert hno => hins ⟨cert, hno⟩) hap
          rw [sole_cons fun cert hno => absurd ⟨cert, hno⟩ hins, hres, ih hrest hnext]
          exact and_iff_right rfl
      · rw [own_cons, if_neg hca, sole_cons, ih hrest (apart_other hca hap)]
        rintro cert rfl
        exact hca

/-! ## The map of a CA -/

/-- What a CA sees of the table: a map from its serials to their status columns. -/
abbrev Register : Type := String → Option StatusRow

namespace Register

/-- The status columns of a row. -/
def columns (r : IssuedCertificate) : StatusRow := ⟨r.status, r.revoked_at, r.revocation_reason⟩

/-- The map before any call. -/
def empty : Register := fun _ => none

/-- The map of the rows of a CA. -/
def of (a : String) (db : Db) : Register := fun s =>
  (db.issued_certificate.first (is_row a s)).map columns

/-- Whether a serial can be revoked. -/
def is_valid : Option StatusRow → Bool
  | none => false
  | some row => row.status = STATUS_VALID

/-- The status after a revocation. -/
def revoked (reason : Int) (revoked_at : String) (row : StatusRow) : StatusRow :=
  if row.status = STATUS_VALID then ⟨STATUS_REVOKED, some revoked_at, some reason⟩ else row

/-- What the map answers to a call. The order of a listing is left open. -/
def Answers (m : Register) : (c : Call) → AppResult c.Res → Prop
  | .insert_issued cert, r => r = .ok () ↔ m cert.serial = none
  | .revoke _ serial _ _, r => r = .ok (is_valid (m serial))
  | .status_by_serial _ serial, r => r = .ok (status_of_row (m serial))
  | .list_revoked _, r => ∃ l, r = .ok l ∧ (l.map RevokedEntry.serial).Nodup ∧
      ∀ entry, entry ∈ l ↔ m entry.serial = some ⟨STATUS_REVOKED, entry.revoked_at, entry.reason⟩

/-- The map after a call. -/
def next (m : Register) : Call → Register
  | .insert_issued cert => fun s =>
      (m s).or (if cert.serial = s then some (columns cert) else none)
  | .revoke _ serial reason revoked_at => fun s =>
      if serial = s then (m s).map (revoked reason revoked_at) else m s
  | _ => m

/-- The results of a history are those of the map. -/
def Follows : Register → List ((c : Call) × AppResult c.Res) → Prop
  | _, [] => True
  | m, ⟨c, r⟩ :: h => m.Answers c r ∧ Follows (m.next c) h

section Of

variable {a : String} {db : Db}

theorem of_eq_some {s : String} {row : StatusRow} :
    of a db s = some row ↔ ∃ r ∈ db.issued_certificate.rows, r.ca_id = a ∧ r.serial = s ∧
      columns r = row := by
  rw [of, Option.map_eq_some_iff]
  constructor
  · rintro ⟨r, hfirst, hrow⟩
    obtain ⟨hr, hp⟩ := Table.first_mem hfirst
    obtain ⟨hca, hserial⟩ := of_decide_eq_true hp
    exact ⟨r, hr, hca, hserial, hrow⟩
  · rintro ⟨r, hr, hca, hserial, hrow⟩
    refine ⟨r, Table.first_eq_some _ hr (decide_eq_true ⟨hca, hserial⟩) fun r' hr' => ?_, hrow⟩
    exact (of_decide_eq_true hr').2.trans hserial.symm

/-- Where all rows are of the CA, its serials are the ones with an owner. -/
theorem of_eq_none (hrows : ∀ r ∈ db.issued_certificate.rows, r.ca_id = a) {s : String} :
    of a db s = none ↔ owner db s = none := by
  rw [owner_eq_none, Option.eq_none_iff_forall_ne_some]
  constructor
  · intro h r hr hserial
    exact h _ (of_eq_some.mpr ⟨r, hr, hrows r hr, hserial, rfl⟩)
  · intro h row hrow
    obtain ⟨r, hr, _, hserial, _⟩ := of_eq_some.mp hrow
    exact h r hr hserial

/-- Every call of the CA is answered by its map. -/
theorem answers_exec (hrows : ∀ r ∈ db.issued_certificate.rows, r.ca_id = a) {c : Call}
    (hca : c.ca_id = a) : (of a db).Answers c (c.result (db.exec c.stmt).1) := by
  cases c with
  | status_by_serial ca_id serial =>
      obtain rfl : ca_id = a := hca
      rfl
  | insert_issued cert =>
      show _ = _ ↔ _
      rw [of_eq_none hrows]
      cases hs : owner db cert.serial with
      | none =>
          obtain ⟨t, _, hexec⟩ := exec_insert_issued_new hs
          refine iff_of_true ?_ rfl
          exact congrArg (fun x : Except String Unit × Db => map_err x.1 .Database) hexec
      | some ca =>
          have hres : (Call.insert_issued cert).result (db.exec (Call.insert_issued cert).stmt).1
              = .error (.Database "UNIQUE constraint failed: issued_certificate.serial") :=
            congrArg (fun x : Except String Unit × Db => map_err x.1 .Database)
              (exec_insert_issued_taken hs)
          refine iff_of_false (fun hno => ?_) (fun hno => ?_)
          · rw [hres] at hno
            cases hno
          · cases hno
  | revoke ca_id serial reason revoked_at =>
      obtain rfl : ca_id = a := hca
      refine congrArg Except.ok (Bool.eq_iff_iff.mpr ?_)
      rw [decide_eq_true_iff, Table.count_pos]
      constructor
      · rintro ⟨r, hr, hp⟩
        obtain ⟨hca, hserial, hvalid⟩ := of_decide_eq_true hp
        rw [of_eq_some.mpr ⟨r, hr, hca, hserial, rfl⟩]
        exact decide_eq_true hvalid
      · intro h
        -- a valid status in the map is that of a row the statement meets
        cases hof : of ca_id db serial with
        | none =>
            rw [hof] at h
            exact Bool.noConfusion h
        | some row =>
            rw [hof] at h
            obtain ⟨r, hr, hca, hserial, rfl⟩ := of_eq_some.mp hof
            exact ⟨r, hr, decide_eq_true ⟨hca, hserial, of_decide_eq_true h⟩⟩
  | list_revoked ca_id =>
      obtain rfl : ca_id = a := hca
      refine ⟨_, rfl, ?_, ?_⟩
      · rw [List.map_map]
        exact Table.select_unique _ _
      · intro entry
        rw [of_eq_some, List.mem_map]
        constructor
        · rintro ⟨r, hr, rfl⟩
          obtain ⟨hmem, hp⟩ := List.mem_filter.mp hr
          obtain ⟨hca, hstatus⟩ := of_decide_eq_true hp
          refine ⟨r, hmem, hca, rfl, ?_⟩
          rw [columns, hstatus]
        · rintro ⟨r, hmem, hca, hserial, hcols⟩
          obtain ⟨hstatus, hat, hreason⟩ := StatusRow.mk.inj hcols
          refine ⟨r, List.mem_filter_of_mem hmem (decide_eq_true ⟨hca, hstatus⟩), ?_⟩
          rw [hserial, hat, hreason]

/-- Every call of the CA moves its map. -/
theorem next_exec (hrows : ∀ r ∈ db.issued_certificate.rows, r.ca_id = a) {c : Call}
    (hca : c.ca_id = a) : of a (db.exec c.stmt).2 = (of a db).next c := by
  cases c with
  | status_by_serial ca_id serial => rfl
  | list_revoked ca_id => rfl
  | insert_issued cert =>
      funext s
      show _ = (of a db s).or _
      cases hs : owner db cert.serial with
      | none =>
          obtain ⟨t, hins, hexec⟩ := exec_insert_issued_new hs
          rw [Call.stmt, hexec, of, Table.first, (Table.insert_eq_some.mp hins).2,
            List.find?_append, List.find?_singleton, Option.map_or, of, Table.first]
          congr 1
          by_cases hserial : cert.serial = s
          · have hrow : is_row a s cert = true := decide_eq_true ⟨hca, hserial⟩
            rw [if_pos hserial, if_pos hrow]
            rfl
          · have hrow : is_row a s cert ≠ true := fun hno => hserial (of_decide_eq_true hno).2
            rw [if_neg hserial, if_neg hrow]
            rfl
      | some ca =>
          rw [Call.stmt, exec_insert_issued_taken hs]
          by_cases hserial : cert.serial = s
          · -- The serial is taken, so the map has it.
            cases hof : of a db s with
            | none =>
                rw [of_eq_none hrows, ← hserial, hs] at hof
                cases hof
            | some row => rfl
          · rw [if_neg hserial, Option.or_none]
  | revoke ca_id serial reason revoked_at =>
      obtain rfl : ca_id = a := hca
      funext s
      have hfirst := Table.first_update (t := db.issued_certificate) (q := is_row ca_id s)
        (p := is_valid_row ca_id serial) (f := set_revoked reason revoked_at) (fun _ => rfl)
        fun _ => rfl
      refine (congrArg (Option.map columns) hfirst).trans ?_
      show _ = if serial = s then (of ca_id db s).map _ else of ca_id db s
      rw [of, Option.map_map]
      cases hrow : db.issued_certificate.first (is_row ca_id s) with
      | none => rw [Option.map_none, Option.map_none, Option.map_none, ite_self]
      | some r =>
          obtain ⟨hca, hserial⟩ := of_decide_eq_true (Table.first_mem hrow).2
          rw [Option.map_some, Option.map_some, Option.map_some, Function.comp_apply]
          -- under its own serial the row is met when its status is valid
          have hvalid_row : is_valid_row ca_id serial r = true ↔ serial = s ∧ r.status = STATUS_VALID := by
            rw [is_valid_row, decide_eq_true_iff, ← hserial, eq_comm (a := serial)]
            exact and_iff_right hca
          by_cases hs : serial = s
          · rw [if_pos hs, revoked]
            by_cases hvalid : r.status = STATUS_VALID
            · rw [if_pos (hvalid_row.mpr ⟨hs, hvalid⟩)]
              exact congrArg some (if_pos hvalid).symm
            · rw [if_neg fun hno => hvalid (hvalid_row.mp hno).2]
              exact congrArg some (if_neg hvalid).symm
          · rw [if_neg hs, if_neg fun hno => hs (hvalid_row.mp hno).1]

/-- A call of the CA adds no row of another. -/
theorem rows_exec (hrows : ∀ r ∈ db.issued_certificate.rows, r.ca_id = a) {c : Call}
    (hca : c.ca_id = a) : ∀ r ∈ (db.exec c.stmt).2.issued_certificate.rows, r.ca_id = a := by
  intro r hr
  have howner := owner_exec db c r.serial
  rw [owner_eq_some.mpr ⟨r, hr, rfl, rfl⟩] at howner
  -- a serial that had an owner keeps it, a new one is that of the insert
  cases hs : owner db r.serial with
  | some ca =>
      rw [hs, Option.some_or] at howner
      obtain ⟨r', hr', _, hca'⟩ := owner_eq_some.mp hs
      rw [Option.some.inj howner, ← hca']
      exact hrows r' hr'
  | none =>
      rw [hs, Option.none_or] at howner
      cases c with
      | insert_issued cert =>
          rw [Call.claims] at howner
          by_cases hserial : cert.serial = r.serial
          · rw [if_pos hserial] at howner
            exact (Option.some.inj howner).trans hca
          · rw [if_neg hserial] at howner
            cases howner
      | _ => cases howner

end Of

/-- A history of one CA follows its map. -/
theorem follows_history {a : String} {db db' : Db} {h : List ((c : Call) × AppResult c.Res)}
    (hrun : History db h db') (hrows : ∀ r ∈ db.issued_certificate.rows, r.ca_id = a)
    (hown : ∀ e ∈ h, e.1.ca_id = a) : Follows (of a db) h := by
  induction h generalizing db with
  | nil => trivial
  | cons e h ih =>
      obtain ⟨c, r⟩ := e
      obtain ⟨rfl, hrest⟩ := history_cons.mp hrun
      rw [List.forall_mem_cons] at hown
      refine ⟨answers_exec hrows hown.1, ?_⟩
      rw [← next_exec hrows hown.1]
      exact ih hrest (rows_exec hrows hown.1) hown.2

end Register

/-! ## CAs that do not interfere -/

/-- **The calls of a CA among those of others.** Their results are those of the run of
these calls alone, and of a map from serials to statuses, exactly when no serial the CA
inserts was first inserted for another one. -/
theorem cas_independent_iff {h : List ((c : Call) × AppResult c.Res)} {db : Db}
    (hrun : History Db.empty h db) (a : String) :
    ((∀ h' db', History Db.empty h' db' →
        calls_of h' = (calls_of h).filter (fun c => c.ca_id = a) → h' = own a h) ∧
      Register.empty.Follows (own a h)) ↔
    ∀ cert, Call.insert_issued cert ∈ calls_of h → cert.ca_id = a →
      first_owner (calls_of h) cert.serial = some a := by
  have hempty : Apart a Db.empty Db.empty := rfl
  refine Iff.trans ?_ (own_history hrun hempty)
  constructor
  · rintro ⟨hsame, _⟩
    obtain ⟨h', u, hrun', hcalls⟩ := exists_history Db.empty (calls_of (own a h))
    obtain rfl := hsame h' u hrun' (hcalls.trans (calls_own a))
    exact ⟨u, hrun'⟩
  · rintro ⟨u, hown⟩
    refine ⟨fun h' db' hrun' hcalls => ?_, ?_⟩
    · exact history_unique hown hrun' (hcalls.trans (calls_own a).symm)
    · refine Register.follows_history (a := a) hown (fun r hr => absurd hr List.not_mem_nil) ?_
      exact fun e he => of_decide_eq_true (List.mem_filter.mp he).2

/-- Two CAs with a serial each do not interfere. -/
theorem cas_independent_of_two :
    Register.empty.Follows [⟨Call.insert_issued (.sample "b" "bb22"), .ok ()⟩] := by
  have hrun : History Db.empty [⟨.insert_issued (.sample "a" "aa11"), .ok ()⟩,
      ⟨.insert_issued (.sample "b" "bb22"), .ok ()⟩] _ :=
    history_cons.mpr ⟨rfl, history_cons.mpr ⟨rfl, .nil _⟩⟩
  refine ((cas_independent_iff hrun "b").mpr fun cert hmem hca => ?_).2
  rcases List.mem_cons.mp hmem with heq | hmem
  · obtain rfl := Call.insert_issued.inj heq
    exact absurd hca (by decide)
  · obtain rfl := Call.insert_issued.inj (List.mem_singleton.mp hmem)
    decide

/-- The second CA to draw a serial cannot insert it, and by itself it could. -/
theorem cas_interfere :
    ¬ ∀ h db a h' db', History Db.empty h db → History Db.empty h' db' →
      calls_of h' = (calls_of h).filter (fun c => c.ca_id = a) → h' = own a h := by
  intro hno
  have hsame := hno
    [⟨.insert_issued (.sample "a" "aa11"), .ok ()⟩, ⟨.insert_issued (.sample "b" "aa11"), .error
      (.Database "UNIQUE constraint failed: issued_certificate.serial")⟩] _ "b"
    [⟨.insert_issued (.sample "b" "aa11"), .ok ()⟩] _
    (history_cons.mpr ⟨rfl, history_cons.mpr ⟨rfl, .nil _⟩⟩)
    (history_cons.mpr ⟨rfl, .nil _⟩) (by decide)
  have hresult := List.head_eq_of_cons_eq hsame
  cases hresult

end repo

end Blapki
