/-
The audit trail of requests taken one at a time (`http/scep.rs`, `record` and
`persist`).

A request leaves one record under the transactionID its client chose: `failed` when the
validator turned it down, `issued` when its certificate was stored. `run_effect` says
what one request does to the two tables, and `audit_trail` what a session of any
requests on any profiles leaves: the status of a transaction is the one recorded last,
its profile the one recorded first.
-/
import Blapki.Upsert
import Blapki.Enrolment

set_option autoImplicit false

namespace Blapki

open Codec Effect repo

namespace Scep

variable {X : Crates}

/-! ## One record -/

/-- An event that is no statement, or a statement that was executed. -/
def Executed : Event Op.Res → Prop
  | ⟨.db _, x⟩ => ∃ a, x = .ok a
  | _ => True

theorem executed_of_draws {e : Event Op.Res} (h : draws e = true) : Executed e := by
  obtain ⟨o, x⟩ := e
  cases o with
  | db q => exact Bool.noConfusion h
  | _ => trivial

/-- What is recorded of a request. -/
structure Entry where
  transaction_id : String
  profile : String
  status : String
deriving DecidableEq

/-- The row of a transaction has the entry: its status and message type overwritten, its
profile if it is new. -/
structure Recorded (entry : Entry) (message_type : String) (db db' : Db) : Prop where
  others : ∀ t, t ≠ entry.transaction_id → cell t db' = cell t db
  row : ∃ row, cell entry.transaction_id db' = some row ∧ row.status = entry.status ∧
    row.message_type = message_type ∧
    row.profile = ((cell entry.transaction_id db).map ScepTransaction.profile).getD entry.profile

/-- One after the other, records do not fail. -/
theorem recording_world {c : Recording} {tr : Trace} {r : AppResult Unit} {db db' : Db}
    (h : Returns c.run tr r) (hworld : Steps (step False) db tr db') :
    (∀ e ∈ tr, Executed e) ∧ db'.issued_certificate = db.issued_certificate ∧
      Recorded ⟨c.transaction_id, c.profile, c.status⟩ c.message_type db db' := by
  have hissued : db'.issued_certificate = db.issued_certificate := by
    refine steps_frame_issued hworld fun e he => ?_
    obtain ⟨q, x, rfl, hq⟩ := record_transaction_frame h e he
    exact hq
  have hothers : ∀ t, t ≠ c.transaction_id → cell t db' = cell t db := by
    intro t ht
    refine hworld.frame fun e he u u' hstep => ?_
    obtain ⟨q, x, rfl, hq⟩ := Recording.run_frame h e he
    exact cell_frame (fun hno => ht (Option.some.inj (hno.symm.trans hq))) hstep
  rcases record_transaction_returns.mp h with ⟨e, rfl, _⟩ | ⟨x, rfl, _⟩ | ⟨found, x, rfl, _⟩
  · -- Looking a row up does not fail.
    obtain ⟨u, hstep, _⟩ := steps_cons.mp hworld
    cases (cell_step_of_step rfl hstep).1
  · obtain ⟨u, hstep, hrest⟩ := steps_cons.mp hworld
    obtain ⟨v, hstep', hnil⟩ := steps_cons.mp hrest
    obtain rfl := steps_nil.mp hnil
    obtain ⟨hfound, hcell⟩ := cell_step_of_step rfl hstep
    have hnone : cell c.transaction_id db = none := by
      cases hc : cell c.transaction_id db with
      | none => rfl
      | some row =>
          rw [hc] at hfound
          cases hfound
    rcases cell_step_of_step rfl hstep' with ⟨_, hx, hrow⟩ | ⟨hsome, _⟩
    · obtain rfl : x = .ok () := hx
      refine ⟨?_, hissued, hothers, _, hrow, rfl, rfl, ?_⟩
      · rw [List.forall_mem_cons, List.forall_mem_singleton]
        exact ⟨⟨_, rfl⟩, _, rfl⟩
      · rw [hnone]
        rfl
    · change (cell c.transaction_id u).isSome at hsome
      rw [hcell, hnone] at hsome
      cases hsome
  · obtain ⟨u, hstep, hrest⟩ := steps_cons.mp hworld
    obtain ⟨v, hstep', hnil⟩ := steps_cons.mp hrest
    obtain rfl := steps_nil.mp hnil
    obtain ⟨hfound, hcell⟩ := cell_step_of_step rfl hstep
    obtain ⟨⟨n, hx⟩, hrow⟩ := cell_step_of_step rfl hstep'
    obtain rfl : x = .ok n := hx
    cases hc : cell c.transaction_id db with
    | none =>
        rw [hc] at hfound
        cases hfound
    | some row =>
        rw [hcell, hc] at hrow
        refine ⟨?_, hissued, hothers, _, hrow, rfl, rfl, ?_⟩
        · rw [List.forall_mem_cons, List.forall_mem_singleton]
          exact ⟨⟨_, rfl⟩, _, rfl⟩
        · rw [hc]
          rfl

theorem record_world {rt : ProfileRuntime} {parsed : ParsedRequest} {status message_type : String}
    {tr : Trace} {r : AppResult Unit} {db db' : Db}
    (h : Returns (record rt parsed status message_type) tr r)
    (hworld : Steps (step False) db tr db') :
    (∀ e ∈ tr, Executed e) ∧ db'.issued_certificate = db.issued_certificate ∧
      Recorded ⟨parsed.transaction_id, rt.name, status⟩ message_type db db' := by
  obtain ⟨now, t, rfl, h₁⟩ := record_returns h
  obtain ⟨u, rfl, hrest⟩ := steps_cons.mp hworld
  obtain ⟨hexec, hissued, hrec⟩ := recording_world
    (c := ⟨parsed.transaction_id, rt.name, status, message_type, utc_text now⟩) h₁ hrest
  rw [List.forall_mem_cons]
  exact ⟨⟨trivial, hexec⟩, hissued, hrec⟩

/-! ## One request -/

/-- An event that decides what is recorded: a verdict against the request, or the insert
of its certificate. -/
def settles : Event Op.Res → Bool
  | ⟨.validate _ _, .error _⟩ => true
  | ⟨.db (.insert_issued _), .ok _⟩ => true
  | _ => false

theorem not_settles_of_draws {e : Event Op.Res} (h : draws e = true) : settles e = false := by
  obtain ⟨o, x⟩ := e
  cases o with
  | fill_bytes n => rfl
  | thread_rng => rfl
  | _ => exact Bool.noConfusion h

/-- What a request has recorded, by the verdict it met and the row it stored. -/
inductive Outcome (X : Crates) (state : AppState) (profile : String) (body : Bytes) (tr : Trace) :
    Option Entry → Prop
  /-- The request was turned down. -/
  | failed {rt : ProfileRuntime} {ca : CertificateAuthority} {parsed : ParsedRequest}
      {enveloped : EnvelopedData} {parsed_csr : ParsedCsr} {e : AppError}
      (hacc : Accepted X state profile body rt ca parsed enveloped)
      (hrecover : recover_csr X ca enveloped = .ok parsed_csr)
      (hverdict : ⟨Op.validate rt.validator (validation_input parsed parsed_csr), .error e⟩ ∈ tr) :
      Outcome X state profile body tr (some ⟨parsed.transaction_id, rt.name, "failed"⟩)
  /-- The certificate of the request was stored. -/
  | issued {rt : ProfileRuntime} {ca : CertificateAuthority} {parsed : ParsedRequest}
      {enveloped : EnvelopedData} {parsed_csr : ParsedCsr} {row : IssuedCertificate}
      (hacc : Accepted X state profile body rt ca parsed enveloped)
      (hrecover : recover_csr X ca enveloped = .ok parsed_csr)
      (hstored : ⟨Op.db (.insert_issued row), .ok ()⟩ ∈ tr) :
      Outcome X state profile body tr (some ⟨parsed.transaction_id, rt.name, "issued"⟩)
  /-- The request was neither turned down nor stored. -/
  | unrecorded (h : ∀ e ∈ tr, settles e = false) : Outcome X state profile body tr none

/-- What a request does to the tables. -/
inductive Moves (db db' : Db) : Option Entry → Prop
  | nothing : db' = db → Moves db db' none
  | failed {t profile : String} : db'.issued_certificate = db.issued_certificate →
      Recorded ⟨t, profile, "failed"⟩ "PKCSReq" db db' → Moves db db' (some ⟨t, profile, "failed"⟩)
  | issued {t profile : String} {row : IssuedCertificate} :
      db'.issued_certificate.rows = db.issued_certificate.rows ++ [row] →
      row.transaction_id = some t → row.profile = some profile →
      Recorded ⟨t, profile, "issued"⟩ "PKCSReq" db db' → Moves db db' (some ⟨t, profile, "issued"⟩)

/-- The entry of a record does not depend on the other table. -/
theorem Recorded.of_cells {entry : Entry} {message_type : String} {db u db' : Db}
    (h : Recorded entry message_type u db') (hcells : ∀ t, cell t u = cell t db) :
    Recorded entry message_type db db' where
  others := fun t ht => (h.others t ht).trans (hcells t)
  row := by
    obtain ⟨row, hrow, hstatus, htype, hprofile⟩ := h.row
    rw [hcells] at hprofile
    exact ⟨row, hrow, hstatus, htype, hprofile⟩

/-- An insert that is refused, and one that goes through. -/
theorem insert_refused {cert : IssuedCertificate} {e : String} {db db' : Db}
    (h : step False db (.db (.insert_issued cert)) (.error e) db') : db' = db := by
  rcases h with h | ⟨hno, _⟩
  · have hsnd : db' = (db.exec (.insert_issued cert)).2 := congrArg Prod.snd h
    exact hsnd.trans (exec_insert_issued_error (congrArg Prod.fst h).symm)
  · exact absurd hno id

theorem insert_stored {cert : IssuedCertificate} {db db' : Db}
    (h : step False db (.db (.insert_issued cert)) (.ok ()) db') :
    db'.issued_certificate.rows = db.issued_certificate.rows ++ [cert] := by
  rcases h with h | ⟨hno, _⟩
  · have hsnd : db' = (db.exec (.insert_issued cert)).2 := congrArg Prod.snd h
    rw [hsnd]
    exact (exec_insert_issued_ok (congrArg Prod.fst h).symm).2
  · exact absurd hno id

/-! ## What the ways out do to the tables -/

section Exits

variable {state : AppState} {profile : String} {body : Bytes} {rt : ProfileRuntime}
  {ca : CertificateAuthority} {parsed : ParsedRequest} {enveloped : EnvelopedData}
  {parsed_csr : ParsedCsr} {input : ValidationInput} {bytes : { b : Bytes // b.length = 16 }}
  {now : SystemTime} {issued : Certificate} {issued_der : Bytes} {reason : String}
  {info : IssuedInfo} {verdict notified recorded persisted : AppResult Unit} {t₁ t₂ tr : Trace}
  {r : AppResult Bytes} {db db' : Db}

/-- A request that was turned down leaves one record. -/
theorem denied_world (hrecord : Returns (record rt parsed "failed" "PKCSReq") t₁ recorded)
    (hreply : Returns (build_failure X ca parsed .BadRequest) t₂ r)
    (htr : tr = ⟨Op.validate rt.validator input, verdict⟩ ::
      ⟨Op.on_failure rt.validator input reason, notified⟩ :: (t₁ ++ t₂))
    (hworld : Steps (step False) db tr db') :
    (∀ e ∈ tr, Executed e) ∧ db'.issued_certificate = db.issued_certificate ∧
      Recorded ⟨parsed.transaction_id, rt.name, "failed"⟩ "PKCSReq" db db' := by
  subst htr
  have hdraws := (build_failure_returns hreply).1
  obtain ⟨_, ⟨_, rfl⟩, h₁⟩ := steps_cons.mp hworld
  obtain ⟨_, ⟨_, rfl⟩, h₂⟩ := steps_cons.mp h₁
  obtain ⟨u, hrecorded, hdrawn⟩ := steps_append.mp h₂
  obtain rfl := (steps_draws hdraws).mp hdrawn
  obtain ⟨hexec, hissued, hrec⟩ := record_world hrecord hrecorded
  rw [List.forall_mem_cons, List.forall_mem_cons, List.forall_mem_append]
  exact ⟨⟨trivial, trivial, hexec, fun e he => executed_of_draws (hdraws e he)⟩, hissued, hrec⟩

/-- One the CA could not issue leaves nothing. -/
theorem unissued_world (hreply : Returns (build_failure X ca parsed .BadRequest) t₂ r)
    (htr : tr = ⟨Op.validate rt.validator input, .ok ()⟩ :: ⟨Op.fill_bytes 16, bytes⟩ ::
      ⟨Op.now, now⟩ :: ⟨Op.on_failure rt.validator input reason, notified⟩ :: t₂)
    (hworld : Steps (step False) db tr db') :
    (∀ e ∈ tr, settles e = false) ∧ (∀ e ∈ tr, Executed e) ∧ db' = db := by
  subst htr
  have hdraws := (build_failure_returns hreply).1
  obtain ⟨_, ⟨_, rfl⟩, h₁⟩ := steps_cons.mp hworld
  obtain ⟨_, rfl, h₂⟩ := steps_cons.mp h₁
  obtain ⟨_, rfl, h₃⟩ := steps_cons.mp h₂
  obtain ⟨_, ⟨_, rfl⟩, h₄⟩ := steps_cons.mp h₃
  simp only [List.forall_mem_cons]
  exact ⟨⟨rfl, rfl, rfl, rfl, fun e he => not_settles_of_draws (hdraws e he)⟩,
    ⟨trivial, trivial, trivial, trivial, fun e he => executed_of_draws (hdraws e he)⟩,
    (steps_draws hdraws).mp h₄⟩

/-- A request whose certificate could not be encoded moves no record. -/
theorem unencoded_world (htr : tr = [⟨Op.validate rt.validator input, .ok ()⟩,
      ⟨Op.fill_bytes 16, bytes⟩, ⟨Op.now, now⟩]) (hworld : Steps (step False) db tr db') :
    (∀ e ∈ tr, settles e = false) ∧ (∀ e ∈ tr, Executed e) ∧ db' = db := by
  subst htr
  obtain ⟨_, ⟨_, rfl⟩, h₁⟩ := steps_cons.mp hworld
  obtain ⟨_, rfl, h₂⟩ := steps_cons.mp h₁
  obtain ⟨_, rfl, h₃⟩ := steps_cons.mp h₂
  simp only [List.forall_mem_cons]
  exact ⟨⟨rfl, rfl, rfl, fun e he => absurd he List.not_mem_nil⟩,
    ⟨trivial, trivial, trivial, fun e he => absurd he List.not_mem_nil⟩, steps_nil.mp h₃⟩

/-- One that was issued leaves a certificate and a record, unless the insert of the
certificate is refused. -/
theorem delivered_world (hpersist : Returns (persist X rt ca parsed issued issued_der) t₁ persisted)
    (hreply : Returns (build_success X ca parsed issued) t₂ r)
    (htr : tr = ⟨Op.validate rt.validator input, .ok ()⟩ :: ⟨Op.fill_bytes 16, bytes⟩ ::
      ⟨Op.now, now⟩ :: (t₁ ++ ⟨Op.on_issued rt.validator input info, notified⟩ :: t₂))
    (hworld : Steps (step False) db tr db') :
    ((∀ e ∈ tr, settles e = false) ∧ db' = db ∧
      ∃ row msg, ⟨Op.db (.insert_issued row), .error msg⟩ ∈ tr) ∨
    ((∀ e ∈ tr, Executed e) ∧ ∃ row, ⟨Op.db (.insert_issued row), .ok ()⟩ ∈ tr ∧
      row.transaction_id = some parsed.transaction_id ∧ row.profile = some rt.name ∧
      db'.issued_certificate.rows = db.issued_certificate.rows ++ [row] ∧
      Recorded ⟨parsed.transaction_id, rt.name, "issued"⟩ "PKCSReq" db db') := by
  subst htr
  have hdraws := (build_success_returns hreply).1
  obtain ⟨_, ⟨_, rfl⟩, h₁⟩ := steps_cons.mp hworld
  obtain ⟨_, rfl, h₂⟩ := steps_cons.mp h₁
  obtain ⟨_, rfl, h₃⟩ := steps_cons.mp h₂
  obtain ⟨u, hpersisted, h₄⟩ := steps_append.mp h₃
  obtain ⟨_, ⟨_, rfl⟩, hdrawn⟩ := steps_cons.mp h₄
  obtain rfl := (steps_draws hdraws).mp hdrawn
  have hstored : ∀ {e : Event Op.Res} {t u : Trace} {a b c : Event Op.Res}, e ∈ t →
      e ∈ a :: b :: c :: (t ++ u) := fun he => List.mem_cons_of_mem _ (List.mem_cons_of_mem _
    (List.mem_cons_of_mem _ (List.mem_append_left _ he)))
  obtain ⟨later, ⟨e, rfl, _⟩ | ⟨t, recorded, rfl, hrecord, _⟩⟩ := persist_returns.mp hpersist
  · obtain ⟨w, rfl, h₅⟩ := steps_cons.mp hpersisted
    obtain ⟨_, hinsert, hnil⟩ := steps_cons.mp h₅
    obtain rfl := steps_nil.mp hnil
    refine .inl ⟨?_, insert_refused hinsert, _, e,
      hstored (List.mem_cons_of_mem _ List.mem_cons_self)⟩
    simp only [List.cons_append, List.nil_append, List.forall_mem_cons]
    exact ⟨rfl, rfl, rfl, rfl, rfl, rfl, fun e he => not_settles_of_draws (hdraws e he)⟩
  · obtain ⟨w, rfl, h₅⟩ := steps_cons.mp hpersisted
    obtain ⟨w', hinsert, h₆⟩ := steps_cons.mp h₅
    -- The insert does not touch the table the record goes to, nor the record that of the insert.
    have hcells : ∀ t, cell t w' = cell t w := fun t => cell_frame (fun hno => by cases hno) hinsert
    have hrows := insert_stored hinsert
    obtain ⟨hexec, hissued, hrec⟩ := record_world hrecord h₆
    rw [← hissued] at hrows
    refine .inr ⟨?_, _, hstored (List.mem_cons_of_mem _ List.mem_cons_self), rfl, rfl, hrows,
      hrec.of_cells hcells⟩
    simp only [List.cons_append, List.forall_mem_cons, List.forall_mem_append]
    exact ⟨trivial, trivial, trivial, trivial, ⟨_, rfl⟩, hexec, trivial,
      fun e he => executed_of_draws (hdraws e he)⟩

/-- Every request has an outcome, and does that to the tables. No statement is refused but
the insert of a certificate. -/
theorem run_effect (h : Returns (pki_operation X state profile body) tr r)
    (hworld : Steps (step False) db tr db') :
    ∃ outcome, Outcome X state profile body tr outcome ∧ Moves db db' outcome ∧
      ((∀ e ∈ tr, Executed e) ∨
        outcome = none ∧ ∃ row msg, ⟨Op.db (.insert_issued row), .error msg⟩ ∈ tr) := by
  rcases pki_operation_exit h with hrefused | ⟨hacc, hrecover, hreply⟩ |
    ⟨hacc, hrecover, hrecord, hreply⟩ | ⟨hacc, hrecover, hleaf, hreply⟩ |
    ⟨hacc, hrecover, hleaf, hder⟩ | ⟨hacc, hrecover, hleaf, hder, hpersist, hreply⟩
  · exact ⟨none, .unrecorded fun e he => absurd he List.not_mem_nil, .nothing (steps_nil.mp hworld),
      .inl fun e he => absurd he List.not_mem_nil⟩
  · have hdraws := (build_failure_returns hreply).1
    exact ⟨none, .unrecorded fun e he => not_settles_of_draws (hdraws e he),
      .nothing ((steps_draws hdraws).mp hworld), .inl fun e he => executed_of_draws (hdraws e he)⟩
  · obtain ⟨hexec, hissued, hrec⟩ := denied_world hrecord hreply rfl hworld
    exact ⟨_, .failed hacc hrecover List.mem_cons_self, .failed hissued hrec, .inl hexec⟩
  · obtain ⟨hquiet, hexec, hsame⟩ := unissued_world hreply rfl hworld
    exact ⟨none, .unrecorded hquiet, .nothing hsame, .inl hexec⟩
  · obtain ⟨hquiet, hexec, hsame⟩ := unencoded_world rfl hworld
    exact ⟨none, .unrecorded hquiet, .nothing hsame, .inl hexec⟩
  · rcases delivered_world hpersist hreply rfl hworld with ⟨hquiet, hsame, hrefused⟩ |
      ⟨hexec, row, hstored, htransaction, hprofile, hrows, hrec⟩
    · exact ⟨none, .unrecorded hquiet, .nothing hsame, .inr ⟨rfl, hrefused⟩⟩
    · exact ⟨_, .issued hacc hrecover hstored, .issued hrows htransaction hprofile hrec, .inl hexec⟩

/-- A request the validator does not approve of is recorded as failed. -/
theorem denied_effect (hacc : Accepted X state profile body rt ca parsed enveloped)
    (hrecover : recover_csr X ca enveloped = .ok parsed_csr)
    (hno : ¬ rt.validator.validates (validation_input parsed parsed_csr) (.ok ()))
    (h : Returns (pki_operation X state profile body) tr r)
    (hworld : Steps (step False) db tr db') :
    (∀ e ∈ tr, Executed e) ∧ db'.issued_certificate = db.issued_certificate ∧
      Recorded ⟨parsed.transaction_id, rt.name, "failed"⟩ "PKCSReq" db db' := by
  rw [pki_operation_of_accepted hacc, hrecover] at h
  obtain ⟨validated, t, rfl, h₁⟩ :=
    (returns_attempt_event_bind ChallengeValidator.validate_returns).mp h
  rcases validated with e | ⟨⟩
  · obtain ⟨notified, t', rfl, h₂⟩ :=
      (returns_attempt_event_bind ChallengeValidator.on_failure_returns).mp h₁
    obtain ⟨recorded, t₁, t₂, rfl, hrecord, hreply⟩ := returns_attempt_bind.mp h₂
    exact denied_world hrecord hreply rfl hworld
  · obtain ⟨_, ⟨hvalidates, _⟩, _⟩ := steps_cons.mp hworld
    exact absurd hvalidates hno

end Exits

/-! ## Sessions -/

/-- A request on a profile, with the run that handled it. -/
structure Request where
  profile : String
  body : Bytes
  trace : Trace

/-- Requests handled one at a time, from the empty tables on. -/
inductive Session (X : Crates) (state : AppState) : List Request → Db → Prop
  | nil : Session X state [] Db.empty
  | snoc {reqs : List Request} {db db' : Db} {profile : String} {body : Bytes} {tr : Trace}
      {r : AppResult Bytes} :
      Session X state reqs db → Returns (pki_operation X state profile body) tr r →
      Steps (step False) db tr db' → Session X state (reqs ++ [⟨profile, body, tr⟩]) db'

/-- The status recorded last under a transactionID. -/
def last_status (log : List Entry) (t : String) : Option String :=
  (log.filter fun entry => entry.transaction_id = t).getLast?.map Entry.status

/-- The profile recorded first under it. -/
def first_profile (log : List Entry) (t : String) : Option String :=
  (log.find? fun entry => entry.transaction_id = t).map Entry.profile

theorem last_status_snoc (log : List Entry) (entry : Entry) (t : String) :
    last_status (log ++ [entry]) t
      = if entry.transaction_id = t then some entry.status else last_status log t := by
  rw [last_status, List.filter_append, List.filter_singleton]
  by_cases ht : entry.transaction_id = t
  · rw [if_pos ht, decide_eq_true ht, cond_true, List.getLast?_concat]
    rfl
  · rw [if_neg ht, decide_eq_false ht, cond_false, List.append_nil, last_status]

theorem first_profile_snoc (log : List Entry) (entry : Entry) (t : String) :
    first_profile (log ++ [entry]) t
      = (first_profile log t).or (if entry.transaction_id = t then some entry.profile else none) := by
  rw [first_profile, List.find?_append, List.find?_singleton, Option.map_or, first_profile]
  by_cases ht : entry.transaction_id = t
  · rw [if_pos ht, if_pos (by exact decide_eq_true ht)]
    rfl
  · rw [if_neg ht, if_neg (by exact mt of_decide_eq_true ht)]
    rfl

/-- The tables after a session with this log. -/
structure Trail (log : List Entry) (db : Db) : Prop where
  status : ∀ t, (cell t db).map ScepTransaction.status = last_status log t
  profile : ∀ t, (cell t db).map ScepTransaction.profile = first_profile log t
  issued : ∀ row ∈ db.issued_certificate.rows, ∃ t profile, row.transaction_id = some t ∧
    row.profile = some profile ∧ ⟨t, profile, "issued"⟩ ∈ log

theorem trail_empty : Trail [] Db.empty where
  status := fun _ => rfl
  profile := fun _ => rfl
  issued := fun _ hrow => absurd hrow List.not_mem_nil

/-- One record extends the log. -/
theorem Trail.recorded {log : List Entry} {db db' : Db} {entry : Entry} {message_type : String}
    (h : Trail log db) (hrec : Recorded entry message_type db db') (t : String) :
    (cell t db').map ScepTransaction.status = last_status (log ++ [entry]) t ∧
      (cell t db').map ScepTransaction.profile = first_profile (log ++ [entry]) t := by
  rw [last_status_snoc, first_profile_snoc]
  by_cases ht : entry.transaction_id = t
  · obtain ⟨row, hrow, hstatus, _, hprofile⟩ := hrec.row
    rw [if_pos ht, if_pos ht, ← ht, ← h.profile, hrow, Option.map_some, Option.map_some, hstatus,
      hprofile]
    refine ⟨rfl, ?_⟩
    cases (cell entry.transaction_id db).map ScepTransaction.profile with
    | none => rfl
    | some profile => rfl
  · rw [if_neg ht, if_neg ht, hrec.others t (Ne.symm ht), Option.or_none]
    exact ⟨h.status t, h.profile t⟩

/-- What one request does keeps the log true. -/
theorem Trail.step {log : List Entry} {db db' : Db} {outcome : Option Entry} (h : Trail log db)
    (hmoves : Moves db db' outcome) : Trail (log ++ outcome.toList) db' := by
  cases hmoves with
  | nothing hsame =>
      rw [hsame, Option.toList_none, List.append_nil]
      exact h
  | failed hissued hrec =>
      refine ⟨fun t => (h.recorded hrec t).1, fun t => (h.recorded hrec t).2, ?_⟩
      intro row hrow
      rw [hissued] at hrow
      obtain ⟨t, profile, ht, hprofile, hmem⟩ := h.issued row hrow
      exact ⟨t, profile, ht, hprofile, List.mem_append_left _ hmem⟩
  | issued hrows ht hprofile hrec =>
      refine ⟨fun t => (h.recorded hrec t).1, fun t => (h.recorded hrec t).2, ?_⟩
      intro row hrow
      rw [hrows] at hrow
      rcases List.mem_append.mp hrow with hrow | hrow
      · obtain ⟨t, profile, ht, hprofile, hmem⟩ := h.issued row hrow
        exact ⟨t, profile, ht, hprofile, List.mem_append_left _ hmem⟩
      · rw [List.mem_singleton.mp hrow]
        exact ⟨_, _, ht, hprofile, List.mem_append_right _ List.mem_cons_self⟩

/-- The log of a session is what its requests had recorded. -/
theorem session_trail {state : AppState} {reqs : List Request} {db : Db}
    (h : Session X state reqs db) :
    ∃ outcomes, List.Forall₂ (fun q => Outcome X state q.profile q.body q.trace) reqs outcomes ∧
      Trail (outcomes.filterMap id) db := by
  induction h with
  | nil => exact ⟨[], .nil, trail_empty⟩
  | snoc _ hrun hworld ih =>
      obtain ⟨outcomes, hall, htrail⟩ := ih
      obtain ⟨outcome, houtcome, hmoves, _⟩ := run_effect hrun hworld
      refine ⟨outcomes ++ [outcome], List.rel_append hall (.cons houtcome .nil), ?_⟩
      have hlog : (outcomes ++ [outcome]).filterMap id
          = outcomes.filterMap id ++ outcome.toList := by
        rw [List.filterMap_append]
        cases outcome with
        | none => rfl
        | some entry => rfl
      rw [hlog]
      exact htrail.step hmoves

/-- **The audit trail.** A session leaves a record for every certificate in the table:
with the status that was recorded last under its transactionID, and the profile that was
recorded first; that the certificate was issued is among what was recorded. -/
theorem audit_trail {state : AppState} {reqs : List Request} {db : Db}
    (h : Session X state reqs db) :
    ∃ outcomes, List.Forall₂ (fun q => Outcome X state q.profile q.body q.trace) reqs outcomes ∧
      ∀ row ∈ db.issued_certificate.rows, ∀ t, row.transaction_id = some t →
        ∃ record ∈ db.scep_transaction.rows, record.transaction_id = t ∧
          (∃ profile, row.profile = some profile ∧
            ⟨t, profile, "issued"⟩ ∈ outcomes.filterMap id) ∧
          last_status (outcomes.filterMap id) t = some record.status ∧
          first_profile (outcomes.filterMap id) t = some record.profile := by
  obtain ⟨outcomes, hall, htrail⟩ := session_trail h
  refine ⟨outcomes, hall, fun row hrow t ht => ?_⟩
  obtain ⟨t', profile, ht', hprofile, hmem⟩ := htrail.issued row hrow
  obtain rfl := Option.some.inj (ht.symm.trans ht')
  cases hc : cell t db with
  | none =>
      -- An entry of the log is found by its transactionID.
      have hnone := htrail.profile t
      rw [hc, first_profile, Option.map_none, eq_comm, Option.map_eq_none_iff] at hnone
      exact absurd (decide_eq_true rfl) (List.find?_eq_none.mp hnone _ hmem)
  | some record =>
      obtain ⟨hrecord, hid⟩ := cell_eq_some.mp hc
      have hstatus := htrail.status t
      have hfirst := htrail.profile t
      rw [hc] at hstatus hfirst
      exact ⟨record, hrecord, hid, ⟨profile, hprofile, hmem⟩, hstatus.symm, hfirst.symm⟩

/-- A first request that stores a row executes all its statements. -/
theorem executed_of_stored {state : AppState} {profile : String} {body : Bytes} {tr : Trace}
    {r : AppResult Bytes} {db : Db} {row : IssuedCertificate}
    (hrun : Returns (pki_operation X state profile body) tr r)
    (hworld : Steps (step False) Db.empty tr db)
    (hrows : db.issued_certificate.rows = [row]) : ∀ e ∈ tr, Executed e := by
  obtain ⟨outcome, _, hmoves, hexec | ⟨rfl, _⟩⟩ := run_effect hrun hworld
  · exact hexec
  · -- Then there would be no row.
    cases hmoves with
    | nothing hsame =>
        rw [hsame] at hrows
        cases hrows

/-- The device is enrolled, and then a client that has no secret asks under its
transactionID. -/
private theorem asked_without_secret : ∃ reqs db issued record,
    Session Reference.crates Device.server reqs db ∧ reqs.length = 2 ∧
      (∀ q ∈ reqs, ∀ e ∈ q.trace, Executed e) ∧
      db.issued_certificate.rows = [Device.row Device.transaction_id issued] ∧
      cell Device.transaction_id db = some record ∧ record.status = "failed" := by
  obtain ⟨issued, tr, der, db, _, hrun, hworld, _, _, hrows⟩ := Device.enrolled
  have hexec := executed_of_stored hrun hworld hrows
  have hacc := Device.accepted Device.read_txn (enc (Device.csr "guess"))
  have hno : ¬ Device.profile.validator.validates (validation_input
      (Device.request Device.transaction_id (enc (Device.csr "guess")))
      ⟨Device.csr "guess", enc (Device.csr "guess"), some "guess"⟩) (.ok ()) := by
    intro hvalid
    obtain ⟨pw, hpw, hbytes⟩ := StaticSecretValidator.validate_eq_ok.mp hvalid.symm
    obtain rfl := Option.some.inj hpw
    exact absurd hbytes (by decide)
  obtain ⟨tr', r', db', hrun', hworld', _⟩ := exists_run (pki_operation Reference.crates
    Device.server "device" (Device.pki_message ⟨.PrintableString, Device.transaction_id.as_bytes⟩
      (enc (Device.csr "guess")))) Device.now db
  obtain ⟨hexec', hissued, hrec⟩ := denied_effect hacc (Device.recovered (by decide)) hno hrun'
    hworld'
  obtain ⟨record, hrecord, hfailed, _⟩ := hrec.row
  refine ⟨_, db', issued, record, (Session.nil.snoc hrun hworld).snoc hrun' hworld', rfl, ?_,
    hissued ▸ hrows, hrecord, hfailed⟩
  simp only [List.nil_append, List.cons_append, List.forall_mem_cons]
  exact ⟨hexec, hexec', fun q hq => absurd hq List.not_mem_nil⟩

/-- The certificate is on record, under the status that was recorded last. -/
theorem device_on_record : ∃ reqs db record outcomes,
    Session Reference.crates Device.server reqs db ∧ reqs.length = 2 ∧
      List.Forall₂ (fun q => Outcome Reference.crates Device.server q.profile q.body q.trace)
        reqs outcomes ∧
      record ∈ db.scep_transaction.rows ∧ record.transaction_id = Device.transaction_id ∧
      record.status = "failed" ∧
      last_status (outcomes.filterMap id) Device.transaction_id = some record.status ∧
      ⟨Device.transaction_id, "device", "issued"⟩ ∈ outcomes.filterMap id := by
  obtain ⟨reqs, db, issued, failed, hsession, htwo, _, hrows, hfailed, hstatus⟩ :=
    asked_without_secret
  obtain ⟨outcomes, houtcomes, htrail⟩ := audit_trail hsession
  obtain ⟨record, hrecord, hid, ⟨profile, hprofile, hmem⟩, hlast, _⟩ := htrail
    (Device.row Device.transaction_id issued) (hrows ▸ List.mem_cons_self) Device.transaction_id rfl
  obtain rfl : "device" = profile := Option.some.inj hprofile
  obtain rfl : failed = record :=
    Option.some.inj (hfailed.symm.trans (cell_eq_some.mpr ⟨hrecord, hid⟩))
  exact ⟨reqs, db, failed, outcomes, hsession, htwo, houtcomes, hrecord, hid, hstatus, hlast, hmem⟩

/-- The record of the enrolled device has become a failed one. -/
theorem device_record_overwritten :
    ¬ ∀ reqs db, Session Reference.crates Device.server reqs db →
      (∀ q ∈ reqs, ∀ e ∈ q.trace, Executed e) →
      ∀ row ∈ db.issued_certificate.rows, ∀ t, row.transaction_id = some t →
        ∃ record ∈ db.scep_transaction.rows, record.transaction_id = t ∧
          record.status = "issued" ∧ row.profile = some record.profile := by
  intro hclaim
  obtain ⟨reqs, db, issued, failed, hsession, _, hexec, hrows, hfailed, hstatus⟩ :=
    asked_without_secret
  obtain ⟨record, hmem, hid, hissued, _⟩ := hclaim reqs db hsession hexec
    (Device.row Device.transaction_id issued) (hrows ▸ List.mem_cons_self) Device.transaction_id rfl
  obtain rfl : failed = record :=
    Option.some.inj (hfailed.symm.trans (cell_eq_some.mpr ⟨hmem, hid⟩))
  exact absurd (hissued.symm.trans hstatus) (by decide)

end Scep

end Blapki
