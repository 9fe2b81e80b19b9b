/-
The server at work (`http/mod.rs`, `http/scep.rs`).

A log holds what the requests under way have done so far, in any order, and what others do to
the database in between. `Scep.Enrols` is what a message may ask of the environment at all. With
it, the rows of a database that a log leads to are as enrolments insert them, where others
insert none, and revoked by somebody else.
-/
import Blapki.Agreement
import Blapki.Server

set_option autoImplicit false

namespace Blapki

open Codec Effect

variable {X : Crates}

/-! ## What an enrolment does to the database -/

namespace Scep

/-- What a message asks of the environment. -/
def Enrols : Op → Prop
  | .db (.insert_issued _) => True
  | .db (.select_transaction _) => True
  | .db (.insert_transaction _) => True
  | .db (.update_transaction _ _ _) => True
  | .validate _ _ => True
  | .on_issued _ _ _ => True
  | .on_failure _ _ _ => True
  | .fill_bytes _ => True
  | .thread_rng => True
  | .now => True
  | _ => False

theorem enrols_of_draws {e : Event Op.Res} (h : draws e = true) : Enrols e.1 := by
  obtain ⟨o, r⟩ := e
  cases o with
  | fill_bytes n => trivial
  | thread_rng => trivial
  | _ => cases h

theorem enrols_record {rt : ProfileRuntime} {parsed : ParsedRequest}
    {status message_type : String} :
    Guarantees (fun _ e => Enrols e.1) (record rt parsed status message_type) := by
  refine guarantees_each.mpr fun tr r hrun e he => ?_
  obtain ⟨now, t, rfl, hrecord⟩ := record_returns hrun
  rcases List.mem_cons.mp he with rfl | he
  · trivial
  · obtain ⟨q, x, rfl, hq⟩ := repo.record_transaction_forall (p := fun q => Enrols (.db q))
      trivial trivial trivial hrecord e he
    exact hq

theorem enrols_persist {rt : ProfileRuntime} {ca : CertificateAuthority} {parsed : ParsedRequest}
    {issued : Certificate} {issued_der : Bytes} :
    Guarantees (fun _ e => Enrols e.1) (persist X rt ca parsed issued issued_der) := by
  refine guarantees_each.mpr fun tr r hrun e he => ?_
  obtain ⟨now, ⟨_, rfl, _⟩ | ⟨t, recorded, rfl, hrecord, _⟩⟩ := persist_returns.mp hrun
  · simp only [List.mem_cons, List.not_mem_nil, or_false] at he
    rcases he with rfl | rfl
    · trivial
    · trivial
  · rcases List.mem_cons.mp he with rfl | he
    · trivial
    rcases List.mem_cons.mp he with rfl | he
    · trivial
    exact guarantees_each.mp enrols_record t recorded hrecord e he

theorem enrols_build_failure {ca : CertificateAuthority} {parsed : ParsedRequest}
    {fail : FailInfo} : Guarantees (fun _ e => Enrols e.1) (build_failure X ca parsed fail) :=
  guarantees_each.mpr fun _ _ hrun e he => enrols_of_draws ((build_failure_returns hrun).1 e he)

theorem enrols_deliver {rt : ProfileRuntime} {ca : CertificateAuthority} {parsed : ParsedRequest}
    {input : ValidationInput} {issued : Certificate} :
    Guarantees (fun _ e => Enrols e.1) (deliver X rt ca parsed input issued) := by
  unfold deliver
  refine guarantees_lift_bind fun issued_der _ => ?_
  refine (guarantees_attempt enrols_persist).bind fun _ _ _ => ?_
  refine (guarantees_attempt (guarantees_request_bind (fun _ => trivial)
    fun _ => guarantees_lift _)).bind fun _ _ _ => ?_
  exact guarantees_each.mpr fun _ _ hrun e he =>
    enrols_of_draws ((build_success_returns hrun).1 e he)

theorem enrols_enrol {state : AppState} {rt : ProfileRuntime} {ca : CertificateAuthority}
    {parsed : ParsedRequest} {parsed_csr : ParsedCsr} :
    Guarantees (fun _ e => Enrols e.1) (enrol X state rt ca parsed parsed_csr) := by
  unfold enrol
  refine (guarantees_attempt (guarantees_request_bind (fun _ => trivial)
    fun _ => guarantees_lift _)).bind fun validated _ _ => ?_
  cases validated with
  | error e =>
      refine (guarantees_attempt (guarantees_request_bind (fun _ => trivial)
        fun _ => guarantees_lift _)).bind fun _ _ _ => ?_
      exact (guarantees_attempt enrols_record).bind fun _ _ _ => enrols_build_failure
  | ok u =>
      refine Guarantees.bind (guarantees_attempt ?_) fun issued _ _ => ?_
      · refine guarantees_each.mpr fun tr r hrun e he => ?_
        obtain ⟨octets, now, rfl, _⟩ := CertificateAuthority.issue_returns.mp hrun
        simp only [List.mem_cons, List.not_mem_nil, or_false] at he
        rcases he with rfl | rfl
        · trivial
        · trivial
      cases issued with
      | error e =>
          refine (guarantees_attempt (guarantees_request_bind (fun _ => trivial)
            fun _ => guarantees_lift _)).bind fun _ _ _ => ?_
          exact enrols_build_failure
      | ok issued => exact enrols_deliver

/-- A message revokes nothing, and reads no files. -/
theorem enrols_operation {state : AppState} {profile : String} {body : Bytes} :
    Guarantees (fun _ e => Enrols e.1) (pki_operation X state profile body) := by
  unfold pki_operation
  refine guarantees_lift_bind fun rt _ => guarantees_lift_bind fun ca _ => ?_
  refine guarantees_lift_bind fun parsed _ => guarantees_lift_bind fun _ _ => ?_
  refine guarantees_lift_bind fun enveloped _ => ?_
  cases recover_csr X ca enveloped with
  | error e => exact enrols_build_failure
  | ok parsed_csr => exact enrols_enrol

/-- What it inserts is fresh, under a serial that was drawn. -/
theorem drawn_of_run (hx509 : X.X509Law) {state : AppState} {profile : String} {body : Bytes}
    {tr : Trace} {r : AppResult Bytes} (hrun : Returns (pki_operation X state profile body) tr r)
    {cert : IssuedCertificate} {x : Except String Unit}
    (hmem : ⟨Op.db (.insert_issued cert), x⟩ ∈ tr) : Drawn cert := by
  obtain ⟨rt, ca, parsed, enveloped, parsed_csr, issued, issued_der, created_at, hissuance, _,
    rfl⟩ := issuance_of_submits hrun hmem ⟨x, rfl⟩
  obtain ⟨t, rest, _, hissue⟩ := hissuance.run
  obtain ⟨octets, now, _, hleaf⟩ := CertificateAuthority.issue_returns.mp hissue
  have hserial := (CertificateAuthority.leaf_issued_from hx509 hleaf.symm).serial_number
  refine ⟨⟨rfl, rfl, rfl⟩, octets, ?_⟩
  show serial_hex issued = _
  rw [serial_hex, hserial]

end Scep

/-! ## The server at work -/

/-- Requests handled at once, each as far as it has come, and what others do to the database,
from empty tables on. -/
structure Operating {ι : Type} [DecidableEq ι] (X : Crates)
    (json : List String → List String → Bytes) (state : AppState) (faulty : Prop)
    (requests : ι → http.Request) (log : List (Option ι × Event Op.Res)) (db : Db) : Prop where
  world : Steps (step faulty) Db.empty (log.map Prod.snd) db
  begun : ∀ i, Began (http.serve X json state (requests i)) (events_of (some i) log)

/-- Others insert no certificates. -/
def Administered {ι : Type} (log : List (Option ι × Event Op.Res)) : Prop :=
  ∀ cert x, (none, ⟨Op.db (.insert_issued cert), x⟩) ∉ log

theorem Administered.left {ι : Type} {log rest : List (Option ι × Event Op.Res)}
    (h : Administered (log ++ rest)) : Administered log :=
  fun cert x hmem => h cert x (List.mem_append_left rest hmem)

theorem Administered.append {ι : Type} {log rest : List (Option ι × Event Op.Res)}
    (h : Administered log) (hrest : Administered rest) : Administered (log ++ rest) :=
  fun cert x hmem => (List.mem_append.mp hmem).elim (h cert x) (hrest cert x)

/-- What a request does is not done by others. -/
theorem administered_tagged {ι : Type} (i : ι) (tr : Trace) :
    Administered (tr.map (Prod.mk (some i))) := by
  intro cert x hmem
  obtain ⟨_, _, hno⟩ := List.mem_map.mp hmem
  cases hno

section Operating

variable {ι : Type} [DecidableEq ι] {json : List String → List String → Bytes} {state : AppState}
  {faulty : Prop} {requests : ι → http.Request} {log : List (Option ι × Event Op.Res)} {db db' : Db}

theorem Operating.before {rest : List (Option ι × Event Op.Res)} {u : Db}
    (h : Operating X json state faulty requests (log ++ rest) db)
    (hworld : Steps (step faulty) Db.empty (log.map Prod.snd) u) :
    Operating X json state faulty requests log u := by
  refine ⟨hworld, fun i => ?_⟩
  have hi := h.begun i
  rw [events_of_append] at hi
  exact hi.left

theorem Operating.left {rest : List (Option ι × Event Op.Res)}
    (h : Operating X json state faulty requests (log ++ rest) db) :
    ∃ u, Operating X json state faulty requests log u ∧
      Steps (step faulty) u (rest.map Prod.snd) db := by
  have hworld := h.world
  rw [List.map_append] at hworld
  obtain ⟨u, h₁, h₂⟩ := steps_append.mp hworld
  exact ⟨u, h.before h₁, h₂⟩

/-- What a request does to the database, a message of its does. -/
theorem Operating.operation (h : Operating X json state faulty requests log db) {i : ι}
    {e : Event Op.Res} (he : (some i, e) ∈ log) (hreads : ¬ http.Reads e) :
    ∃ profile body tr x, Returns (Scep.pki_operation X state profile body) tr x ∧ e ∈ tr := by
  obtain ⟨rest, r, hrun⟩ := h.begun i
  have hmem : e ∈ events_of (some i) log ++ rest :=
    List.mem_append_left rest (mem_events_of.mpr he)
  obtain ⟨profile, body, x, _, hpki⟩ := http.operation_of_event hrun hmem hreads
  exact ⟨profile, body, _, x, hpki, hmem⟩

/-- What is inserted, a message inserts, with a fresh row. -/
theorem Operating.enrolments (h : Operating X json state faulty requests log db)
    (hothers : Administered log) : repo.Enrolments (log.map Prod.snd) := by
  intro cert x hmem
  obtain ⟨⟨tag, _⟩, htag, rfl⟩ := List.mem_map.mp hmem
  cases tag with
  | none => exact absurd htag (hothers cert x)
  | some i =>
      obtain ⟨profile, body, tr, r, hrun, he⟩ := h.operation htag id
      exact Scep.enrolments_of_run hrun cert x he

/-- The serials of its rows are drawn. -/
theorem Operating.drawn (h : Operating X json state faulty requests log db)
    (hothers : Administered log) (hx509 : X.X509Law) :
    ∀ r ∈ db.issued_certificate.rows, ∃ bytes : { b : Bytes // b.length = 16 },
      r.serial = hex.encode (serial_of bytes).as_bytes := by
  apply serials_drawn h.world
  intro cert x hmem
  obtain ⟨⟨tag, e⟩, htag, rfl⟩ := List.mem_map.mp hmem
  cases tag with
  | none => exact absurd htag (hothers cert x)
  | some i =>
      obtain ⟨profile, body, tr, r, hrun, he⟩ := h.operation htag id
      exact Scep.drawn_of_run hx509 hrun he

/-- What is revoked, others revoke. -/
theorem Operating.revoked_by_others (h : Operating X json state faulty requests log db)
    {ca_id serial revoked_at : String} {reason : Int} {x : Except String Nat}
    (hmem : ⟨Op.db (.update_revoked ca_id serial reason revoked_at), x⟩ ∈ log.map Prod.snd) :
    (none, ⟨Op.db (.update_revoked ca_id serial reason revoked_at), x⟩) ∈ log := by
  obtain ⟨⟨tag, e⟩, htag, rfl⟩ := List.mem_map.mp hmem
  cases tag with
  | none => exact htag
  | some i =>
      -- no message revokes
      obtain ⟨profile, body, tr, r, hrun, he⟩ := h.operation htag id
      exact (guarantees_each.mp Scep.enrols_operation tr r hrun _ he).elim

theorem operating_empty : Operating X json state faulty requests [] Db.empty :=
  ⟨.nil _, fun _ => began_nil _⟩

/-- The next request may be handled in one go. -/
theorem Operating.serves (h : Operating X json state faulty requests log db) {i : ι}
    (hnew : events_of (some i) log = []) {tr : Trace} {r : AppResult Response}
    (hrun : Returns (http.serve X json state (requests i)) tr r)
    (hsteps : Steps (step faulty) db tr db') :
    Operating X json state faulty requests (log ++ tr.map (Prod.mk (some i))) db' := by
  refine ⟨?_, fun j => ?_⟩
  · rw [List.map_append, List.map_map]
    exact steps_append.mpr ⟨db, h.world, (List.map_id tr).symm ▸ hsteps⟩
  · rw [events_of_append]
    by_cases hj : j = i
    · rw [hj, hnew, events_of_tagged, List.nil_append]
      exact ⟨[], r, by rwa [List.append_nil]⟩
    · rw [events_of_tagged_other fun hno => hj (Option.some.inj hno).symm, List.append_nil]
      exact h.begun j

/-- A revocation may be next. -/
theorem Operating.revokes (h : Operating X json state faulty requests log db)
    {ca_id serial revoked_at : String} {reason : Int} {n : Nat}
    (hstep : step faulty db (.db (.update_revoked ca_id serial reason revoked_at)) (.ok n) db') :
    Operating X json state faulty requests (log ++ [(none,
      ⟨Op.db (.update_revoked ca_id serial reason revoked_at), .ok n⟩)]) db' := by
  refine ⟨?_, fun j => ?_⟩
  · rw [List.map_append]
    exact steps_append.mpr ⟨db, h.world, .cons hstep (.nil _)⟩
  · rw [events_of_append, events_of_cons_other (Option.some_ne_none j).symm, events_of_nil,
      List.append_nil]
    exact h.begun j

end Operating

end Blapki
