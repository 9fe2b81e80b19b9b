/-
The server with its Intune validators at work (`challenge/mod.rs`, `intune/mod.rs`).

To the handlers a validator is one request with any answer. Here that request is carried out:
a static secret is compared, and a call of the Intune client is the HTTP exchanges it makes,
among those of all the others. `handle carry_out` is the server over the database, the clock
and the wire.

Whatever the traffic, a certificate of an Intune profile is behind an exchange in which Intune,
at the address that Graph gave, approved the CSR the certificate was made of
(`issued_after_approval`).
-/
import Blapki.Credentials
import Blapki.Server
import Blapki.Validator

set_option autoImplicit false

namespace Blapki

open Codec Effect intune

/-! ## The composed server -/

/-- What the server asks of the outside. -/
inductive ServerOp where
  | base (o : Op)
  | client (client : IntuneClient) (o : ClientOp)

abbrev ServerOp.Res : ServerOp → Type
  | .base o => o.Res
  | .client _ o => o.Res

abbrev ServerEvent : Type := Event ServerOp.Res

/-- A request under way; its error is the message of a panic. -/
abbrev ServerTask (α : Type) : Type := Task ServerOp ServerOp.Res String α

def of_client (client : IntuneClient) (e : ClientEvent) : ServerEvent := ⟨.client client e.1, e.2⟩

def client_ops (client : IntuneClient) : Embedding ClientOp ClientOp.Res ServerOp ServerOp.Res where
  op := .client client
  answer _ r := r
  event := of_client client
  event_eq _ _ := rfl
  surjective _ r := ⟨r, rfl⟩

/-- An error is a result; a panic is not. -/
def settle : Except Failure Unit → Except String (AppResult Unit)
  | .ok () => .ok (.ok ())
  | .error (.error e) => .ok (.error e)
  | .error (.panic message) => .error message

/-- A call of the client, as a part of a request. -/
def delegate (client : IntuneClient) (asked : Asked) : ServerTask (AppResult Unit) :=
  embed (client_ops client) (convert settle (asked.run client))

/-- `ChallengeValidator::validate`. -/
def carry_validate (input : ValidationInput) : ChallengeValidator → ServerTask (AppResult Unit)
  | .StaticSecretValidator secret => pure (StaticSecretValidator.validate secret input)
  | .NoneValidator => pure (.ok ())
  | .IntuneValidator client => delegate client (.validate input)

/-- `on_issued` and `on_failure`, which only Intune implements. -/
def notify (asked : Asked) : ChallengeValidator → ServerTask (AppResult Unit)
  | .IntuneValidator client => delegate client asked
  | _ => pure (.ok ())

/-- The handler of every request of the server. -/
def carry_out : (o : Op) → ServerTask o.Res
  | .validate v input => carry_validate input v
  | .on_issued v input info => notify (.on_issued input info) v
  | .on_failure v input message => notify (.on_failure input message) v
  | o => request (ServerOp.base o)

/-- An event of the database, the clock or the generator. -/
def of_base (e : Event Op.Res) : ServerEvent := ⟨.base e.1, e.2⟩

theorem of_base_inj {e e' : Event Op.Res} : of_base e = of_base e' ↔ e = e' := by
  obtain ⟨o, r⟩ := e
  obtain ⟨o', r'⟩ := e'
  constructor
  · intro h
    cases h
    rfl
  · intro h
    rw [h]

/-- The call that a request makes of a validator, where it makes one. -/
def asked_of : Op → Option (ChallengeValidator × Asked)
  | .validate v input => some (v, .validate input)
  | .on_issued v input info => some (v, .on_issued input info)
  | .on_failure v input message => some (v, .on_failure input message)
  | _ => none

/-- What is seen of a request that is carried out: the request itself, or the exchanges of a
call of Intune, or nothing, where its answer is computed. -/
inductive Carried (o : Op) : List ServerEvent → Except String o.Res → Prop
  | base {r : o.Res} (ho : asked_of o = none) : Carried o [of_base ⟨o, r⟩] (.ok r)
  | computed {x : Except String o.Res} (ho : asked_of o ≠ none) : Carried o [] x
  | call {client : IntuneClient} {asked : Asked} {evs : ClientTrace} {y : Except Failure Unit}
      {x : Except String o.Res} (ho : asked_of o = some (.IntuneValidator client, asked))
      (hrun : Returns (asked.run client) evs y) : Carried o (evs.map (of_client client)) x

section CarryOut

theorem returns_delegate {client : IntuneClient} {asked : Asked} {tr : List ServerEvent}
    {r : Except String (AppResult Unit)} :
    Returns (delegate client asked) tr r ↔
      ∃ evs x, tr = evs.map (of_client client) ∧ Returns (asked.run client) evs x ∧
        r = settle x := by
  rw [delegate, returns_embed]
  constructor
  · rintro ⟨evs, rfl, hrun⟩
    obtain ⟨x, hx, rfl⟩ := returns_convert.mp hrun
    exact ⟨evs, x, rfl, hx, rfl⟩
  · rintro ⟨evs, x, rfl, hx, rfl⟩
    exact ⟨evs, rfl, returns_convert.mpr ⟨x, hx, rfl⟩⟩

/-- **There is nothing else to be seen.** -/
theorem carried {o : Op} {tr : List ServerEvent} {x : Except String o.Res}
    (h : Returns (carry_out o) tr x) : Carried o tr x := by
  have hdelegate : ∀ {o : Op} {client asked tr x} {y : Except String o.Res},
      asked_of o = some (.IntuneValidator client, asked) →
      Returns (delegate client asked) tr x → Carried o tr y := by
    rintro o client asked _ x y ho h
    obtain ⟨evs, z, rfl, hrun, _⟩ := returns_delegate.mp h
    exact .call ho hrun
  have hpure : ∀ {o : Op} {tr x} {r : AppResult Unit} {y : Except String o.Res}, asked_of o ≠ none →
      Returns (pure r : ServerTask (AppResult Unit)) tr x → Carried o tr y := by
    rintro o _ x r y ho h
    obtain ⟨rfl, _⟩ := returns_pure.mp h
    exact .computed ho
  cases o with
  | validate v input =>
      cases v with
      | IntuneValidator client => exact hdelegate rfl h
      | _ => exact hpure (Option.some_ne_none _) h
  | on_issued v input info =>
      cases v with
      | IntuneValidator client => exact hdelegate rfl h
      | _ => exact hpure (Option.some_ne_none _) h
  | on_failure v input message =>
      cases v with
      | IntuneValidator client => exact hdelegate rfl h
      | _ => exact hpure (Option.some_ne_none _) h
  | _ =>
      obtain ⟨r, rfl, rfl⟩ := returns_request.mp h
      exact .base rfl

/-- What the base and the calls guarantee, whatever is carried out guarantees. -/
theorem guarantees_carry_out {P : List ServerEvent → ServerEvent → Prop}
    (hbase : ∀ e, P [] (of_base e)) (hcall : ∀ client asked, Guarantees P (delegate client asked))
    (o : Op) : Guarantees P (carry_out o) := by
  intro tr x hrun past e rest htr
  cases carried hrun with
  | @base r ho =>
      obtain ⟨rfl, _⟩ | ⟨_, hnil⟩ := List.append_eq_singleton_iff.mp htr.symm
      · rw [← (List.cons.inj htr).1]
        exact hbase _
      · exact absurd hnil (List.cons_ne_nil e rest)
  | computed ho =>
      exact absurd htr.symm (List.append_ne_nil_of_right_ne_nil past (List.cons_ne_nil e rest))
  | call ho hcalled =>
      exact hcall _ _ _ _ (returns_delegate.mpr ⟨_, _, rfl, hcalled, rfl⟩) past e rest htr

/-- The base saw the requests that call no validator. -/
theorem mem_realizes_base {evs : Trace} {tr : List ServerEvent} (h : Realizes carry_out evs tr)
    {e : Event Op.Res} : of_base e ∈ tr ↔ e ∈ evs ∧ asked_of e.1 = none := by
  induction h with
  | nil => simp
  | @cons o r evs t₁ t₂ hhead htail ih =>
      rw [List.mem_append, ih, List.mem_cons, or_and_right]
      refine or_congr_left ?_
      cases carried hhead with
      | base ho =>
          rw [List.mem_singleton, of_base_inj]
          exact ⟨fun he => ⟨he, he ▸ ho⟩, And.left⟩
      | computed ho =>
          simp only [List.not_mem_nil, false_iff, not_and]
          rintro rfl
          exact ho
      | call ho hrun =>
          constructor
          · intro he
            obtain ⟨_, _, hno⟩ := List.mem_map.mp he
            cases hno
          · rintro ⟨rfl, hno⟩
            exact absurd (ho.symm.trans hno) (Option.some_ne_none _)

end CarryOut

/-! ## What has been seen of a request -/

/-- A request under way that has seen an event of the base made that request. -/
theorem began_base {α : Type} {p : Prog Op Op.Res α} {t₁ t₂ : List ServerEvent}
    {e : Event Op.Res} (h : Began (handle carry_out p) (t₁ ++ of_base e :: t₂)) :
    ∃ evs rest a, Prog.Run p (evs ++ e :: rest) a ∧ Realizes carry_out evs t₁ := by
  obtain ⟨evs, o, u₁, u, rfl, hreal, hasks, rest, x, hrun⟩ := h.at_event
  have he : of_base e ∈ u ++ [of_base e] ++ rest := by simp
  generalize htr : u ++ [of_base e] ++ rest = tr at hrun he
  cases carried hrun with
  | @base r ho =>
      rw [List.mem_singleton, of_base_inj] at he
      -- it is the one event of its handler
      obtain rfl : u = [] := by
        have hlength := congrArg List.length htr
        simp only [List.length_append, List.length_singleton] at hlength
        exact List.eq_nil_of_length_eq_zero (by omega)
      obtain ⟨evs', a, hrun'⟩ := hasks.run r
      rw [he]
      exact ⟨evs, evs', a, hrun', by rwa [List.append_nil]⟩
  | computed ho => cases he
  | call ho hcalled =>
      obtain ⟨_, _, hno⟩ := List.mem_map.mp he
      cases hno

/-! ## What a validator approves -/

/-- The exchange in which Intune approved a CSR: where it was asked, and what it answered. -/
structure ApprovedBy (past : ClientTrace) (req : Authorized) (resp : intune.Response)
    (answer : ValidateResponse) : Prop where
  url : ∃ uri, Located past uri ∧ req.url = s!"{uri}/{VALIDATE_PATH}"
  status : resp.status.is_success = true
  code : answer.code = some "Success"

theorem verdict_eq_ok {answer : ValidateResponse} {u : Unit} :
    answer.verdict = .ok u ↔ answer.code = some "Success" := by
  unfold ValidateResponse.verdict
  split
  · simp_all
  · simp_all
  · simp_all

/-- A call that approves ends with that exchange. -/
theorem validate_approved {client : IntuneClient} {input : ValidationInput} {evs : ClientTrace}
    (h : Returns (IntuneValidator.validate client input) evs (.ok ())) :
    ∃ pre req resp answer, evs = pre ++
      [⟨.post req (validate_body input.transaction_id input.csr_der), .ok resp⟩,
        ⟨.validate_response resp, .ok answer⟩] ∧ ApprovedBy pre req resp answer := by
  obtain ⟨uri, t₁, t₂, rfl, huri, h₁⟩ := returns_bind_ok.mp h
  obtain ⟨answer, t₃, t₄, rfl, h₂, h₃⟩ := returns_bind_ok.mp h₁
  obtain ⟨rfl, hverdict⟩ := returns_lift.mp h₃
  obtain ⟨token, t₅, t₆, rfl, _, h₄⟩ := returns_bind_ok.mp h₂
  obtain ⟨sent, t₇, rfl, h₅⟩ := returns_request_bind.mp h₄
  obtain ⟨resp, hresp, h₆⟩ := returns_lift_bind_ok.mp h₅
  obtain rfl := upstream_eq_ok.mp hresp
  by_cases hstatus : resp.status.is_success = true
  · rw [hstatus, if_neg (by decide)] at h₆
    obtain ⟨read, t₈, rfl, h₇⟩ := returns_request_bind.mp h₆
    obtain ⟨rfl, hread⟩ := returns_lift.mp h₇
    obtain rfl := upstream_eq_ok.mp hread.symm
    have hlocated : Located (t₁ ++ t₅) uri :=
      (validation_endpoint_located huri).mono (List.prefix_append t₁ t₅).isInfix
    rw [List.append_nil]
    refine ⟨t₁ ++ t₅, _, resp, answer, (List.append_assoc t₁ t₅ _).symm, ⟨uri, hlocated, rfl⟩,
      hstatus, ?_⟩
    unfold or_fail at hverdict
    split at hverdict
    · exact verdict_eq_ok.mp ‹_›
    · cases hverdict
  · rw [Bool.eq_false_iff.mpr hstatus, if_pos (by decide)] at h₆
    cases (returns_throw.mp h₆).2

/-! ## The world -/

/-- The database, and the caches of every client. -/
structure ServerWorld where
  db : Db
  caches : IntuneClient → Caches

def ServerWorld.new (clock : Instant) : ServerWorld := ⟨Db.empty, fun _ => Caches.new clock⟩

/-- Each part reacts to the requests to it, and to no others. -/
def ServerWorld.step (faulty : Prop) (s : ServerWorld) : (o : ServerOp) → o.Res → ServerWorld → Prop
  | .base o, r, s' => Blapki.step faulty s.db o r s'.db ∧ s'.caches = s.caches
  | .client client o, r, s' => (s.caches client).step o r (s'.caches client) ∧
      (∀ other, other ≠ client → s'.caches other = s.caches other) ∧ s'.db = s.db

/-- The event as one of the base, where it is. -/
def see_base : ServerEvent → Option (Event Op.Res)
  | ⟨.base o, r⟩ => some ⟨o, r⟩
  | ⟨.client _ _, _⟩ => none

/-- The event as one of this client, where it is. -/
def see_client (client : IntuneClient) : ServerEvent → Option ClientEvent
  | ⟨.base _, _⟩ => none
  | ⟨.client client' o, r⟩ => if client' = client then some ⟨o, r⟩ else none

section See

variable {client : IntuneClient} {e : ServerEvent} {e' : ClientEvent}

theorem see_base_eq_some {e' : Event Op.Res} : see_base e = some e' ↔ e = of_base e' := by
  obtain ⟨o, r⟩ := e
  cases o with
  | base o =>
      constructor
      · intro h
        rw [← Option.some.inj h]
        rfl
      · intro h
        cases h
        rfl
  | client client o =>
      constructor
      · intro h
        cases h
      · intro h
        cases h

theorem see_client_eq_some : see_client client e = some e' ↔ e = of_client client e' := by
  obtain ⟨o, r⟩ := e
  cases o with
  | base o =>
      constructor
      · intro h
        cases h
      · intro h
        cases h
  | client client' o =>
      by_cases hsame : client' = client
      · rw [see_client, if_pos hsame, hsame]
        constructor
        · intro h
          rw [← Option.some.inj h]
          rfl
        · intro h
          cases h
          rfl
      · rw [see_client, if_neg hsame]
        constructor
        · intro h
          cases h
        · intro h
          cases h
          exact absurd rfl hsame

theorem of_client_inj {client' : IntuneClient} {e e' : ClientEvent} :
    of_client client e = of_client client' e' ↔ client = client' ∧ e = e' := by
  obtain ⟨o, r⟩ := e
  obtain ⟨o', r'⟩ := e'
  constructor
  · intro h
    cases h
    exact ⟨rfl, rfl⟩
  · rintro ⟨rfl, h⟩
    rw [h]

@[simp] theorem see_client_of_client : see_client client (of_client client e') = some e' :=
  see_client_eq_some.mpr rfl

theorem filterMap_of_client (evs : ClientTrace) :
    (evs.map (of_client client)).filterMap (see_client client) = evs := by
  rw [List.filterMap_map]
  exact (List.filterMap_congr fun _ _ => see_client_of_client).trans (List.filterMap_some)

end See

/-! ## Credentials, in the server -/

/-- Whatever a request does with a client, the client's own past accounts for it. -/
def SoundServer (past : List ServerEvent) (e : ServerEvent) : Prop :=
  ∀ client e', see_client client e = some e' →
    ∃ asked, Sound client asked (past.filterMap (see_client client)) e'

theorem sound_delegate (client : IntuneClient) (asked : Asked) (pre : List ServerEvent) :
    Guarantees (fun past => SoundServer (pre ++ past)) (delegate client asked) := by
  refine ((sound_run asked).convert settle).embed fun past e h client' e' hsee => ?_
  obtain ⟨rfl, rfl⟩ : client = client' ∧ e = e' := by
    exact of_client_inj.mp (see_client_eq_some.mp hsee)
  rw [List.filterMap_append]
  refine ⟨asked, h.mono ?_⟩
  exact (filterMap_of_client past).symm ▸ (List.suffix_append _ _).isInfix

/-- **Every request is sound.** -/
theorem sound_carried {α : Type} (p : Prog Op Op.Res α) :
    Guarantees SoundServer (handle carry_out p) := by
  refine guarantees_handle (fun o pre => ?_) p
  refine guarantees_carry_out (fun e client e' hno => ?_)
    (fun client asked => sound_delegate client asked pre) o
  cases hno

/-! ## Traffic -/

section Log

variable {ι : Type}

/-- What a client was used for, and by which request. -/
def client_log (client : IntuneClient) (w : List (ι × ServerEvent)) : List (ι × ClientEvent) :=
  w.filterMap fun x => (see_client client x.2).map (Prod.mk x.1)

theorem client_log_append (client : IntuneClient) (w w' : List (ι × ServerEvent)) :
    client_log client (w ++ w') = client_log client w ++ client_log client w' :=
  List.filterMap_append

theorem client_log_singleton (client : IntuneClient) (i : ι) (e : ServerEvent) :
    client_log client [(i, e)] = ((see_client client e).map (Prod.mk i)).toList := by
  unfold client_log
  cases hsee : see_client client e with
  | none => exact List.filterMap_cons_none (by rw [hsee]; rfl)
  | some e' => exact List.filterMap_cons_some (by rw [hsee]; rfl)

end Log

/-- The requests of the server are those of `requests`, each as far as it has come. -/
structure Handling {ι : Type} [DecidableEq ι] (X : Crates)
    (json : List String → List String → Bytes) (state : AppState) (faulty : Prop)
    (requests : ι → http.Request) (clock : Instant)
    (w : List (ι × ServerEvent)) (s : ServerWorld) : Prop where
  world : Steps (ServerWorld.step faulty) (ServerWorld.new clock) (w.map Prod.snd) s
  begun : ∀ i, Began (handle carry_out (http.serve X json state (requests i)).run) (events_of i w)

section Handling

variable {ι : Type} [DecidableEq ι] {X : Crates} {json : List String → List String → Bytes}
  {state : AppState} {faulty : Prop} {requests : ι → http.Request} {clock : Instant}
  {w : List (ι × ServerEvent)} {s : ServerWorld}

theorem events_of_client_log (client : IntuneClient) (i : ι) :
    events_of i (client_log client w) = (events_of i w).filterMap (see_client client) := by
  induction w with
  | nil => rfl
  | cons x w ih =>
      obtain ⟨j, e⟩ := x
      rw [← List.singleton_append, client_log_append, events_of_append, events_of_append, ih,
        List.filterMap_append, client_log_singleton]
      congr 1
      by_cases hj : j = i
      · rw [hj, events_of_cons_same]
        cases hsee : see_client client e with
        | none =>
            rw [List.filterMap_cons_none hsee]
            rfl
        | some e' =>
            rw [List.filterMap_cons_some hsee]
            exact events_of_cons_same
      · rw [events_of_cons_other hj]
        cases hsee : see_client client e with
        | none => rfl
        | some e' => exact events_of_cons_other hj

/-- Traffic that was cut off is traffic. -/
theorem Handling.left {rest : List (ι × ServerEvent)}
    (h : Handling X json state faulty requests clock (w ++ rest) s) :
    ∃ u, Handling X json state faulty requests clock w u := by
  have hworld := h.world
  rw [List.map_append] at hworld
  obtain ⟨u, hworld₁, _⟩ := steps_append.mp hworld
  refine ⟨u, hworld₁, fun i => ?_⟩
  have hi := h.begun i
  rw [events_of_append] at hi
  exact hi.left

/-- The database sees its own events. -/
theorem Handling.base (h : Handling X json state faulty requests clock w s) :
    Steps (step faulty) Db.empty ((w.map Prod.snd).filterMap see_base) s.db := by
  refine h.world.select ServerWorld.db see_base ?_ ?_
  · intro e e' hsee s s' hstep
    obtain rfl := see_base_eq_some.mp hsee
    exact hstep.1
  · intro e hsee s s' hstep
    obtain ⟨o, r⟩ := e
    cases o with
    | base o => cases hsee
    | client client o => exact hstep.2.2

/-- The caches of every client hold what some request came by. -/
theorem Handling.provenance (h : Handling X json state faulty requests clock w s)
    (client : IntuneClient) : Provenance client (client_log client w) (s.caches client) := by
  refine Steps.together h.world h.begun
    (I := fun w s => Provenance client (client_log client w) (s.caches client))
    (provenance_new clock) ?_
  intro w i e u u' hbegan hI hstep
  have hsound : SoundServer (events_of i w) e := hbegan.guaranteed (sound_carried _)
  rw [client_log_append, client_log_singleton]
  cases hsee : see_client client e with
  | none =>
      -- an event of another part leaves the caches alone
      have hsame : u'.caches client = u.caches client := by
        obtain ⟨o, r⟩ := e
        cases o with
        | base o => rw [hstep.2]
        | client client' o =>
            apply hstep.2.1
            rintro rfl
            rw [see_client, if_pos rfl] at hsee
            cases hsee
      rw [Option.map_none, Option.toList_none, List.append_nil, hsame]
      exact hI
  | some e' =>
      obtain rfl := see_client_eq_some.mp hsee
      obtain ⟨asked, hown⟩ := hsound client e' hsee
      rw [← events_of_client_log] at hown
      exact provenance_step hown hI hstep.1

/-- What a request does with a client is confined. -/
theorem Handling.confined {i : ι} {e : ServerEvent} {rest : List (ι × ServerEvent)}
    (h : Handling X json state faulty requests clock (w ++ (i, e) :: rest) s)
    {client : IntuneClient} {e' : ClientEvent} (hsee : see_client client e = some e') :
    ∃ asked, Confined client asked (client_log client w) e' := by
  obtain ⟨u, hpast⟩ := h.left
  have hsound : SoundServer (events_of i w) e := by
    rw [← List.singleton_append, ← List.append_assoc] at h
    obtain ⟨_, hlast⟩ := h.left
    have hi := hlast.begun i
    rw [events_of_append, events_of_cons_same] at hi
    exact hi.guaranteed (sound_carried _)
  obtain ⟨asked, hown⟩ := hsound client e' hsee
  rw [← events_of_client_log] at hown
  exact ⟨asked, confined_of_sound (hpast.provenance client) hown⟩

/-! ## What a certificate takes -/

/-- The validator approved the input: the secret was right, or Intune said so, at the address
that Graph gave, to a bearer of a token it was issued for. -/
def Approved (w : List (ι × ServerEvent)) (i : ι) (input : ValidationInput) :
    ChallengeValidator → Prop
  | .StaticSecretValidator secret => input.challenge_password = some secret
  | .NoneValidator => True
  | .IntuneValidator client => ∃ a b c req resp answer,
      w = a ++ (i, of_client client
          ⟨.post req (validate_body input.transaction_id input.csr_der), .ok resp⟩) ::
        (b ++ (i, of_client client ⟨.validate_response resp, .ok answer⟩) :: c) ∧
      resp.status.is_success = true ∧ answer.code = some "Success" ∧
      IssuedTo client (client_log client a) (intune_scope client) req.bearer ∧
      ∃ uri, NamedTo (client_log client a) uri ∧ req.url = s!"{uri}/{VALIDATE_PATH}"

/-- The request is a message of a profile, and the row is that of the certificate made of its
CSR, which the validator of the profile was asked about. -/
structure Enrolled (X : Crates) (state : AppState) (req : http.Request) (row : IssuedCertificate)
    (rt : ProfileRuntime) (ca : CertificateAuthority) (parsed : ParsedRequest)
    (parsed_csr : ParsedCsr) (issued : Certificate) : Prop where
  accepted : ∃ profile body enveloped, req.operation = some (profile, body) ∧
    Scep.Accepted X state profile body rt ca parsed enveloped ∧
    Scep.recover_csr X ca enveloped = .ok parsed_csr
  leaf : ∃ octets now, ca.leaf X parsed_csr.req (Scep.issue_options state rt)
    (serial_of octets) now = .ok issued
  row : ∃ issued_der created_at, X.certificate_to_der issued = .ok issued_der ∧
    row = Scep.issued_row X rt ca parsed issued issued_der created_at

/-- A call that approved, within what its request has seen. -/
theorem Handling.approved {i : ι} (h : Handling X json state faulty requests clock w s)
    {v : ChallengeValidator} {input : ValidationInput} {t t' : List ServerEvent}
    (hevents : events_of i w = t ++ t') (hrun : Returns (carry_validate input v) t (.ok (.ok ()))) :
    Approved w i input v := by
  cases v with
  | StaticSecretValidator secret =>
      have hok := Except.ok.inj (returns_pure.mp hrun).2
      obtain ⟨pw, hpw, hsame⟩ := StaticSecretValidator.validate_eq_ok.mp hok.symm
      rw [Approved, hpw, String.as_bytes_inj.mp hsame]
  | NoneValidator => trivial
  | IntuneValidator client =>
      obtain ⟨evs, x, rfl, hcall, hx⟩ := returns_delegate.mp hrun
      obtain rfl : x = .ok () := by
        rcases x with (e | message) | ⟨⟩
        · cases hx
        · cases hx
        · rfl
      obtain ⟨pre, req, resp, answer, rfl, hby⟩ := validate_approved hcall
      rw [List.map_append, List.append_assoc] at hevents
      -- where the request was sent, and where it was answered
      obtain ⟨a, q, rfl, ha, hq⟩ := events_of_eq_append_cons hevents
      obtain ⟨b, c, rfl, _, _⟩ := events_of_eq_cons hq
      obtain ⟨uri, huri, hurl⟩ := hby.url
      have hpast : events_of i (client_log client a) = pre := by
        rw [events_of_client_log, ha, filterMap_of_client]
      obtain ⟨u, hleft⟩ := h.left
      refine ⟨a, b, c, req, resp, answer, rfl, hby.status, hby.code, ?_, uri, ?_, hurl⟩
      · obtain ⟨_, hconfined⟩ := h.confined see_client_of_client
        exact hconfined.1
      · rw [← hpast] at huri
        exact (hleft.provenance client).named huri

end Handling

/-! ## A device of a tenant -/

/-- Events that call no validator are carried out as they are. -/
theorem realizes_of_base {evs : Trace} (h : ∀ e ∈ evs, asked_of e.1 = none) :
    Realizes carry_out evs (evs.map of_base) := by
  induction evs with
  | nil => exact .nil
  | cons e evs ih =>
      obtain ⟨o, r⟩ := e
      have hhead : Returns (carry_out o) [of_base ⟨o, r⟩] (.ok r) := by
        have ho : asked_of o = none := h ⟨o, r⟩ List.mem_cons_self
        cases o with
        | validate v input => cases ho
        | on_issued v input info => cases ho
        | on_failure v input message => cases ho
        | _ => exact returns_request.mpr ⟨r, rfl, rfl⟩
      exact .cons hhead (ih fun e he => h e (List.mem_cons_of_mem _ he))

theorem steps_of_base {faulty : Prop} {db db' : Db} {tr : Trace} (h : Steps (step faulty) db tr db')
    (caches : IntuneClient → Caches) :
    Steps (ServerWorld.step faulty) ⟨db, caches⟩ (tr.map of_base) ⟨db', caches⟩ := by
  induction h with
  | nil => exact .nil _
  | cons hstep _ ih => exact steps_cons.mpr ⟨⟨_, caches⟩, ⟨hstep, rfl⟩, ih⟩

theorem steps_of_client {faulty : Prop} {client : IntuneClient} {u u' : Caches} {tr : ClientTrace}
    (h : Steps Caches.step u tr u') (db : Db) {caches : IntuneClient → Caches}
    (hu : caches client = u) :
    Steps (ServerWorld.step faulty) ⟨db, caches⟩ (tr.map (of_client client))
      ⟨db, Function.update caches client u'⟩ := by
  induction h generalizing caches with
  | nil =>
      rw [← hu, Function.update_eq_self]
      exact .nil _
  | @cons s s' s'' o r tr hstep _ ih =>
      refine steps_cons.mpr ⟨⟨db, Function.update caches client s'⟩, ⟨?_, ?_, rfl⟩, ?_⟩
      · show (caches client).step o r (Function.update caches client s' client)
        rw [Function.update_self, hu]
        exact hstep
      · exact fun other hother => Function.update_of_ne hother _ _
      · have hrest := @ih (Function.update caches client s') (Function.update_self _ _ _)
        rwa [Function.update_idem] at hrest

namespace Device

/-- The profile of the device, for a tenant. -/
def tenant_profile : ProfileRuntime := { profile with validator := .IntuneValidator tenant.client }

def tenant_server : AppState :=
  { server with profiles := AList.singleton "device" tenant_profile }

def input : ValidationInput :=
  Scep.validation_input (request transaction_id (enc (csr "s3cret")))
    ⟨csr "s3cret", enc (csr "s3cret"), some "s3cret"⟩

/-- What its one request does, but for the statements and the octets of the reply. -/
def exchange (info : IssuedInfo) (t t' : Trace) : List ServerEvent :=
  (tenant.approved input).map (of_client tenant.client) ++
    ([⟨Op.fill_bytes 16, serial_octets⟩, ⟨Op.now, now⟩].map of_base ++ (t.map of_base ++
      ((tenant.notified input info).map (of_client tenant.client) ++ t'.map of_base)))

theorem asked_of_draws {e : Event Op.Res} (h : draws e = true) : asked_of e.1 = none := by
  obtain ⟨o, r⟩ := e
  cases o with
  | validate v input => cases h
  | on_issued v input info => cases h
  | on_failure v input message => cases h
  | _ => rfl

theorem asked_of_bookkeeping {e : Event Op.Res} (h : Scep.Bookkeeping e) :
    asked_of e.1 = none := by
  rcases h with ⟨now, rfl⟩ | ⟨q, x, rfl⟩
  · rfl
  · rfl

/-- The request is served, and its row is the only one in the table. -/
theorem tenant_served : ∃ issued t t' s,
    Handling Reference.crates (fun _ _ => []) tenant_server False (fun _ : Unit => post)
      tenant.start ((exchange (Scep.issued_info Reference.crates ca issued (enc issued)) t t').map
        (Prod.mk ())) s ∧
    ∃ row, s.db.issued_certificate.rows = [row] := by
  obtain ⟨issued, hleaf⟩ := issues
  obtain ⟨t, db, hpersist, hworld, _, _, hrows⟩ := @Scep.persist_empty Reference.crates
    tenant_profile ca (request transaction_id (enc (csr "s3cret"))) issued (enc issued) now
  obtain ⟨der, hreply⟩ := Scep.exists_build_success Reference.cms_law Reference.encode_law
    (reply_steps transaction_id _) (issuable hleaf)
    (show Printable transaction_id by decide) (show nonce.length ≤ Length.MAX by decide)
    ⟨List.replicate 32 1, rfl⟩ ⟨List.replicate 16 2, rfl⟩ 0 ⟨List.replicate 16 3, rfl⟩
  have hdraws := (Scep.build_success_returns hreply).1
  generalize hreplied : [_, _, _, _] = t' at hreply hdraws
  -- the handler runs as it does with a static secret
  have hsecret := accepted read_txn (enc (csr "s3cret"))
  have hacc : Scep.Accepted Reference.crates tenant_server "device" pkcs_req tenant_profile ca
      (request transaction_id (enc (csr "s3cret"))) (enveloped (enc (csr "s3cret"))) :=
    ⟨lookup_singleton.mpr ⟨rfl, rfl⟩, hsecret.ca, hsecret.verified, hsecret.message_type,
      hsecret.enveloped⟩
  have hrun := Scep.pki_operation_delivers (.ok ()) hacc recovered_secret hleaf rfl hpersist hreply
  have hserve := @http.serve_of_operation _ (fun _ _ => []) _ _ _ _ _ _ _ post_resolves rfl hrun
  -- each of its requests is carried out
  have hvalidate : Returns (carry_out (.validate tenant_profile.validator input))
      ((tenant.approved input).map (of_client tenant.client)) (.ok (.ok ())) :=
    returns_delegate.mpr ⟨_, .ok (), rfl, tenant.approved_returns, rfl⟩
  have hnotify : Returns (carry_out (.on_issued tenant_profile.validator input
        (Scep.issued_info Reference.crates ca issued (enc issued))))
      ((tenant.notified input (Scep.issued_info Reference.crates ca issued (enc issued))).map
        (of_client tenant.client)) (.ok (.ok ())) :=
    returns_delegate.mpr ⟨_, .ok (), rfl, tenant.notified_returns, rfl⟩
  have hreal := Realizes.cons hvalidate ((@realizes_of_base [⟨Op.fill_bytes 16, serial_octets⟩,
    ⟨Op.now, now⟩] (by simp [asked_of])).append ((realizes_of_base fun e he =>
      asked_of_bookkeeping (Scep.persist_bookkeeping hpersist e he)).append (Realizes.cons hnotify
        (realizes_of_base fun e he => asked_of_draws (hdraws e he)))))
  have hdrawn : Steps (step False) Db.empty [⟨Op.fill_bytes 16, serial_octets⟩, ⟨Op.now, now⟩]
      Db.empty := .cons rfl (.cons rfl (.nil _))
  have hsteps : ∃ caches, Steps (ServerWorld.step False) (ServerWorld.new tenant.start)
      (exchange (Scep.issued_info Reference.crates ca issued (enc issued)) t t') ⟨db, caches⟩ :=
    ⟨_, steps_append.mpr ⟨_, steps_of_client (tenant.approved_steps input) Db.empty rfl,
      steps_append.mpr ⟨_, steps_of_base hdrawn _,
        steps_append.mpr ⟨_, steps_of_base hworld _, steps_append.mpr ⟨_, steps_of_client
          (tenant.notified_steps input _) db (Function.update_self _ _ _),
          steps_of_base ((steps_draws hdraws).mpr rfl) _⟩⟩⟩⟩⟩
  obtain ⟨caches, hsteps⟩ := hsteps
  refine ⟨issued, t, t', ⟨db, caches⟩, ⟨?_, fun i => ⟨[], .ok (.ok (http.strip post.method
    (Scep.bytes_response Scep.CT_PKI_MESSAGE der))), ?_⟩⟩, _, hrows⟩
  · rw [List.map_map]
    exact (List.map_id _).symm ▸ hsteps
  · rw [List.append_nil, events_of_tagged]
    exact returns_handle.mpr ⟨_, hserve, hreal⟩

end Device

/-! ## No certificate without approval -/

/-- **No certificate without approval.** Whatever requests the server is handling, and however
far it has come with each, a row of the table is of a message to a profile, and the validator
of the profile approved the CSR of the message before the row was written. -/
theorem issued_after_approval {ι : Type} [DecidableEq ι] {X : Crates}
    {json : List String → List String → Bytes} {state : AppState} {faulty : Prop}
    {requests : ι → http.Request} {clock : Instant} {w : List (ι × ServerEvent)} {s : ServerWorld}
    (h : Handling X json state faulty requests clock w s)
    {row : IssuedCertificate} (hrow : row ∈ s.db.issued_certificate.rows) :
    ∃ i rt ca parsed parsed_csr issued past rest,
      Enrolled X state (requests i) row.as_inserted rt ca parsed parsed_csr issued ∧
      w = past ++ (i, of_base ⟨Op.db (.insert_issued row.as_inserted), .ok ()⟩) :: rest ∧
      Approved past i (Scep.validation_input parsed parsed_csr) rt.validator := by
  obtain ⟨cert, hmem, hsame⟩ := repo.rows_inserted h.base row hrow
  obtain ⟨e, he, hsee⟩ := List.mem_filterMap.mp hmem
  obtain rfl := see_base_eq_some.mp hsee
  obtain ⟨⟨i, _⟩, hi, rfl⟩ := List.mem_map.mp he
  obtain ⟨past, rest, rfl⟩ := List.append_of_mem hi
  -- the request has come past the insert
  have hbegan := h.begun i
  rw [events_of_append, events_of_cons_same] at hbegan
  obtain ⟨evs, evs', a, hrun, hreal⟩ := began_base hbegan
  have hinsert : ⟨Op.db (.insert_issued cert), .ok ()⟩ ∈
      evs ++ ⟨Op.db (.insert_issued cert), .ok ()⟩ :: evs' :=
    List.mem_append_right _ List.mem_cons_self
  obtain ⟨profile, body, x, hop, hpki⟩ := http.operation_of_event hrun hinsert id
  obtain ⟨rt, ca, parsed, enveloped, parsed_csr, issued, issued_der, created_at, hissuance, hder,
    hcert⟩ := Scep.issuance_of_submits hpki hinsert ⟨_, rfl⟩
  have hrow' : row.as_inserted = cert := by
    rw [hsame, repo.as_inserted_of_fresh (Scep.enrolments_of_run hpki cert _ hinsert)]
  obtain ⟨t, rest', htr, hissue⟩ := hissuance.run
  obtain ⟨octets, now, _, hleaf⟩ := CertificateAuthority.issue_returns.mp hissue
  -- the first thing a message does is to ask the validator
  obtain ⟨evs, rfl⟩ : ∃ evs₁, evs =
      ⟨Op.validate rt.validator (Scep.validation_input parsed parsed_csr), .ok ()⟩ :: evs₁ := by
    cases evs with
    | nil =>
        obtain ⟨hno, _⟩ := List.cons.inj htr
        cases hno
    | cons e evs => exact ⟨evs, by rw [(List.cons.inj htr).1]⟩
  obtain ⟨u, hleft⟩ := h.left
  refine ⟨i, rt, ca, parsed, parsed_csr, issued, past, rest, ⟨?_, ?_, ?_⟩, by rw [hrow'], ?_⟩
  · exact ⟨profile, body, enveloped, hop, hissuance.accepted, hissuance.recovered⟩
  · exact ⟨octets, now, hleaf.symm⟩
  · exact ⟨issued_der, created_at, hder, by rw [hrow', hcert]⟩
  · generalize hevents : events_of i past = tr at hreal
    cases hreal with
    | cons hhead htail => exact hleft.approved hevents hhead

/-- The row of the device is there since Intune approved its CSR. -/
theorem device_issued_after_approval : ∃ (w : List (Unit × ServerEvent)) (row : IssuedCertificate),
    ∃ i rt ca parsed parsed_csr issued past rest,
      Enrolled Reference.crates Device.tenant_server Device.post row.as_inserted rt ca parsed
        parsed_csr issued ∧
      w = past ++ (i, of_base ⟨Op.db (.insert_issued row.as_inserted), .ok ()⟩) :: rest ∧
      Approved past i (Scep.validation_input parsed parsed_csr) rt.validator := by
  obtain ⟨issued, t, t', s, hhandling, row, hrows⟩ := Device.tenant_served
  have hrow : row ∈ s.db.issued_certificate.rows := by
    rw [hrows]
    exact List.mem_singleton_self row
  exact ⟨_, row, issued_after_approval hhandling hrow⟩

end Blapki
