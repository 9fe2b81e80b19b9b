/-
What Intune is told (`http/scep.rs`, `intune/mod.rs`).

A message asks its validator once, before it does anything else, and reports to it once,
after the certificate was submitted or when there is none. `Reported` says so of the handler,
of each call in the light of what the handler saw before it. Carried out, a call is the POST
that has its body, so whatever Intune receives about a message is true of the message
(`intune_told`).
-/
import Blapki.Delegation
import Blapki.Validator

set_option autoImplicit false

namespace Blapki

open Codec Effect intune Scep

/-! ## The handler -/

/-- The CSR of a message to a profile. -/
def Recovered (X : Crates) (state : AppState) (profile : String) (body : Bytes)
    (rt : ProfileRuntime) (ca : CertificateAuthority) (parsed : ParsedRequest)
    (parsed_csr : ParsedCsr) : Prop :=
  ∃ enveloped, Accepted X state profile body rt ca parsed enveloped ∧
    recover_csr X ca enveloped = .ok parsed_csr

section Reported

variable (X : Crates) (state : AppState) (rt : ProfileRuntime) (ca : CertificateAuthority)
  (parsed : ParsedRequest) (parsed_csr : ParsedCsr)

/-- The validator approved, the CA issued from what was drawn then, and the row was
submitted. -/
def Submitted (past : Trace) (issued : Certificate) (issued_der : Bytes) : Prop :=
  (∃ octets now rest, past =
      ⟨Op.validate rt.validator (validation_input parsed parsed_csr), .ok ()⟩ ::
        ⟨Op.fill_bytes 16, octets⟩ :: ⟨Op.now, now⟩ :: rest ∧
    ca.leaf X parsed_csr.req (issue_options state rt) (serial_of octets) now = .ok issued) ∧
  X.certificate_to_der issued = .ok issued_der ∧
  ∃ created_at x,
    ⟨Op.db (.insert_issued (issued_row X rt ca parsed issued issued_der created_at)), x⟩ ∈ past

/-- The validator denied the request, or the CA could not issue. -/
def Failed (past : Trace) (e : AppError) : Prop :=
  past = [⟨Op.validate rt.validator (validation_input parsed parsed_csr), .error e⟩] ∨
  ∃ octets now, past = [⟨Op.validate rt.validator (validation_input parsed parsed_csr), .ok ()⟩,
      ⟨Op.fill_bytes 16, octets⟩, ⟨Op.now, now⟩] ∧
    ca.leaf X parsed_csr.req (issue_options state rt) (serial_of octets) now = .error e

/-- What a call of the validator says is so. -/
def Reported (past : Trace) : Event Op.Res → Prop
  | ⟨.validate v input, _⟩ =>
      v = rt.validator ∧ input = validation_input parsed parsed_csr ∧ past = []
  | ⟨.on_issued v input info, _⟩ =>
      v = rt.validator ∧ input = validation_input parsed parsed_csr ∧ ∃ issued issued_der,
        Submitted X state rt ca parsed parsed_csr past issued issued_der ∧
          info = issued_info X ca issued issued_der
  | ⟨.on_failure v input message, _⟩ =>
      v = rt.validator ∧ input = validation_input parsed parsed_csr ∧ ∃ e,
        Failed X state rt ca parsed parsed_csr past e ∧ message = e.to_string
  | _ => True

variable {X state rt ca parsed parsed_csr}

theorem reported_of_not_call {past : Trace} {e : Event Op.Res} (h : is_call e = false) :
    Reported X state rt ca parsed parsed_csr past e := by
  obtain ⟨o, r⟩ := e
  cases o with
  | validate v input => cases h
  | on_issued v input info => cases h
  | on_failure v input message => cases h
  | _ => trivial

/-- A step that calls no validator reports nothing. -/
theorem reported_quiet {α : Type} {t : Async α}
    (h : ∀ tr r, Returns t tr r → ∀ e ∈ tr, is_call e = false) (before : Trace → Trace) :
    Guarantees (fun past => Reported X state rt ca parsed parsed_csr (before past)) t :=
  (guarantees_each.mpr h).mono fun _ _ hquiet => reported_of_not_call hquiet

theorem build_failure_quiet {fail : FailInfo} (tr : Trace) (r : AppResult Bytes)
    (h : Returns (build_failure X ca parsed fail) tr r) : ∀ e ∈ tr, is_call e = false :=
  fun e he => not_call_of_draws ((build_failure_returns h).1 e he)

/-- From the issued certificate on, the report is made when the row was submitted. -/
theorem reported_deliver {octets : { b : Bytes // b.length = 16 }} {now : SystemTime}
    {issued : Certificate}
    (hleaf : ca.leaf X parsed_csr.req (issue_options state rt) (serial_of octets) now
      = .ok issued) :
    Guarantees (fun past => Reported X state rt ca parsed parsed_csr
        ([⟨Op.validate rt.validator (validation_input parsed parsed_csr), .ok ()⟩,
          ⟨Op.fill_bytes 16, octets⟩, ⟨Op.now, now⟩] ++ past))
      (deliver X rt ca parsed (validation_input parsed parsed_csr) issued) := by
  unfold deliver
  refine guarantees_lift_bind fun issued_der hder => ?_
  refine (guarantees_attempt (reported_quiet (fun tr r h e he =>
    not_call_of_bookkeeping (persist_bookkeeping h e he)) _)).bind fun persisted t₁ hpersist => ?_
  obtain ⟨x, _, hpersist⟩ := returns_attempt.mp hpersist
  obtain ⟨created_at, ⟨e, he, y, rfl⟩, _⟩ := persist_submits hpersist
    (issued_info X ca issued issued_der)
  refine Guarantees.bind (guarantees_attempt (guarantees_request_bind (fun r => ?_)
    fun _ => guarantees_lift _)) fun _ t₂ _ => ?_
  · refine ⟨rfl, rfl, issued, issued_der, ⟨⟨octets, now, _, rfl, hleaf⟩, map_err_eq_ok.mp hder,
      created_at, y, ?_⟩, rfl⟩
    simp [he]
  · exact reported_quiet (fun tr r h e he => not_call_of_draws ((build_success_returns h).1 e he)) _

/-- **Every call of the handler is true of the message.** -/
theorem reported_enrol :
    Guarantees (Reported X state rt ca parsed parsed_csr)
      (enrol X state rt ca parsed parsed_csr) := by
  unfold enrol
  refine (guarantees_attempt (guarantees_request_bind (fun r => ⟨rfl, rfl, rfl⟩)
    fun _ => guarantees_lift _)).bind fun validated t₁ hvalidated => ?_
  obtain ⟨x, hx, hrun⟩ := returns_attempt.mp hvalidated
  obtain rfl := Except.ok.inj hx
  obtain rfl := (ChallengeValidator.validate_returns _ _).mp hrun
  cases validated with
  | error e =>
      refine Guarantees.bind (guarantees_attempt (guarantees_request_bind (fun r => ?_)
        fun _ => guarantees_lift _)) fun _ t₂ _ => ?_
      · exact ⟨rfl, rfl, e, .inl rfl, rfl⟩
      refine Guarantees.bind (guarantees_attempt (reported_quiet (fun tr r h e he =>
        not_call_of_bookkeeping (record_bookkeeping h e he)) _)) fun _ t₃ _ => ?_
      exact reported_quiet build_failure_quiet _
  | ok u =>
      refine Guarantees.bind (guarantees_attempt (reported_quiet (fun tr r h e he => ?_) _))
        fun issued t₂ hissued => ?_
      · obtain ⟨octets, now, rfl, _⟩ := CertificateAuthority.issue_returns.mp h
        simp only [List.mem_cons, List.not_mem_nil, or_false] at he
        rcases he with rfl | rfl
        · rfl
        · rfl
      obtain ⟨x, hx, hrun⟩ := returns_attempt.mp hissued
      obtain rfl := Except.ok.inj hx
      obtain ⟨octets, now, rfl, hleaf⟩ := CertificateAuthority.issue_returns.mp hrun
      cases issued with
      | error e =>
          refine Guarantees.bind (guarantees_attempt (guarantees_request_bind (fun r => ?_)
            fun _ => guarantees_lift _)) fun _ t₂ _ => ?_
          · exact ⟨rfl, rfl, e, .inr ⟨octets, now, rfl, hleaf.symm⟩, rfl⟩
          exact reported_quiet build_failure_quiet _
      | ok issued => exact reported_deliver hleaf.symm

end Reported

section Operation

variable {X : Crates} {state : AppState} {profile : String} {body : Bytes}

/-- Whatever calls a validator is a message to a profile with a CSR. -/
theorem reported_operation : Guarantees (fun past e => is_call e = true →
    ∃ rt ca parsed parsed_csr, Recovered X state profile body rt ca parsed parsed_csr ∧
      Reported X state rt ca parsed parsed_csr past e) (pki_operation X state profile body) := by
  unfold pki_operation
  refine guarantees_lift_bind fun rt hrt => guarantees_lift_bind fun ca hca => ?_
  refine guarantees_lift_bind fun parsed hparsed => guarantees_lift_bind fun _ htype => ?_
  refine guarantees_lift_bind fun enveloped henveloped => ?_
  cases hrecover : recover_csr X ca enveloped with
  | error e =>
      refine (guarantees_each.mpr build_failure_quiet).mono fun past e hquiet hcall => ?_
      exact absurd (hquiet.symm.trans hcall) (by decide)
  | ok parsed_csr =>
      refine reported_enrol.mono fun past e hreported _ =>
        ⟨rt, ca, parsed, parsed_csr, ?_, hreported⟩
      exact ⟨enveloped, ⟨ok_or_else_eq_ok.mp hrt, ok_or_else_eq_ok.mp hca, hparsed,
        check_message_type_eq_ok.mp htype, ok_or_else_eq_ok.mp henveloped⟩, hrecover⟩

end Operation

/-! ## On the wire -/

theorem is_call_of_asked {o : Op} {r : o.Res} {v : ChallengeValidator} {asked : Asked}
    (h : asked_of o = some (v, asked)) : is_call ⟨o, r⟩ = true := by
  cases o with
  | validate v input => rfl
  | on_issued v input info => rfl
  | on_failure v input message => rfl
  | _ => cases h

theorem not_reads_of_asked {o : Op} {r : o.Res} {v : ChallengeValidator} {asked : Asked}
    (h : asked_of o = some (v, asked)) : ¬ http.Reads ⟨o, r⟩ := by
  cases o with
  | validate v input => exact id
  | on_issued v input info => exact id
  | on_failure v input message => exact id
  | _ => cases h

/-- A POST is that of the call that is carried out. -/
theorem began_post {o : Op} {u : List ServerEvent} {client : IntuneClient} {req : Authorized}
    {body : Json} {r : Except String intune.Response}
    (h : Began (carry_out o) (u ++ [of_client client ⟨.post req body, r⟩])) :
    ∃ asked, asked_of o = some (.IntuneValidator client, asked) ∧ (∀ e, of_base e ∉ u) ∧
      (∃ uri : String, req.url = s!"{uri}/{asked.path}") ∧ body = asked.body := by
  obtain ⟨rest, x, hrun⟩ := h
  have hmem : of_client client ⟨.post req body, r⟩ ∈
      u ++ [of_client client ⟨.post req body, r⟩] ++ rest := by simp
  have hu : ∀ e ∈ u, e ∈ u ++ [of_client client ⟨.post req body, r⟩] ++ rest := by
    intro e he
    simp [he]
  generalize u ++ [of_client client ⟨.post req body, r⟩] ++ rest = tr at hrun hmem hu
  cases carried hrun with
  | base ho => cases List.mem_singleton.mp hmem
  | computed ho => cases hmem
  | @call client' asked evs y _ ho hcall =>
      have hnone : ∀ e, of_base e ∉ u := by
        intro e he
        obtain ⟨_, _, hno⟩ := List.mem_map.mp (hu _ he)
        cases hno
      obtain ⟨e, he, hsame⟩ := List.mem_map.mp hmem
      obtain ⟨rfl, rfl⟩ := of_client_inj.mp hsame
      obtain ⟨pre, post, rfl⟩ := List.append_of_mem he
      obtain ⟨_, ⟨uri, _, hurl⟩, hbody⟩ := sound_run asked _ _ hcall pre _ post rfl
      exact ⟨asked, ho, hnone, ⟨uri, hurl⟩, hbody⟩

/-- A denial of Intune is the error of its call. -/
theorem denied_of_carried {client : IntuneClient} {input : ValidationInput} {e : AppError}
    {tr : List ServerEvent}
    (h : Returns (carry_validate input (.IntuneValidator client)) tr (.ok (.error e))) :
    ∃ t, tr = t.map (of_client client) ∧
      Returns (IntuneValidator.validate client input) t (.error (.error e)) := by
  obtain ⟨t, x, rfl, hcall, hx⟩ := returns_delegate.mp h
  rcases x with (e' | message) | ⟨⟩
  · rw [Except.error.inj (Except.ok.inj hx)]
    exact ⟨t, rfl, hcall⟩
  · cases hx
  · cases Except.ok.inj hx

/-- What the request has done before anything else but its validation: it drew these octets
for a serial and read this time. -/
def Drew {ι : Type} [DecidableEq ι] (past : List (ι × ServerEvent)) (i : ι)
    (octets : { b : Bytes // b.length = 16 }) (now : SystemTime) : Prop :=
  ∃ t rest, events_of i past
      = t ++ of_base ⟨Op.fill_bytes 16, octets⟩ :: of_base ⟨Op.now, now⟩ :: rest ∧
    ∀ e, of_base e ∉ t

/-- A request to the base is its one event. -/
theorem realizes_base_cons {e : Event Op.Res} {evs : Trace} {tr : List ServerEvent}
    (ho : asked_of e.1 = none) (h : Realizes carry_out (e :: evs) tr) :
    ∃ tr', tr = of_base e :: tr' ∧ Realizes carry_out evs tr' := by
  cases h with
  | cons hhead htail =>
      cases carried hhead with
      | base _ => exact ⟨_, rfl, htail⟩
      | computed hno => exact absurd ho hno
      | call hsome _ => cases ho.symm.trans hsome

/-- A call of a validator is no event of the base. -/
theorem not_base_of_call {o : Op} {x : Except String o.Res} {t : List ServerEvent}
    (ho : asked_of o ≠ none) (h : Returns (carry_out o) t x) (e : Event Op.Res) :
    of_base e ∉ t := by
  cases carried h with
  | base hno => exact absurd hno ho
  | computed _ => exact List.not_mem_nil
  | call _ _ =>
      intro he
      obtain ⟨_, _, hno⟩ := List.mem_map.mp he
      cases hno

/-- A request whose validator approved has drawn what its handler drew, after the calls of the
validator. -/
theorem drew_of_realizes {ι : Type} [DecidableEq ι] {past : List (ι × ServerEvent)} {i : ι}
    {client : IntuneClient} {input : ValidationInput} {octets : { b : Bytes // b.length = 16 }}
    {now : SystemTime} {evs : Trace} {u₁ u : List ServerEvent}
    (hreal : Realizes carry_out (⟨Op.validate (.IntuneValidator client) input, .ok ()⟩ ::
      ⟨Op.fill_bytes 16, octets⟩ :: ⟨Op.now, now⟩ :: evs) u₁)
    (hpast : events_of i past = u₁ ++ u) :
    Drew past i octets now ∧ ∃ t t', events_of i past = t ++ t' ∧
      Returns (carry_validate input (.IntuneValidator client)) t (.ok (.ok ())) := by
  cases hreal with
  | @cons _ _ _ t t' hhead htail =>
      obtain ⟨t₁, rfl, hnow⟩ := realizes_base_cons rfl htail
      obtain ⟨t₂, rfl, _⟩ := realizes_base_cons rfl hnow
      rw [List.append_assoc] at hpast
      have hcall : asked_of (Op.validate (.IntuneValidator client) input) ≠ none :=
        Option.some_ne_none _
      exact ⟨⟨t, t₂ ++ u, hpast, not_base_of_call hcall hhead⟩, t, _, hpast, hhead⟩

/-- What the server has done about a message when it tells Intune of it. -/
inductive Told {ι : Type} [DecidableEq ι] (X : Crates) (state : AppState)
    (past : List (ι × ServerEvent)) (i : ι) (client : IntuneClient) (rt : ProfileRuntime)
    (ca : CertificateAuthority) (parsed : ParsedRequest) (parsed_csr : ParsedCsr) : Asked → Prop
  /-- Nothing yet. -/
  | validate (hfirst : ∀ e, (i, of_base e) ∉ past) :
      Told X state past i client rt ca parsed parsed_csr
        (.validate (validation_input parsed parsed_csr))
  /-- Intune approved the CSR, the CA made this certificate of it with the serial and the time
  that the request drew, and its row went to the database. -/
  | on_issued {issued : Certificate} {issued_der : Bytes} {octets : { b : Bytes // b.length = 16 }}
      {now : SystemTime} {created_at : String} {x : Except String Unit}
      (happroved : Approved past i (validation_input parsed parsed_csr) (.IntuneValidator client))
      (hdrew : Drew past i octets now)
      (hleaf : ca.leaf X parsed_csr.req (issue_options state rt) (serial_of octets) now
        = .ok issued)
      (hder : X.certificate_to_der issued = .ok issued_der)
      (hrow : (i, of_base ⟨Op.db (.insert_issued
        (issued_row X rt ca parsed issued issued_der created_at)), x⟩) ∈ past) :
      Told X state past i client rt ca parsed parsed_csr
        (.on_issued (validation_input parsed parsed_csr) (issued_info X ca issued issued_der))
  /-- Intune did not approve, and nothing else was done. -/
  | denied {e : AppError} {t : ClientTrace} (hbegan : t.map (of_client client) <+: events_of i past)
      (hdenied : Returns (IntuneValidator.validate client (validation_input parsed parsed_csr)) t
        (.error (.error e)))
      (hnothing : ∀ e, (i, of_base e) ∉ past) :
      Told X state past i client rt ca parsed parsed_csr
        (.on_failure (validation_input parsed parsed_csr) e.to_string)
  /-- Intune approved, the CA could not issue with the serial and the time that the request
  drew, and no row went to the database. -/
  | not_issued {e : AppError} {octets : { b : Bytes // b.length = 16 }} {now : SystemTime}
      (happroved : Approved past i (validation_input parsed parsed_csr) (.IntuneValidator client))
      (hdrew : Drew past i octets now)
      (hleaf : ca.leaf X parsed_csr.req (issue_options state rt) (serial_of octets) now
        = .error e)
      (hrow : ∀ row x, (i, of_base ⟨Op.db (.insert_issued row), x⟩) ∉ past) :
      Told X state past i client rt ca parsed parsed_csr
        (.on_failure (validation_input parsed parsed_csr) e.to_string)

/-- **What Intune is told is so.** Whatever requests the server is handling, every POST to
Intune is about a message to a profile that Intune validates, and says of it what the server has
done about it. -/
theorem intune_told {ι : Type} [DecidableEq ι] {X : Crates}
    {json : List String → List String → Bytes} {state : AppState} {faulty : Prop}
    {requests : ι → http.Request} {clock : Instant} {past rest : List (ι × ServerEvent)}
    {s : ServerWorld} {i : ι} {client : IntuneClient} {req : Authorized} {told : Json}
    {r : Except String intune.Response}
    (h : Handling X json state faulty requests clock
      (past ++ (i, of_client client ⟨.post req told, r⟩) :: rest) s) :
    ∃ profile body rt ca parsed parsed_csr asked, ∃ uri : String,
      (requests i).operation = some (profile, body) ∧
      Recovered X state profile body rt ca parsed parsed_csr ∧
      rt.validator = .IntuneValidator client ∧
      Told X state past i client rt ca parsed parsed_csr asked ∧
      req.url = s!"{uri}/{asked.path}" ∧ told = asked.body := by
  have hbegan := h.begun i
  rw [events_of_append, events_of_cons_same] at hbegan
  obtain ⟨evs, o, u₁, u, hpast, hreal, hasks, hat⟩ := hbegan.at_event
  obtain ⟨asked, ho, hnone, ⟨uri, hurl⟩, hbody⟩ := began_post hat
  obtain ⟨x⟩ : Nonempty o.Res := inferInstance
  obtain ⟨rest', y, hrun⟩ := hasks.run x
  have hcall : is_call ⟨o, x⟩ = true := is_call_of_asked ho
  obtain ⟨profile, body, z, hop, hpki⟩ := http.operation_of_event hrun
    (List.mem_append_right evs List.mem_cons_self) (not_reads_of_asked ho)
  obtain ⟨rt, ca, parsed, parsed_csr, hrecovered, hreported⟩ :=
    reported_operation _ _ hpki evs _ rest' rfl hcall
  -- the base saw the events of the handler, and nothing of the call
  have hbase : ∀ e, (i, of_base e) ∈ past ↔ e ∈ evs ∧ asked_of e.1 = none := by
    intro e
    rw [← mem_events_of, hpast, List.mem_append, mem_realizes_base hreal]
    exact or_iff_left (hnone e)
  obtain ⟨_, hleft⟩ := h.left
  refine ⟨profile, body, rt, ca, parsed, parsed_csr, asked, uri, hop, hrecovered, ?_⟩
  cases o with
  | validate v input =>
      obtain ⟨rfl, rfl, rfl⟩ := hreported
      obtain ⟨hv, rfl⟩ := Prod.mk.inj (Option.some.inj ho)
      refine ⟨hv, .validate fun e he => ?_, hurl, hbody⟩
      exact List.not_mem_nil ((hbase e).mp he).1
  | on_issued v input info =>
      obtain ⟨rfl, rfl, issued, issued_der, hsubmitted, rfl⟩ := hreported
      obtain ⟨hv, rfl⟩ := Prod.mk.inj (Option.some.inj ho)
      obtain ⟨⟨octets, now, evs', rfl, hleaf⟩, hder, created_at, x, hrow⟩ := hsubmitted
      rw [hv] at hreal
      obtain ⟨hdrew, t, t', hevents, happroved⟩ := drew_of_realizes hreal hpast
      rw [hv] at hbase hrow
      exact ⟨hv, .on_issued (hleft.approved hevents happroved) hdrew hleaf hder
        ((hbase _).mpr ⟨hrow, rfl⟩), hurl, hbody⟩
  | on_failure v input message =>
      obtain ⟨rfl, rfl, e, hfailed, rfl⟩ := hreported
      obtain ⟨hv, rfl⟩ := Prod.mk.inj (Option.some.inj ho)
      rcases hfailed with rfl | ⟨octets, now, rfl, hleaf⟩
      · cases hreal with
        | @cons _ _ _ u₀ u₂ hhead htail =>
            obtain ⟨t, rfl, hdenied⟩ := denied_of_carried (hv ▸ hhead)
            rw [List.append_assoc] at hpast
            refine ⟨hv, .denied (hpast ▸ List.prefix_append _ _) hdenied fun e he => ?_, hurl, hbody⟩
            -- all it has done is the call that was denied
            obtain ⟨hcalled, hno⟩ := (hbase e).mp he
            rw [List.mem_singleton.mp hcalled] at hno
            cases hno
      · rw [hv] at hreal
        obtain ⟨hdrew, t, t', hevents, happroved⟩ := drew_of_realizes hreal hpast
        refine ⟨hv, .not_issued (hleft.approved hevents happroved) hdrew hleaf fun row x hrow => ?_,
          hurl, hbody⟩
        -- it has asked its validator and drawn, and inserted nothing
        have hmem := ((hbase _).mp hrow).1
        simp at hmem
  | _ => cases ho

/-- Of the device, Intune is told that its certificate was issued. -/
theorem device_intune_told : ∃ (issued : Certificate) (past : List (Unit × ServerEvent)),
    ∃ profile body rt ca parsed parsed_csr asked, ∃ uri : String,
      Device.post.operation = some (profile, body) ∧
      Recovered Reference.crates Device.tenant_server profile body rt ca parsed parsed_csr ∧
      rt.validator = .IntuneValidator tenant.client ∧
      Told Reference.crates Device.tenant_server past () tenant.client rt ca parsed parsed_csr
        asked ∧
      (tenant.success_post Device.input).url = s!"{uri}/{asked.path}" ∧
      success_body Device.input.transaction_id Device.input.csr_der
        (issued_info Reference.crates Device.ca issued (enc issued)) = asked.body := by
  obtain ⟨issued, t, t', s, hhandling, _⟩ := Device.tenant_served
  have hmem : ((), of_client tenant.client ⟨.post (tenant.success_post Device.input)
      (success_body Device.input.transaction_id Device.input.csr_der
        (issued_info Reference.crates Device.ca issued (enc issued))), .ok tenant.answered⟩) ∈
      (Device.exchange (issued_info Reference.crates Device.ca issued (enc issued)) t t').map
        (Prod.mk ()) := by
    refine List.mem_map_of_mem (List.mem_append_right _ (List.mem_append_right _
      (List.mem_append_right _ (List.mem_append_left _ (List.mem_map_of_mem ?_)))))
    exact List.mem_append_right _ List.mem_cons_self
  obtain ⟨past, rest, hw⟩ := List.append_of_mem hmem
  rw [hw] at hhandling
  exact ⟨issued, past, intune_told hhandling⟩

end Blapki
