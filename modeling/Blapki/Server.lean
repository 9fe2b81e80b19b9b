/-
The server (`http/mod.rs`, `http/health.rs`).

A request is a method, a path, a query and a body. `route_of` finds the route of the path, the
method chooses one of its handlers, and the handler is called with what its extractors read. What
no handler is for, or no extractor reads, is answered without a call. `serve` is all of that, so a
run of it is everything a request may do.

The order of the keys of a `HashMap` and the text of a JSON object are the crates'; the health
check takes both as one function.
-/
import Blapki.Handler
import Blapki.Routing
import Blapki.Replay

set_option autoImplicit false

namespace Blapki

open Effect

namespace http

/-! ## Requests -/

/-- A route for GET also answers HEAD. -/
inductive Method where
  | GET
  | HEAD
  | POST
deriving DecidableEq

/-- A request as the extractors read it; the path is as it was sent. -/
structure Request where
  method : Method
  path : Bytes
  query : AList fun _ : String => String
  body : Bytes

def MethodRouter.handler (service : MethodRouter) : Method → Option Handler
  | .GET => some service.get
  | .HEAD => some service.get
  | .POST => service.post

/-- A handler with its arguments. -/
inductive Call where
  | health
  | scep_get (profile : String) (params : AList fun _ : String => String)
  | scep_post (profile : String) (params : AList fun _ : String => String) (body : Bytes)
  | ocsp_get_root (ca : String)
  | ocsp_post (ca : String) (body : Bytes)
  | ocsp_get (ca b64 : String)
  | crl (ca : String)

/-- `Path(..)`, `Query(..)` and the body of a request. -/
def extract (req : Request) : Handler → List String → Option Call
  | .health, [] => some .health
  | .scep_get, [profile] => some (.scep_get profile req.query)
  | .scep_post, [profile] => some (.scep_post profile req.query req.body)
  | .ocsp_get_root, [ca] => some (.ocsp_get_root ca)
  | .ocsp_post, [ca] => some (.ocsp_post ca req.body)
  | .ocsp_get, [ca, b64] => some (.ocsp_get ca b64)
  | .crl, [ca] => some (.crl ca)
  | _, _ => none

/-- A reply of axum's own; the text of its body is left out. -/
def empty_response (status : Nat) : Response := ⟨status, "", []⟩

/-- The call a request is for, or the reply where it is for none. -/
def resolve (req : Request) : Except Response Call :=
  match route_of req.path with
  | none => .error (empty_response 404)
  | some route =>
      match route.service.handler req.method with
      | none => .error (empty_response 405)
      | some handler =>
          match match_path route.path (segments req.path) with
          -- a parameter that is not UTF-8 is the extractor's to refuse, after the method
          | none => .error (empty_response 400)
          | some params =>
              match extract req handler (params.map Prod.snd) with
              | none => .error (empty_response 500)
              | some call => .ok call

theorem resolve_of_router {req : Request} {service : MethodRouter} {params : Params}
    {handler : Handler} {call : Call} (hroute : router req.path = some (service, params))
    (hmethod : service.handler req.method = some handler)
    (hcall : extract req handler (params.map Prod.snd) = some call) : resolve req = .ok call := by
  obtain ⟨r, hr, hservice, hmatch⟩ := route_of_router hroute
  simp only [resolve, hr, hservice, hmethod, hmatch, hcall]

/-! ## Handlers -/

section Serve

variable (X : Crates) (json : List String → List String → Bytes) (state : AppState)

/-- Liveness/readiness probe: reports the configured CAs and profiles. -/
def health : Response := ⟨200, "application/json", json state.cas.keys state.profiles.keys⟩

def Call.run : Call → Async Response
  | .health => pure (http.health json state)
  | .scep_get profile params => Scep.scep_get X state profile params
  | .scep_post profile params body => Scep.scep_post X state profile params body
  | .ocsp_get_root _ => pure Ocsp.ocsp_get_root
  | .ocsp_post ca body => Ocsp.ocsp_post X state ca body
  | .ocsp_get ca b64 => Ocsp.ocsp_get X state ca b64
  | .crl ca => Crl.crl X state ca

/-- The response to a HEAD is without its body. -/
def strip (method : Method) (resp : Response) : Response :=
  if method = .HEAD then { resp with body := [] } else resp

/-- A request is routed, and handled. -/
def serve (req : Request) : Async Response :=
  match resolve req with
  | .error resp => pure (strip req.method resp)
  | .ok call => do
      let r ← attempt (Call.run X json state call)
      pure (strip req.method (Scep.into_response r))

end Serve

/-! ## What a request runs -/

/-- The profile and the message, where a call is a `PKIOperation`. -/
def Call.operation : Call → Option (String × Bytes)
  | .scep_get profile params =>
      if params.lookup "operation" = some "PKIOperation" then
        (params.lookup "message").bind fun message =>
          (base64.decode message.toList).map fun body => (profile, body)
      else none
  | .scep_post profile params body =>
      if (params.lookup "operation").getD "PKIOperation" = "PKIOperation" then some (profile, body)
      else none
  | _ => none

/-- The profile and the message, where a request is a `PKIOperation`. -/
def Request.operation (req : Request) : Option (String × Bytes) :=
  (resolve req).toOption.bind Call.operation

/-- An event that reads a status or the clock. -/
def Reads : Event Op.Res → Prop
  | ⟨.db (.select_status _ _), _⟩ => True
  | ⟨.db (.select_revoked _), _⟩ => True
  | ⟨.now, _⟩ => True
  | _ => False

section Runs

variable {X : Crates} {json : List String → List String → Bytes} {state : AppState}

theorem serve_returns {req : Request} {tr : Trace} {r : AppResult Response} :
    Returns (serve X json state req) tr r ↔
      (∃ resp, resolve req = .error resp ∧ tr = [] ∧ r = .ok (strip req.method resp)) ∨
      ∃ call x, resolve req = .ok call ∧ Returns (call.run X json state) tr x ∧
        r = .ok (strip req.method (Scep.into_response x)) := by
  unfold serve
  cases hresolve : resolve req with
  | error resp =>
      rw [returns_pure]
      simp
  | ok call =>
      rw [returns_attempt_bind]
      constructor
      · rintro ⟨x, t₁, t₂, rfl, hrun, hpure⟩
        obtain ⟨rfl, rfl⟩ := returns_pure.mp hpure
        rw [List.append_nil]
        exact .inr ⟨call, x, rfl, hrun, rfl⟩
      · rintro (⟨resp, hno, _⟩ | ⟨call', x, hcall, hrun, rfl⟩)
        · cases hno
        · rw [Except.ok.inj hcall]
          exact ⟨x, tr, [], (List.append_nil tr).symm, hrun, returns_pure.mpr ⟨rfl, rfl⟩⟩

/-- The two ways to send a message end in the same handler. -/
theorem run_operation {call : Call} {profile : String} {body : Bytes}
    (h : call.operation = some (profile, body)) :
    call.run X json state = (do
      let der ← Scep.pki_operation X state profile body
      pure (Scep.bytes_response Scep.CT_PKI_MESSAGE der)) := by
  cases call with
  | scep_get profile' params =>
      rw [Call.operation] at h
      split_ifs at h with hop
      obtain ⟨message, hmessage, h₁⟩ := Option.bind_eq_some_iff.mp h
      obtain ⟨body', hbody, h₂⟩ := Option.map_eq_some_iff.mp h₁
      obtain ⟨rfl, rfl⟩ := Prod.mk.inj h₂
      show Scep.scep_get X state profile' params = _
      simp only [Scep.scep_get, hop, Option.getD_some]
      rw [lift_bind_of_ok (ok_or_else_eq_ok.mpr hmessage),
        lift_bind_of_ok (ok_or_else_eq_ok.mpr hbody)]
  | scep_post profile' params body' =>
      rw [Call.operation] at h
      split_ifs at h with hop
      obtain ⟨rfl, rfl⟩ := Prod.mk.inj (Option.some.inj h)
      show Scep.scep_post X state profile' params body' = _
      rw [Scep.scep_post, hop, if_neg (not_not.mpr rfl)]
  | _ => cases h

/-- A message that is answered is answered by the server. -/
theorem serve_of_operation {req : Request} {call : Call} {profile : String} {body der : Bytes}
    {tr : Trace} (hcall : resolve req = .ok call) (hop : call.operation = some (profile, body))
    (h : Returns (Scep.pki_operation X state profile body) tr (.ok der)) :
    Returns (serve X json state req) tr
      (.ok (strip req.method (Scep.bytes_response Scep.CT_PKI_MESSAGE der))) := by
  refine serve_returns.mpr (.inr ⟨call, .ok _, hcall, ?_, rfl⟩)
  rw [run_operation hop]
  exact returns_bind_ok.mpr ⟨der, tr, [], (List.append_nil tr).symm, h, returns_pure.mpr ⟨rfl, rfl⟩⟩

theorem reads_query {q : Stmt} (h : ∀ r, Reads ⟨Op.db q, r⟩) :
    Guarantees (fun _ => Reads) (query q) :=
  guarantees_request_bind h fun _ => guarantees_lift _

theorem reads_clock : Guarantees (fun _ => Reads) system_time_now :=
  guarantees_request fun _ => trivial

theorem reads_status_by_serial {ca_id serial : String} :
    Guarantees (fun _ => Reads) (repo.status_by_serial ca_id serial) :=
  (@reads_query (.select_status ca_id serial) fun _ => trivial).bind fun _ _ _ => guarantees_pure _

theorem reads_ocsp_now : Guarantees (fun _ => Reads) Ocsp.ocsp_now :=
  reads_clock.bind fun _ _ _ => guarantees_pure _

theorem reads_to_cert_status {status : RevocationStatus} :
    Guarantees (fun _ => Reads) (Ocsp.to_cert_status X status) := by
  cases status with
  | Revoked revoked_at reason =>
      simp only [Ocsp.to_cert_status]
      cases Ocsp.stored_time X revoked_at with
      | some date => exact guarantees_pure _
      | none => exact reads_ocsp_now.bind fun _ _ _ => guarantees_pure _
  | _ => exact guarantees_pure _

theorem reads_add_responses {ca_id : String} {this_update next_update : DateTime}
    {entries : List OcspEntry} {builder : OcspResponseBuilder} :
    Guarantees (fun _ => Reads)
      (Ocsp.add_responses X ca_id this_update next_update entries builder) := by
  induction entries generalizing builder with
  | nil => exact guarantees_pure _
  | cons entry entries ih =>
      refine Guarantees.bind ?_ fun _ _ _ => ih
      refine reads_status_by_serial.bind fun status _ _ => ?_
      exact reads_to_cert_status.bind fun _ _ _ => guarantees_pure _

theorem reads_respond {ca_id : String} {req_der : Bytes} :
    Guarantees (fun _ => Reads) (Ocsp.respond X state ca_id req_der) := by
  refine Guarantees.bind ?_ fun _ _ _ => guarantees_pure _
  refine guarantees_lift_bind fun ca _ => guarantees_lift_bind fun request _ => ?_
  refine reads_ocsp_now.bind fun this_update _ _ => reads_clock.bind fun now _ _ => ?_
  exact reads_add_responses.bind fun builder _ _ => guarantees_lift _

theorem reads_crl {ca_id : String} : Guarantees (fun _ => Reads) (Crl.crl X state ca_id) := by
  refine Guarantees.bind ?_ fun _ _ _ => guarantees_pure _
  refine guarantees_lift_bind fun ca _ => ?_
  refine (@reads_query (.select_revoked ca_id) fun _ => trivial).bind fun rows _ _ => ?_
  exact reads_clock.bind fun now _ _ => guarantees_lift _

/-- Without a message there is nothing to do but read. -/
theorem reads_of_no_operation {call : Call} (h : call.operation = none) :
    Guarantees (fun _ => Reads) (call.run X json state) := by
  cases call with
  | scep_get profile params =>
      show Guarantees _ (Scep.scep_get X state profile params)
      simp only [Scep.scep_get]
      split
      · exact guarantees_pure _
      · exact guarantees_lift _
      · -- a `PKIOperation` whose message does not decode
        rename_i hop
        refine guarantees_lift_bind fun message hmessage => ?_
        refine guarantees_lift_bind fun body hbody => ?_
        have hparams : params.lookup "operation" = some "PKIOperation" := by
          cases hlookup : params.lookup "operation" with
          | none =>
              rw [hlookup] at hop
              exact absurd hop (by decide)
          | some op =>
              rw [hlookup] at hop
              exact congrArg some hop
        rw [Call.operation, if_pos hparams, ok_or_else_eq_ok.mp hmessage, Option.bind_some,
          ok_or_else_eq_ok.mp hbody] at h
        cases h
      · exact guarantees_throw _
  | scep_post profile params body =>
      rw [Call.operation] at h
      split_ifs at h with hop
      show Guarantees _ (Scep.scep_post X state profile params body)
      rw [Scep.scep_post, if_pos hop]
      exact guarantees_throw _
  | ocsp_post ca body => exact reads_respond
  | ocsp_get ca b64 =>
      show Guarantees _ (Ocsp.ocsp_get X state ca b64)
      unfold Ocsp.ocsp_get
      split
      · exact reads_respond
      · exact guarantees_pure _
  | crl ca => exact reads_crl
  | _ => exact guarantees_pure _

/-- A request that does more than read is a message, and its events are those of the handler. -/
theorem operation_of_event {req : Request} {tr : Trace} {r : AppResult Response}
    (h : Returns (serve X json state req) tr r) {e : Event Op.Res} (he : e ∈ tr)
    (hreads : ¬ Reads e) : ∃ profile body x, req.operation = some (profile, body) ∧
      Returns (Scep.pki_operation X state profile body) tr x := by
  rcases serve_returns.mp h with ⟨_, _, rfl, _⟩ | ⟨call, x, hcall, hrun, _⟩
  · cases he
  have hoperation : req.operation = call.operation := by
    rw [Request.operation, hcall]
    rfl
  rw [hoperation]
  cases hop : call.operation with
  | none => exact absurd (guarantees_each.mp (reads_of_no_operation hop) tr x hrun e he) hreads
  | some message =>
      obtain ⟨profile, body⟩ := message
      rw [run_operation hop] at hrun
      rcases returns_bind.mp hrun with ⟨e, _, hpki⟩ | ⟨der, t₁, t₂, rfl, hpki, hpure⟩
      · exact ⟨profile, body, _, rfl, hpki⟩
      · obtain ⟨rfl, _⟩ := returns_pure.mp hpure
        rw [List.append_nil]
        exact ⟨profile, body, _, rfl, hpki⟩

end Runs

end http

instance (o : Op) : Nonempty o.Res := ⟨(Blapki.serve ⟨0⟩ Db.empty o).1⟩

namespace Device

/-- The request of the device. -/
def post : http.Request := ⟨.POST, "/scep/device".as_bytes, ∅, pkcs_req⟩

theorem post_resolves : http.resolve post = .ok (.scep_post "device" ∅ pkcs_req) := by
  have hroute : http.router "/scep/device".as_bytes
      = some (http.SCEP, [("profile", "device")]) := by decide
  exact http.resolve_of_router hroute rfl rfl

end Device

end Blapki
