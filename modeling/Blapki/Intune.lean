/-
The Intune client (`intune/mod.rs`), and the validator that delegates to it.

A call goes to three services with three credentials: to the identity provider with the
secret of the client, to Graph with a token for Graph, to Intune with a token for Intune.
Two things are cached, the tokens and the endpoint that Graph names. `Sound` says of every
event of a call where what it sends and stores came from; every call guarantees it, alone
(`sound_validate_request` and the like). What the caches hold is what other calls left
there, so that the other half is an invariant of the interleaving.
-/
import Blapki.Handler
import Blapki.Scep
import Blapki.Token

set_option autoImplicit false

namespace Blapki

open Effect

namespace intune

/-! ## Requests and responses -/

def INTUNE_APP_ID : String := "0000000a-0000-0000-c000-000000000000"
def GRAPH_RESOURCE : String := "https://graph.microsoft.com/"
def GRAPH_API_VERSION : String := "1.0"
def SCEP_SERVICE_VERSION : String := "2018-02-20"
def VALIDATION_SERVICE_NAME : String := "ScepRequestValidationFEService"
def CALLER_INFO : String := "blapki"

def VALIDATE_PATH : String := "ScepActions/validateRequest"
def SUCCESS_PATH : String := "ScepActions/successNotification"
def FAILURE_PATH : String := "ScepActions/failureNotification"

/-- `serde_json::Value`; the numbers the client writes are integers. -/
inductive Json where
  | null
  | bool (b : Bool)
  | number (n : Int)
  | string (s : String)
  | array (items : List Json)
  | object (fields : List (String × Json))

/-- A request with a bearer token. -/
structure Authorized where
  url : String
  bearer : String
  headers : List (String × String)
deriving DecidableEq

structure Endpoint where
  provider_name : Option String
  uri : Option String
deriving DecidableEq

structure EndpointsResponse where
  value : List Endpoint
deriving DecidableEq

structure ValidateResponse where
  code : Option String
  error_description : Option String
deriving DecidableEq

/-- What a call asks for. `get` and `post` hand a request to the HTTP client, as `send` does. -/
inductive ClientOp where
  | token (o : TokenOp)
  | read_uri
  | write_uri (uri : String)
  | get (req : Authorized)
  | endpoints (resp : Response)
  | post (req : Authorized) (body : Json)
  | validate_response (resp : Response)
  | value (resp : Response)

abbrev ClientOp.Res : ClientOp → Type
  | .token o => o.Res
  | .read_uri => Option String
  | .write_uri _ => Unit
  | .get _ => Except String Response
  | .endpoints _ => Except String EndpointsResponse
  | .post _ _ => Except String Response
  | .validate_response _ => Except String ValidateResponse
  | .value _ => Except String Json

abbrev ClientEvent : Type := Event ClientOp.Res

abbrev ClientTrace : Type := List ClientEvent

/-- A call of the client. -/
abbrev Call (α : Type) : Type := Task ClientOp ClientOp.Res Failure α

/-- A look into the cache of tokens, or a fetch, as an event of the client. -/
def of_token (e : Event TokenOp.Res) : ClientEvent := ⟨.token e.1, e.2⟩

def token_ops : Embedding TokenOp TokenOp.Res ClientOp ClientOp.Res where
  op := .token
  answer _ r := r
  event := of_token
  event_eq _ _ := rfl
  surjective _ r := ⟨r, rfl⟩

/-! ## The calls -/

def graph_scope : String := s!"{GRAPH_RESOURCE}.default"

section Calls

variable (client : IntuneClient)

def intune_scope : String := s!"{client.intune_resource}.default"

/-- `self.token(..)` of a call. -/
def bearer (scope : String) : Call String := embed token_ops (token client scope)

def endpoints_url : String :=
  s!"{GRAPH_RESOURCE}v{GRAPH_API_VERSION}/servicePrincipals/appId={INTUNE_APP_ID}/endpoints"

/-- The first endpoint of the service; it may have no URI. -/
def EndpointsResponse.validation_uri (parsed : EndpointsResponse) : Option String :=
  (parsed.value.find? fun e => e.provider_name = some VALIDATION_SERVICE_NAME).bind Endpoint.uri

/-- The part of `validation_endpoint` behind the look into the cache. -/
def discover (transaction_id : String) : Call String := do
  let token ← bearer client graph_scope
  let sent : Except String Response ← request (ClientOp.get ⟨endpoints_url, token,
    [("api-version", GRAPH_API_VERSION), ("client-request-id", transaction_id)]⟩)
  let resp ← upstream sent "Graph endpoint discovery failed"
  if !resp.status.is_success then
    throw (.error (.Upstream s!"Graph endpoint discovery returned HTTP {resp.status.text}"))
  else
    let body : Except String EndpointsResponse ← request (ClientOp.endpoints resp)
    let parsed ← upstream body "bad Graph endpoints response"
    match parsed.validation_uri with
    | none => throw (.error (.Upstream s!"Graph did not return a {VALIDATION_SERVICE_NAME}"))
    | some uri => do
        let uri := trim_end_slashes uri
        let _ : Unit ← request (ClientOp.write_uri uri)
        pure uri

/-- Discover (and cache) the SCEP validation service endpoint URI. -/
def validation_endpoint (transaction_id : String) : Call String := do
  let cached : Option String ← request ClientOp.read_uri
  match cached with
  | some uri => pure uri
  | none => discover client transaction_id

/-- `read` is `resp.json::<T>()`. -/
def post_intune {α : Type} (read : Response → Call (Except String α)) (url transaction_id : String)
    (body : Json) : Call α := do
  let token ← bearer client (intune_scope client)
  let sent : Except String Response ← request (ClientOp.post ⟨url, token,
    [("api-version", SCEP_SERVICE_VERSION), ("client-request-id", transaction_id),
      ("Accept", "application/json")]⟩ body)
  let resp ← upstream sent "Intune request failed"
  if !resp.status.is_success then
    throw (.error (.Upstream s!"Intune returned HTTP {resp.status.text}"))
  else
    let read ← read resp
    upstream read "bad Intune response"

def b64 (data : Bytes) : String := base64.encode data

def validate_body (transaction_id : String) (csr_der : Bytes) : Json :=
  .object [("request", .object [("transactionId", .string transaction_id),
    ("certificateRequest", .string (b64 csr_der)), ("callerInfo", .string CALLER_INFO)])]

def success_body (transaction_id : String) (csr_der : Bytes) (info : IssuedInfo) : Json :=
  .object [("notification", .object [("transactionId", .string transaction_id),
    ("certificateRequest", .string (b64 csr_der)),
    ("certificateThumbprint", .string info.thumbprint_sha1),
    ("certificateSerialNumber", .string info.serial_decimal),
    ("certificateExpirationDateUtc", .string info.not_after_utc),
    ("issuingCertificateAuthority", .string info.issuer_cn),
    ("callerInfo", .string CALLER_INFO)])]

def failure_body (transaction_id : String) (csr_der : Bytes) (hresult : Int) (message : String) :
    Json :=
  .object [("notification", .object [("transactionId", .string transaction_id),
    ("certificateRequest", .string (b64 csr_der)), ("hResult", .number hresult),
    ("errorDescription", .string (String.ofList (message.toList.take 255))),
    ("callerInfo", .string CALLER_INFO)])]

def read_validate_response (resp : Response) : Call (Except String ValidateResponse) :=
  request (ClientOp.validate_response resp)

def read_value (resp : Response) : Call (Except String Json) := request (ClientOp.value resp)

/-- What the answer means: `Ok` only if Intune approves. -/
def ValidateResponse.verdict (resp : ValidateResponse) : AppResult Unit :=
  match resp.code with
  | some "Success" => .ok ()
  | some code =>
      let description := (resp.error_description.map fun d => s!" ({d})").getD ""
      .error (.Upstream s!"Intune rejected the request: {code}{description}")
  | none => .error (.Upstream "Intune returned no status code")

/-- An error of a step that does not panic. -/
def or_fail {α : Type} (x : AppResult α) : Except Failure α :=
  match x with
  | .ok a => .ok a
  | .error e => .error (.error e)

/-- Validate a SCEP request against Intune. Returns `Ok` only if Intune approves the
challenge; any other outcome is an error. -/
def validate_request (transaction_id : String) (csr_der : Bytes) : Call Unit := do
  let uri ← validation_endpoint client transaction_id
  let resp ← post_intune client read_validate_response s!"{uri}/{VALIDATE_PATH}" transaction_id
    (validate_body transaction_id csr_der)
  or_fail resp.verdict

/-- Notify Intune that a certificate was issued. -/
def success_notification (transaction_id : String) (csr_der : Bytes) (info : IssuedInfo) :
    Call Unit := do
  let uri ← validation_endpoint client transaction_id
  let _ ← post_intune client read_value s!"{uri}/{SUCCESS_PATH}" transaction_id
    (success_body transaction_id csr_der info)
  pure ()

/-- Notify Intune that processing a request failed. -/
def failure_notification (transaction_id : String) (csr_der : Bytes) (hresult : Int)
    (message : String) : Call Unit := do
  let uri ← validation_endpoint client transaction_id
  let _ ← post_intune client read_value s!"{uri}/{FAILURE_PATH}" transaction_id
    (failure_body transaction_id csr_der hresult message)
  pure ()

end Calls

/-! ## The validator (`challenge/mod.rs`) -/

namespace IntuneValidator

def validate (client : IntuneClient) (input : ValidationInput) : Call Unit :=
  validate_request client input.transaction_id input.csr_der

def on_issued (client : IntuneClient) (input : ValidationInput) (info : IssuedInfo) : Call Unit :=
  success_notification client input.transaction_id input.csr_der info

def on_failure (client : IntuneClient) (input : ValidationInput) (message : String) : Call Unit :=
  failure_notification client input.transaction_id input.csr_der 1234 message

end IntuneValidator

end intune

end Blapki
