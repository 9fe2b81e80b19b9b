/-
SCEP message attributes (`scep/attributes.rs`, `scep/nonce.rs`,
`scep/protocol.rs`).

SCEP carries its protocol metadata as signed attributes on the outer
`SignedData`. Reading accepts the three common string types, writing produces a
`PrintableString` only: `read_string_eq_ok` and `printable_attribute_eq_ok`
say what each side accepts, and the difference is what the reply path trips over.
-/
import Blapki.Env
import Blapki.X509

set_option autoImplicit false

namespace Blapki

open Effect

namespace Attributes

/-! ## Identifiers -/

/-- `messageType`: the SCEP message type (PrintableString decimal). -/
def ID_MESSAGE_TYPE : ObjectIdentifier := ⟨[2, 16, 840, 1, 113733, 1, 9, 2]⟩
/-- `pkiStatus`: success/failure/pending of a `CertRep` (PrintableString decimal). -/
def ID_PKI_STATUS : ObjectIdentifier := ⟨[2, 16, 840, 1, 113733, 1, 9, 3]⟩
/-- `failInfo`: failure reason when `pkiStatus = FAILURE` (PrintableString decimal). -/
def ID_FAIL_INFO : ObjectIdentifier := ⟨[2, 16, 840, 1, 113733, 1, 9, 4]⟩
/-- `senderNonce`: 16-byte OCTET STRING chosen by the sender. -/
def ID_SENDER_NONCE : ObjectIdentifier := ⟨[2, 16, 840, 1, 113733, 1, 9, 5]⟩
/-- `recipientNonce`: echoes the peer's `senderNonce`. -/
def ID_RECIPIENT_NONCE : ObjectIdentifier := ⟨[2, 16, 840, 1, 113733, 1, 9, 6]⟩
/-- `transactionID`: PrintableString correlating request and response. -/
def ID_TRANSACTION_ID : ObjectIdentifier := ⟨[2, 16, 840, 1, 113733, 1, 9, 7]⟩
/-- PKCS#9 `challengePassword` attribute carried inside the CSR. -/
def ID_CHALLENGE_PASSWORD : ObjectIdentifier := ⟨[1, 2, 840, 113549, 1, 9, 7]⟩

end Attributes

/-! ## Enumerations -/

/-- SCEP message type (RFC 8894 §3.2.1.2). -/
inductive MessageType where
  | CertRep
  | PkcsReq
  | RenewalReq
  | GetCertInitial
  | GetCert
  | GetCrl
deriving DecidableEq, Repr

/-- `char::is_whitespace`. -/
def is_whitespace (c : Char) : Bool :=
  let n := c.toNat
  (9 ≤ n && n ≤ 13) || n == 32 || n == 133 || n == 160 || n == 5760 || (8192 ≤ n && n ≤ 8202) ||
    n == 8232 || n == 8233 || n == 8239 || n == 8287 || n == 12288

/-- `str::trim`. -/
def trim (s : String) : String :=
  String.ofList (((s.toList.dropWhile is_whitespace).reverse.dropWhile is_whitespace).reverse)

namespace MessageType

def as_value : MessageType → String
  | .CertRep => "3"
  | .RenewalReq => "17"
  | .PkcsReq => "19"
  | .GetCertInitial => "20"
  | .GetCert => "21"
  | .GetCrl => "22"

def from_value (s : String) : AppResult MessageType :=
  match trim s with
  | "3" => .ok .CertRep
  | "17" => .ok .RenewalReq
  | "19" => .ok .PkcsReq
  | "20" => .ok .GetCertInitial
  | "21" => .ok .GetCert
  | "22" => .ok .GetCrl
  | other => .error (.bad_request s!"unknown SCEP messageType '{other}'")

/-- `{:?}` of a message type. -/
def debug : MessageType → String
  | .CertRep => "CertRep"
  | .PkcsReq => "PkcsReq"
  | .RenewalReq => "RenewalReq"
  | .GetCertInitial => "GetCertInitial"
  | .GetCert => "GetCert"
  | .GetCrl => "GetCrl"

theorem from_value_as_value (t : MessageType) : from_value t.as_value = .ok t := by
  cases t <;> decide

end MessageType

/-- SCEP `pkiStatus` values. -/
inductive PkiStatus where
  | Success
  | Failure
  | Pending
deriving DecidableEq, Repr

def PkiStatus.as_value : PkiStatus → String
  | .Success => "0"
  | .Failure => "2"
  | .Pending => "3"

/-- SCEP `failInfo` values (reason for a FAILURE response). -/
inductive FailInfo where
  | BadAlg
  | BadMessageCheck
  | BadRequest
  | BadTime
  | BadCertId
deriving DecidableEq, Repr

def FailInfo.as_value : FailInfo → String
  | .BadAlg => "0"
  | .BadMessageCheck => "1"
  | .BadRequest => "2"
  | .BadTime => "3"
  | .BadCertId => "4"

/-- Every status and failure code the server writes is printable. -/
theorem PkiStatus.printable (s : PkiStatus) : Printable s.as_value := by
  cases s <;> decide

theorem FailInfo.printable (f : FailInfo) : Printable f.as_value := by
  cases f <;> decide

theorem MessageType.printable (t : MessageType) : Printable t.as_value := by
  cases t <;> decide

namespace Attributes

/-! ## Writing -/

/-- Build a signed attribute whose single value is a `PrintableString`. -/
def printable_attribute (oid : ObjectIdentifier) (value : String) : AppResult Attribute := do
  let ps ← map_err (PrintableString.new value) fun e => .crypto s!"invalid PrintableString: {e}"
  pure ⟨oid, [⟨.PrintableString, ps.as_bytes⟩]⟩

/-- Build a signed attribute whose single value is an `OCTET STRING`. -/
def octet_attribute (oid : ObjectIdentifier) (value : Bytes) : AppResult Attribute := do
  let os ← map_err (OctetString.new value) fun e => .crypto s!"DER error: {e}"
  pure ⟨oid, [⟨.OctetString, os⟩]⟩

theorem printable_attribute_eq_ok {oid : ObjectIdentifier} {value : String} {a : Attribute} :
    printable_attribute oid value = .ok a ↔
      Printable value ∧ a = ⟨oid, [⟨.PrintableString, value.as_bytes⟩]⟩ := by
  simp only [printable_attribute, bind_eq_ok, map_err_eq_ok, PrintableString.new_eq_ok, pure,
    Except.pure, Except.ok.injEq]
  constructor
  · rintro ⟨ps, ⟨h, rfl⟩, rfl⟩
    exact ⟨h, rfl⟩
  · rintro ⟨h, rfl⟩
    exact ⟨value, ⟨h, rfl⟩, rfl⟩

theorem octet_attribute_eq_ok {oid : ObjectIdentifier} {value : Bytes} {a : Attribute} :
    octet_attribute oid value = .ok a ↔
      value.length ≤ Length.MAX ∧ a = ⟨oid, [⟨.OctetString, value⟩]⟩ := by
  simp only [octet_attribute, bind_eq_ok, map_err_eq_ok, OctetString.new_eq_ok, pure,
    Except.pure, Except.ok.injEq]
  constructor
  · rintro ⟨os, ⟨h, rfl⟩, rfl⟩
    exact ⟨h, rfl⟩
  · rintro ⟨h, rfl⟩
    exact ⟨value, ⟨h, rfl⟩, rfl⟩

/-! ## Reading -/

/-- Find an attribute by OID within a set of signed attributes. -/
def find (attrs : List Attribute) (oid : ObjectIdentifier) : Option Attribute :=
  attrs.find? fun a => a.oid = oid

/-- The first value of the first attribute with this OID. -/
def first_value (attrs : List Attribute) (oid : ObjectIdentifier) : AppResult Any := do
  let attr ← ok_or_else (find attrs oid) (.bad_request s!"missing SCEP attribute {oid}")
  ok_or_else attr.values.head? (.bad_request s!"empty SCEP attribute {oid}")

/-- SCEP mandates PrintableString, but tolerate the common string tags. -/
def decode_string (value : Any) : Option String :=
  match value.decode_printable_string with
  | .ok ps => some ps
  | .error _ =>
      match value.decode_utf8_string with
      | .ok s => some s
      | .error _ =>
          match value.decode_ia5_string with
          | .ok s => some s
          | .error _ => none

/-- Read a `PrintableString`/`UTF8String`/`IA5String` attribute value as a `String`. -/
def read_string (attrs : List Attribute) (oid : ObjectIdentifier) : AppResult String := do
  let value ← first_value attrs oid
  ok_or_else (decode_string value)
    (.bad_request s!"SCEP attribute {oid} is not a recognised string type")

/-- Read an `OCTET STRING` attribute value as raw bytes (e.g. a nonce). -/
def read_octets (attrs : List Attribute) (oid : ObjectIdentifier) : AppResult Bytes := do
  let value ← first_value attrs oid
  map_err value.decode_octet_string fun e =>
    .bad_request s!"SCEP attribute {oid} not OCTET STRING: {e}"

theorem first_value_eq_ok {attrs : List Attribute} {oid : ObjectIdentifier} {v : Any} :
    first_value attrs oid = .ok v ↔
      ∃ a, find attrs oid = some a ∧ a.values.head? = some v := by
  simp only [first_value, bind_eq_ok, ok_or_else_eq_ok]

theorem read_string_eq_ok {attrs : List Attribute} {oid : ObjectIdentifier} {s : String} :
    read_string attrs oid = .ok s ↔
      ∃ v, first_value attrs oid = .ok v ∧ decode_string v = some s := by
  simp only [read_string, bind_eq_ok, ok_or_else_eq_ok]

theorem read_octets_eq_ok {attrs : List Attribute} {oid : ObjectIdentifier} {b : Bytes} :
    read_octets attrs oid = .ok b ↔
      first_value attrs oid = .ok ⟨.OctetString, b⟩ ∧ b.length ≤ Length.MAX := by
  simp only [read_octets, bind_eq_ok, map_err_eq_ok, Any.decode_octet_string_eq_ok]
  constructor
  · rintro ⟨v, hv, rfl, hlen⟩
    exact ⟨hv, hlen⟩
  · rintro ⟨hv, hlen⟩
    exact ⟨_, hv, rfl, hlen⟩

/-- An attribute that was found is one of the set, with the OID asked for. -/
theorem find_mem {attrs : List Attribute} {oid : ObjectIdentifier} {a : Attribute}
    (h : find attrs oid = some a) : a ∈ attrs ∧ a.oid = oid := by
  refine ⟨List.mem_of_find?_eq_some h, ?_⟩
  simpa using List.find?_some h

/-- In a set with one attribute of an OID, that one is found wherever the order
of the set puts it. -/
theorem find_of_perm {attrs attrs' : List Attribute} {oid : ObjectIdentifier} {a : Attribute}
    (hperm : attrs.Perm attrs') (ha : attrs'.filter (fun b => b.oid = oid) = [a]) :
    find attrs oid = some a := by
  have hfilter : attrs.filter (fun b => b.oid = oid) = [a] :=
    List.perm_singleton.mp (ha ▸ hperm.filter _)
  rw [find, ← List.head?_filter, hfilter]
  rfl

/-- A written text reads back. -/
theorem decode_string_printable {s : String} (h : Printable s) :
    decode_string ⟨.PrintableString, s.as_bytes⟩ = some s := by
  rw [decode_string, Any.decode_printable_string_as_bytes h]

/-! ## Nonces -/

/-- SCEP nonce length in bytes (RFC 8894 recommends 16). -/
def NONCE_LEN : Nat := 16

/-- Generate a fresh random nonce. -/
def generate : Async { b : Bytes // b.length = NONCE_LEN } := fill_bytes NONCE_LEN

/-! ## Attributes of a reply -/

/-- Capabilities advertised by `GetCACaps`, newline-separated. -/
def CA_CAPS : String :=
  "Renewal\nSHA-512\nSHA-256\nSHA-1\nDES3\nAES\nPOSTPKIOperation\nSCEPStandard"

/-- Signed attributes for a successful `CertRep`. -/
def success_attrs (transaction_id : String) (recipient_nonce : Bytes) :
    Async (List Attribute) := do
  let message_type ← printable_attribute ID_MESSAGE_TYPE MessageType.CertRep.as_value
  let pki_status ← printable_attribute ID_PKI_STATUS PkiStatus.Success.as_value
  let transaction_id ← printable_attribute ID_TRANSACTION_ID transaction_id
  let nonce ← generate
  let sender_nonce ← octet_attribute ID_SENDER_NONCE nonce.val
  let recipient_nonce ← octet_attribute ID_RECIPIENT_NONCE recipient_nonce
  pure [message_type, pki_status, transaction_id, sender_nonce, recipient_nonce]

/-- Signed attributes for a failed `CertRep`. -/
def failure_attrs (transaction_id : String) (recipient_nonce : Bytes) (fail_info : FailInfo) :
    Async (List Attribute) := do
  let message_type ← printable_attribute ID_MESSAGE_TYPE MessageType.CertRep.as_value
  let pki_status ← printable_attribute ID_PKI_STATUS PkiStatus.Failure.as_value
  let fail_info ← printable_attribute ID_FAIL_INFO fail_info.as_value
  let transaction_id ← printable_attribute ID_TRANSACTION_ID transaction_id
  let nonce ← generate
  let sender_nonce ← octet_attribute ID_SENDER_NONCE nonce.val
  let recipient_nonce ← octet_attribute ID_RECIPIENT_NONCE recipient_nonce
  pure [message_type, pki_status, fail_info, transaction_id, sender_nonce, recipient_nonce]

/-! ### Runs

Both sets are a fixed head followed by the three attributes that echo the
request, and only the echo can fail. -/

/-- The attribute whose one value is this text. -/
def printable (oid : ObjectIdentifier) (value : String) : Attribute :=
  ⟨oid, [⟨.PrintableString, value.as_bytes⟩]⟩

/-- The attribute whose one value is these octets. -/
def octets (oid : ObjectIdentifier) (value : Bytes) : Attribute :=
  ⟨oid, [⟨.OctetString, value⟩]⟩

/-- The attributes of a reply with this head. -/
def echoing (head : List Attribute) (transaction_id : String) (recipient_nonce nonce : Bytes) :
    List Attribute :=
  head ++ [printable ID_TRANSACTION_ID transaction_id, octets ID_SENDER_NONCE nonce,
    octets ID_RECIPIENT_NONCE recipient_nonce]

/-- What distinguishes a SUCCESS reply. -/
def success_head : List Attribute :=
  [printable ID_MESSAGE_TYPE MessageType.CertRep.as_value,
    printable ID_PKI_STATUS PkiStatus.Success.as_value]

/-- What distinguishes a FAILURE reply. -/
def failure_head (fail_info : FailInfo) : List Attribute :=
  [printable ID_MESSAGE_TYPE MessageType.CertRep.as_value,
    printable ID_PKI_STATUS PkiStatus.Failure.as_value, printable ID_FAIL_INFO fail_info.as_value]

/-- The attributes of a reply are of OIDs of their own, none of which CMS adds itself, when
those of its head are. -/
theorem echoing_oids {head : List Attribute}
    (hhead : (head.map Attribute.oid ++ [ID_TRANSACTION_ID, ID_SENDER_NONCE, ID_RECIPIENT_NONCE,
      oids.ID_CONTENT_TYPE, oids.ID_MESSAGE_DIGEST]).Nodup)
    (transaction_id : String) (recipient_nonce nonce : Bytes) :
    ((echoing head transaction_id recipient_nonce nonce).map Attribute.oid).Nodup ∧
      ∀ a ∈ echoing head transaction_id recipient_nonce nonce,
        a.oid ≠ oids.ID_CONTENT_TYPE ∧ a.oid ≠ oids.ID_MESSAGE_DIGEST := by
  have hall : ((echoing head transaction_id recipient_nonce nonce).map Attribute.oid ++
      [oids.ID_CONTENT_TYPE, oids.ID_MESSAGE_DIGEST]).Nodup := by
    rw [echoing, List.map_append, List.append_assoc]
    exact hhead
  obtain ⟨hdistinct, _, hapart⟩ := List.nodup_append.mp hall
  refine ⟨hdistinct, fun a ha => ⟨?_, ?_⟩⟩
  · exact hapart _ (List.mem_map_of_mem ha) _ List.mem_cons_self
  · exact hapart _ (List.mem_map_of_mem ha) _ (List.mem_cons_of_mem _ List.mem_cons_self)

/-- No two attributes of a SUCCESS reply have one type. -/
theorem success_head_oids : (success_head.map Attribute.oid ++ [ID_TRANSACTION_ID, ID_SENDER_NONCE,
    ID_RECIPIENT_NONCE, oids.ID_CONTENT_TYPE, oids.ID_MESSAGE_DIGEST]).Nodup := by
  decide

/-- No two attributes of a FAILURE reply have one type. -/
theorem failure_head_oids (fail_info : FailInfo) :
    ((failure_head fail_info).map Attribute.oid ++ [ID_TRANSACTION_ID, ID_SENDER_NONCE,
      ID_RECIPIENT_NONCE, oids.ID_CONTENT_TYPE, oids.ID_MESSAGE_DIGEST]).Nodup := by
  show [ID_MESSAGE_TYPE, ID_PKI_STATUS, ID_FAIL_INFO, ID_TRANSACTION_ID, ID_SENDER_NONCE,
    ID_RECIPIENT_NONCE, oids.ID_CONTENT_TYPE, oids.ID_MESSAGE_DIGEST].Nodup
  decide

theorem printable_attribute_of_printable {value : String} (h : Printable value)
    (oid : ObjectIdentifier) : printable_attribute oid value = .ok (printable oid value) :=
  printable_attribute_eq_ok.mpr ⟨h, rfl⟩

/-- The part of both sets that can fail. -/
private def echo_attrs (head : List Attribute) (transaction_id : String)
    (recipient_nonce : Bytes) : Async (List Attribute) := do
  let transaction_id ← printable_attribute ID_TRANSACTION_ID transaction_id
  let nonce ← generate
  let sender_nonce ← octet_attribute ID_SENDER_NONCE nonce.val
  let recipient_nonce ← octet_attribute ID_RECIPIENT_NONCE recipient_nonce
  pure (head ++ [transaction_id, sender_nonce, recipient_nonce])

private theorem success_attrs_eq (transaction_id : String) (recipient_nonce : Bytes) :
    success_attrs transaction_id recipient_nonce
      = echo_attrs success_head transaction_id recipient_nonce := by
  unfold success_attrs
  rw [printable_attribute_of_printable (MessageType.printable _),
    printable_attribute_of_printable (PkiStatus.printable _)]
  rfl

private theorem failure_attrs_eq (transaction_id : String) (recipient_nonce : Bytes)
    (fail_info : FailInfo) :
    failure_attrs transaction_id recipient_nonce fail_info
      = echo_attrs (failure_head fail_info) transaction_id recipient_nonce := by
  unfold failure_attrs
  rw [printable_attribute_of_printable (MessageType.printable _),
    printable_attribute_of_printable (PkiStatus.printable _),
    printable_attribute_of_printable (FailInfo.printable _)]
  rfl

/-- The events of building the attributes of a reply: at most a nonce is drawn. -/
def DrawsNonce (tr : Trace) : Prop :=
  tr = [] ∨ ∃ nonce, tr = [⟨Op.fill_bytes NONCE_LEN, nonce⟩]

theorem draws_of_drawsNonce {tr : Trace} (h : DrawsNonce tr) : ∀ e ∈ tr, draws e = true := by
  rcases h with rfl | ⟨nonce, rfl⟩
  · exact fun e he => absurd he List.not_mem_nil
  · rw [List.forall_mem_singleton]
    rfl

private theorem echo_attrs_returns {head : List Attribute} {transaction_id : String}
    {recipient_nonce : Bytes} {tr : Trace} {r : AppResult (List Attribute)}
    (h : Returns (echo_attrs head transaction_id recipient_nonce) tr r) :
    DrawsNonce tr ∧
      ((∃ e, r = .error e ∧
          ¬ (Printable transaction_id ∧ recipient_nonce.length ≤ Length.MAX)) ∨
        (Printable transaction_id ∧ recipient_nonce.length ≤ Length.MAX ∧
          ∃ nonce : { b : Bytes // b.length = NONCE_LEN },
            tr = [⟨Op.fill_bytes NONCE_LEN, nonce⟩] ∧
              r = .ok (echoing head transaction_id recipient_nonce nonce.val))) := by
  unfold echo_attrs at h
  rcases returns_lift_bind.mp h with ⟨e, he, rfl, rfl⟩ | ⟨t, ht, h⟩
  · refine ⟨.inl rfl, .inl ⟨e, rfl, fun hok => ?_⟩⟩
    rw [printable_attribute_of_printable hok.1] at he
    cases he
  · obtain ⟨hprint, rfl⟩ := printable_attribute_eq_ok.mp ht
    obtain ⟨nonce, tr', rfl, h₁⟩ := returns_request_bind.mp h
    -- The nonce is short, so the only step left that can fail is the echo of the client's.
    have hnonce : nonce.val.length ≤ Length.MAX := by
      rw [nonce.property]
      decide
    rcases returns_lift_bind.mp h₁ with ⟨e, he, rfl, rfl⟩ | ⟨s, hs, h₂⟩
    · rw [octet_attribute_eq_ok.mpr ⟨hnonce, rfl⟩] at he
      cases he
    · obtain ⟨_, rfl⟩ := octet_attribute_eq_ok.mp hs
      rcases returns_lift_bind.mp h₂ with ⟨e, he, rfl, rfl⟩ | ⟨n, hn, h₃⟩
      · refine ⟨.inr ⟨nonce, rfl⟩, .inl ⟨e, rfl, fun hok => ?_⟩⟩
        rw [octet_attribute_eq_ok.mpr ⟨hok.2, rfl⟩] at he
        cases he
      · obtain ⟨hlen, rfl⟩ := octet_attribute_eq_ok.mp hn
        obtain ⟨rfl, rfl⟩ := returns_pure.mp h₃
        exact ⟨.inr ⟨nonce, rfl⟩, .inr ⟨hprint, hlen, nonce, rfl, rfl⟩⟩

private theorem echo_attrs_of_printable {head : List Attribute} {transaction_id : String}
    {recipient_nonce : Bytes} (h : Printable transaction_id)
    (hlen : recipient_nonce.length ≤ Length.MAX) (nonce : { b : Bytes // b.length = NONCE_LEN }) :
    Returns (echo_attrs head transaction_id recipient_nonce) [⟨Op.fill_bytes NONCE_LEN, nonce⟩]
      (.ok (echoing head transaction_id recipient_nonce nonce.val)) := by
  have hnonce : nonce.val.length ≤ Length.MAX := by
    rw [nonce.property]
    decide
  unfold echo_attrs
  refine returns_lift_bind.mpr (.inr ⟨_, printable_attribute_of_printable h _, ?_⟩)
  refine returns_request_bind.mpr ⟨nonce, [], rfl, ?_⟩
  refine returns_lift_bind.mpr (.inr ⟨_, octet_attribute_eq_ok.mpr ⟨hnonce, rfl⟩, ?_⟩)
  refine returns_lift_bind.mpr (.inr ⟨_, octet_attribute_eq_ok.mpr ⟨hlen, rfl⟩, ?_⟩)
  exact returns_pure.mpr ⟨rfl, rfl⟩

/-- Every nonce makes attributes for a request whose transactionID is printable. -/
theorem success_attrs_of_printable {transaction_id : String} {recipient_nonce : Bytes}
    (h : Printable transaction_id) (hlen : recipient_nonce.length ≤ Length.MAX)
    (nonce : { b : Bytes // b.length = NONCE_LEN }) :
    Returns (success_attrs transaction_id recipient_nonce) [⟨Op.fill_bytes NONCE_LEN, nonce⟩]
      (.ok (echoing success_head transaction_id recipient_nonce nonce.val)) :=
  success_attrs_eq _ _ ▸ echo_attrs_of_printable h hlen nonce

/-- For another transactionID there are none, and no nonce is drawn. -/
theorem success_attrs_of_not_printable {transaction_id : String} (recipient_nonce : Bytes)
    (h : ¬ Printable transaction_id) :
    ∃ e, Returns (success_attrs transaction_id recipient_nonce) [] (.error e) := by
  rw [success_attrs_eq]
  cases ht : printable_attribute ID_TRANSACTION_ID transaction_id with
  | ok a => exact absurd (printable_attribute_eq_ok.mp ht).1 h
  | error e => exact ⟨e, returns_lift_bind.mpr (.inl ⟨e, ht, rfl, rfl⟩)⟩

/-- The attributes of a SUCCESS reply, or the reason there are none. -/
theorem success_attrs_returns {transaction_id : String} {recipient_nonce : Bytes} {tr : Trace}
    {r : AppResult (List Attribute)}
    (h : Returns (success_attrs transaction_id recipient_nonce) tr r) :
    DrawsNonce tr ∧
      ((∃ e, r = .error e ∧
          ¬ (Printable transaction_id ∧ recipient_nonce.length ≤ Length.MAX)) ∨
        (Printable transaction_id ∧ recipient_nonce.length ≤ Length.MAX ∧
          ∃ nonce : { b : Bytes // b.length = NONCE_LEN },
            tr = [⟨Op.fill_bytes NONCE_LEN, nonce⟩] ∧
              r = .ok (echoing success_head transaction_id recipient_nonce nonce.val))) :=
  echo_attrs_returns (success_attrs_eq _ _ ▸ h)

/-- The attributes of a FAILURE reply, or the reason there are none. -/
theorem failure_attrs_returns {transaction_id : String} {recipient_nonce : Bytes}
    {fail_info : FailInfo} {tr : Trace} {r : AppResult (List Attribute)}
    (h : Returns (failure_attrs transaction_id recipient_nonce fail_info) tr r) :
    DrawsNonce tr ∧
      ((∃ e, r = .error e ∧
          ¬ (Printable transaction_id ∧ recipient_nonce.length ≤ Length.MAX)) ∨
        (Printable transaction_id ∧ recipient_nonce.length ≤ Length.MAX ∧
          ∃ nonce : { b : Bytes // b.length = NONCE_LEN },
            tr = [⟨Op.fill_bytes NONCE_LEN, nonce⟩] ∧
              r = .ok (echoing (failure_head fail_info) transaction_id recipient_nonce
                nonce.val))) :=
  echo_attrs_returns (failure_attrs_eq _ _ _ ▸ h)

end Attributes

end Blapki
