/-
CA key material loading (`ca/keystore.rs`).

A certificate and a private key come out of two blobs, each PEM or DER, or of one
PEM bundle. They are parsed independently: the first CERTIFICATE block of the one,
the first key block of the other.
-/
import Blapki.Authority

set_option autoImplicit false

namespace Blapki

open Effect

/-! ## Text -/

/-- `str::lines`: what ends in a line feed loses a carriage return before it, and an
empty rest is no line. -/
def lines (text : String) : List String :=
  let parts := text.toList.splitOn '\n'
  let ended := parts.dropLast.map fun l => if l.getLast? = some '\r' then l.dropLast else l
  let rest := parts.getLast?.filter fun l => l ≠ []
  (ended ++ rest.toList).map String.ofList

/-- `str::trim_start`. -/
def trim_start (s : String) : String := String.ofList (s.toList.dropWhile is_whitespace)

/-- `str::starts_with`. -/
def starts_with (s p : String) : Bool := p.toList.isPrefixOf s.toList

/-- A text without a character of the prefix does not start with it. -/
theorem starts_with_eq_false {s p : String} {c : Char} (hp : c ∈ p.toList) (hs : c ∉ s.toList) :
    starts_with s p = false := by
  rw [starts_with, Bool.eq_false_iff]
  intro hstarts
  exact hs ((List.isPrefixOf_iff_prefix.mp hstarts).subset hp)

/-- `str::contains`. -/
def contains (s p : String) : Bool := s.toList.tails.any fun t => p.toList.isPrefixOf t

/-- `str::strip_prefix`. -/
def strip_prefix (s p : String) : Option String := (s.toList.dropPrefix? p.toList).map String.ofList

/-- `str::strip_suffix`. -/
def strip_suffix (s p : String) : Option String := (s.toList.dropSuffix? p.toList).map String.ofList

namespace keystore

variable (X : Crates)

/-! ## PEM -/

/-- The label of a line that begins a block. -/
def begin_label (line : String) : Option String := do
  let rest ← strip_prefix (trim line) "-----BEGIN "
  strip_suffix rest "-----"

/-- The block under a label, unless its text is no base64. -/
def block (label b64 : String) : List (String × Bytes) :=
  match base64.decode b64.toList with
  | some der => [(label, der)]
  | none => []

/-- The loops of `pem_blocks`, outside of a block and inside of one. A block that is
not ended ends with the text. -/
def pem_blocks_in : Option (String × String) → List String → List (String × Bytes)
  | none, [] => []
  | some (label, b64), [] => block label b64
  | none, line :: lines =>
      match begin_label line with
      | some label => pem_blocks_in (some (label, "")) lines
      | none => pem_blocks_in none lines
  | some (label, b64), line :: lines =>
      if starts_with (trim line) "-----END " then block label b64 ++ pem_blocks_in none lines
      else pem_blocks_in (some (label, b64 ++ trim line)) lines

/-- Split PEM text into `(label, der)` blocks. -/
def pem_blocks (text : String) : List (String × Bytes) := pem_blocks_in none (lines text)

/-- If `bytes` is UTF-8 text containing PEM, split it into blocks. -/
def as_pem_blocks (bytes : Bytes) : Option (List (String × Bytes)) := do
  let text ← from_utf8 bytes
  if contains text "-----BEGIN " then some (pem_blocks text) else none

/-! ## Certificates and keys -/

/-- Parse a certificate from PEM or DER bytes. -/
def parse_certificate (bytes : Bytes) : AppResult Certificate :=
  match as_pem_blocks bytes with
  | some blocks => do
      let (_, der) ← ok_or_else (blocks.find? fun b => b.1 = "CERTIFICATE")
        (.Config "no CERTIFICATE block in CA cert material")
      map_err (X.certificate_from_der der) fun e => .Config s!"bad CA certificate: {e}"
  | none => map_err (X.certificate_from_der bytes) fun e => .Config s!"bad CA certificate DER: {e}"

def decrypt_pkcs8 (der : Bytes) (password : Option String) : AppResult RsaPrivateKey := do
  let password ← ok_or_else password (.Config "CA key is encrypted but no password given")
  let epki ← map_err (X.encrypted_private_key_info_from_der der) fun e =>
    .Config s!"bad encrypted key: {e}"
  let secret ← map_err (X.encrypted_private_key_info_decrypt epki password.as_bytes) fun e =>
    .Config s!"CA key decryption failed: {e}"
  map_err (X.rsa_private_key_from_pkcs8_der secret) fun e =>
    .Config s!"decrypted key is not RSA PKCS#8: {e}"

/-- The key of a block, when it is one of a key. -/
def load_key_block (label : String) (der : Bytes) (password : Option String) :
    Option (AppResult RsaPrivateKey) :=
  match label with
  | "PRIVATE KEY" => some (map_err (X.rsa_private_key_from_pkcs8_der der) fun e =>
      .Config s!"bad PKCS#8 key: {e}")
  | "RSA PRIVATE KEY" => some (map_err (X.rsa_private_key_from_pkcs1_der der) fun e =>
      .Config s!"bad PKCS#1 key: {e}")
  | "ENCRYPTED PRIVATE KEY" => some (decrypt_pkcs8 X der password)
  | _ => none

/-- Try to parse a private key from DER, covering PKCS#8, PKCS#1, and encrypted
PKCS#8 (in that order). -/
def key_from_der (der : Bytes) (password : Option String) : AppResult RsaPrivateKey :=
  match X.rsa_private_key_from_pkcs8_der der with
  | .ok key => .ok key
  | .error _ =>
      match X.rsa_private_key_from_pkcs1_der der with
      | .ok key => .ok key
      | .error _ =>
          match X.encrypted_private_key_info_from_der der with
          | .ok _ => decrypt_pkcs8 X der password
          | .error _ => .error (.Config "CA key DER is not a recognised RSA key (PKCS#8/PKCS#1)")

/-- Parse an RSA private key from PEM or DER bytes. -/
def parse_private_key (bytes : Bytes) (password : Option String) : AppResult RsaPrivateKey :=
  match as_pem_blocks bytes with
  | some blocks => do
      let key ← ok_or_else (blocks.findSome? fun (label, der) => load_key_block X label der password)
        (.Config "no private key block in CA key material")
      key
  | none => key_from_der X bytes password

/-! ## Sources of key material -/

/-- Turn a config value into raw bytes: PEM text is used as-is; anything else is
treated as a base64 blob (of PEM or DER) and decoded. -/
def material_to_bytes (value what : String) : AppResult Bytes :=
  if starts_with (trim_start value) "-----BEGIN" then .ok value.as_bytes
  else
    let cleaned := value.toList.filter fun c => !is_whitespace c
    ok_or_else (base64.decode cleaned)
      (.Config s!"{what} is neither PEM nor valid base64: {X.base64_error cleaned}")

/-- Nothing in a base64 text is trimmed, or mistaken for a line of PEM. -/
theorem base64_character {c : Char} {b : Bytes} (h : c ∈ base64.digits b) :
    is_whitespace c = false ∧ c ≠ '-' := by
  rcases base64.mem_digits h with rfl | ⟨n, hn, rfl⟩
  · decide
  · interval_cases n <;> decide

/-- No dash stands in a base64 blob, whatever white space does. -/
theorem dash_of_blob {value : String} {b : Bytes}
    (h : value.toList.filter (fun c => !is_whitespace c) = base64.digits b) :
    '-' ∉ value.toList := by
  intro hmem
  have hfilter : '-' ∈ value.toList.filter fun c => !is_whitespace c :=
    List.mem_filter.mpr ⟨hmem, by decide⟩
  rw [h] at hfilter
  exact (base64_character hfilter).2 rfl

/-- A base64 blob is decoded, with white space anywhere in it. -/
theorem material_to_bytes_blob {value : String} {b : Bytes}
    (h : value.toList.filter (fun c => !is_whitespace c) = base64.digits b) (what : String) :
    material_to_bytes X value what = .ok b := by
  have hlist : (trim_start value).toList = value.toList.dropWhile is_whitespace := by
    rw [trim_start, String.toList_ofList]
  have hdash : '-' ∉ (trim_start value).toList := by
    rw [hlist]
    exact fun hmem => dash_of_blob h (List.dropWhile_subset _ hmem)
  have hpem : starts_with (trim_start value) "-----BEGIN" = false :=
    starts_with_eq_false (c := '-') (by decide) hdash
  have hdec : base64.decode (base64.digits b) = some b := base64.undigits_digits b
  rw [material_to_bytes, hpem, if_neg Bool.false_ne_true, h]
  simp only [hdec, ok_or_else]

/-- There is no white space in what the encoder writes. -/
theorem filter_encode (b : Bytes) :
    (base64.encode b).toList.filter (fun c => !is_whitespace c) = base64.digits b := by
  rw [base64.encode, String.toList_ofList, List.filter_eq_self]
  intro c hc
  rw [(base64_character hc).1]
  rfl

theorem material_to_bytes_encode (b : Bytes) (what : String) :
    material_to_bytes X (base64.encode b) what = .ok b :=
  material_to_bytes_blob X (filter_encode b) what

/-- `InlineKeyStore`: a certificate and a key from bytes supplied directly. -/
structure InlineKeyStore where
  cert : Bytes
  key : Bytes
  password : Option String
deriving DecidableEq, Repr

/-- Build from certificate and key strings supplied in config. -/
def InlineKeyStore.from_material (cert key : String) (password : Option String) :
    AppResult InlineKeyStore := do
  let cert ← material_to_bytes X cert "CA certificate"
  let key ← material_to_bytes X key "CA key"
  pure ⟨cert, key, password⟩

/-- Material in base64 is taken as it was before. -/
theorem InlineKeyStore.from_material_encode (cert key : Bytes) (password : Option String) :
    from_material X (base64.encode cert) (base64.encode key) password = .ok ⟨cert, key, password⟩ := by
  simp only [from_material, material_to_bytes_encode, bind_eq_ok]
  exact ⟨cert, rfl, key, rfl, rfl⟩

def InlineKeyStore.load (store : InlineKeyStore) : AppResult (Certificate × RsaPrivateKey) := do
  let cert ← parse_certificate X store.cert
  let key ← parse_private_key X store.key store.password
  pure (cert, key)

/-- `FileKeyStore`: a certificate and a key from a PEM bundle file. -/
structure FileKeyStore where
  path : String
  password : Option String
deriving DecidableEq, Repr

def FileKeyStore.load (store : FileKeyStore) : Async (Certificate × RsaPrivateKey) := do
  let read : Except String Bytes ← request (Op.read_file store.path)
  let bytes ← map_err read fun e => .Config s!"cannot read CA key file {store.path}: {e}"
  let cert ← parse_certificate X bytes
  let key ← parse_private_key X bytes store.password
  pure (cert, key)

end keystore

end Blapki
