/-
CMS `EnvelopedData` (`crypto/envelope.rs`): decrypting an inbound request
(`open_`) and encrypting the reply (`build_for`).

The unwrap of the content-encryption key is RSA PKCS#1 v1.5, so `open_` rejects
implicitly: a key that does not unwrap, or has the wrong length, is replaced by
one derived from the wrapped key. `open_congr_unwrap` is what that buys: two
unwrap functions that both give no usable key cannot be told apart. The length
of the content key is at most that of the HMAC output, a fact `KeyLen` carries,
so the slice of the derived key never runs short.
-/
import Blapki.Crypto

set_option autoImplicit false

namespace Blapki

open Effect

/-- A content key length: at most 32 (AES-256), the HMAC-SHA256 output size. -/
structure KeyLen where
  val : Nat
  le_mac : val ≤ 32
deriving DecidableEq, Repr

/-- The recipient of an outbound `EnvelopedData` (the enrolling device). -/
structure Recipient where
  public_key : RsaPublicKey
  issuer : Name
  serial : SerialNumber
deriving DecidableEq, Repr

/-- `BigUint::to_bytes_be`: no leading zeroes, one octet for zero. -/
def to_bytes_be (n : Nat) : Bytes :=
  if n = 0 then [0] else ((Nat.digits 256 n).map UInt8.ofNat).reverse

namespace Envelope

variable (X : Crates)

/-! ## Public checks -/

/-- Key length in bytes of a supported content-encryption algorithm. -/
def content_key_len (alg : ObjectIdentifier) : AppResult KeyLen :=
  if alg = oids.ID_AES_128_CBC then .ok ⟨16, by decide⟩
  else if alg = oids.ID_AES_192_CBC then .ok ⟨24, by decide⟩
  else if alg = oids.ID_AES_256_CBC then .ok ⟨32, by decide⟩
  else if alg = oids.ID_DES_EDE3_CBC then .ok ⟨24, by decide⟩
  else if alg = oids.ID_DES_CBC then .ok ⟨8, by decide⟩
  else .error (.crypto s!"unsupported content encryption algorithm {alg}")

def read_iv (parameters : Option Any) : AppResult Bytes := do
  let any ← ok_or_else parameters (.crypto "content encryption algorithm has no IV parameter")
  map_err any.decode_octet_string fun e => .crypto s!"IV is not an OCTET STRING: {e}"

/-- Whether a recipient names this certificate, by issuer and serial or by its
subject key identifier. -/
def ktri_matches (ktri : KeyTransRecipientInfo) (ca_cert : Certificate) : Bool :=
  match ktri.rid with
  | .IssuerAndSerialNumber ias =>
      ias.issuer = ca_cert.tbs_certificate.issuer ∧
        ias.serial_number = ca_cert.tbs_certificate.serial_number
  | .SubjectKeyIdentifier ski =>
      match X.get_subject_key_identifier ca_cert.tbs_certificate with
      | .ok (some (_, ca_ski)) => ca_ski = ski
      | _ => false

/-- The key-transport recipients of an envelope. -/
def ktris (enveloped : EnvelopedData) : List KeyTransRecipientInfo :=
  enveloped.recip_infos.filterMap fun
    | .Ktri ktri => some ktri
    | _ => none

/-- Pick the key-transport recipient to unwrap, using only the public recipient
identifiers. -/
def select_recipient (enveloped : EnvelopedData) (ca_cert : Certificate) :
    AppResult KeyTransRecipientInfo :=
  match (ktris enveloped).find? (ktri_matches X · ca_cert) with
  | some ktri => .ok ktri
  | none =>
      -- Be lenient with a lone recipient whose identifier we do not recognise.
      match ktris enveloped with
      | [only] => .ok only
      | _ => .error (.crypto "no key-transport recipient names the CA certificate")

/-! ## The unwrap -/

/-- A CEK derived from the encrypted key with HMAC-SHA256, keyed by a hash of the
CA's private exponent. -/
def synthetic_cek (ca_key : RsaPrivateKey) (encrypted_key : Bytes) (key_len : KeyLen) : Bytes :=
  let kdk := X.sha256 ("blapki implicit rejection".as_bytes ++ to_bytes_be ca_key.d)
  (X.hmac_sha256 kdk encrypted_key).val.take key_len.val

/-- RSA-unwrap the CEK with implicit rejection. -/
def unwrap_cek (ca_key : RsaPrivateKey) (encrypted_key : Bytes) (key_len : KeyLen) : Bytes :=
  match X.decrypt_blinded ca_key encrypted_key with
  | .ok cek =>
      if cek.length = key_len.val then cek else synthetic_cek X ca_key encrypted_key key_len
  | .error _ => synthetic_cek X ca_key encrypted_key key_len

/-- One arm of `decrypt_symmetric`: `new_from_slices` checks both lengths, then
the content is decrypted and unpadded. -/
def cbc_open (c : Cipher) (key iv ciphertext : Bytes) : AppResult Bytes :=
  if key.length = c.key_size ∧ iv.length = c.block_size then
    ok_or_else (X.cbc_decrypt c key iv ciphertext) (.crypto "content decryption / unpad failed")
  else .error (.crypto "invalid key/IV length for content cipher")

def decrypt_symmetric (alg : ObjectIdentifier) (key iv ciphertext : Bytes) : AppResult Bytes :=
  if alg = oids.ID_AES_128_CBC then cbc_open X .Aes128 key iv ciphertext
  else if alg = oids.ID_AES_192_CBC then cbc_open X .Aes192 key iv ciphertext
  else if alg = oids.ID_AES_256_CBC then cbc_open X .Aes256 key iv ciphertext
  else if alg = oids.ID_DES_EDE3_CBC then cbc_open X .TdesEde3 key iv ciphertext
  else if alg = oids.ID_DES_CBC then cbc_open X .Des key iv ciphertext
  else .error (.crypto s!"unsupported content encryption algorithm {alg}")

/-- What `open` establishes before the RSA step. -/
structure Opening where
  key_len : KeyLen
  ciphertext : Bytes
  iv : Bytes
  ktri : KeyTransRecipientInfo
deriving DecidableEq, Repr

/-- Every check that depends only on public data runs before the RSA step. -/
def public_checks (enveloped : EnvelopedData) (ca_cert : Certificate) : AppResult Opening := do
  let eci := enveloped.encrypted_content
  let key_len ← content_key_len eci.content_enc_alg.oid
  let ciphertext ←
    ok_or_else eci.encrypted_content (.crypto "enveloped data has no encrypted content")
  let iv ← read_iv eci.content_enc_alg.parameters
  let ktri ← select_recipient X enveloped ca_cert
  pure ⟨key_len, ciphertext, iv, ktri⟩

/-- Decrypt an `EnvelopedData` addressed to `ca_cert`/`ca_key` and return the
recovered plaintext (for SCEP: the DER-encoded PKCS#10 CSR). -/
def open_ (enveloped : EnvelopedData) (ca_cert : Certificate) (ca_key : RsaPrivateKey) :
    AppResult Bytes := do
  let o ← public_checks X enveloped ca_cert
  let cek := unwrap_cek X ca_key o.ktri.enc_key o.key_len
  decrypt_symmetric X enveloped.encrypted_content.content_enc_alg.oid cek o.iv o.ciphertext

/-! ## Encrypting a reply -/

/-- Parse DER that is either a bare `EnvelopedData` or a `ContentInfo` wrapping
one. SCEP message data is a `ContentInfo`, but be lenient. -/
def parse (der : Bytes) : AppResult EnvelopedData :=
  let bare := map_err (X.enveloped_data_from_der der) fun e =>
    .crypto s!"not an EnvelopedData: {e}"
  match X.content_info_from_der der with
  | .ok ci =>
      if ci.content_type = oids.ID_ENVELOPED_DATA then
        map_err (X.enveloped_data_decode ci.content) fun e =>
          .crypto s!"bad EnvelopedData in ContentInfo: {e}"
      else bare
  | .error _ => bare

/-- The recipient entry of a reply. -/
def out_ktri (recipient : Recipient) (enc_key : Bytes) : OutKeyTransRecipientInfo where
  version := .V0
  rid := ⟨recipient.issuer, recipient.serial⟩
  key_enc_alg := ⟨oids.RSA_ENCRYPTION, some Any.Null⟩
  enc_key := enc_key

/-- The encrypted content of a reply. -/
def out_content (iv ciphertext : Bytes) : EncryptedContentInfo where
  content_type := oids.ID_DATA
  content_enc_alg := ⟨oids.ID_AES_256_CBC, some ⟨.OctetString, iv⟩⟩
  encrypted_content := some ciphertext

/-- The reply's `EnvelopedData` around a wrapped key and an encrypted content. -/
def assemble (recipient : Recipient) (encrypted_key iv ciphertext : Bytes) : AppResult Bytes := do
  let enc_key ← map_err (OctetString.new encrypted_key) der_err
  let recip_info ← map_err (X.out_ktri_encode (out_ktri recipient enc_key)) der_err
  let content ← map_err (OctetString.new ciphertext) der_err
  let enveloped : OutEnvelopedData := ⟨.V0, [recip_info], out_content iv content⟩
  let content ← map_err (X.out_enveloped_data_encode enveloped) der_err
  map_err (X.content_info_to_der ⟨oids.ID_ENVELOPED_DATA, content⟩) der_err

/-- An envelope is refused to no key and no content that have a length. -/
theorem assemble_succeeds {X : Crates} (henc : X.EncodeLaw) (recipient : Recipient) (iv : Bytes)
    {encrypted_key ciphertext : Bytes} (hkey : encrypted_key.length ≤ Length.MAX)
    (hlen : ciphertext.length ≤ Length.MAX) :
    ∃ der, assemble X recipient encrypted_key iv ciphertext = .ok der := by
  obtain ⟨recip_info, hri⟩ := henc.out_ktri (out_ktri recipient encrypted_key)
  obtain ⟨content, hcontent⟩ := henc.out_enveloped_data ⟨.V0, [recip_info], out_content iv ciphertext⟩
  obtain ⟨der, hder⟩ := henc.content_info ⟨oids.ID_ENVELOPED_DATA, content⟩
  refine ⟨der, ?_⟩
  simp only [assemble, bind_eq_ok, map_err_eq_ok, OctetString.new_eq_ok]
  exact ⟨_, ⟨hkey, rfl⟩, recip_info, hri, _, ⟨hlen, rfl⟩, content, hcontent, hder⟩

/-- Encrypt `plaintext` to `recipient` with AES-256-CBC and RSA key transport.
The buffers have the lengths `new_from_slices` asks for. -/
def build_for (plaintext : Bytes) (recipient : Recipient) : Async Bytes := do
  let cek ← fill_bytes 32
  let iv ← fill_bytes 16
  let ciphertext := X.cbc_encrypt .Aes256 cek.val iv.val plaintext
  let seed ← thread_rng
  let encrypted_key ← map_err (X.rsa_encrypt recipient.public_key seed cek.val) fun e =>
    .crypto s!"RSA key wrap failed: {e}"
  assemble X recipient encrypted_key iv.val ciphertext

/-- Encrypt `plaintext` to a certificate recipient. Convenience wrapper used by
tests; production code uses `build_for` with the parsed recipient. -/
def build (plaintext : Bytes) (recipient_cert : Certificate) : Async Bytes := do
  let public_key ← rsa_public_key X recipient_cert
  let issuer := recipient_cert.tbs_certificate.issuer
  let serial ← map_err
    (SerialNumber.new recipient_cert.tbs_certificate.serial_number.as_bytes) der_err
  build_for X plaintext ⟨public_key, issuer, serial⟩

/-! ## Lengths

Whatever the unwrap gives, the cipher gets a key of its own length, so a bad key
never shows as a key error. -/

theorem synthetic_cek_length (ca_key : RsaPrivateKey) (encrypted_key : Bytes) (key_len : KeyLen) :
    (synthetic_cek X ca_key encrypted_key key_len).length = key_len.val := by
  have hle := key_len.le_mac
  have hmac := (X.hmac_sha256
    (X.sha256 ("blapki implicit rejection".as_bytes ++ to_bytes_be ca_key.d)) encrypted_key).property
  rw [synthetic_cek, List.length_take, hmac]
  omega

theorem unwrap_cek_length (ca_key : RsaPrivateKey) (encrypted_key : Bytes) (key_len : KeyLen) :
    (unwrap_cek X ca_key encrypted_key key_len).length = key_len.val := by
  have hsyn := synthetic_cek_length X ca_key encrypted_key key_len
  unfold unwrap_cek
  split
  · split
    · assumption
    · exact hsyn
  · exact hsyn

/-! ## Implicit rejection -/

/-- The unwrap gives no usable key: it fails, or the key has another length. -/
def Rejects (D : RsaPrivateKey → Bytes → Except String Bytes) (ca_key : RsaPrivateKey)
    (o : Opening) : Prop :=
  ∀ cek, D ca_key o.ktri.enc_key = .ok cek → cek.length ≠ o.key_len.val

/-- The derived key does not use the unwrap. -/
theorem synthetic_cek_with_unwrap (D : RsaPrivateKey → Bytes → Except String Bytes)
    (ca_key : RsaPrivateKey) (encrypted_key : Bytes) (key_len : KeyLen) :
    synthetic_cek (X.with_unwrap D) ca_key encrypted_key key_len
      = synthetic_cek X ca_key encrypted_key key_len := rfl

/-- The public checks do not use the unwrap. -/
theorem public_checks_with_unwrap (D : RsaPrivateKey → Bytes → Except String Bytes)
    (enveloped : EnvelopedData) (ca_cert : Certificate) :
    public_checks (X.with_unwrap D) enveloped ca_cert = public_checks X enveloped ca_cert := rfl

theorem unwrap_cek_of_rejects {D : RsaPrivateKey → Bytes → Except String Bytes}
    {ca_key : RsaPrivateKey} {o : Opening} (h : Rejects D ca_key o) :
    unwrap_cek (X.with_unwrap D) ca_key o.ktri.enc_key o.key_len
      = synthetic_cek X ca_key o.ktri.enc_key o.key_len := by
  unfold unwrap_cek
  split
  · rename_i cek hcek
    rw [if_neg (h cek hcek), synthetic_cek_with_unwrap]
  · rw [synthetic_cek_with_unwrap]

/-- **No oracle in `open`.** Two unwraps that give no usable key for the chosen
recipient lead to one result. -/
theorem open_congr_unwrap {D₁ D₂ : RsaPrivateKey → Bytes → Except String Bytes}
    {enveloped : EnvelopedData} {ca_cert : Certificate} {ca_key : RsaPrivateKey}
    (h : ∀ o, public_checks X enveloped ca_cert = .ok o →
      Rejects D₁ ca_key o ∧ Rejects D₂ ca_key o) :
    open_ (X.with_unwrap D₁) enveloped ca_cert ca_key
      = open_ (X.with_unwrap D₂) enveloped ca_cert ca_key := by
  unfold open_
  rw [public_checks_with_unwrap, public_checks_with_unwrap]
  cases hpub : public_checks X enveloped ca_cert with
  | error e => rfl
  | ok o =>
      obtain ⟨h₁, h₂⟩ := h o hpub
      have hcek : unwrap_cek (X.with_unwrap D₁) ca_key o.ktri.enc_key o.key_len
          = unwrap_cek (X.with_unwrap D₂) ca_key o.ktri.enc_key o.key_len := by
        rw [unwrap_cek_of_rejects X h₁, unwrap_cek_of_rejects X h₂]
      show decrypt_symmetric (X.with_unwrap D₁) _ _ _ _ = decrypt_symmetric (X.with_unwrap D₂) _ _ _ _
      rw [hcek]
      rfl

/-! ## Round trips -/

theorem public_checks_eq_ok {enveloped : EnvelopedData} {ca_cert : Certificate} {o : Opening} :
    public_checks X enveloped ca_cert = .ok o ↔
      content_key_len enveloped.encrypted_content.content_enc_alg.oid = .ok o.key_len ∧
        enveloped.encrypted_content.encrypted_content = some o.ciphertext ∧
        read_iv enveloped.encrypted_content.content_enc_alg.parameters = .ok o.iv ∧
        select_recipient X enveloped ca_cert = .ok o.ktri := by
  simp only [public_checks, bind_eq_ok, ok_or_else_eq_ok, pure, Except.pure, Except.ok.injEq]
  constructor
  · rintro ⟨n, hn, c, hc, iv, hiv, k, hk, rfl⟩
    exact ⟨hn, hc, hiv, hk⟩
  · rintro ⟨hn, hc, hiv, hk⟩
    exact ⟨_, hn, _, hc, _, hiv, _, hk, rfl⟩

/-- An envelope whose key was wrapped to the public half of `ca_key`, and whose
content was encrypted under that key, opens. -/
theorem open_of_encrypted (hrsa : X.RsaLaw) (hcipher : X.CipherLaw) {enveloped : EnvelopedData}
    {ca_cert : Certificate} {ca_key : RsaPrivateKey} {o : Opening} {c : Cipher} {seed : Seed}
    {cek plaintext : Bytes} (hpub : public_checks X enveloped ca_cert = .ok o)
    (halg : ∀ key iv ciphertext,
      decrypt_symmetric X enveloped.encrypted_content.content_enc_alg.oid key iv ciphertext
        = cbc_open X c key iv ciphertext)
    (hlen : o.key_len.val = c.key_size) (hcek : cek.length = c.key_size)
    (hiv : o.iv.length = c.block_size)
    (hwrap : X.rsa_encrypt ca_key.to_public_key seed cek = .ok o.ktri.enc_key)
    (hct : o.ciphertext = X.cbc_encrypt c cek o.iv plaintext) :
    open_ X enveloped ca_cert ca_key = .ok plaintext := by
  have hunwrap : unwrap_cek X ca_key o.ktri.enc_key o.key_len = cek := by
    unfold unwrap_cek
    rw [hrsa.decrypt_encrypt _ _ _ _ hwrap]
    exact if_pos (hcek.trans hlen.symm)
  rw [open_, hpub]
  show decrypt_symmetric X _ (unwrap_cek X ca_key o.ktri.enc_key o.key_len) o.iv o.ciphertext = _
  rw [halg, hunwrap, hct, cbc_open, if_pos ⟨hcek, hiv⟩,
    hcipher.decrypt_encrypt c cek o.iv plaintext hcek hiv]
  rfl

/-- The content-encryption algorithm of a cipher. -/
def content_alg : Cipher → ObjectIdentifier
  | .Aes128 => oids.ID_AES_128_CBC
  | .Aes192 => oids.ID_AES_192_CBC
  | .Aes256 => oids.ID_AES_256_CBC
  | .TdesEde3 => oids.ID_DES_EDE3_CBC
  | .Des => oids.ID_DES_CBC

/-- Both tables know every cipher. -/
theorem content_key_len_alg (c : Cipher) :
    ∃ key_len, content_key_len (content_alg c) = .ok key_len ∧ key_len.val = c.key_size := by
  cases c with
  | Aes128 => exact ⟨_, rfl, rfl⟩
  | Aes192 => exact ⟨_, rfl, rfl⟩
  | Aes256 => exact ⟨_, rfl, rfl⟩
  | TdesEde3 => exact ⟨_, rfl, rfl⟩
  | Des => exact ⟨_, rfl, rfl⟩

theorem decrypt_symmetric_alg (c : Cipher) (key iv ciphertext : Bytes) :
    decrypt_symmetric X (content_alg c) key iv ciphertext = cbc_open X c key iv ciphertext := by
  cases c with
  | Aes128 => rfl
  | Aes192 => rfl
  | Aes256 => rfl
  | TdesEde3 => rfl
  | Des => rfl

/-- The envelope is addressed to the certificate, and encrypts the plaintext to the
key: some recipient names the certificate, and every one that does wraps the
content key. -/
structure EncryptsTo (enveloped : EnvelopedData) (cert : Certificate) (key : RsaPublicKey)
    (plaintext : Bytes) : Prop where
  addressed : ∃ ktri ∈ ktris enveloped, ktri_matches X ktri cert = true
  encrypted : ∃ c cek iv, cek.length = c.key_size ∧ iv.length = c.block_size ∧
    enveloped.encrypted_content.content_enc_alg = ⟨content_alg c, some ⟨.OctetString, iv⟩⟩ ∧
    enveloped.encrypted_content.encrypted_content = some (X.cbc_encrypt c cek iv plaintext) ∧
    ∀ ktri ∈ ktris enveloped, ktri_matches X ktri cert = true →
      ∃ seed, X.rsa_encrypt key seed cek = .ok ktri.enc_key

theorem block_size_le (c : Cipher) : c.block_size ≤ Length.MAX := by
  cases c <;> decide

/-- Whoever holds the certificate and its key opens such an envelope. -/
theorem open_of_encrypts (hrsa : X.RsaLaw) (hcipher : X.CipherLaw) {enveloped : EnvelopedData}
    {cert : Certificate} {key : RsaPrivateKey} {plaintext : Bytes}
    (h : EncryptsTo X enveloped cert key.to_public_key plaintext) :
    open_ X enveloped cert key = .ok plaintext := by
  obtain ⟨⟨ktri₀, hmem₀, hmatch₀⟩, c, cek, iv, hcek, hiv, halg, hct, hwraps⟩ := h
  obtain ⟨key_len, hlen, hval⟩ := content_key_len_alg c
  -- The chosen recipient is one that names the certificate.
  have hsome : ((ktris enveloped).find? (ktri_matches X · cert)).isSome = true :=
    List.find?_isSome.mpr ⟨ktri₀, hmem₀, hmatch₀⟩
  obtain ⟨ktri, hfind⟩ := Option.isSome_iff_exists.mp hsome
  have hmatch : ktri_matches X ktri cert = true :=
    List.find?_some (p := (ktri_matches X · cert)) hfind
  obtain ⟨seed, hwrap⟩ := hwraps ktri (List.mem_of_find?_eq_some hfind) hmatch
  have hread : read_iv (some ⟨.OctetString, iv⟩) = .ok iv := by
    simp only [read_iv, bind_eq_ok, ok_or_else_eq_ok, map_err_eq_ok]
    refine ⟨_, rfl, Any.decode_octet_string_eq_ok.mpr ⟨rfl, ?_⟩⟩
    rw [hiv]
    exact block_size_le c
  have hselect : select_recipient X enveloped cert = .ok ktri := by
    rw [select_recipient, hfind]
  have hpub : public_checks X enveloped cert
      = .ok ⟨key_len, X.cbc_encrypt c cek iv plaintext, iv, ktri⟩ := by
    rw [public_checks_eq_ok, halg]
    exact ⟨hlen, hct, hread, hselect⟩
  refine open_of_encrypted X hrsa hcipher hpub (c := c) ?_ hval hcek hiv hwrap rfl
  rw [halg]
  exact decrypt_symmetric_alg X c

/-- `der` is an envelope for the recipient around `plaintext`: it names the
recipient, and whoever holds the recipient's private key gets `plaintext` out. -/
def EnvelopeFor (der : Bytes) (recipient : Recipient) (plaintext : Bytes) : Prop :=
  ∃ (ktri : OutKeyTransRecipientInfo) (recip_info content : Any) (enveloped : OutEnvelopedData)
    (iv ciphertext : Bytes),
    X.content_info_to_der ⟨oids.ID_ENVELOPED_DATA, content⟩ = .ok der ∧
    X.out_enveloped_data_encode enveloped = .ok content ∧
    enveloped.recip_infos = [recip_info] ∧ X.out_ktri_encode ktri = .ok recip_info ∧
    ktri.rid = ⟨recipient.issuer, recipient.serial⟩ ∧
    read_iv enveloped.encrypted_content.content_enc_alg.parameters = .ok iv ∧
    enveloped.encrypted_content.encrypted_content = some ciphertext ∧
    ∀ key : RsaPrivateKey, key.to_public_key = recipient.public_key →
      ∃ cek, X.decrypt_blinded key ktri.enc_key = .ok cek ∧
        decrypt_symmetric X enveloped.encrypted_content.content_enc_alg.oid cek iv ciphertext
          = .ok plaintext

/-- The runs of `build_for`: three draws, then the computed steps. -/
theorem build_for_returns {plaintext : Bytes} {recipient : Recipient} {tr : Trace}
    {r : AppResult Bytes} (h : Returns (build_for X plaintext recipient) tr r) :
    ∃ (cek : { b : Bytes // b.length = 32 }) (iv : { b : Bytes // b.length = 16 }) (seed : Seed),
      tr = [⟨Op.fill_bytes 32, cek⟩, ⟨Op.fill_bytes 16, iv⟩, ⟨Op.thread_rng, seed⟩] ∧
      ((∃ e, X.rsa_encrypt recipient.public_key seed cek.val = .error e ∧
          r = .error (.crypto s!"RSA key wrap failed: {e}")) ∨
        ∃ key, X.rsa_encrypt recipient.public_key seed cek.val = .ok key ∧
          r = assemble X recipient key iv.val
            (X.cbc_encrypt .Aes256 cek.val iv.val plaintext)) := by
  obtain ⟨cek, tr₁, rfl, h₁⟩ := returns_request_bind.mp h
  obtain ⟨iv, tr₂, rfl, h₂⟩ := returns_request_bind.mp h₁
  obtain ⟨seed, tr₃, rfl, h₃⟩ := returns_request_bind.mp h₂
  refine ⟨cek, iv, seed, ?_⟩
  cases hwrap : X.rsa_encrypt recipient.public_key seed cek.val with
  | error e =>
      rw [hwrap] at h₃
      obtain ⟨rfl, rfl⟩ := returns_throw.mp h₃
      exact ⟨rfl, .inl ⟨e, rfl, rfl⟩⟩
  | ok key =>
      rw [hwrap] at h₃
      obtain ⟨rfl, rfl⟩ := returns_lift.mp h₃
      exact ⟨rfl, .inr ⟨key, rfl, rfl⟩⟩

/-- Where the wrap and the encoding go through, any draws make an envelope. -/
theorem build_for_of_assemble {plaintext : Bytes} {recipient : Recipient}
    {cek : { b : Bytes // b.length = 32 }} {iv : { b : Bytes // b.length = 16 }} {seed : Seed}
    {key der : Bytes} (hwrap : X.rsa_encrypt recipient.public_key seed cek.val = .ok key)
    (hasm : assemble X recipient key iv.val (X.cbc_encrypt .Aes256 cek.val iv.val plaintext)
      = .ok der) :
    Returns (build_for X plaintext recipient)
      [⟨Op.fill_bytes 32, cek⟩, ⟨Op.fill_bytes 16, iv⟩, ⟨Op.thread_rng, seed⟩] (.ok der) := by
  refine returns_request_bind.mpr ⟨cek, _, rfl, returns_request_bind.mpr ⟨iv, _, rfl, ?_⟩⟩
  refine returns_request_bind.mpr ⟨seed, [], rfl, returns_lift_bind.mpr (.inr ⟨key, ?_, ?_⟩)⟩
  · exact map_err_eq_ok.mpr hwrap
  · exact returns_lift.mpr ⟨rfl, hasm.symm⟩

theorem build_for_draws {plaintext : Bytes} {recipient : Recipient} {tr : Trace}
    {r : AppResult Bytes} (h : Returns (build_for X plaintext recipient) tr r) :
    ∀ e ∈ tr, draws e = true := by
  obtain ⟨cek, iv, seed, rfl, _⟩ := build_for_returns X h
  simp only [List.forall_mem_cons, draws, List.not_mem_nil, false_implies, implies_true, and_self]

/-- The vector is read back from its octet string. -/
theorem read_iv_octets (iv : { b : Bytes // b.length = 16 }) :
    read_iv (some ⟨.OctetString, iv.val⟩) = .ok iv.val := by
  have hlen : iv.val.length ≤ Length.MAX := by
    rw [iv.property]
    decide
  simp only [read_iv, bind_eq_ok, ok_or_else_eq_ok, map_err_eq_ok]
  exact ⟨_, rfl, Any.decode_octet_string_eq_ok.mpr ⟨rfl, hlen⟩⟩

/-- What `build_for` returns is an envelope for its recipient. -/
theorem build_for_envelope (hrsa : X.RsaLaw) (hcipher : X.CipherLaw) {plaintext : Bytes}
    {recipient : Recipient} {tr : Trace} {der : Bytes}
    (h : Returns (build_for X plaintext recipient) tr (.ok der)) :
    EnvelopeFor X der recipient plaintext := by
  obtain ⟨cek, iv, seed, _, ⟨_, _, h⟩ | ⟨key, hwrap, hasm⟩⟩ := build_for_returns X h
  · cases h
  have hasm' := hasm.symm
  simp only [assemble, bind_eq_ok, map_err_eq_ok, OctetString.new_eq_ok] at hasm'
  obtain ⟨_, ⟨_, rfl⟩, recip_info, hri, _, ⟨_, rfl⟩, content, henv, hder⟩ := hasm'
  refine ⟨_, recip_info, content, _, iv.val, _, hder, henv, rfl, hri, rfl, read_iv_octets iv, rfl, ?_⟩
  intro k hk
  refine ⟨cek.val, hrsa.decrypt_encrypt k seed _ _ (hk ▸ hwrap), ?_⟩
  show decrypt_symmetric X oids.ID_AES_256_CBC cek.val iv.val _ = _
  rw [decrypt_symmetric, if_neg (by decide), if_neg (by decide), if_pos rfl, cbc_open,
    if_pos ⟨cek.property, iv.property⟩,
    hcipher.decrypt_encrypt .Aes256 _ _ _ cek.property iv.property]
  rfl

end Envelope

end Blapki
