/-
`open` with its panics (`crypto/envelope.rs`).

`KeyLen` carries that a content key is no longer than the output of the HMAC. Here the lengths
are plain numbers, as the source has them, and the slice of the HMAC output panics where it is
too long. `open_returns` says that it never is, and which errors are left once the RSA step is
reached: the key always fits the cipher, so only the IV and the content can be wrong.
-/
import Blapki.Envelope

set_option autoImplicit false

namespace Blapki

/-- `&bytes[..n]`, which panics when there are not so many. -/
def slice_to (b : Bytes) (n : Nat) : Option Bytes := if n ≤ b.length then some (b.take n) else none

theorem slice_to_of_le {b : Bytes} {n : Nat} (h : n ≤ b.length) : slice_to b n = some (b.take n) :=
  if_pos h

namespace Envelope

variable (X : Crates)

/-! ## Plain lengths

What may panic is an `Option`: there is no result where it does. -/

namespace Checked

/-- Key length in bytes of a supported content-encryption algorithm. -/
def content_key_len (alg : ObjectIdentifier) : AppResult Nat :=
  if alg = oids.ID_AES_128_CBC then .ok 16
  else if alg = oids.ID_AES_192_CBC then .ok 24
  else if alg = oids.ID_AES_256_CBC then .ok 32
  else if alg = oids.ID_DES_EDE3_CBC then .ok 24
  else if alg = oids.ID_DES_CBC then .ok 8
  else .error (.crypto s!"unsupported content encryption algorithm {alg}")

def synthetic_cek (ca_key : RsaPrivateKey) (encrypted_key : Bytes) (key_len : Nat) :
    Option Bytes :=
  let kdk := X.sha256 ("blapki implicit rejection".as_bytes ++ to_bytes_be ca_key.d)
  slice_to (X.hmac_sha256 kdk encrypted_key).val key_len

/-- The fallback is derived up front. -/
def unwrap_cek (ca_key : RsaPrivateKey) (encrypted_key : Bytes) (key_len : Nat) :
    Option Bytes := do
  let synthetic ← synthetic_cek X ca_key encrypted_key key_len
  match X.decrypt_blinded ca_key encrypted_key with
  | .ok cek => if cek.length = key_len then pure cek else pure synthetic
  | .error _ => pure synthetic

/-- What `open` takes from public data. -/
def public_checks (enveloped : EnvelopedData) (ca_cert : Certificate) :
    AppResult (Nat × Bytes × Bytes × KeyTransRecipientInfo) := do
  let eci := enveloped.encrypted_content
  let key_len ← content_key_len eci.content_enc_alg.oid
  let ciphertext ←
    ok_or_else eci.encrypted_content (.crypto "enveloped data has no encrypted content")
  let iv ← read_iv eci.content_enc_alg.parameters
  let ktri ← select_recipient X enveloped ca_cert
  pure (key_len, ciphertext, iv, ktri)

def open_ (enveloped : EnvelopedData) (ca_cert : Certificate) (ca_key : RsaPrivateKey) :
    Option (AppResult Bytes) :=
  match public_checks X enveloped ca_cert with
  | .error e => some (.error e)
  | .ok (key_len, ciphertext, iv, ktri) => do
      let cek ← unwrap_cek X ca_key ktri.enc_key key_len
      pure (decrypt_symmetric X enveloped.encrypted_content.content_enc_alg.oid cek iv ciphertext)

/-! ## The slice is in bounds -/

/-- The two tables have the same lengths. -/
theorem content_key_len_val (alg : ObjectIdentifier) :
    content_key_len alg = (Envelope.content_key_len alg).map KeyLen.val := by
  unfold content_key_len Envelope.content_key_len
  split_ifs
  · rfl
  · rfl
  · rfl
  · rfl
  · rfl
  · rfl

/-- The HMAC output is long enough for every content key. -/
theorem mac_long (kdk encrypted_key : Bytes) (key_len : KeyLen) :
    key_len.val ≤ (X.hmac_sha256 kdk encrypted_key).val.length := by
  rw [(X.hmac_sha256 kdk encrypted_key).property]
  exact key_len.le_mac

theorem synthetic_cek_eq (ca_key : RsaPrivateKey) (encrypted_key : Bytes) (key_len : KeyLen) :
    synthetic_cek X ca_key encrypted_key key_len.val
      = some (Envelope.synthetic_cek X ca_key encrypted_key key_len) := by
  unfold synthetic_cek Envelope.synthetic_cek
  exact slice_to_of_le (mac_long X _ encrypted_key key_len)

theorem unwrap_cek_eq (ca_key : RsaPrivateKey) (encrypted_key : Bytes) (key_len : KeyLen) :
    unwrap_cek X ca_key encrypted_key key_len.val
      = some (Envelope.unwrap_cek X ca_key encrypted_key key_len) := by
  unfold unwrap_cek Envelope.unwrap_cek
  rw [synthetic_cek_eq, Option.bind_eq_bind, Option.bind_some]
  cases X.decrypt_blinded ca_key encrypted_key with
  | error e => rfl
  | ok cek =>
      by_cases hlen : cek.length = key_len.val
      · simp only [if_pos hlen, Option.pure_def]
      · simp only [if_neg hlen, Option.pure_def]

theorem public_checks_eq (enveloped : EnvelopedData) (ca_cert : Certificate) :
    public_checks X enveloped ca_cert = (Envelope.public_checks X enveloped ca_cert).map
      fun o => (o.key_len.val, o.ciphertext, o.iv, o.ktri) := by
  simp only [public_checks, Envelope.public_checks, content_key_len_val]
  -- the same checks in the same order, and the key length is the only value that differs
  cases Envelope.content_key_len enveloped.encrypted_content.content_enc_alg.oid with
  | error e => rfl
  | ok key_len =>
      cases enveloped.encrypted_content.encrypted_content with
      | none => rfl
      | some ciphertext =>
          cases read_iv enveloped.encrypted_content.content_enc_alg.parameters with
          | error e => rfl
          | ok iv =>
              cases select_recipient X enveloped ca_cert with
              | error e => rfl
              | ok ktri => rfl

/-- `open` does not panic, and is what it is with the lengths that carry their bound. -/
theorem open_eq (enveloped : EnvelopedData) (ca_cert : Certificate) (ca_key : RsaPrivateKey) :
    open_ X enveloped ca_cert ca_key = some (Envelope.open_ X enveloped ca_cert ca_key) := by
  unfold open_ Envelope.open_
  rw [public_checks_eq]
  cases Envelope.public_checks X enveloped ca_cert with
  | error e => rfl
  | ok o =>
      have hunwrap := unwrap_cek_eq X ca_key o.ktri.enc_key o.key_len
      simp only [Except.map, hunwrap]
      rfl

end Checked

/-! ## The errors that are left -/

/-- An algorithm with a key length is one of the table. -/
theorem alg_of_key_len {alg : ObjectIdentifier} {key_len : KeyLen}
    (h : content_key_len alg = .ok key_len) :
    ∃ c : Cipher, alg = content_alg c ∧ c.key_size = key_len.val := by
  unfold content_key_len at h
  split_ifs at h with h₁ h₂ h₃ h₄ h₅
  · cases h
    exact ⟨.Aes128, h₁, rfl⟩
  · cases h
    exact ⟨.Aes192, h₂, rfl⟩
  · cases h
    exact ⟨.Aes256, h₃, rfl⟩
  · cases h
    exact ⟨.TdesEde3, h₄, rfl⟩
  · cases h
    exact ⟨.Des, h₅, rfl⟩

/-- A key of the right length leaves the IV and the content to go wrong. -/
theorem cbc_open_of_key {c : Cipher} {key iv ciphertext : Bytes} (hkey : key.length = c.key_size) :
    cbc_open X c key iv ciphertext =
      if iv.length = c.block_size then
        ok_or_else (X.cbc_decrypt c key iv ciphertext) (.crypto "content decryption / unpad failed")
      else .error (.crypto "invalid key/IV length for content cipher") := by
  unfold cbc_open
  by_cases hiv : iv.length = c.block_size
  · rw [if_pos ⟨hkey, hiv⟩, if_pos hiv]
  · rw [if_neg hiv, if_neg fun hboth => hiv hboth.2]

/-- The errors of a cipher are told apart from that of the table by their first letter. -/
theorem unsupported_ne (alg : ObjectIdentifier) {message : String}
    (h : message.toList.head? ≠ some 'u') :
    message ≠ s!"unsupported content encryption algorithm {alg}" := by
  rintro rfl
  apply h
  simp only [String.toList_append]
  rfl

/-- How decrypting goes once the RSA step is reached. -/
structure FitsCipher (X : Crates) (alg : ObjectIdentifier) (key iv ciphertext : Bytes)
    (c : Cipher) : Prop where
  supported : alg = content_alg c
  key_fits : key.length = c.key_size
  decrypts : decrypt_symmetric X alg key iv ciphertext = cbc_open X c key iv ciphertext
  not_unsupported : ∀ other : ObjectIdentifier, decrypt_symmetric X alg key iv ciphertext
    ≠ .error (.crypto s!"unsupported content encryption algorithm {other}")
  length_iff : decrypt_symmetric X alg key iv ciphertext
    = .error (.crypto "invalid key/IV length for content cipher") ↔ iv.length ≠ c.block_size

theorem fits_cipher {alg : ObjectIdentifier} {c : Cipher} (halg : alg = content_alg c)
    {key : Bytes} (hkey : key.length = c.key_size) (iv ciphertext : Bytes) :
    FitsCipher X alg key iv ciphertext c := by
  have hdecrypt : decrypt_symmetric X alg key iv ciphertext = cbc_open X c key iv ciphertext := by
    rw [halg, decrypt_symmetric_alg]
  have hunpad : "content decryption / unpad failed".toList.head? ≠ some 'u' := by decide
  have hlength : "invalid key/IV length for content cipher".toList.head? ≠ some 'u' := by decide
  refine ⟨halg, hkey, hdecrypt, fun alg' => ?_, ?_⟩
  · -- neither of the errors of the cipher begins like that of an unknown algorithm
    rw [hdecrypt, cbc_open_of_key X hkey]
    by_cases hiv : iv.length = c.block_size
    · rw [if_pos hiv]
      cases X.cbc_decrypt c key iv ciphertext with
      | some plaintext => exact fun hno => by cases hno
      | none =>
          intro hno
          exact unsupported_ne alg' hunpad (AppError.Crypto.inj (Except.error.inj hno))
    · rw [if_neg hiv]
      intro hno
      exact unsupported_ne alg' hlength (AppError.Crypto.inj (Except.error.inj hno))
  · rw [hdecrypt, cbc_open_of_key X hkey]
    by_cases hiv : iv.length = c.block_size
    · rw [if_pos hiv]
      refine iff_of_false ?_ fun hno => hno hiv
      cases X.cbc_decrypt c key iv ciphertext with
      | some plaintext => exact fun hno => by cases hno
      | none =>
          intro hno
          have hmessage := AppError.Crypto.inj (Except.error.inj hno)
          exact absurd hmessage (by decide)
    · rw [if_neg hiv]
      exact iff_of_true rfl hiv

/-- **`open` returns.** It does so whatever the unwrap gives, the slice of the HMAC output is in
bounds, the content key has the length of its algorithm, and the content cipher has nothing to
say against either. -/
theorem open_returns (enveloped : EnvelopedData) (ca_cert : Certificate) (ca_key : RsaPrivateKey) :
    Checked.open_ X enveloped ca_cert ca_key = some (open_ X enveloped ca_cert ca_key) ∧
      (∀ alg key_len, Checked.content_key_len alg = .ok key_len → ∀ encrypted_key : Bytes,
        (∀ kdk, key_len ≤ (X.hmac_sha256 kdk encrypted_key).val.length) ∧
        ∃ cek, Checked.unwrap_cek X ca_key encrypted_key key_len = some cek ∧
          cek.length = key_len) ∧
      ∀ key_len ciphertext iv ktri cek,
        Checked.public_checks X enveloped ca_cert = .ok (key_len, ciphertext, iv, ktri) →
        Checked.unwrap_cek X ca_key ktri.enc_key key_len = some cek →
        ∃ c, FitsCipher X enveloped.encrypted_content.content_enc_alg.oid cek iv ciphertext c := by
  refine ⟨Checked.open_eq X enveloped ca_cert ca_key, ?_, ?_⟩
  · intro alg n hlen encrypted_key
    rw [Checked.content_key_len_val] at hlen
    obtain ⟨key_len, _, rfl⟩ := map_eq_ok.mp hlen
    refine ⟨fun kdk => Checked.mac_long X kdk encrypted_key key_len, _,
      Checked.unwrap_cek_eq X ca_key encrypted_key key_len, ?_⟩
    exact unwrap_cek_length X ca_key encrypted_key key_len
  · intro n ciphertext iv ktri cek hpub hcek
    rw [Checked.public_checks_eq] at hpub
    obtain ⟨o, ho, heq⟩ := map_eq_ok.mp hpub
    obtain ⟨rfl, rfl, rfl, rfl⟩ : o.key_len.val = n ∧ o.ciphertext = ciphertext ∧ o.iv = iv ∧
        o.ktri = ktri := by
      simpa using heq
    rw [Checked.unwrap_cek_eq] at hcek
    obtain rfl := Option.some.inj hcek
    -- the length was read off the algorithm, so the key has that of the cipher
    obtain ⟨c, halg, hsize⟩ := alg_of_key_len ((public_checks_eq_ok X).mp ho).1
    have hkey := unwrap_cek_length X ca_key o.ktri.enc_key o.key_len
    exact ⟨c, fits_cipher X halg (hkey.trans hsize.symm) o.iv o.ciphertext⟩

end Envelope

end Blapki
