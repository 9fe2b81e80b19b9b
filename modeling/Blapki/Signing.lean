/-
What a CA signs verifies under the certificate it publishes, when the two belong
together.

`Serves` collects the five uses of a CA key: leaf certificates, CRLs, OCSP
responses, replies, and the opening of envelopes. They all go by the private key,
while clients go by the certificate, so what they need is `KeyMatches`. A generated
CA has it. For configured material nothing asks for it.
-/
import Blapki.App
import Blapki.Responder
import Blapki.Device

set_option autoImplicit false

namespace Blapki

open Codec Effect FirstMatch

namespace app

variable {X : Crates}

/-- A CA does for its clients what its certificate with this key promises. -/
structure Serves (X : Crates) (state : AppState) (ca_id : String) (ca : CertificateAuthority)
    (key : RsaPublicKey) : Prop where
  /-- The key is that of the certificate. -/
  published : rsa_public_key X ca.cert = .ok key
  /-- The certificate is what `GetCACert` returns. -/
  get_ca_cert : ∀ profile response, state.ca_for_profile profile = some ca →
    Scep.get_ca_cert X state profile = .ok response → X.certificate_to_der ca.cert = .ok response.body
  issued : ∀ csr opts tr cert, Returns (ca.issue X csr opts) tr (.ok cert) →
    ∃ der, X.tbs_certificate_to_der cert.tbs_certificate = .ok der ∧
      X.rsa_verify .Sha256 key der cert.signature = true
  crl : ∀ tr der, Returns (Crl.build_crl X state ca_id) tr (.ok der) →
    ∃ crl tbs_der, X.Encodes der crl ∧
      X.tbs_cert_list_to_der crl.tbs_cert_list = .ok tbs_der ∧
      X.rsa_verify .Sha256 key tbs_der crl.signature = true
  ocsp : ∀ req_der tr der, Returns (Ocsp.build_response X state ca_id req_der) tr (.ok der) →
    ∃ response data_der, X.ocsp_response_from_der der = .ok response ∧
      X.response_data_to_der response.tbs_response_data = .ok data_der ∧
      X.rsa_verify .Sha256 key data_der response.signature = true
  cert_rep : ∀ content attrs der,
    build_cert_rep X ca.signing_key ca.cert content attrs = .ok der →
    ∃ m attrs_der, Verify.decode_message X der = .ok m ∧ m.cert = ca.cert ∧
      X.attributes_to_der m.attrs = .ok attrs_der ∧
      X.rsa_verify .Sha256 key attrs_der m.signer.signature = true
  opens : ∀ enveloped plaintext, Envelope.EncryptsTo X enveloped ca.cert key plaintext →
    Envelope.open_ X enveloped ca.cert ca.private_key = .ok plaintext

/-- `GetCACert` returns the certificate of the CA of the profile. -/
theorem get_ca_cert_body {state : AppState} {profile : String} {ca : CertificateAuthority}
    {response : Response} (hca : state.ca_for_profile profile = some ca)
    (h : Scep.get_ca_cert X state profile = .ok response) :
    X.certificate_to_der ca.cert = .ok response.body := by
  simp only [Scep.get_ca_cert, bind_eq_ok, ok_or_else_eq_ok, map_err_eq_ok] at h
  obtain ⟨ca', hca', der, hder, hresponse⟩ := h
  rw [hca] at hca'
  rw [Option.some.inj hca', hder, ← Except.ok.inj hresponse]
  rfl

/-- A CA whose certificate belongs to its key does all of it. -/
theorem serves_of_matches (hrsa : X.RsaLaw) (hcipher : X.CipherLaw) (hcms : X.CmsLaw)
    (hx509 : X.X509Law) (hstatus : X.StatusLaw) {state : AppState} {ca_id : String}
    {ca : CertificateAuthority} (hca : state.cas.lookup ca_id = some ca)
    (hmatches : CertificateAuthority.KeyMatches X ca) :
    Serves X state ca_id ca ca.private_key.to_public_key where
  published := hmatches
  get_ca_cert := fun _ _ hprofile h => get_ca_cert_body hprofile h
  issued := by
    intro csr opts tr cert h
    obtain ⟨bytes, now, _, hleaf⟩ := CertificateAuthority.issue_returns.mp h
    obtain ⟨der, hder, hsig⟩ :=
      (CertificateAuthority.leaf_issued_from hx509 hleaf.symm).signature
    rw [ca.signing_key_eq] at hsig
    exact ⟨der, hder, hrsa.verify_sign _ _ _ hsig⟩
  crl := by
    intro tr der h
    obtain ⟨rows, now, hcrl⟩ := Crl.build_crl_signs hca h
    obtain ⟨crl, hencodes, _, tbs_der, htbs, hsig⟩ := Crl.crl_at_eq_ok hstatus hrsa.bitstring hcrl
    exact ⟨crl, tbs_der, hencodes, htbs, hrsa.verify_sign _ _ _ hsig⟩
  ocsp := by
    intro req_der tr der h
    obtain ⟨request, this_update, builder, hrequest, hids, hsign⟩ :=
      Ocsp.build_response_signs hca h
    have hreadable := Ocsp.readable_of_ids (hstatus.ocsp_request _ _ hrequest) hids
    obtain ⟨response, hread, _, data_der, hdata, hsig⟩ :=
      Ocsp.sign_response_eq_ok hstatus hreadable hsign
    exact ⟨response, data_der, hread, hdata, hrsa.verify_sign _ _ _ hsig⟩
  cert_rep := by
    intro content attrs der h
    obtain ⟨m, hm⟩ := build_cert_rep_built X hcms h
    obtain ⟨attrs_der, hattrs, hsig⟩ := hm.signature
    rw [ca.signing_key_eq] at hsig
    exact ⟨m, attrs_der, hm.decoded, hm.certificate, hattrs, hrsa.verify_sign _ _ _ hsig⟩
  opens := fun _ _ h => Envelope.open_of_encrypts X hrsa hcipher h

/-- **What a CA signs verifies under its certificate.** Every CA of a built state is
loaded from configured material or was generated. A generated one has a
certificate of its key; and whatever the origin, a CA whose certificate belongs
to its key signs nothing that does not verify under that certificate, and opens
what is encrypted to it. -/
theorem signed_verifies (hrsa : X.RsaLaw) (hcipher : X.CipherLaw) (hcms : X.CmsLaw)
    (hx509 : X.X509Law) (hstatus : X.StatusLaw) {settings : Settings} {tr : Trace}
    {state : AppState} (hbuild : Returns (build_state X settings) tr (.ok state)) {ca_id : String}
    {ca : CertificateAuthority} (hca : state.cas.lookup ca_id = some ca) :
    (∃ cfg ∈ settings.ca, cfg.id = ca_id ∧ ∃ t, t <:+: tr ∧
      (Loaded X cfg t ca ∨ Generated X cfg t ca ∧ CertificateAuthority.KeyMatches X ca)) ∧
    (CertificateAuthority.KeyMatches X ca →
      Serves X state ca_id ca ca.private_key.to_public_key) := by
  obtain ⟨cfg, hmem, hid, t, ht, hload⟩ := build_state_origin hbuild hca
  refine ⟨⟨cfg, hmem, hid, t, ht, ?_⟩,
    fun hmatches => serves_of_matches hrsa hcipher hcms hx509 hstatus hca hmatches⟩
  rcases load_or_bootstrap_ca_origin hload with hloaded | hgenerated
  · exact .inl hloaded
  · exact .inr ⟨hgenerated, hgenerated.key_matches hx509⟩

/-! ## Configured pairs -/

/-- Inline material is all that is asked for where it is given. -/
theorem load_inline (cfg : CaConfig) {cert_pem key_pem : String} (hcert : cfg.cert_pem = some cert_pem)
    (hkey : cfg.key_pem = some key_pem) (hpassword : cfg.key_password_env = none)
    {store : keystore.InlineKeyStore}
    (hstore : keystore.InlineKeyStore.from_material X cert_pem key_pem none = .ok store)
    {cert : Certificate} {key : RsaPrivateKey} (hload : store.load X = .ok (cert, key)) :
    Returns (load_or_bootstrap_ca X cfg) [] (.ok (CertificateAuthority.new cfg.id cert key)) := by
  have hinline : Returns cfg.inline_material [] (.ok (some (cert_pem, key_pem))) := by
    rw [CaConfig.inline_material, hcert, hkey]
    exact returns_pure.mpr ⟨rfl, rfl⟩
  have hpw : Returns (key_password cfg) [] (.ok none) := by
    rw [key_password, hpassword]
    exact returns_pure.mpr ⟨rfl, rfl⟩
  refine returns_bind_ok.mpr ⟨none, [], [], rfl, hpw, ?_⟩
  refine returns_bind_ok.mpr ⟨_, [], [], rfl, hinline, ?_⟩
  refine returns_lift_bind.mpr (.inr ⟨store, hstore, ?_⟩)
  exact returns_lift_bind.mpr (.inr ⟨(cert, key), hload, returns_pure.mpr ⟨rfl, rfl⟩⟩)

/-! ## Settings of one CA -/

/-- A configuration of one CA and no profiles. -/
def one_ca (cfg : CaConfig) : Settings where
  server := ⟨"sqlite://blapki.db", "http://pki.example/"⟩
  ca := [cfg]
  profile := []
  intune := none

/-- Profiles whose validators are built are inserted. -/
theorem build_profiles_of_each {intune : Option IntuneClient} {configs : List ProfileConfig}
    {validators : List ChallengeValidator} {tr : Trace}
    (h : Each (fun p => build_validator p intune) configs tr validators)
    (profiles : AList fun _ : String => ProfileRuntime) :
    Returns (build_profiles intune configs profiles) tr
      (.ok (insert_all profiles ((configs.zip validators).map profile_entry))) := by
  induction h generalizing profiles with
  | nil => exact returns_pure.mpr ⟨rfl, rfl⟩
  | cons hhead _ ih => exact returns_bind_ok.mpr ⟨_, _, _, rfl, hhead, ih _⟩

/-- One CA, and profiles that do not need Intune. -/
def with_profiles (cfg : CaConfig) (profiles : List ProfileConfig) : Settings :=
  { one_ca cfg with profile := profiles }

/-- A state is built once its CA is loaded and its validators are built. -/
theorem build_with_profiles {cfg : CaConfig} {ca : CertificateAuthority}
    (hca : Returns (load_or_bootstrap_ca X cfg) [] (.ok ca)) {profiles : List ProfileConfig}
    {validators : List ChallengeValidator} {t : Trace}
    (h : Each (fun p => build_validator p none) profiles t validators) :
    ∃ state, Returns (build_state X (with_profiles cfg profiles))
        (⟨Op.connect (one_ca cfg).server.database_url, .ok ()⟩ :: t) (.ok state) ∧
      state.profiles = insert_all ∅ ((profiles.zip validators).map profile_entry) ∧
      state.cas.lookup cfg.id = some ca := by
  have hcas : Returns (load_cas X [cfg] Cas.empty) []
      (.ok (Cas.empty.insert cfg.id ca (load_or_bootstrap_ca_id hca))) :=
    returns_bind_ok.mpr ⟨⟨ca, [], hca⟩, [], [], rfl, returns_attach.mpr hca,
      returns_pure.mpr ⟨rfl, rfl⟩⟩
  let cas := Cas.empty.insert cfg.id ca (load_or_bootstrap_ca_id hca)
  refine ⟨⟨cas.map, _, (one_ca cfg).server.base_url, cas.ids⟩,
    returns_request_bind.mpr ⟨.ok (), _, rfl, returns_lift_bind.mpr (.inr ⟨(), rfl, ?_⟩)⟩, rfl,
    AList.lookup_insert _⟩
  refine returns_bind_ok.mpr ⟨_, [], _, rfl, hcas, ?_⟩
  refine returns_bind_ok.mpr ⟨none, [], _, rfl, returns_pure.mpr ⟨rfl, rfl⟩, ?_⟩
  refine returns_bind_ok.mpr ⟨_, t, [], (List.append_nil t).symm, build_profiles_of_each h ∅, ?_⟩
  exact returns_pure.mpr ⟨rfl, rfl⟩

/-- The CA alone is the case of no profiles. -/
theorem build_one_ca {cfg : CaConfig} {ca : CertificateAuthority}
    (h : Returns (load_or_bootstrap_ca X cfg) [] (.ok ca)) :
    ∃ tr state, Returns (build_state X (one_ca cfg)) tr (.ok state) ∧
      state.cas.lookup cfg.id = some ca := by
  obtain ⟨state, hbuild, _, hca⟩ := build_with_profiles h Each.nil
  exact ⟨_, state, hbuild, hca⟩

end app

namespace Device

/-- The certificate of the CA with this key, inline. -/
def ca_config (key : RsaPrivateKey) : CaConfig where
  id := "root"
  key_file := none
  cert_pem := some (base64.encode (enc ca_cert))
  cert_pem_env := none
  key_pem := some (base64.encode (enc key))
  key_pem_env := none
  key_password_env := none

/-- The pair that belongs together loads. -/
theorem ca_pair_loads : Returns (app.load_or_bootstrap_ca Reference.crates (ca_config ca_key)) []
    (.ok (CertificateAuthority.new "root" ca_cert ca_key)) := by
  have hstore := keystore.InlineKeyStore.from_material_encode Reference.crates (enc ca_cert)
    (enc ca_key) none
  refine app.load_inline (ca_config ca_key) rfl rfl rfl hstore ?_
  decide +kernel

/-- A key that is not the one of the certificate loads too. -/
theorem mixed_pair_loads :
    Returns (app.load_or_bootstrap_ca Reference.crates (ca_config device_key)) []
      (.ok (CertificateAuthority.new "root" ca_cert device_key)) := by
  have hstore := keystore.InlineKeyStore.from_material_encode Reference.crates (enc ca_cert)
    (enc device_key) none
  refine app.load_inline (ca_config device_key) rfl rfl rfl hstore ?_
  decide +kernel

/-- The certificate of this CA with the key of the device. -/
def mixed_ca : CertificateAuthority := CertificateAuthority.new "root" ca_cert device_key

/-- The CA with a key of another issues certificates. -/
theorem mixed_ca_issues : ∃ issued, mixed_ca.leaf Reference.crates (csr "s3cret")
    (Scep.issue_options server profile) (serial_of serial_octets) now = .ok issued := by
  apply exists_ok_of_toBool
  decide +kernel

end Device

namespace app

/-- The CA whose certificate and key belong together serves its clients. -/
theorem device_ca_serves : ∃ state, Serves Reference.crates state "root" Device.ca
    Device.ca_key.pubkey := by
  obtain ⟨tr, state, hbuild, hca⟩ := build_one_ca Device.ca_pair_loads
  have hmatches : CertificateAuthority.KeyMatches Reference.crates Device.ca :=
    Device.key_of_self_signed _ _ _
  exact ⟨state, (signed_verifies Reference.rsa_law Reference.cipher_law Reference.cms_law
    Reference.x509_law Reference.status_law hbuild hca).2 hmatches⟩

/-- **A certificate and a key that do not belong together are loaded**, and then the
certificates issued do not verify under the certificate of the CA. -/
theorem mixed_pair_does_not_verify : ∃ tr state ca csr opts t cert,
    Returns (build_state Reference.crates (one_ca (Device.ca_config Device.device_key))) tr
      (.ok state) ∧
    state.cas.lookup "root" = some ca ∧ Returns (ca.issue Reference.crates csr opts) t (.ok cert) ∧
    ∀ key der, rsa_public_key Reference.crates ca.cert = .ok key →
      Reference.crates.tbs_certificate_to_der cert.tbs_certificate = .ok der →
      Reference.crates.rsa_verify .Sha256 key der cert.signature = false := by
  obtain ⟨tr, state, hbuild, hca⟩ := build_one_ca Device.mixed_pair_loads
  obtain ⟨cert, hleaf⟩ := Device.mixed_ca_issues
  refine ⟨tr, state, Device.mixed_ca, _, _, _, cert, hbuild, hca,
    CertificateAuthority.issue_returns.mpr ⟨_, _, rfl, hleaf.symm⟩, fun key der hkey hder => ?_⟩
  obtain ⟨der', hder', hsig⟩ :=
    (CertificateAuthority.leaf_issued_from Reference.x509_law hleaf).signature
  rw [hder] at hder'
  obtain rfl := Except.ok.inj hder'
  obtain rfl : Device.ca_key.pubkey = key :=
    Except.ok.inj ((Device.key_of_self_signed _ _ _).symm.trans hkey)
  -- The signature is one of the other key.
  rw [← Except.ok.inj hsig]
  refine Bool.eq_false_iff.mpr fun hverify => ?_
  exact absurd (Reference.key_of_verify hverify) (by decide)

end app

end Blapki
