/-
What a start leaves on disk, and what the next one makes of it.

A start loads the key material of every CA, and where a key file is missing it generates the
CA and writes the file. Where the paths of the key files are direct it writes only where
nothing was (`start_keeps`; `device_dotdot_overwrites` is a path that is not), and what it
writes is read back as what it was (`bundle_read`). So where the database engine writes none
of them either, the next start that succeeds has the same CAs, validators and profiles
(`restarts_agree`): a CA is generated once.
-/
import Blapki.Blocks
import Blapki.Disk
import Blapki.Durability
import Blapki.Material
import Blapki.Startup

set_option autoImplicit false

namespace Blapki

open Effect

/-! ## The bundle of a bootstrapped CA -/

/-- Lines, each ended by LF. -/
def unlines (ls : List String) : String := String.join (ls.map fun line => line ++ "\n")

/-- A text of lines that are ended is read as these lines. -/
theorem ended_unlines {ls : List String} (h : ∀ line ∈ ls, '\n' ∉ line.toList) :
    Ended (unlines ls) ls := by
  induction ls with
  | nil => exact .nil
  | cons line ls ih =>
      rw [List.forall_mem_cons] at h
      have htext : unlines (line :: ls) = line ++ "\n" ++ unlines ls := by
        rw [unlines, List.map_cons, String.join_cons]
        rfl
      rw [htext]
      exact .lf h.1 (ih h.2)

theorem unlines_append (ls ls' : List String) :
    unlines (ls ++ ls') = unlines ls ++ unlines ls' := by
  rw [unlines, List.map_append, String.join_append]
  rfl

namespace keystore

/-- The lines of a block as the encoder writes it, with the base64 broken anywhere. -/
def block_lines (label : String) (chunks : List String) : List String :=
  ("-----BEGIN " ++ label ++ "-----") :: (chunks ++ ["-----END " ++ label ++ "-----"])

/-- The text of such a block. -/
def PemBlock (label : String) (der : Bytes) (text : String) : Prop :=
  ∃ chunks : List String, String.join chunks = base64.encode der ∧
    text = unlines (block_lines label chunks)

end keystore

/-- `x509-cert` and `rsa`: a root certificate and a key are written as one PEM block each, and
decode to what was written. -/
structure Crates.BundleLaw (X : Crates) : Prop where
  certificate : ∀ c pem, X.RootCertificate c → X.certificate_to_pem c = .ok pem →
    ∃ der, X.certificate_from_der der = .ok c ∧ keystore.PemBlock "CERTIFICATE" der pem
  key : ∀ k pem, X.rsa_private_key_to_pkcs8_pem k = .ok pem →
    ∃ der, X.rsa_private_key_from_pkcs8_der der = .ok k ∧ keystore.PemBlock "PRIVATE KEY" der pem

namespace keystore

/-- No line of a block has a line feed in it. -/
theorem line_of_block {label : String} {der : Bytes} {chunks : List String}
    (hlabel : '\n' ∉ label.toList) (hchunks : String.join chunks = base64.encode der) :
    ∀ line ∈ block_lines label chunks, '\n' ∉ line.toList := by
  have hdashes : ∀ p : String, '\n' ∉ p.toList → '\n' ∉ (p ++ label ++ "-----").toList := by
    intro p hp
    rw [String.toList_append, String.toList_append, List.mem_append, List.mem_append]
    rintro ((hmem | hmem) | hmem)
    · exact hp hmem
    · exact hlabel hmem
    · exact absurd hmem (by decide)
  intro line hline
  rcases List.mem_cons.mp hline with rfl | hline
  · exact hdashes _ (by decide)
  rcases List.mem_append.mp hline with hline | hline
  · -- a character of base64 is not white space
    intro hmem
    have hdigit := mem_join hline _ hmem
    rw [hchunks, base64.encode, String.toList_ofList] at hdigit
    exact absurd (base64_character hdigit).1 (by decide)
  · rw [List.mem_singleton.mp hline]
    exact hdashes _ (by decide)

theorem rendered_block {label : String} {der : Bytes} {chunks lines : List String}
    {blocks : List (String × Bytes)} (hchunks : String.join chunks = base64.encode der)
    (h : Rendered lines blocks) :
    Rendered (block_lines label chunks ++ lines) ((label, der) :: blocks) := by
  have hself : ∀ text : String, Indented text text := fun text => ⟨[], [], by simp⟩
  have hbody : List.Forall₂ Indented chunks chunks := List.forall₂_same.mpr fun c _ => hself c
  have hblock := Rendered.block (hself _) hchunks hbody (hself ("-----END " ++ label ++ "-----")) h
  rw [block_lines, List.cons_append, List.append_assoc]
  exact hblock

/-- **The bundle is read back as it was written**: the certificate of its first block and the
key of its second, with any password. -/
theorem bundle_read {X : Crates} (hlaw : X.BundleLaw) {cert : Certificate} {key : RsaPrivateKey}
    {cert_pem key_pem : String} (hroot : X.RootCertificate cert)
    (hcert : X.certificate_to_pem cert = .ok cert_pem)
    (hkey : X.rsa_private_key_to_pkcs8_pem key = .ok key_pem) (password : Option String) :
    InlineKeyStore.load X ⟨(cert_pem ++ key_pem).as_bytes, (cert_pem ++ key_pem).as_bytes, password⟩
      = .ok (cert, key) := by
  obtain ⟨cert_der, hcert_der, chunks, hchunks, rfl⟩ := hlaw.certificate cert cert_pem hroot hcert
  obtain ⟨key_der, hkey_der, chunks', hchunks', rfl⟩ := hlaw.key key key_pem hkey
  rw [← unlines_append]
  have hended : Ended
      (unlines (block_lines "CERTIFICATE" chunks ++ block_lines "PRIVATE KEY" chunks'))
      (block_lines "CERTIFICATE" chunks ++ block_lines "PRIVATE KEY" chunks') := by
    refine ended_unlines fun line hline => ?_
    rcases List.mem_append.mp hline with hline | hline
    · exact line_of_block (by decide) hchunks line hline
    · exact line_of_block (by decide) hchunks' line hline
  have hrendered : Rendered (block_lines "CERTIFICATE" chunks ++ block_lines "PRIVATE KEY" chunks')
      [("CERTIFICATE", cert_der), ("PRIVATE KEY", key_der)] := by
    have hlast : Rendered (block_lines "PRIVATE KEY" chunks' ++ []) [("PRIVATE KEY", key_der)] :=
      rendered_block hchunks' .nil
    rw [List.append_nil] at hlast
    exact rendered_block hchunks hlast
  have hcontains : contains (unlines (block_lines "CERTIFICATE" chunks ++
      block_lines "PRIVATE KEY" chunks')) "-----BEGIN " = true := by
    rw [contains, List.any_eq_true]
    refine ⟨_, (List.mem_tails _ _).mpr (List.suffix_refl _), List.isPrefixOf_iff_prefix.mpr ?_⟩
    rw [block_lines, List.cons_append, unlines, List.map_cons, String.join_cons]
    simp only [String.toList_append, List.append_assoc]
    exact List.prefix_append _ _
  -- the certificate and the key are read from the blocks of the one file
  have hblocks : as_pem_blocks (unlines (block_lines "CERTIFICATE" chunks ++
      block_lines "PRIVATE KEY" chunks')).as_bytes
        = some [("CERTIFICATE", cert_der), ("PRIVATE KEY", key_der)] := by
    rw [as_pem_blocks, from_utf8_as_bytes, ← pem_blocks_rendered hended hrendered]
    exact if_pos hcontains
  have hcert_read : parse_certificate X (unlines (block_lines "CERTIFICATE" chunks ++
      block_lines "PRIVATE KEY" chunks')).as_bytes = .ok cert := by
    simp only [parse_certificate, hblocks]
    exact map_err_eq_ok.mpr hcert_der
  have hkey_read : parse_private_key X (unlines (block_lines "CERTIFICATE" chunks ++
      block_lines "PRIVATE KEY" chunks')).as_bytes password = .ok key := by
    simp only [parse_private_key, hblocks]
    exact map_err_eq_ok.mpr hkey_der
  rw [InlineKeyStore.load, hcert_read, hkey_read]
  rfl

end keystore

/-! ## What stays -/

section Lasts

variable {κ δ : Type}

/-- The answers that stay: the variables, a database that can be reached, and what these paths
lead to. -/
def Host.Settled (H : Host κ δ) (paths : Set String) (d : δ) : Event Op.Res → Prop
  | ⟨.env_var name, value⟩ => value = H.vars name
  | ⟨.connect _, connected⟩ => connected = .ok ()
  | ⟨.path_exists path, there⟩ => there = true ∧ path ∈ paths ∧ (H.find d path).isSome
  | ⟨.read_file path, read⟩ => path ∈ paths ∧
      ∃ contents, read = .ok contents ∧ H.find d path = some (.file contents)
  | _ => False

/-- An order of disks that a start goes up in: it may be as coarse as what the paths lead to,
or, where nothing has to be had again (`again` is false), as fine as all that is there. -/
structure Kept (H : Host κ δ) (X : Crates) (again : Prop) (paths : Set String)
    (le : δ → δ → Prop) : Prop where
  refl : ∀ d, le d d
  trans : ∀ {d d' d''}, le d d' → le d' d'' → le d d''
  lasting : ∀ {d d'}, Lasting H.database (H.node d) (H.node d') → le d d'
  keeps : again → ∀ {d d'}, le d d' → H.Keeps paths d d'
  direct : ∀ path ∈ paths, H.Direct path
  law : again → X.BundleLaw

variable {H : Host κ δ} {X : Crates} {again : Prop} {paths : Set String} {le : δ → δ → Prop}

namespace Host

theorem Keeps.isSome {d d' : δ} (h : H.Keeps paths d d') {path : String} (hpath : path ∈ paths)
    (hd : (H.find d path).isSome) : (H.find d' path).isSome := by
  obtain ⟨n, hn⟩ := Option.isSome_iff_exists.mp hd
  exact Option.isSome_iff_exists.mpr ⟨n, h path hpath n hn⟩

theorem Settled.mono {d d' : δ} {e : Event Op.Res} (hkeeps : H.Keeps paths d d')
    (h : H.Settled paths d e) : H.Settled paths d' e := by
  obtain ⟨o, r⟩ := e
  cases o with
  | env_var name => exact h
  | connect url => exact h
  | path_exists path => exact ⟨h.1, h.2.1, hkeeps.isSome h.2.1 h.2.2⟩
  | read_file path =>
      obtain ⟨hpath, contents, hread, hd⟩ := h
      exact ⟨hpath, contents, hread, hkeeps path hpath _ hd⟩
  | _ => exact h

theorem settled_single (H : Host κ δ) (paths : Set String) : Single (H.Settled paths) := by
  intro d o r r' h h'
  cases o with
  | env_var name => exact Eq.trans h (Eq.symm h')
  | connect url => exact Eq.trans h (Eq.symm h')
  | path_exists path => exact h.1.trans h'.1.symm
  | read_file path =>
      obtain ⟨_, contents, rfl, hd⟩ := h
      obtain ⟨_, contents', rfl, hd'⟩ := h'
      cases hd.symm.trans hd'
      rfl
  | _ => exact False.elim h

/-- The host may give a settled answer, and nothing changes. -/
theorem step_of_settled {d : δ} {e : Event Op.Res} (h : H.Settled paths d e) :
    H.step d e.1 e.2 d := by
  obtain ⟨o, r⟩ := e
  cases o with
  | env_var name => exact ⟨h, rfl⟩
  | connect url => exact fun k => .inl rfl
  | path_exists path => exact ⟨h.1.trans h.2.2.symm, rfl⟩
  | read_file path =>
      obtain ⟨_, contents, hread, hd⟩ := h
      refine ⟨fun contents' heq => ?_, rfl⟩
      rwa [← Except.ok.inj (hread.symm.trans heq)]
  | _ => exact False.elim h

theorem steps_of_settled {d : δ} {tr : Trace} (h : ∀ e ∈ tr, H.Settled paths d e) :
    Steps H.step d tr d := by
  induction tr with
  | nil => exact .nil d
  | cons e tr ih =>
      rw [List.forall_mem_cons] at h
      exact .cons (step_of_settled h.1) (ih h.2)

end Host

/-- What the task returns, the next start gets again. -/
abbrev Lasts (H : Host κ δ) (again : Prop) (paths : Set String) (le : δ → δ → Prop) {α : Type}
    (t : Async α) : Prop :=
  Durable H.step le (fun d e => again → H.Settled paths d e) t

theorem Kept.settles (hle : Kept H X again paths le) :
    Settles le fun d e => again → H.Settled paths d e where
  refl := hle.refl
  trans := hle.trans
  mono := fun h hsettled hagain => (hsettled hagain).mono (hle.keeps hagain h)

section Loads

variable (hle : Kept H X again paths le)
include hle

/-! ## The load of a CA -/

theorem lasts_env_var (name : String) (e : AppError) :
    Lasts H again paths le (env_var name e) := by
  refine durable_request_bind hle.settles ?_ ?_
    fun value => durable_lift hle.settles _
  · rintro d value d' ⟨_, rfl⟩
    exact hle.refl d'
  · rintro d value d' ⟨hvalue, _⟩
    exact .inl fun _ => hvalue

theorem lasts_resolve_value (inline env_name : Option String) (field : String) :
    Lasts H again paths le (resolve_value inline env_name field) := by
  cases inline with
  | some v => exact durable_pure hle.settles _
  | none =>
      cases env_name with
      | some env =>
          apply (lasts_env_var hle env _).bind hle.settles
          exact fun v => durable_pure hle.settles _
      | none => exact durable_pure hle.settles _

theorem lasts_inline_material (cfg : CaConfig) :
    Lasts H again paths le cfg.inline_material := by
  apply (lasts_resolve_value hle _ _ _).bind hle.settles
  intro cert
  apply (lasts_resolve_value hle _ _ _).bind hle.settles
  intro key
  cases cert with
  | some cert =>
      cases key with
      | some key => exact durable_pure hle.settles _
      | none => exact durable_throw hle.settles _
  | none =>
      cases key with
      | some key => exact durable_throw hle.settles _
      | none => exact durable_pure hle.settles _

theorem lasts_key_password (cfg : CaConfig) :
    Lasts H again paths le (app.key_password cfg) := by
  unfold app.key_password
  cases cfg.key_password_env with
  | some env =>
      apply durable_request hle.settles
      rintro d value d' ⟨hvalue, rfl⟩
      exact ⟨hle.refl d', fun _ => hvalue⟩
  | none => exact durable_pure hle.settles _

/-- A file that is read stays. -/
theorem lasts_load {store : keystore.FileKeyStore} (hpath : store.path ∈ paths) :
    Lasts H again paths le (keystore.FileKeyStore.load X store) := by
  refine durable_request_bind hle.settles ?_ ?_ fun read => ?_
  · rintro d read d' ⟨_, rfl⟩
    exact hle.refl d'
  · rintro d read d' ⟨hread, rfl⟩
    cases read with
    | ok contents => exact .inl fun _ => ⟨hpath, contents, rfl, hread contents rfl⟩
    | error e =>
        refine .inr fun tr b hrun => ?_
        obtain ⟨_, hno, _⟩ := returns_lift_bind_ok.mp hrun
        cases hno
  · apply durable_lift_bind hle.settles
    intro bytes _
    apply durable_lift_bind hle.settles
    intro cert _
    apply durable_lift_bind hle.settles
    exact fun key _ => durable_pure hle.settles _

end Loads

/-! ## The bootstrap of a CA -/

/-- What a bootstrap asks for: random octets and the time, a directory, and a write of the
file. -/
def Bootstraps (key_file : String) : Op → Prop
  | .thread_rng | .fill_bytes _ | .now | .create_dir_all _ => True
  | .write_file path _ => path = key_file
  | _ => False

section Bootstrap

variable {id key_file : String} {d d' : δ} {tr : Trace}

theorem bootstraps_generate (common_name : String) (bits : Nat) :
    Guarantees (fun _ e => Bootstraps key_file e.1)
      (CertificateAuthority.generate_self_signed X id common_name bits) := by
  refine guarantees_request_bind (fun _ => trivial) fun seed => ?_
  refine guarantees_lift_bind fun key _ => guarantees_lift_bind fun subject _ => ?_
  refine (guarantees_request_bind (fun _ => trivial) fun _ => guarantees_pure _).bind
    fun _ _ _ => ?_
  refine guarantees_request_bind (fun _ => trivial) fun now => ?_
  refine guarantees_lift_bind fun _ _ => guarantees_lift_bind fun _ _ => ?_
  exact guarantees_lift_bind fun _ _ => guarantees_lift_bind fun _ _ => guarantees_pure _

theorem bootstraps_write (ca : CertificateAuthority) :
    Guarantees (fun _ e => Bootstraps key_file e.1) (app.write_ca_pem X ca key_file) := by
  refine guarantees_lift_bind fun cert_pem _ => guarantees_lift_bind fun key_pem _ => ?_
  exact guarantees_request_bind (fun _ => rfl) fun _ => guarantees_lift _

theorem bootstraps_bootstrap :
    Guarantees (fun _ e => Bootstraps key_file e.1) (app.bootstrap_ca X id key_file) := by
  refine (bootstraps_generate _ _).bind fun ca _ _ => ?_
  cases path.parent key_file with
  | some parent =>
      refine guarantees_request_bind (fun _ => trivial) fun _ => ?_
      exact (bootstraps_write ca).bind fun _ _ _ => guarantees_pure _
  | none => exact (bootstraps_write ca).bind fun _ _ _ => guarantees_pure _

/-- The disk during a bootstrap: everything is there still, and the key file is where nothing
was. -/
structure Fresh (H : Host κ δ) (key_file : String) (d u : δ) : Prop where
  lasting : Lasting ∅ (H.node d) (H.node u)
  free : ∀ k, H.locate u key_file = some k → H.node d k = none

/-- A new directory does not make a direct path lead to something that was there. -/
theorem Fresh.grown {u u' : δ} (h : Fresh H key_file d u) (hdirect : H.Direct key_file)
    (hgrown : Grown (H.node u) (H.node u')) : Fresh H key_file d u' := by
  refine ⟨h.lasting.trans hgrown.lasting, fun k hk => ?_⟩
  rcases hlocate : H.locate u key_file with _ | k₀
  · -- it led nowhere, so nothing is there, and nothing has gone
    have hnone := hdirect u u' k hgrown hlocate hk
    rcases hnode : H.node d k with _ | n
    · rfl
    · cases (h.lasting.kept k (Set.notMem_empty k) n hnode).symm.trans hnone
  · obtain rfl := Option.some.inj ((H.locate_mono hgrown.extends_to hlocate).symm.trans hk)
    exact h.free k₀ hlocate

/-- A write of the key file is one where nothing was. -/
theorem Fresh.rewritten {u u' : δ} (h : Fresh H key_file d u)
    (hwritten : Rewritten {k | H.locate u key_file = some k} (H.node u) (H.node u')) :
    Fresh H key_file d u' := by
  refine ⟨⟨h.lasting.extends_to.trans hwritten.extends_to, fun k _ n hn => ?_⟩, fun k hk => ?_⟩
  · rcases hwritten k with hsame | ⟨hlocate, _⟩
    · exact hsame.trans (h.lasting.kept k (Set.notMem_empty k) n hn)
    · cases hn.symm.trans (h.free k hlocate)
  · rcases hlocate : H.locate u key_file with _ | k₀
    · -- nothing was written, and it leads nowhere still
      have hback : Extends (H.node u') (H.node u) := by
        intro k
        rcases hwritten k with hsame | ⟨hno, _⟩
        · exact .inl hsame.symm
        · cases hlocate.symm.trans hno
      cases hlocate.symm.trans (H.locate_mono hback hk)
    · obtain rfl := Option.some.inj ((H.locate_mono hwritten.extends_to hlocate).symm.trans hk)
      exact h.free k₀ hlocate

theorem Fresh.step {u u' : δ} {e : Event Op.Res} (hdirect : H.Direct key_file)
    (he : Bootstraps key_file e.1) (h : Fresh H key_file d u) (hstep : H.step u e.1 e.2 u') :
    Fresh H key_file d u' := by
  obtain ⟨o, r⟩ := e
  cases o with
  | thread_rng => rwa [show u' = u from hstep]
  | fill_bytes n => rwa [show u' = u from hstep]
  | now => rwa [show u' = u from hstep]
  | create_dir_all path => exact h.grown hdirect hstep
  | write_file path contents =>
      obtain rfl : path = key_file := he
      exact h.rewritten hstep.1
  | _ => exact False.elim he

/-- **A bootstrap writes where nothing was**, however far it comes. -/
theorem bootstrap_lasting (hdirect : H.Direct key_file) (hmissing : H.find d key_file = none)
    (hbegan : Began (app.bootstrap_ca X id key_file) tr) (hsteps : Steps H.step d tr d') :
    Lasting ∅ (H.node d) (H.node d') := by
  obtain ⟨rest, r, hrun⟩ := hbegan
  have hfresh : Fresh H key_file d d' := by
    refine hsteps.preserves (I := Fresh H key_file d) (fun e he u u' hu hstep => ?_)
      ⟨.refl ∅ _, Host.find_eq_none.mp hmissing⟩
    exact hu.step hdirect (guarantees_each.mp bootstraps_bootstrap _ _ hrun e
      (List.mem_append_left rest he)) hstep
  exact hfresh.lasting

/-- The write at the end of a bootstrap. -/
theorem written_of_bootstrap {ca : CertificateAuthority}
    (h : Returns (app.write_ca_pem X ca key_file >>= fun _ => pure ca) tr (.ok ca))
    (hsteps : Steps H.step d tr d') :
    ∃ cert_pem key_pem, X.certificate_to_pem ca.cert = .ok cert_pem ∧
      X.rsa_private_key_to_pkcs8_pem ca.private_key = .ok key_pem ∧
      H.find d' key_file = some (.file (cert_pem ++ key_pem).as_bytes) := by
  obtain ⟨_, t₁, t₂, rfl, hwrite, hpure⟩ := returns_bind_ok.mp h
  obtain ⟨rfl, _⟩ := returns_pure.mp hpure
  obtain ⟨cert_pem, hcert, h₁⟩ := returns_lift_bind_ok.mp hwrite
  obtain ⟨key_pem, hkey, h₂⟩ := returns_lift_bind_ok.mp h₁
  obtain ⟨written, rfl, hwritten⟩ := returns_request_lift.mp h₂
  obtain ⟨u, hstep, hnil⟩ := steps_cons.mp hsteps
  rw [steps_nil.mp hnil]
  obtain ⟨k, hlocate, hnode⟩ := hstep.2 (map_err_eq_ok.mp hwritten.symm)
  exact ⟨cert_pem, key_pem, map_err_eq_ok.mp hcert, map_err_eq_ok.mp hkey,
    Host.find_eq_some.mpr ⟨k, H.locate_mono hstep.1.extends_to hlocate, hnode⟩⟩

/-- A CA that was bootstrapped is in its file. -/
theorem bootstrap_written {ca : CertificateAuthority}
    (h : Returns (app.bootstrap_ca X id key_file) tr (.ok ca)) (hsteps : Steps H.step d tr d') :
    ca = CertificateAuthority.new id ca.cert ca.private_key ∧ X.RootCertificate ca.cert ∧
      ∃ cert_pem key_pem, X.certificate_to_pem ca.cert = .ok cert_pem ∧
        X.rsa_private_key_to_pkcs8_pem ca.private_key = .ok key_pem ∧
        H.find d' key_file = some (.file (cert_pem ++ key_pem).as_bytes) := by
  have hnew : ca = CertificateAuthority.new id ca.cert ca.private_key := by
    have hid := (app.bootstrap_ca_matches h).1
    obtain ⟨id', cert, signing_key, private_key, rfl⟩ := ca
    rw [← hid]
    rfl
  have hroot : X.RootCertificate ca.cert := by
    obtain ⟨_, _, _, _, _, _, hself⟩ := app.bootstrap_missing none h
    exact CertificateAuthority.root_of_self_signed hself
  refine ⟨hnew, hroot, ?_⟩
  obtain ⟨ca', t₁, t₂, rfl, _, h₁⟩ := returns_bind_ok.mp h
  obtain ⟨u, _, hrest⟩ := steps_append.mp hsteps
  rcases hparent : path.parent key_file with _ | parent
  · rw [hparent] at h₁
    obtain ⟨_, _, _, _, _, hpure⟩ := returns_bind_ok.mp h₁
    obtain rfl := Except.ok.inj (returns_pure.mp hpure).2
    exact written_of_bootstrap h₁ hrest
  · rw [hparent] at h₁
    obtain ⟨created, t₃, rfl, h₂⟩ := returns_request_bind.mp h₁
    obtain ⟨u', _, hrest'⟩ := steps_cons.mp hrest
    obtain ⟨_, _, _, _, _, hpure⟩ := returns_bind_ok.mp h₂
    obtain rfl := Except.ok.inj (returns_pure.mp hpure).2
    exact written_of_bootstrap h₂ hrest'

/-- **The file is loaded, or made and loaded the next time.** -/
theorem lasts_key_file (hle : Kept H X again paths le) (hpath : key_file ∈ paths)
    (password : Option String) :
    Lasts H again paths le (do
      let exists_ : Bool ← request (Op.path_exists key_file)
      if exists_ then do
        let (cert, key) ← keystore.FileKeyStore.load X ⟨key_file, password⟩
        pure (CertificateAuthority.new id cert key)
      else app.bootstrap_ca X id key_file : Async CertificateAuthority) := by
  have hload : Lasts H again paths le (do
      let (cert, key) ← keystore.FileKeyStore.load X ⟨key_file, password⟩
      pure (CertificateAuthority.new id cert key) : Async CertificateAuthority) := by
    apply (lasts_load hle hpath).bind hle.settles
    exact fun pair => durable_pure hle.settles _
  constructor
  · intro d tr d' hbegan hsteps
    rcases began_request_bind hbegan with rfl | ⟨there, rest, rfl, hrest⟩
    · rw [steps_nil.mp hsteps]
      exact hle.refl d
    · obtain ⟨u, ⟨hthere, rfl⟩, hsteps'⟩ := steps_cons.mp hsteps
      cases there with
      | true => exact hload.adds hrest hsteps'
      | false =>
          -- the path led to nothing, so the bootstrap writes over nothing
          have hmissing : H.find u key_file = none := by
            rw [← Option.not_isSome_iff_eq_none, ← hthere]
            exact Bool.false_ne_true
          have hlasting := bootstrap_lasting (hle.direct key_file hpath) hmissing hrest hsteps'
          exact hle.lasting (hlasting.mono (Set.empty_subset _))
  · intro d tr d' ca hrun hsteps
    obtain ⟨there, rest, rfl, hrest⟩ := returns_request_bind.mp hrun
    obtain ⟨u, ⟨hthere, rfl⟩, hsteps'⟩ := steps_cons.mp hsteps
    cases there with
    | true =>
        obtain ⟨tr', hrun', hsettled⟩ := hload.again hrest hsteps'
        refine ⟨⟨Op.path_exists key_file, true⟩ :: tr',
          returns_request_bind.mpr ⟨true, tr', rfl, hrun'⟩, List.forall_mem_cons.mpr ⟨?_, hsettled⟩⟩
        intro hagain
        have hkeeps := hle.keeps hagain (hload.adds hrest.began hsteps')
        exact ⟨rfl, hpath, hkeeps.isSome hpath hthere.symm⟩
    | false =>
        by_cases hagain : again
        swap
        · -- where nothing has to be had again any run will do
          exact ⟨_, hrun, fun e _ hno => absurd hno hagain⟩
        -- the next start finds the file, and in it the CA
        obtain ⟨hnew, hroot, cert_pem, key_pem, hcert, hkey, hfile⟩ := bootstrap_written hrest hsteps'
        have hread := keystore.bundle_read (hle.law hagain) hroot hcert hkey password
        refine ⟨[⟨Op.path_exists key_file, true⟩,
          ⟨Op.read_file key_file, .ok (cert_pem ++ key_pem).as_bytes⟩], ?_, ?_⟩
        · refine returns_request_bind.mpr ⟨true, _, rfl, returns_bind_ok.mpr
            ⟨(ca.cert, ca.private_key),
              [⟨Op.read_file key_file, .ok (cert_pem ++ key_pem).as_bytes⟩],
              [], rfl, ?_, ?_⟩⟩
          · exact keystore.FileKeyStore.load_read.mpr hread.symm
          · exact returns_pure.mpr ⟨rfl, congrArg Except.ok hnew⟩
        · refine List.forall_mem_cons.mpr ⟨fun _ => ⟨rfl, hpath, ?_⟩,
            List.forall_mem_singleton.mpr fun _ => ⟨hpath, _, rfl, hfile⟩⟩
          rw [hfile]
          rfl

end Bootstrap

/-! ## The start -/

section Start

variable (hle : Kept H X again paths le)
include hle

theorem lasts_ca {cfg : CaConfig} (hpath : ∀ key_file, cfg.key_file = some key_file →
      key_file ∈ paths) : Lasts H again paths le (app.load_or_bootstrap_ca X cfg) := by
  apply (lasts_key_password hle cfg).bind hle.settles
  intro password
  apply (lasts_inline_material hle cfg).bind hle.settles
  intro inline
  cases inline with
  | some material =>
      apply durable_lift_bind hle.settles
      intro store _
      apply durable_lift_bind hle.settles
      exact fun pair _ => durable_pure hle.settles _
  | none =>
      refine durable_lift_bind hle.settles fun key_file hfile => ?_
      exact lasts_key_file hle (hpath key_file (ok_or_else_eq_ok.mp hfile)) password

theorem lasts_cas {cfgs : List CaConfig} (hpaths : ∀ cfg ∈ cfgs, ∀ key_file,
      cfg.key_file = some key_file → key_file ∈ paths) (cas : app.Cas) :
    Lasts H again paths le (app.load_cas X cfgs cas) := by
  induction cfgs generalizing cas with
  | nil => exact durable_pure hle.settles _
  | cons cfg cfgs ih =>
      rw [List.forall_mem_cons] at hpaths
      apply (durable_attach (lasts_ca hle hpaths.1)).bind hle.settles
      exact fun ca => ih hpaths.2 _

theorem lasts_intune (intune : Option IntuneConfig) :
    Lasts H again paths le (app.build_intune intune) := by
  cases intune with
  | some cfg =>
      apply (lasts_env_var hle cfg.client_secret_env _).bind hle.settles
      exact fun secret => durable_pure hle.settles _
  | none => exact durable_pure hle.settles _

theorem lasts_validator (profile : ProfileConfig) (intune : Option IntuneClient) :
    Lasts H again paths le (app.build_validator profile intune) := by
  unfold app.build_validator
  cases profile.challenge with
  | Static =>
      apply durable_lift_bind hle.settles
      intro env _
      apply (lasts_env_var hle env _).bind hle.settles
      exact fun secret => durable_pure hle.settles _
  | Intune =>
      apply durable_lift_bind hle.settles
      exact fun client _ => durable_pure hle.settles _
  | None => exact durable_pure hle.settles _

theorem lasts_profiles (intune : Option IntuneClient) (configs : List ProfileConfig)
    (profiles : AList fun _ : String => ProfileRuntime) :
    Lasts H again paths le (app.build_profiles intune configs profiles) := by
  induction configs generalizing profiles with
  | nil => exact durable_pure hle.settles _
  | cons p configs ih =>
      apply (lasts_validator hle p intune).bind hle.settles
      exact fun validator => ih _

theorem lasts_start {settings : Settings} (hpaths : ∀ cfg ∈ settings.ca, ∀ key_file,
      cfg.key_file = some key_file → key_file ∈ paths) :
    Lasts H again paths le (app.build_state X settings) := by
  refine durable_request_bind hle.settles ?_ ?_ fun connected => ?_
  · intro d connected d' hstep
    exact hle.lasting (Rewritten.lasting hstep)
  · intro d connected d' _
    cases connected with
    | ok u => exact .inl fun _ => rfl
    | error e =>
        refine .inr fun tr b hrun => ?_
        obtain ⟨_, hno, _⟩ := returns_lift_bind_ok.mp hrun
        cases hno
  · apply durable_lift_bind hle.settles
    intro _ _
    apply (lasts_cas hle hpaths _).bind hle.settles
    intro cas
    apply (lasts_intune hle _).bind hle.settles
    intro intune
    apply (lasts_profiles hle _ _ _).bind hle.settles
    exact fun profiles => durable_pure hle.settles _

end Start

/-- The key files of the settings. -/
def Settings.key_files (settings : Settings) : Set String :=
  {path | ∃ cfg ∈ settings.ca, cfg.key_file = some path}

variable {settings : Settings}

/-- **A start overwrites nothing**: however far it comes, whatever was at a place of the disk
is there still, and every path that led there does, but for the files of the database. -/
theorem start_keeps (hdirect : ∀ path ∈ settings.key_files, H.Direct path) {tr : Trace} {d d' : δ}
    (hbegan : Began (app.build_state X settings) tr) (hsteps : Steps H.step d tr d') :
    (∀ k ∉ H.database, ∀ n, H.node d k = some n → H.node d' k = some n) ∧
      ∀ path k, H.locate d path = some k → H.locate d' path = some k := by
  -- nothing has to be had again, so no law of the crates is asked for
  have hle : Kept H X False settings.key_files
      fun d d' => Lasting H.database (H.node d) (H.node d') :=
    ⟨fun d => .refl _ _, Lasting.trans, fun h => h, False.elim, hdirect, False.elim⟩
  have hlasting := (lasts_start hle fun cfg hcfg path hpath => ⟨cfg, hcfg, hpath⟩).adds hbegan hsteps
  exact ⟨hlasting.kept, fun path k hk => H.locate_mono hlasting.extends_to hk⟩

/-- What the key files lead to is an order that a start goes up in. -/
theorem kept_key_files (hlaw : X.BundleLaw) (hdirect : ∀ path ∈ settings.key_files, H.Direct path)
    (hapart : ∀ path ∈ settings.key_files, ∀ d k, H.locate d path = some k → k ∉ H.database) :
    Kept H X True settings.key_files (H.Keeps settings.key_files) where
  refl := fun _ _ _ _ h => h
  trans := fun h h' path hpath n hn => h' path hpath n (h path hpath n hn)
  lasting := Host.keeps_of_lasting hapart
  keeps := fun _ _ _ h => h
  direct := hdirect
  law := fun _ => hlaw

/-- After a start that succeeded the next one can, without a write. -/
theorem start_again (hlaw : X.BundleLaw) (hdirect : ∀ path ∈ settings.key_files, H.Direct path)
    (hapart : ∀ path ∈ settings.key_files, ∀ d k, H.locate d path = some k → k ∉ H.database)
    {state : AppState} {tr : Trace} {d d' : δ}
    (hrun : Returns (app.build_state X settings) tr (.ok state)) (hsteps : Steps H.step d tr d') :
    ∃ tr', Returns (app.build_state X settings) tr' (.ok state) ∧ Steps H.step d' tr' d' := by
  obtain ⟨tr', hrun', hstays⟩ := (lasts_start (kept_key_files hlaw hdirect hapart)
    fun cfg hcfg path hpath => ⟨cfg, hcfg, hpath⟩).again hrun hsteps
  exact ⟨tr', hrun', Host.steps_of_settled fun e he => hstays e he trivial⟩

/-- **A restart changes nothing.** Of any starts of one configuration, of which some may fail
or be cut off, while the variables and what the key files lead to stay as they are in between,
those that succeed come up with the same CAs, validators and profiles: a CA that was generated
is the one that is loaded from then on. -/
theorem restarts_agree (hlaw : X.BundleLaw) (hdirect : ∀ path ∈ settings.key_files, H.Direct path)
    (hapart : ∀ path ∈ settings.key_files, ∀ d k, H.locate d path = some k → k ∉ H.database)
    {d d' : δ} {states : List AppState}
    (h : History H.step (H.Keeps settings.key_files) (app.build_state X settings) d states d') :
    ∀ state ∈ states, ∀ state' ∈ states, state = state' := by
  have hle := kept_key_files hlaw hdirect hapart
  have hsingle : Single fun (d : δ) e => True → H.Settled settings.key_files d e :=
    fun d o r r' hr hr' => H.settled_single _ d o r r' (hr trivial) (hr' trivial)
  exact (lasts_start hle fun cfg hcfg path hpath => ⟨cfg, hcfg, hpath⟩).history hle.settles
    hsingle h

end Lasts

/-! ## On the reference crates -/

namespace Reference

theorem pem_block (label : String) (der : Bytes) : keystore.PemBlock label der (pem label der) := by
  refine ⟨[base64.encode der], ?_, ?_⟩
  · rw [String.join_cons, String.join_nil, String.append_empty]
  · simp only [pem, unlines, keystore.block_lines, List.cons_append, List.nil_append, List.map_cons,
      List.map_nil, String.join_cons, String.join_nil, String.append_empty]
    apply String.toList_inj.mp
    simp only [String.toList_append, List.append_assoc]
    rfl

theorem bundle_law : startup_crates.BundleLaw where
  certificate := by
    intro c text _ h
    rw [← Except.ok.inj h]
    exact ⟨Codec.enc c, Codec.decode_enc c, pem_block _ _⟩
  key := by
    intro k text h
    rw [← Except.ok.inj h]
    exact ⟨Codec.enc k, Codec.decode_enc k, pem_block _ _⟩

end Reference

/-! ## A tree of directories -/

namespace Tree

/-- A file or a directory can be made here. -/
def Free (t : Tree) (k : List String) : Prop :=
  t.node k.tail = some .directory ∧ Plain (t.node k)

instance (t : Tree) (k : List String) : Decidable (t.Free k) :=
  inferInstanceAs (Decidable (_ ∧ _))

/-- What is at a place once this is made at `k`. -/
def update (t : Tree) (k : List String) (n : Node) (k' : List String) : Option Node :=
  if k' = k then some n else t.node k'

theorem not_directory_of_free {t : Tree} {k : List String} (h : t.Free k) :
    t.node k ≠ some .directory := by
  intro hno
  have hplain := h.2
  rw [hno] at hplain
  exact hplain

theorem update_root {t : Tree} {k : List String} (h : t.Free k) (n : Node) :
    t.update k n [] = some .directory := by
  rw [update, if_neg, t.root]
  rintro rfl
  exact not_directory_of_free h t.root

theorem update_parent {t : Tree} {k : List String} (h : t.Free k) (n : Node) (name : String)
    (dir : List String) (hsome : t.update k n (name :: dir) ≠ none) :
    t.update k n dir = some .directory := by
  have hdir : t.node dir = some .directory := by
    by_cases hk : name :: dir = k
    · have hparent := h.1
      rwa [← hk] at hparent
    · rw [update, if_neg hk] at hsome
      exact t.parent name dir hsome
  rw [update, if_neg, hdir]
  rintro rfl
  exact not_directory_of_free h hdir

/-- Make this at the place, where it can be made. -/
def put (t : Tree) (k : List String) (n : Node) : Tree :=
  if h : t.Free k then ⟨t.update k n, update_root h n, update_parent h n⟩ else t

/-- `create_dir_all`: make what is missing on the way. -/
def make_dirs : List String → List String → Tree → Tree
  | _, [], t => t
  | k, name :: names, t =>
      make_dirs (enter k name) names
        (if t.node (enter k name) = none then t.put (enter k name) .directory else t)

theorem node_put {t : Tree} {k : List String} (h : t.Free k) (n : Node) (k' : List String) :
    (t.put k n).node k' = if k' = k then some n else t.node k' := by
  rw [put, dif_pos h]
  rfl

theorem put_of_not_free {t : Tree} {k : List String} (h : ¬ t.Free k) (n : Node) :
    t.put k n = t := dif_neg h

theorem grown_make_dirs (k ns : List String) (t : Tree) :
    Grown t.node (make_dirs k ns t).node := by
  induction ns generalizing k t with
  | nil => exact fun _ => .inl rfl
  | cons name ns ih =>
      refine Grown.trans (fun k' => ?_) (ih _ _)
      by_cases hnone : t.node (enter k name) = none
      swap
      · exact .inl (by rw [if_neg hnone])
      rw [if_pos hnone]
      by_cases hfree : t.Free (enter k name)
      swap
      · exact .inl (by rw [put_of_not_free hfree])
      rw [node_put hfree]
      by_cases hk : k' = enter k name
      · exact .inr ⟨by rw [hk, hnone], if_pos hk⟩
      · exact .inl (if_neg hk)

end Tree

namespace Device

/-- The CA in a file. -/
def file_config (key_file : String) : CaConfig where
  id := "root"
  key_file := some key_file
  cert_pem := none
  cert_pem_env := none
  key_pem := none
  key_pem_env := none
  key_password_env := none

def file_settings (key_file : String) : Settings :=
  app.with_profiles (file_config key_file) [profile_config .Static]

/-- A disk with the file of another CA on it, and no other directory than the root. -/
def disk : Tree := Tree.put ⟨fun k => if k = [] then some .directory else none, rfl, by simp⟩
  ["ca.pem"] (.file [0x2d])

/-- The host of the device, with an SQLite file for a database. -/
abbrev host : Host (List String) Tree := Tree.host (fun _ => some "s3cret") {["blapki.db"]}

/-- The host where writes succeed. -/
def react (t : Tree) : (o : Op) → o.Res × Tree
  | .db _ => (.error "no database", t)
  | .validate _ _ | .on_issued _ _ _ | .on_failure _ _ _ => (.ok (), t)
  | .fill_bytes n => ((serve now Db.empty (.fill_bytes n)).1, t)
  | .thread_rng => (0, t)
  | .now => (now, t)
  | .env_var _ => (some "s3cret", t)
  | .connect _ => (.ok (), t.put ["blapki.db"] (.file []))
  | .create_dir_all path => (.ok (), Tree.make_dirs [] (Tree.names path) t)
  | .path_exists path => ((host.find t path).isSome, t)
  | .read_file path =>
      match host.find t path with
      | some (.file contents) => (.ok contents, t)
      | _ => (.error "not a file", t)
  | .write_file path contents =>
      match t.locate path with
      | some k => if t.Free k then (.ok (), t.put k (.file contents)) else (.error "not a file", t)
      | none => (.error "no such directory", t)

theorem rewritten_put (t : Tree) {k : List String} {K : Set (List String)} (hk : k ∈ K)
    (contents : Bytes) : Rewritten K t.node (t.put k (.file contents)).node := by
  intro k'
  by_cases hfree : t.Free k
  swap
  · exact .inl (by rw [Tree.put_of_not_free hfree])
  rw [Tree.node_put hfree]
  by_cases hk' : k' = k
  · rw [hk', if_pos rfl]
    exact .inr ⟨hk, hfree.2, trivial⟩
  · exact .inl (if_neg hk')

theorem step_react (t : Tree) (o : Op) : host.step t o (react t o).1 (react t o).2 := by
  cases o with
  | env_var name => exact ⟨rfl, rfl⟩
  | connect url => exact rewritten_put t (Set.mem_singleton ["blapki.db"]) []
  | path_exists path => exact ⟨rfl, rfl⟩
  | create_dir_all path => exact Tree.grown_make_dirs _ _ t
  | read_file path =>
      rcases hnode : host.find t path with _ | contents | _ | _
      all_goals simp [Host.step, react, hnode]
  | write_file path contents =>
      rcases hlocate : t.locate path with _ | k
      · rw [react, hlocate]
        exact ⟨fun _ => .inl rfl, fun hno => by cases hno⟩
      · by_cases hfree : t.Free k
        · rw [react, hlocate]
          simp only [if_pos hfree]
          refine ⟨rewritten_put t hlocate contents, fun _ => ⟨k, hlocate, ?_⟩⟩
          exact (Tree.node_put hfree _ k).trans (if_pos rfl)
        · rw [react, hlocate]
          simp only [if_neg hfree]
          exact ⟨fun _ => .inl rfl, fun hno => by cases hno⟩
  | _ => exact rfl

/-- A start on this disk, with the disk that it leaves. -/
theorem start_on_disk (key_file : String)
    (hok : ((app.build_state Reference.startup_crates (file_settings key_file)).run.eval react
      disk).2.1.toBool = true) :
    ∃ tr state, Returns (app.build_state Reference.startup_crates (file_settings key_file)) tr
        (.ok state) ∧
      Steps host.step disk tr ((app.build_state Reference.startup_crates
        (file_settings key_file)).run.eval react disk).2.2 := by
  obtain ⟨state, hstate⟩ := exists_ok_of_toBool hok
  have hrun := run_eval react
    (app.build_state Reference.startup_crates (file_settings key_file)).run disk
  rw [hstate] at hrun
  exact ⟨_, state, hrun, steps_eval step_react _ disk⟩

/-- The key file of the device is direct. -/
theorem direct_key_file : ∀ path ∈ (file_settings "pki/ca.pem").key_files, host.Direct path := by
  rintro path ⟨cfg, hcfg, hpath⟩
  obtain rfl := List.mem_singleton.mp hcfg
  obtain rfl := Option.some.inj hpath
  exact Tree.direct_of_names (by decide)

theorem key_file_apart : ∀ path ∈ (file_settings "pki/ca.pem").key_files, ∀ d k,
    host.locate d path = some k → k ∉ host.database := by
  rintro path ⟨cfg, hcfg, hpath⟩ d k hk rfl
  obtain rfl := List.mem_singleton.mp hcfg
  obtain rfl := Option.some.inj hpath
  have hdown := Tree.walk_down (by decide) hk
  exact absurd hdown (by decide)

/-- The first start. -/
theorem first_start : ∃ tr state d,
    Returns (app.build_state Reference.startup_crates (file_settings "pki/ca.pem")) tr (.ok state) ∧
      Steps host.step disk tr d := by
  obtain ⟨tr, state, hrun, hsteps⟩ := start_on_disk "pki/ca.pem" (by decide +kernel)
  exact ⟨tr, state, _, hrun, hsteps⟩

end Device

/-- The file of the other CA is as it was. -/
theorem device_start_keeps : ∃ (state : AppState) (tr : Trace) (d : Tree),
    Returns (app.build_state Reference.startup_crates (Device.file_settings "pki/ca.pem")) tr
        (.ok state) ∧
      d.node ["ca.pem"] = some (.file [0x2d]) := by
  obtain ⟨tr, state, d, hrun, hsteps⟩ := Device.first_start
  have hkept := (start_keeps Device.direct_key_file hrun.began hsteps).1
  have hapart : ["ca.pem"] ∉ Device.host.database := fun hno =>
    absurd (Set.mem_singleton_iff.mp hno) (by decide)
  exact ⟨state, tr, d, hrun, hkept _ hapart _ (by decide)⟩

/-- **A path through a directory that is missing overwrites.** With `..` after it, it leads
nowhere before the directory is created, and to the file of the other CA then. -/
theorem device_dotdot_overwrites : ∃ (state : AppState) (tr : Trace) (d : Tree),
    Returns (app.build_state Reference.startup_crates (Device.file_settings "pki/../ca.pem")) tr
        (.ok state) ∧
      Steps Device.host.step Device.disk tr d ∧
      Device.disk.node ["ca.pem"] = some (.file [0x2d]) ∧
      d.node ["ca.pem"] ≠ some (.file [0x2d]) := by
  obtain ⟨tr, state, hrun, hsteps⟩ :=
    Device.start_on_disk "pki/../ca.pem" (by decide +kernel)
  exact ⟨state, tr, _, hrun, hsteps, by decide, by decide +kernel⟩

/-- The server of the device is started twice, and comes up as it was. -/
theorem device_restarts_agree : ∃ (first second : AppState) (d : Tree),
    History Device.host.step (Device.host.Keeps (Device.file_settings "pki/ca.pem").key_files)
      (app.build_state Reference.startup_crates (Device.file_settings "pki/ca.pem")) Device.disk
      [first, second] d ∧ first = second := by
  obtain ⟨tr, state, d, hrun, hsteps⟩ := Device.first_start
  obtain ⟨tr', hrun', hsteps'⟩ := start_again Reference.bundle_law Device.direct_key_file
    Device.key_file_apart hrun hsteps
  have hhistory : History Device.host.step
      (Device.host.Keeps (Device.file_settings "pki/ca.pem").key_files)
      (app.build_state Reference.startup_crates (Device.file_settings "pki/ca.pem")) Device.disk
      [state, state] d := .succeeded hrun hsteps (.succeeded hrun' hsteps' (.nil d))
  refine ⟨state, state, d, hhistory, ?_⟩
  exact restarts_agree Reference.bundle_law Device.direct_key_file Device.key_file_apart hhistory
    state List.mem_cons_self state (List.mem_cons_of_mem _ List.mem_cons_self)

end Blapki
