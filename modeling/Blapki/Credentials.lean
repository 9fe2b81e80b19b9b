/-
Where the credentials of the Intune client go (`intune/mod.rs`).

Any number of calls share the two caches of the client and read and write them in any
order. What a call sends is one of three things: the secret to the identity provider, a
token to Graph, a token to the endpoint that Graph named. `Sound` is what a call guarantees
of its own events, up to what it found in a cache. `Provenance` is what the caches hold,
whoever wrote to them. Together they say of every request that is handed to the HTTP client
how its credential was come by and who named its receiver (`credentials_confined`). The client
follows redirects by itself, to hosts that its answers name; what it sends there is not said
here.
-/
import Blapki.Intune

set_option autoImplicit false

namespace Blapki

open Effect

namespace intune

/-! ## Where a value comes from -/

/-- The identity provider was asked for a token for this scope, with the secret, and
answered with this one. -/
def Issued (client : IntuneClient) (scope : String) (tr : ClientTrace) (value : String) : Prop :=
  ∃ resp token, resp.status.is_success = true ∧ token.access_token = value ∧
    [of_token ⟨.send (token_url client) (token_form client scope), .ok resp⟩,
      of_token ⟨.json resp, .ok token⟩] <:+: tr

/-- The token was issued, or is a cached one. -/
def Obtained (client : IntuneClient) (scope : String) (tr : ClientTrace) (value : String) : Prop :=
  Issued client scope tr value ∨
    ∃ cached, of_token ⟨.read_token scope, some cached⟩ ∈ tr ∧ cached.value = value

/-- Graph was asked for its endpoints and named this one, but for slashes at its end. -/
def Discovered (tr : ClientTrace) (uri : String) : Prop :=
  ∃ req resp parsed found, req.url = endpoints_url ∧ resp.status.is_success = true ∧
    parsed.validation_uri = some found ∧ uri = trim_end_slashes found ∧
    [⟨.get req, .ok resp⟩, ⟨.endpoints resp, .ok parsed⟩] <:+: tr

/-- The endpoint was named by Graph, or is the cached one. -/
def Located (tr : ClientTrace) (uri : String) : Prop :=
  Discovered tr uri ∨ ⟨.read_uri, some uri⟩ ∈ tr

section Mono

variable {client : IntuneClient} {scope value uri : String} {t t' : ClientTrace}

theorem Issued.mono (h : Issued client scope t value) (ht : t <:+: t') :
    Issued client scope t' value := by
  obtain ⟨resp, token, hstatus, hvalue, hinfix⟩ := h
  exact ⟨resp, token, hstatus, hvalue, hinfix.trans ht⟩

theorem Obtained.mono (h : Obtained client scope t value) (ht : t <:+: t') :
    Obtained client scope t' value := by
  rcases h with hissued | ⟨cached, hmem, hvalue⟩
  · exact .inl (hissued.mono ht)
  · exact .inr ⟨cached, ht.subset hmem, hvalue⟩

theorem Discovered.mono (h : Discovered t uri) (ht : t <:+: t') : Discovered t' uri := by
  obtain ⟨req, resp, parsed, found, hurl, hstatus, hfound, huri, hinfix⟩ := h
  exact ⟨req, resp, parsed, found, hurl, hstatus, hfound, huri, hinfix.trans ht⟩

theorem Located.mono (h : Located t uri) (ht : t <:+: t') : Located t' uri := by
  rcases h with hfound | hmem
  · exact .inl (hfound.mono ht)
  · exact .inr (ht.subset hmem)

end Mono

/-! ## What a call guarantees -/

/-- The calls of the validator. -/
inductive Asked where
  | validate (input : ValidationInput)
  | on_issued (input : ValidationInput) (info : IssuedInfo)
  | on_failure (input : ValidationInput) (message : String)
deriving DecidableEq

def Asked.run (client : IntuneClient) : Asked → Call Unit
  | .validate input => IntuneValidator.validate client input
  | .on_issued input info => IntuneValidator.on_issued client input info
  | .on_failure input message => IntuneValidator.on_failure client input message

/-- The path a call posts to, below the endpoint. -/
def Asked.path : Asked → String
  | .validate _ => VALIDATE_PATH
  | .on_issued _ _ => SUCCESS_PATH
  | .on_failure _ _ => FAILURE_PATH

def Asked.body : Asked → Json
  | .validate input => validate_body input.transaction_id input.csr_der
  | .on_issued input info => success_body input.transaction_id input.csr_der info
  | .on_failure input message =>
      failure_body input.transaction_id input.csr_der 1234 message

/-- What is sent and what is stored comes from what the call saw before. -/
def Sound (client : IntuneClient) (asked : Asked) (past : ClientTrace) : ClientEvent → Prop
  | ⟨.token (.send url form), _⟩ => url = token_url client ∧
      ∃ scope ∈ [graph_scope, intune_scope client], form = token_form client scope
  | ⟨.token (.insert_token scope cached), _⟩ => Issued client scope past cached.value
  | ⟨.get req, _⟩ => req.url = endpoints_url ∧ Obtained client graph_scope past req.bearer
  | ⟨.write_uri uri, _⟩ => Discovered past uri
  | ⟨.post req body, _⟩ => Obtained client (intune_scope client) past req.bearer ∧
      (∃ uri, Located past uri ∧ req.url = s!"{uri}/{asked.path}") ∧ body = asked.body
  | _ => True

/-- What is sound in the light of a call is sound in the light of more. -/
theorem Sound.mono {client : IntuneClient} {asked : Asked} {past past' : ClientTrace}
    {e : ClientEvent} (h : Sound client asked past e) (hpast : past <:+: past') :
    Sound client asked past' e := by
  obtain ⟨o, r⟩ := e
  rcases o with o | _ | uri | req | _ | ⟨req, body⟩ | _ | _
  · cases o with
    | send url form => exact h
    | insert_token scope cached => exact Issued.mono h hpast
    | _ => trivial
  · trivial
  · exact Discovered.mono h hpast
  · exact ⟨h.1, h.2.mono hpast⟩
  · trivial
  · obtain ⟨hbearer, ⟨uri, huri, hurl⟩, hbody⟩ := h
    exact ⟨hbearer.mono hpast, ⟨uri, huri.mono hpast, hurl⟩, hbody⟩
  · trivial
  · trivial

/-- What one event of a look for a token says, after what the look has seen before. -/
def TokenSound (client : IntuneClient) (scope : String) (past : TokenTrace) :
    Event TokenOp.Res → Prop
  | ⟨.send url form, _⟩ => url = token_url client ∧ form = token_form client scope
  | ⟨.insert_token scope' cached, _⟩ => Issued client scope' (past.map of_token) cached.value
  | _ => True

section Token

variable {client : IntuneClient} {scope : String} {asked : Asked}

/-- A token that was answered is one that was issued. -/
theorem issued_of_answer {pre post : TokenTrace} {resp : Response} {token : TokenResponse}
    (hstatus : resp.status.is_success = true) :
    Issued client scope ((pre ++ ⟨.send (token_url client) (token_form client scope), .ok resp⟩ ::
      ⟨.json resp, .ok token⟩ :: post).map of_token) token.access_token := by
  refine ⟨resp, token, hstatus, rfl, pre.map of_token, post.map of_token, ?_⟩
  simp only [List.map_append, List.map_cons, List.append_assoc, List.cons_append, List.nil_append]

theorem upstream_eq_ok {α : Type} {x : Except String α} {what : String} {a : α} :
    upstream x what = .ok a ↔ x = .ok a := by
  cases x <;> simp [upstream]

theorem sound_fetch_token (pre : TokenTrace) :
    Guarantees (fun past => TokenSound client scope (pre ++ past)) (fetch_token client scope) := by
  unfold fetch_token
  refine guarantees_request_bind (fun sent => ⟨rfl, rfl⟩) fun sent => ?_
  refine guarantees_lift_bind fun resp hresp => ?_
  rw [upstream_eq_ok.mp hresp]
  by_cases hstatus : resp.status.is_success = true
  · rw [hstatus, if_neg (by decide)]
    refine guarantees_request_bind (fun body => trivial) fun body => ?_
    refine guarantees_lift_bind fun token htoken => ?_
    rw [upstream_eq_ok.mp htoken]
    refine guarantees_request_bind (fun now => trivial) fun now => ?_
    refine guarantees_lift_bind fun expires_at _ => ?_
    exact guarantees_request_bind (fun _ => issued_of_answer hstatus) fun _ => guarantees_pure _
  · rw [Bool.eq_false_iff.mpr hstatus, if_pos (by decide)]
    exact guarantees_request_bind (fun text => trivial) fun text => guarantees_throw _

theorem sound_token : Guarantees (TokenSound client scope) (intune.token client scope) := by
  unfold intune.token
  refine guarantees_request_bind (fun cached => trivial) fun cached => ?_
  rcases cached with _ | cached
  · exact sound_fetch_token [_]
  · refine guarantees_request_bind (fun now => trivial) fun now => ?_
    by_cases hfresh : now.nanos < cached.expires_at.nanos
    · rw [if_pos hfresh]
      exact guarantees_pure _
    · rw [if_neg hfresh]
      exact sound_fetch_token [_, _]

/-- A fetch ends with the token that was issued. -/
theorem fetch_token_issued {tr : TokenTrace} {value : String}
    (h : Returns (fetch_token client scope) tr (.ok value)) :
    Issued client scope (tr.map of_token) value := by
  unfold fetch_token at h
  obtain ⟨sent, t₁, rfl, h₁⟩ := returns_request_bind.mp h
  obtain ⟨resp, hresp, h₂⟩ := returns_lift_bind_ok.mp h₁
  rw [upstream_eq_ok.mp hresp]
  by_cases hstatus : resp.status.is_success = true
  · rw [hstatus, if_neg (by decide)] at h₂
    obtain ⟨body, t₂, rfl, h₃⟩ := returns_request_bind.mp h₂
    obtain ⟨token, htoken, h₄⟩ := returns_lift_bind_ok.mp h₃
    obtain ⟨now, t₃, rfl, h₅⟩ := returns_request_bind.mp h₄
    obtain ⟨expires_at, _, h₆⟩ := returns_lift_bind_ok.mp h₅
    obtain ⟨_, t₄, rfl, h₇⟩ := returns_request_bind.mp h₆
    obtain ⟨rfl, hvalue⟩ := returns_pure.mp h₇
    rw [upstream_eq_ok.mp htoken, Except.ok.inj hvalue]
    exact @issued_of_answer client scope [] _ resp token hstatus
  · rw [Bool.eq_false_iff.mpr hstatus, if_pos (by decide)] at h₂
    obtain ⟨text, t₂, _, h₃⟩ := returns_request_bind.mp h₂
    obtain ⟨_, hno⟩ := returns_throw.mp h₃
    cases hno

/-- A call gets a token for its scope. -/
theorem token_obtained {tr : TokenTrace} {value : String}
    (h : Returns (intune.token client scope) tr (.ok value)) :
    Obtained client scope (tr.map of_token) value := by
  unfold intune.token at h
  obtain ⟨cached, t₁, rfl, h₁⟩ := returns_request_bind.mp h
  rcases cached with _ | cached
  · exact .inl ((fetch_token_issued h₁).mono (List.suffix_cons _ _).isInfix)
  · obtain ⟨now, t₂, rfl, h₂⟩ := returns_request_bind.mp h₁
    by_cases hfresh : now.nanos < cached.expires_at.nanos
    · rw [if_pos hfresh] at h₂
      obtain ⟨rfl, hvalue⟩ := returns_pure.mp h₂
      exact .inr ⟨cached, List.mem_cons_self, (Except.ok.inj hvalue).symm⟩
    · rw [if_neg hfresh] at h₂
      exact .inl ((fetch_token_issued h₂).mono
        ((List.suffix_cons _ _).trans (List.suffix_cons _ _)).isInfix)

/-- A token is part of a call. -/
theorem bearer_obtained {tr : ClientTrace} {value : String}
    (h : Returns (bearer client scope) tr (.ok value)) : Obtained client scope tr value := by
  obtain ⟨evs, rfl, hrun⟩ := returns_embed.mp h
  exact token_obtained hrun

theorem sound_bearer (hscope : scope ∈ [graph_scope, intune_scope client]) (pre : ClientTrace) :
    Guarantees (fun past => Sound client asked (pre ++ past)) (bearer client scope) := by
  refine sound_token.embed fun past e h => ?_
  obtain ⟨o, r⟩ := e
  cases o with
  | send url form => exact ⟨h.1, scope, hscope, h.2⟩
  | insert_token scope' cached => exact Issued.mono h (List.suffix_append pre _).isInfix
  | _ => trivial

end Token

section Calls

variable {client : IntuneClient} {asked : Asked}

/-- What discovery finds is what Graph named. -/
theorem discovered_of_answer {pre post : ClientTrace} {req : Authorized} {resp : Response}
    {parsed : EndpointsResponse} {found : String} (hurl : req.url = endpoints_url)
    (hstatus : resp.status.is_success = true) (hfound : parsed.validation_uri = some found) :
    Discovered (pre ++ ⟨.get req, .ok resp⟩ :: ⟨.endpoints resp, .ok parsed⟩ :: post)
      (trim_end_slashes found) := by
  refine ⟨req, resp, parsed, found, hurl, hstatus, hfound, rfl, pre, post, ?_⟩
  simp only [List.append_assoc, List.cons_append, List.nil_append]

theorem sound_discover (pre : ClientTrace) (transaction_id : String) :
    Guarantees (fun past => Sound client asked (pre ++ past)) (discover client transaction_id) := by
  unfold discover
  refine (sound_bearer List.mem_cons_self pre).bind fun token t₁ htoken => ?_
  have hobtained : ∀ past, Obtained client graph_scope (pre ++ (t₁ ++ past)) token := fun past =>
    (bearer_obtained htoken).mono (List.infix_append pre t₁ past |>.trans
      (by rw [List.append_assoc]))
  refine guarantees_request_bind (fun sent => ⟨rfl, ?_⟩) fun sent => ?_
  · exact hobtained []
  refine guarantees_lift_bind fun resp hresp => ?_
  rw [upstream_eq_ok.mp hresp]
  by_cases hstatus : resp.status.is_success = true
  · rw [hstatus, if_neg (by decide)]
    refine guarantees_request_bind (fun body => trivial) fun body => ?_
    refine guarantees_lift_bind fun parsed hparsed => ?_
    rw [upstream_eq_ok.mp hparsed]
    cases hfound : parsed.validation_uri with
    | none => exact guarantees_throw _
    | some found =>
        refine guarantees_request_bind (fun _ => ?_) fun _ => guarantees_pure _
        rw [← List.append_assoc]
        exact discovered_of_answer rfl hstatus hfound
  · rw [Bool.eq_false_iff.mpr hstatus, if_pos (by decide)]
    exact guarantees_throw _

/-- The endpoint a call goes on with was located. -/
theorem validation_endpoint_located {transaction_id : String} {tr : ClientTrace} {uri : String}
    (h : Returns (validation_endpoint client transaction_id) tr (.ok uri)) : Located tr uri := by
  unfold validation_endpoint at h
  obtain ⟨cached, t₁, rfl, h₁⟩ := returns_request_bind.mp h
  rcases cached with _ | cached
  · unfold discover at h₁
    obtain ⟨token, t₂, t₃, rfl, _, h₂⟩ := returns_bind_ok.mp h₁
    obtain ⟨sent, t₄, rfl, h₃⟩ := returns_request_bind.mp h₂
    obtain ⟨resp, hresp, h₄⟩ := returns_lift_bind_ok.mp h₃
    rw [upstream_eq_ok.mp hresp]
    by_cases hstatus : resp.status.is_success = true
    · rw [hstatus, if_neg (by decide)] at h₄
      obtain ⟨body, t₅, rfl, h₅⟩ := returns_request_bind.mp h₄
      obtain ⟨parsed, hparsed, h₆⟩ := returns_lift_bind_ok.mp h₅
      rw [upstream_eq_ok.mp hparsed]
      cases hfound : parsed.validation_uri with
      | none =>
          rw [hfound] at h₆
          cases (returns_throw.mp h₆).2
      | some found =>
          rw [hfound] at h₆
          obtain ⟨_, t₆, rfl, h₇⟩ := returns_request_bind.mp h₆
          obtain ⟨_, huri⟩ := returns_pure.mp h₇
          rw [Except.ok.inj huri]
          exact .inl (@discovered_of_answer (_ :: t₂) _ _ resp parsed found rfl hstatus hfound)
    · rw [Bool.eq_false_iff.mpr hstatus, if_pos (by decide)] at h₄
      cases (returns_throw.mp h₄).2
  · obtain ⟨rfl, huri⟩ := returns_pure.mp h₁
    rw [Except.ok.inj huri]
    exact .inr List.mem_cons_self

theorem sound_validation_endpoint (transaction_id : String) :
    Guarantees (Sound client asked) (validation_endpoint client transaction_id) := by
  unfold validation_endpoint
  refine guarantees_request_bind (fun cached => trivial) fun cached => ?_
  rcases cached with _ | cached
  · exact sound_discover [_] transaction_id
  · exact guarantees_pure _

/-- A POST goes to the endpoint that was located, with a token for Intune. -/
theorem sound_post_intune {α : Type} {read : Response → Call (Except String α)}
    {pre : ClientTrace} {uri transaction_id : String}
    (hread : ∀ (before : ClientTrace → ClientTrace) resp,
      Guarantees (fun past => Sound client asked (before past)) (read resp))
    (huri : Located pre uri) :
    Guarantees (fun past => Sound client asked (pre ++ past))
      (post_intune client read s!"{uri}/{asked.path}" transaction_id asked.body) := by
  unfold post_intune
  refine (sound_bearer (List.mem_cons_of_mem _ List.mem_cons_self) pre).bind
    fun token t₁ htoken => ?_
  have hobtained : Obtained client (intune_scope client) (pre ++ (t₁ ++ [])) token :=
    (bearer_obtained htoken).mono (by
      rw [List.append_nil]
      exact (List.suffix_append pre t₁).isInfix)
  refine guarantees_request_bind (fun sent => ⟨hobtained, ⟨uri, ?_, rfl⟩, rfl⟩) fun sent => ?_
  · exact huri.mono (List.prefix_append pre _).isInfix
  refine guarantees_lift_bind fun resp _ => ?_
  by_cases hstatus : resp.status.is_success = true
  · rw [hstatus, if_neg (by decide)]
    exact Guarantees.bind (hread _ resp) fun answer t₂ _ => guarantees_lift _
  · rw [Bool.eq_false_iff.mpr hstatus, if_pos (by decide)]
    exact guarantees_throw _

/-- **Every call is sound.** -/
theorem sound_run (asked : Asked) : Guarantees (Sound client asked) (asked.run client) := by
  have hvalue : ∀ asked (before : ClientTrace → ClientTrace) resp,
      Guarantees (fun past => Sound client asked (before past)) (read_value resp) :=
    fun asked before resp => guarantees_request fun _ => trivial
  have hread : ∀ asked (before : ClientTrace → ClientTrace) resp,
      Guarantees (fun past => Sound client asked (before past)) (read_validate_response resp) :=
    fun asked before resp => guarantees_request fun _ => trivial
  cases asked with
  | validate input =>
      refine (sound_validation_endpoint _).bind fun uri t₁ huri => ?_
      refine Guarantees.bind ?_ fun resp t₂ _ => guarantees_lift _
      exact @sound_post_intune client (.validate input) _ _ _ uri _ (hread _)
        (validation_endpoint_located huri)
  | on_issued input info =>
      refine (sound_validation_endpoint _).bind fun uri t₁ huri => ?_
      refine Guarantees.bind ?_ fun resp t₂ _ => guarantees_pure _
      exact @sound_post_intune client (.on_issued input info) _ _ _ uri _ (hvalue _)
        (validation_endpoint_located huri)
  | on_failure input message =>
      refine (sound_validation_endpoint _).bind fun uri t₁ huri => ?_
      refine Guarantees.bind ?_ fun resp t₂ _ => guarantees_pure _
      exact @sound_post_intune client (.on_failure input message) _ _ _ uri _ (hvalue _)
        (validation_endpoint_located huri)

end Calls

/-! ## The caches -/

/-- The two caches, with the clock. -/
structure Caches where
  tokens : World
  validation_uri : Option String

/-- The caches as `IntuneClient::new` makes them. -/
def Caches.new (clock : Instant) : Caches := ⟨World.new clock, none⟩

/-- What is sent may be answered in any way; the caches are read as they are, and nobody
but the calls writes to them. -/
def Caches.step (s : Caches) : (o : ClientOp) → o.Res → Caches → Prop
  | .token o, r, s' => s.tokens.step o r s'.tokens ∧ s'.validation_uri = s.validation_uri
  | .read_uri, r, s' => r = s.validation_uri ∧ s' = s
  | .write_uri uri, _, s' => s' = { s with validation_uri := some uri }
  | .get _, _, s' => s' = s
  | .endpoints _, _, s' => s' = s
  | .post _ _, _, s' => s' = s
  | .validate_response _, _, s' => s' = s
  | .value _, _, s' => s' = s

/-- A look for a token, or a fetch, leaves the endpoint alone. -/
theorem steps_of_token {t t' : World} {tr : TokenTrace} (h : Steps World.step t tr t')
    (uri : Option String) : Steps Caches.step ⟨t, uri⟩ (tr.map of_token) ⟨t', uri⟩ := by
  induction h with
  | nil => exact .nil _
  | cons hstep _ ih => exact steps_cons.mpr ⟨⟨_, uri⟩, ⟨hstep, rfl⟩, ih⟩

section Provenance

variable {ι : Type} [DecidableEq ι] {client : IntuneClient} {w : List (ι × ClientEvent)}
  {s s' : Caches}

/-- Some call was issued the token. -/
def IssuedTo (client : IntuneClient) (w : List (ι × ClientEvent)) (scope value : String) : Prop :=
  ∃ i, Issued client scope (events_of i w) value

/-- Some call was told the endpoint by Graph. -/
def NamedTo (w : List (ι × ClientEvent)) (uri : String) : Prop :=
  ∃ i, Discovered (events_of i w) uri

theorem IssuedTo.append {scope value : String} (h : IssuedTo client w scope value)
    (rest : List (ι × ClientEvent)) : IssuedTo client (w ++ rest) scope value := by
  obtain ⟨i, hi⟩ := h
  refine ⟨i, hi.mono ?_⟩
  rw [events_of_append]
  exact (List.prefix_append _ _).isInfix

theorem NamedTo.append {uri : String} (h : NamedTo w uri) (rest : List (ι × ClientEvent)) :
    NamedTo (w ++ rest) uri := by
  obtain ⟨i, hi⟩ := h
  refine ⟨i, hi.mono ?_⟩
  rw [events_of_append]
  exact (List.prefix_append _ _).isInfix

/-- Whatever is cached, or was found in a cache, some call was issued or told. -/
structure Provenance (client : IntuneClient) (w : List (ι × ClientEvent)) (s : Caches) : Prop where
  tokens : ∀ scope entry, s.tokens.tokens.lookup scope = some entry →
    IssuedTo client w scope entry.value
  found : ∀ i scope entry, of_token ⟨.read_token scope, some entry⟩ ∈ events_of i w →
    IssuedTo client w scope entry.value
  validation_uri : ∀ uri, s.validation_uri = some uri → NamedTo w uri
  located : ∀ i uri, ⟨.read_uri, some uri⟩ ∈ events_of i w → NamedTo w uri

theorem provenance_new (clock : Instant) :
    Provenance client ([] : List (ι × ClientEvent)) (Caches.new clock) where
  tokens scope entry h := by
    rw [Caches.new, lookup_new] at h
    cases h
  found i scope entry h := absurd h List.not_mem_nil
  validation_uri uri h := by cases h
  located i uri h := absurd h List.not_mem_nil

/-- What was found or located before the last event, or by it. -/
theorem mem_events_snoc {i j : ι} {e e' : ClientEvent} (h : e' ∈ events_of j (w ++ [(i, e)])) :
    e' ∈ events_of j w ∨ e' = e := by
  rw [mem_events_of, List.mem_append, List.mem_singleton] at h
  exact h.imp mem_events_of.mpr fun heq => congrArg Prod.snd heq

/-- A sound event keeps the provenance of the caches. -/
theorem provenance_step {asked : Asked} {i : ι} {e : ClientEvent}
    (hsound : Sound client asked (events_of i w) e) (hI : Provenance client w s)
    (hstep : s.step e.1 e.2 s') :
    Provenance client (w ++ [(i, e)]) s' := by
  have htokens : ∀ scope entry, s.tokens.tokens.lookup scope = some entry →
      IssuedTo client (w ++ [(i, e)]) scope entry.value :=
    fun scope entry h => (hI.tokens scope entry h).append _
  have huri : ∀ uri, s.validation_uri = some uri → NamedTo (w ++ [(i, e)]) uri :=
    fun uri h => (hI.validation_uri uri h).append _
  have hfound : ∀ j scope entry, of_token ⟨.read_token scope, some entry⟩ ∈ events_of j w →
      IssuedTo client (w ++ [(i, e)]) scope entry.value :=
    fun j scope entry h => (hI.found j scope entry h).append _
  have hlocated : ∀ j uri, ⟨.read_uri, some uri⟩ ∈ events_of j w →
      NamedTo (w ++ [(i, e)]) uri :=
    fun j uri h => (hI.located j uri h).append _
  have hgrown : events_of i w <:+: events_of i (w ++ [(i, e)]) := by
    rw [events_of_append]
    exact (List.prefix_append _ _).isInfix
  -- four parts, and in each the old rows and what this event may have added
  obtain ⟨o, r⟩ := e
  refine ⟨fun scope entry h => ?_, fun j scope entry h => ?_, fun uri h => ?_, fun j uri h => ?_⟩
  · by_cases hsame : s'.tokens.tokens.lookup scope = s.tokens.tokens.lookup scope
    · exact htokens scope entry (hsame ▸ h)
    · -- only an insert changes the tokens
      rcases o with o | _ | _ | _ | _ | ⟨_, _⟩ | _ | _
      · cases o with
        | insert_token scope' cached =>
            have htab : s'.tokens.tokens = s.tokens.tokens.insert scope' cached :=
              congrArg World.tokens hstep.1
            by_cases heq : scope = scope'
            · rw [htab, heq, AList.lookup_insert] at h
              rw [heq, ← Option.some.inj h]
              exact ⟨i, Issued.mono hsound hgrown⟩
            · rw [htab, AList.lookup_insert_ne heq] at hsame
              exact absurd rfl hsame
        | read_token scope' => exact absurd (by rw [hstep.1.2]) hsame
        | now => exact absurd (by rw [hstep.1.2]) hsame
        | send url form => exact absurd (by rw [show s'.tokens = s.tokens from hstep.1]) hsame
        | text resp => exact absurd (by rw [show s'.tokens = s.tokens from hstep.1]) hsame
        | json resp => exact absurd (by rw [show s'.tokens = s.tokens from hstep.1]) hsame
      · exact absurd (by rw [hstep.2]) hsame
      all_goals exact absurd (by rw [show s' = _ from hstep]) hsame
  · rcases mem_events_snoc h with h | h
    · exact hfound j scope entry h
    · obtain ⟨rfl, hr⟩ := Sigma.mk.inj h
      obtain rfl := eq_of_heq hr
      exact htokens scope entry hstep.1.1.symm
  · by_cases hsame : s'.validation_uri = s.validation_uri
    · exact huri uri (hsame ▸ h)
    · rcases o with o | _ | uri' | _ | _ | ⟨_, _⟩ | _ | _
      · exact absurd hstep.2 hsame
      · exact absurd (by rw [hstep.2]) hsame
      · rw [show s' = { s with validation_uri := some uri' } from hstep] at h
        rw [← Option.some.inj h]
        exact ⟨i, Discovered.mono hsound hgrown⟩
      all_goals exact absurd (by rw [show s' = s from hstep]) hsame
  · rcases mem_events_snoc h with h | h
    · exact hlocated j uri h
    · obtain ⟨rfl, hr⟩ := Sigma.mk.inj h
      obtain rfl := eq_of_heq hr
      exact huri uri hstep.1.symm

/-! ## Confinement -/

/-- The secret is addressed to the identity provider, a token to the service it is for, nothing
but Graph says where that is, and what is posted is what the call was asked to say. -/
def Confined (client : IntuneClient) (asked : Asked) (past : List (ι × ClientEvent)) :
    ClientEvent → Prop
  | ⟨.token (.send url form), _⟩ => url = token_url client ∧
      ∃ scope ∈ [graph_scope, intune_scope client], form = token_form client scope
  | ⟨.get req, _⟩ => req.url = endpoints_url ∧ IssuedTo client past graph_scope req.bearer
  | ⟨.post req body, _⟩ => IssuedTo client past (intune_scope client) req.bearer ∧
      (∃ uri, NamedTo past uri ∧ req.url = s!"{uri}/{asked.path}") ∧ body = asked.body
  | _ => True

/-- What a call obtained was issued, to it or to the one that cached it. -/
theorem Provenance.issued {i : ι} {scope value : String} (hI : Provenance client w s)
    (h : Obtained client scope (events_of i w) value) : IssuedTo client w scope value := by
  rcases h with hissued | ⟨cached, hmem, rfl⟩
  · exact ⟨i, hissued⟩
  · exact hI.found i scope cached hmem

theorem Provenance.named {i : ι} {uri : String} (hI : Provenance client w s)
    (h : Located (events_of i w) uri) : NamedTo w uri := by
  rcases h with hfound | hmem
  · exact ⟨i, hfound⟩
  · exact hI.located i uri hmem

theorem confined_of_sound {asked : Asked} {i : ι} {e : ClientEvent} (hI : Provenance client w s)
    (h : Sound client asked (events_of i w) e) : Confined client asked w e := by
  obtain ⟨o, r⟩ := e
  rcases o with o | _ | _ | req | _ | ⟨req, body⟩ | _ | _
  · cases o with
    | send url form => exact h
    | _ => trivial
  · trivial
  · trivial
  · exact ⟨h.1, hI.issued h.2⟩
  · trivial
  · obtain ⟨hbearer, ⟨uri, huri, hurl⟩, hbody⟩ := h
    exact ⟨hI.issued hbearer, ⟨uri, hI.named huri, hurl⟩, hbody⟩
  · trivial
  · trivial

/-- **The credentials are addressed to where they belong.** Any calls share the caches in any
order; every request that is handed to the HTTP client carries the secret to the identity
provider, or a token to the service it was issued for with what its call has to say. Where a
redirect takes it is up to the client. -/
theorem credentials_confined {calls : ι → Asked} {clock : Instant}
    (h : Steps Caches.step (Caches.new clock) (w.map Prod.snd) s)
    (hbegan : ∀ i, Began ((calls i).run client) (events_of i w)) (past : List (ι × ClientEvent))
    (i : ι) (e : ClientEvent) (rest : List (ι × ClientEvent)) (hw : w = past ++ (i, e) :: rest) :
    Confined client (calls i) past e := by
  have hinvariant : Provenance client w s ∧ ∀ past i e rest, w = past ++ (i, e) :: rest →
      Confined client (calls i) past e := by
    refine Steps.together h hbegan
      (I := fun w s => Provenance client w s ∧ ∀ past i e rest, w = past ++ (i, e) :: rest →
        Confined client (calls i) past e) ⟨provenance_new clock, ?_⟩ ?_
    · intro past i e rest hnil
      exact absurd hnil.symm (List.append_ne_nil_of_right_ne_nil past (List.cons_ne_nil _ rest))
    · rintro w i e u u' hbegan ⟨hI, hpast⟩ hstep
      have hsound : Sound client (calls i) (events_of i w) e := hbegan.guaranteed (sound_run _)
      refine ⟨provenance_step hsound hI hstep, ?_⟩
      intro past j e' rest hw
      -- the request is the last event, or an earlier one
      rcases List.eq_nil_or_concat rest with rfl | ⟨rest, x, rfl⟩
      · obtain ⟨rfl, hlast⟩ := List.append_inj' hw rfl
        obtain ⟨rfl, rfl⟩ := Prod.mk.inj (List.cons.inj hlast).1
        exact confined_of_sound hI hsound
      · rw [List.concat_eq_append, ← List.cons_append, ← List.append_assoc] at hw
        exact hpast past j e' rest (List.append_inj' hw rfl).1
  exact hinvariant.2 past i e rest hw

end Provenance

namespace tenant

private theorem zero_in_range : ((0 : Nat) : Int) < 2 ^ 63 := by decide
private theorem ten_in_range : ((10 : Nat) : Int) < 2 ^ 63 := by decide
private theorem hour_in_range : ((3550 : Nat) : Int) < 2 ^ 63 := by decide

/-- When the clock starts, when the tokens are fetched, and when they lapse. -/
def start : Instant := second 0 zero_in_range
def fetched : Instant := second 10 ten_in_range
def lapses : Instant := second 3550 hour_in_range

/-- A token is fetched and cached, to be used until it runs out. -/
def token_run (scope value : String) : TokenTrace :=
  ⟨.read_token scope, none⟩ ::
    (fetch_events client scope answered ⟨value, some 3600⟩ (fetched) ++
      [⟨.insert_token scope ⟨value, lapses⟩, ()⟩])

theorem token_run_bearer {scope value : String} :
    Returns (bearer client scope) ((token_run scope value).map of_token) (.ok value) := by
  have hsum : (fetched).checked_add
      (TokenResponse.cached_for ⟨value, some 3600⟩) = some (lapses) :=
    show (fetched).checked_add (TokenResponse.cached_for ⟨"", some 3600⟩) = _ by decide
  exact returns_embed.mpr ⟨_, rfl, fetched_returns (by decide) hsum⟩

theorem token_run_steps {scope value : String} {t : World}
    (hmiss : t.tokens.lookup scope = none) (hclock : t.clock.nanos ≤ (fetched).nanos) :
    Steps World.step t (token_run scope value)
      ⟨t.tokens.insert scope ⟨value, lapses⟩, fetched⟩ :=
  .cons ⟨hmiss.symm, rfl⟩ (.cons rfl (.cons rfl (.cons ⟨hclock, rfl⟩ (.cons rfl (.nil _)))))

/-- What Graph lists. -/
def directory : EndpointsResponse :=
  ⟨[⟨some "EasService", some "https://eas.contoso.net"⟩,
    ⟨some VALIDATION_SERVICE_NAME, some "https://fef.contoso.net/"⟩]⟩

def endpoint : String := "https://fef.contoso.net"

/-- The endpoint is asked for and cached. -/
def discovery (tid : String) : ClientTrace :=
  (token_run graph_scope "graph").map of_token ++
    [⟨.get ⟨endpoints_url, "graph", [("api-version", GRAPH_API_VERSION),
      ("client-request-id", tid)]⟩, .ok answered⟩, ⟨.endpoints answered, .ok directory⟩,
      ⟨.write_uri endpoint, ()⟩]

theorem discovery_returns {tid : String} :
    Returns (discover client tid) (discovery tid) (.ok endpoint) := by
  refine returns_bind_ok.mpr ⟨"graph", _, _, rfl, token_run_bearer, ?_⟩
  refine returns_request_bind.mpr ⟨.ok answered, _, rfl, ?_⟩
  refine returns_lift_bind.mpr (.inr ⟨answered, rfl, ?_⟩)
  refine returns_request_bind.mpr ⟨.ok directory, _, rfl, ?_⟩
  refine returns_lift_bind.mpr (.inr ⟨directory, rfl, ?_⟩)
  exact returns_request_bind.mpr ⟨(), _, rfl, returns_pure.mpr ⟨rfl, rfl⟩⟩

def validate_post (input : ValidationInput) : Authorized :=
  ⟨s!"{endpoint}/{VALIDATE_PATH}", "intune", [("api-version", SCEP_SERVICE_VERSION),
    ("client-request-id", input.transaction_id), ("Accept", "application/json")]⟩

/-- The rest of the first call, whose request is approved. -/
def approval (input : ValidationInput) : ClientTrace :=
  (token_run (intune_scope client) "intune").map of_token ++
    [⟨.post (validate_post input) (validate_body input.transaction_id input.csr_der), .ok answered⟩,
      ⟨.validate_response answered, .ok ⟨some "Success", none⟩⟩]

/-- The first call of all. -/
def approved (input : ValidationInput) : ClientTrace :=
  ⟨.read_uri, none⟩ :: (discovery input.transaction_id ++ approval input)

theorem approved_returns {input : ValidationInput} :
    Returns (IntuneValidator.validate client input) (approved input) (.ok ()) := by
  refine returns_bind_ok.mpr ⟨endpoint, ⟨.read_uri, none⟩ :: discovery input.transaction_id,
    approval input, rfl, ?_, ?_⟩
  · exact returns_request_bind.mpr ⟨none, _, rfl, discovery_returns⟩
  refine returns_bind_ok.mpr ⟨⟨some "Success", none⟩, approval input, [],
    (List.append_nil _).symm, ?_, returns_lift.mpr ⟨rfl, rfl⟩⟩
  refine returns_bind_ok.mpr ⟨"intune", _, _, rfl, token_run_bearer, ?_⟩
  refine returns_request_bind.mpr ⟨.ok answered, _, rfl, ?_⟩
  refine returns_lift_bind.mpr (.inr ⟨answered, rfl, ?_⟩)
  exact returns_request_bind.mpr ⟨.ok ⟨some "Success", none⟩, _, rfl,
    returns_lift.mpr ⟨rfl, rfl⟩⟩

/-- The tokens when Graph has been asked, and when both are cached. -/
def with_graph : World :=
  ⟨(World.new (start)).tokens.insert graph_scope ⟨"graph", lapses⟩, fetched⟩

def with_both : World :=
  ⟨with_graph.tokens.insert (intune_scope client) ⟨"intune", lapses⟩, fetched⟩

/-- The call finds the caches empty and fills them. -/
theorem approved_steps (input : ValidationInput) :
    Steps Caches.step (Caches.new (start)) (approved input) ⟨with_both, some endpoint⟩ := by
  have hgraph : Steps World.step (World.new (start)) (token_run graph_scope "graph")
      with_graph := token_run_steps (lookup_new _ _) (by decide)
  have hintune : Steps World.step with_graph (token_run (intune_scope client) "intune")
      with_both := by
    apply token_run_steps
    · rw [with_graph, AList.lookup_insert_ne (by decide), lookup_new]
    · exact le_rfl
  have hdiscovery : Steps Caches.step (Caches.new (start)) (discovery input.transaction_id)
      ⟨with_graph, some endpoint⟩ :=
    steps_append.mpr ⟨_, steps_of_token hgraph none, .cons rfl (.cons rfl (.cons rfl (.nil _)))⟩
  have happroval : Steps Caches.step ⟨with_graph, some endpoint⟩ (approval input)
      ⟨with_both, some endpoint⟩ :=
    steps_append.mpr ⟨_, steps_of_token hintune _, .cons rfl (.cons rfl (.nil _))⟩
  exact .cons ⟨rfl, rfl⟩ (steps_append.mpr ⟨_, hdiscovery, happroval⟩)

def success_post (input : ValidationInput) : Authorized :=
  ⟨s!"{endpoint}/{SUCCESS_PATH}", "intune", [("api-version", SCEP_SERVICE_VERSION),
    ("client-request-id", input.transaction_id), ("Accept", "application/json")]⟩

/-- What the next call looks up. -/
def cached_token : ClientTrace :=
  [⟨.read_uri, some endpoint⟩,
    of_token ⟨.read_token (intune_scope client), some ⟨"intune", lapses⟩⟩, of_token ⟨.now, fetched⟩]

/-- The next call finds both in the caches. -/
def notified (input : ValidationInput) (info : IssuedInfo) : ClientTrace :=
  cached_token ++ [⟨.post (success_post input)
      (success_body input.transaction_id input.csr_der info), .ok answered⟩,
    ⟨.value answered, .ok .null⟩]

theorem notified_returns {input : ValidationInput} {info : IssuedInfo} :
    Returns (IntuneValidator.on_issued client input info) (notified input info) (.ok ()) := by
  have hbearer : Returns (bearer client (intune_scope client))
      [of_token ⟨.read_token (intune_scope client), some ⟨"intune", lapses⟩⟩,
        of_token ⟨.now, fetched⟩] (.ok "intune") :=
    returns_embed.mpr ⟨[_, _], rfl, hit_returns (by decide)⟩
  refine returns_bind_ok.mpr ⟨endpoint, [_], _, rfl,
    returns_request_bind.mpr ⟨some endpoint, [], rfl, returns_pure.mpr ⟨rfl, rfl⟩⟩, ?_⟩
  refine returns_bind_ok.mpr ⟨.null, _, [], (List.append_nil _).symm, ?_,
    returns_pure.mpr ⟨rfl, rfl⟩⟩
  refine returns_bind_ok.mpr ⟨"intune", _, _, rfl, hbearer, ?_⟩
  refine returns_request_bind.mpr ⟨.ok answered, _, rfl, ?_⟩
  refine returns_lift_bind.mpr (.inr ⟨answered, rfl, ?_⟩)
  exact returns_request_bind.mpr ⟨.ok .null, _, rfl, returns_lift.mpr ⟨rfl, rfl⟩⟩

theorem notified_steps (input : ValidationInput) (info : IssuedInfo) :
    Steps Caches.step ⟨with_both, some endpoint⟩ (notified input info)
      ⟨with_both, some endpoint⟩ := by
  have hcached : some ⟨"intune", lapses⟩ = with_both.tokens.lookup (intune_scope client) := by
    rw [with_both, AList.lookup_insert]
  exact .cons ⟨rfl, rfl⟩ (.cons ⟨⟨hcached, rfl⟩, rfl⟩ (.cons ⟨⟨le_rfl, rfl⟩, rfl⟩
    (.cons rfl (.cons rfl (.nil _)))))

def request_input : ValidationInput := ⟨"4D2A", [0x30, 0x00], some "challenge"⟩

end tenant

/-- The first call of a tenant has its request validated. -/
theorem tenant_credentials_confined :
    Confined tenant.client (.validate tenant.request_input)
      (((⟨.read_uri, none⟩ :: (tenant.discovery "4D2A" ++
        (tenant.token_run (intune_scope tenant.client) "intune").map of_token)).map
          (Prod.mk ())))
      ⟨.post (tenant.validate_post tenant.request_input) (validate_body "4D2A" [0x30, 0x00]),
        .ok tenant.answered⟩ := by
  refine @credentials_confined Unit _ tenant.client
    ((tenant.approved tenant.request_input).map (Prod.mk ()))
    ⟨tenant.with_both, some tenant.endpoint⟩
    (fun _ => .validate tenant.request_input) (tenant.start) ?_ (fun i => ⟨[], .ok (), ?_⟩)
    _ () _ [((), ⟨.validate_response tenant.answered, .ok ⟨some "Success", none⟩⟩)] rfl
  · rw [List.map_map]
    exact (List.map_id _).symm ▸ tenant.approved_steps tenant.request_input
  · rw [List.append_nil, events_of_tagged]
    exact tenant.approved_returns

end intune

end Blapki
