/-
The token cache of the Intune client (`intune/mod.rs`).

Callers look a token up, and fetch one when there is none or it has run out. Between
the look and the write others look, fetch and write, so an entry is what the last of them
left. `Cached` says what an entry is whoever left it: the answer to a request for its scope,
and an instant a minute before it runs out. `token_cache_iff` draws from it what a caller is
served, and says when the instant cannot be computed.
-/
import Blapki.Challenge
import Blapki.Interleaving

set_option autoImplicit false

namespace Blapki

open Effect

namespace intune

/-! ## The monotonic clock -/

/-- `Instant`: nanoseconds of a clock whose whole seconds are an `i64`. -/
structure Instant where
  nanos : Int
  in_range : -2 ^ 63 ≤ nanos / 1000000000 ∧ nanos / 1000000000 < 2 ^ 63
deriving DecidableEq

/-- Whole seconds, rounded down. -/
def Instant.secs (t : Instant) : Int := t.nanos / 1000000000

/-- `Instant + Duration::from_secs`, which panics where there is none. -/
def Instant.checked_add (t : Instant) (secs : Nat) : Option Instant :=
  if h : t.nanos / 1000000000 + secs < 2 ^ 63 then
    some ⟨t.nanos + secs * 1000000000, by
      have := t.in_range
      omega⟩
  else none

theorem checked_add_eq_none {t : Instant} {secs : Nat} :
    t.checked_add secs = none ↔ 2 ^ 63 ≤ t.secs + secs := by
  unfold Instant.checked_add Instant.secs
  by_cases h : t.nanos / 1000000000 + secs < 2 ^ 63
  · rw [dif_pos h]
    simp only [reduceCtorEq, false_iff]
    omega
  · rw [dif_neg h]
    simp only [true_iff]
    omega

theorem nanos_of_checked_add {t u : Instant} {secs : Nat} (h : t.checked_add secs = some u) :
    u.nanos = t.nanos + secs * 1000000000 := by
  unfold Instant.checked_add at h
  split_ifs at h
  rw [← Option.some.inj h]

/-! ## Tokens -/

structure CachedToken where
  value : String
  expires_at : Instant
deriving DecidableEq

/-- What the identity provider answers. -/
structure TokenResponse where
  access_token : String
  expires_in : Option Int64
deriving DecidableEq

/-- `u64::saturating_sub`. -/
def saturating_sub (a b : UInt64) : UInt64 := if a ≤ b then 0 else a - b

/-- The lifetime that is reckoned with, no less than a minute. -/
def TokenResponse.ttl (token : TokenResponse) : UInt64 :=
  (max (token.expires_in.getD 3600) 60).toUInt64

/-- Refresh a minute early. -/
def TokenResponse.cached_for (token : TokenResponse) : Nat :=
  (saturating_sub token.ttl 60).toNat

/-- The lifetime in seconds, an hour when there is none. -/
def TokenResponse.lifetime (token : TokenResponse) : Int := (token.expires_in.getD 3600).toInt

/-- Neither the cast nor the subtraction goes wrong. -/
theorem cached_for_eq (token : TokenResponse) :
    (token.cached_for : Int) = max token.lifetime 60 - 60 := by
  unfold TokenResponse.cached_for TokenResponse.ttl TokenResponse.lifetime
  generalize token.expires_in.getD 3600 = e
  have hsixty : (60 : Int64).toInt = 60 := by decide
  -- `max` is at 60, or above it, where neither the cast nor the subtraction is cut off
  by_cases hle : e ≤ 60
  · have hmax : max e 60 = 60 := if_pos hle
    have hint : e.toInt ≤ 60 := hsixty ▸ Int64.le_iff_toInt_le.mp hle
    rw [hmax, max_eq_right hint]
    decide
  · have hlt : (60 : Int) < e.toInt := by
      rw [Int64.le_iff_toInt_le, hsixty] at hle
      omega
    have hmax : max e 60 = e := if_neg hle
    have hpos : 0 ≤ e := by
      rw [Int64.le_iff_toInt_le]
      exact le_trans (by decide) hlt.le
    have hcast : e.toUInt64.toNat = e.toInt.toNat := Int64.toNat_toUInt64_of_le hpos
    have hlarge : ¬ e.toUInt64 ≤ 60 := by
      rw [UInt64.le_iff_toNat_le, hcast]
      show ¬ e.toInt.toNat ≤ 60
      omega
    have hsub : (60 : UInt64) ≤ e.toUInt64 := by
      rw [UInt64.le_iff_toNat_le, hcast]
      show 60 ≤ e.toInt.toNat
      omega
    rw [hmax, saturating_sub, if_neg hlarge, UInt64.toNat_sub_of_le _ _ hsub, hcast,
      max_eq_left hlt.le]
    show ((e.toInt.toNat - 60 : Nat) : Int) = e.toInt - 60
    omega

/-! ## The calls -/

/-- `StatusCode`, with the text it is printed as. -/
structure StatusCode where
  code : Nat
  text : String
deriving DecidableEq

def StatusCode.is_success (status : StatusCode) : Bool := 200 ≤ status.code && status.code < 300

/-- A response whose body is yet to be read. -/
structure Response where
  status : StatusCode
deriving DecidableEq

/-- What a look for a token asks for. `send` hands a form to the HTTP client and its answer is
what the client comes back with: a redirect is followed in there. -/
inductive TokenOp where
  | read_token (scope : String)
  | now
  | send (url : String) (form : List (String × String))
  | text (resp : Response)
  | json (resp : Response)
  | insert_token (scope : String) (cached : CachedToken)
deriving DecidableEq

abbrev TokenOp.Res : TokenOp → Type
  | .read_token _ => Option CachedToken
  | .now => Instant
  | .send _ _ => Except String Response
  | .text _ => Except String String
  | .json _ => Except String TokenResponse
  | .insert_token _ _ => Unit

abbrev TokenTrace : Type := List (Event TokenOp.Res)

/-- A call ends with an error, or its task panics. -/
inductive Failure where
  | error (e : AppError)
  | panic (message : String)
deriving DecidableEq

/-- The error of a step that reports one. -/
def upstream {α : Type} (x : Except String α) (what : String) : Except Failure α :=
  match x with
  | .ok a => .ok a
  | .error e => .error (.error (.Upstream s!"{what}: {e}"))

/-- The sum of an instant and a duration, which panics. -/
def add_secs (t : Instant) (secs : Nat) : Except Failure Instant :=
  match t.checked_add secs with
  | some u => .ok u
  | none => .error (.panic "overflow when adding duration to instant")

section Token

variable (client : IntuneClient) (scope : String)

def token_url : String := s!"{client.login_host}/{client.tenant_id}/oauth2/v2.0/token"

def token_form : List (String × String) :=
  [("grant_type", "client_credentials"), ("client_id", client.client_id),
    ("client_secret", client.client_secret), ("scope", scope)]

/-- The part of `token` behind the look into the cache. -/
def fetch_token : Task TokenOp TokenOp.Res Failure String := do
  let sent : Except String Response ←
    request (TokenOp.send (token_url client) (token_form client scope))
  let resp ← upstream sent "token request failed"
  if !resp.status.is_success then
    let text : Except String String ← request (TokenOp.text resp)
    let body := text.toOption.getD ""
    throw (.error (.Upstream s!"AAD token request returned HTTP {resp.status.text}: {body}"))
  else
    let body : Except String TokenResponse ← request (TokenOp.json resp)
    let token ← upstream body "bad token response"
    let now : Instant ← request TokenOp.now
    let expires_at ← add_secs now token.cached_for
    let _ : Unit ← request (TokenOp.insert_token scope ⟨token.access_token, expires_at⟩)
    pure token.access_token

/-- `IntuneClient::token`. -/
def token : Task TokenOp TokenOp.Res Failure String := do
  let cached : Option CachedToken ← request (TokenOp.read_token scope)
  match cached with
  | some t => do
      let now : Instant ← request TokenOp.now
      if now.nanos < t.expires_at.nanos then pure t.value else fetch_token client scope
  | none => fetch_token client scope

end Token

/-! ## The runs of a call -/

/-- A fetch that came to its end: what was asked for, what was answered, and when. -/
structure Fetch where
  form : List (String × String)
  token : TokenResponse
  completion : Instant

/-- The fetches of a trace that came to their end. -/
def fetches : TokenTrace → List Fetch
  | ⟨.send _ form, .ok _⟩ :: ⟨.json _, .ok token⟩ :: ⟨.now, t⟩ :: tr =>
      ⟨form, token, t⟩ :: fetches tr
  | _ :: tr => fetches tr
  | [] => []

theorem mem_fetches_cons {f : Fetch} {tr : TokenTrace} (h : f ∈ fetches tr)
    (ev : Event TokenOp.Res) : f ∈ fetches (ev :: tr) := by
  by_cases hev : ∃ url form resp resp' token t tr', ev = ⟨.send url form, .ok resp⟩ ∧
      tr = ⟨.json resp', .ok token⟩ :: ⟨.now, t⟩ :: tr'
  · obtain ⟨url, form, resp, resp', token, t, tr', rfl, rfl⟩ := hev
    rw [fetches]
    exact List.mem_cons_of_mem _ h
  · rw [fetches]
    · exact h
    · intro url form resp resp' token t tr' hev' htr
      exact hev ⟨url, form, resp, resp', token, t, tr', hev', htr⟩

/-- What was fetched stays fetched. -/
theorem mem_fetches_append {f : Fetch} {tr : TokenTrace} (h : f ∈ fetches tr) (rest : TokenTrace) :
    f ∈ fetches (tr ++ rest) := by
  induction tr using fetches.induct with
  -- only here are three events taken at once
  | case1 url form resp resp' token t tr ih =>
      rw [fetches] at h
      show f ∈ fetches (_ :: _ :: _ :: (tr ++ rest))
      rw [fetches]
      rcases List.mem_cons.mp h with rfl | h
      · exact List.mem_cons_self
      · exact List.mem_cons_of_mem _ (ih h)
  | case2 ev tr hne ih =>
      rw [fetches] at h
      · exact mem_fetches_cons (ih h) ev
      · exact hne
  | case3 => exact absurd h List.not_mem_nil

/-- An entry is written. -/
def inserts : Event TokenOp.Res → Bool
  | ⟨.insert_token _ _, _⟩ => true
  | _ => false

section Runs

variable (client : IntuneClient) (scope : String)

/-- The look into the cache, when it serves nothing. -/
inductive Missed : TokenTrace → Prop
  | absent : Missed [⟨.read_token scope, none⟩]
  | stale {cached : CachedToken} {now : Instant} :
      ¬ now.nanos < cached.expires_at.nanos →
      Missed [⟨.read_token scope, some cached⟩, ⟨.now, now⟩]

/-- The events of a fetch. -/
def fetch_events (resp : Response) (token : TokenResponse) (now : Instant) : TokenTrace :=
  [⟨.send (token_url client) (token_form client scope), .ok resp⟩, ⟨.json resp, .ok token⟩,
    ⟨.now, now⟩]

/-- How a call can go. -/
inductive TokenRun : TokenTrace → Except Failure String → Prop
  | hit {cached : CachedToken} {now : Instant} : now.nanos < cached.expires_at.nanos →
      TokenRun [⟨.read_token scope, some cached⟩, ⟨.now, now⟩] (.ok cached.value)
  | failed {tr : TokenTrace} {e : AppError} : fetches tr = [] →
      (∀ ev ∈ tr, inserts ev = false) → TokenRun tr (.error (.error e))
  | overflow {pre : TokenTrace} {resp : Response} {token : TokenResponse} {now : Instant}
      {message : String} : Missed scope pre → now.checked_add token.cached_for = none →
      TokenRun (pre ++ fetch_events client scope resp token now) (.error (.panic message))
  | fetched {pre : TokenTrace} {resp : Response} {token : TokenResponse}
      {now expires_at : Instant} : Missed scope pre →
      now.checked_add token.cached_for = some expires_at →
      TokenRun (pre ++ fetch_events client scope resp token now ++
        [⟨.insert_token scope ⟨token.access_token, expires_at⟩, ()⟩]) (.ok token.access_token)

variable {client scope}

theorem fetches_missed {pre : TokenTrace} (h : Missed scope pre) (tr : TokenTrace) :
    fetches (pre ++ tr) = fetches tr := by
  cases h with
  | absent => rfl
  | stale => rfl

theorem inserts_missed {pre : TokenTrace} (h : Missed scope pre) :
    ∀ ev ∈ pre, inserts ev = false := by
  cases h with
  | absent => simp [inserts]
  | stale => simp [inserts]

/-- A fetch that reports an error leaves no trace but its requests. -/
theorem failed_run {pre tr : TokenTrace} {e : AppError} (hpre : Missed scope pre)
    (hfetches : fetches tr = []) (hinserts : ∀ ev ∈ tr, inserts ev = false) :
    TokenRun client scope (pre ++ tr) (.error (.error e)) := by
  apply TokenRun.failed
  · rw [fetches_missed hpre, hfetches]
  · rw [List.forall_mem_append]
    exact ⟨inserts_missed hpre, hinserts⟩

/-- A fetch behind a look that served nothing. -/
theorem fetch_token_run {pre tr : TokenTrace} {r : Except Failure String} (hpre : Missed scope pre)
    (h : Returns (fetch_token client scope) tr r) : TokenRun client scope (pre ++ tr) r := by
  unfold fetch_token at h
  obtain ⟨sent, t₁, rfl, h₁⟩ := returns_request_bind.mp h
  -- the three errors before the clock is read leave no fetch and no entry
  rcases sent with e | resp
  · obtain ⟨rfl, rfl⟩ := returns_throw.mp h₁
    exact failed_run hpre rfl (by simp [inserts])
  · change Returns (if _ then _ else _) t₁ r at h₁
    split_ifs at h₁ with hstatus
    · obtain ⟨text, t₂, rfl, h₂⟩ := returns_request_bind.mp h₁
      obtain ⟨rfl, rfl⟩ := returns_throw.mp h₂
      exact failed_run hpre rfl (by simp [inserts])
    · obtain ⟨body, t₂, rfl, h₂⟩ := returns_request_bind.mp h₁
      rcases body with e | token
      · obtain ⟨rfl, rfl⟩ := returns_throw.mp h₂
        exact failed_run hpre rfl (by simp [inserts])
      · obtain ⟨now, t₃, rfl, h₃⟩ := returns_request_bind.mp h₂
        rcases returns_lift_bind.mp h₃ with ⟨f, hadd, rfl, rfl⟩ | ⟨expires_at, hadd, h₄⟩
        · -- the sum of the clock and the lifetime is where the code can panic
          unfold add_secs at hadd
          rcases hsum : now.checked_add token.cached_for with _ | expires_at
          · rw [hsum] at hadd
            cases hadd
            exact .overflow hpre hsum
          · rw [hsum] at hadd
            cases hadd
        · unfold add_secs at hadd
          rcases hsum : now.checked_add token.cached_for with _ | expires_at'
          · rw [hsum] at hadd
            cases hadd
          · rw [hsum] at hadd
            cases hadd
            obtain ⟨_, t₄, rfl, h₅⟩ := returns_request_bind.mp h₄
            obtain ⟨rfl, rfl⟩ := returns_pure.mp h₅
            have hrun := @TokenRun.fetched client scope _ resp _ _ _ hpre hsum
            rwa [List.append_assoc] at hrun

/-- Every call goes in one of these ways. -/
theorem token_run {tr : TokenTrace} {r : Except Failure String}
    (h : Returns (token client scope) tr r) : TokenRun client scope tr r := by
  unfold token at h
  obtain ⟨cached, t₁, rfl, h₁⟩ := returns_request_bind.mp h
  rcases cached with _ | cached
  · exact fetch_token_run .absent h₁
  · obtain ⟨now, t₂, rfl, h₂⟩ := returns_request_bind.mp h₁
    by_cases hfresh : now.nanos < cached.expires_at.nanos
    · rw [if_pos hfresh] at h₂
      obtain ⟨rfl, rfl⟩ := returns_pure.mp h₂
      exact .hit hfresh
    · rw [if_neg hfresh] at h₂
      exact fetch_token_run (.stale hfresh) h₂

theorem fetches_fetched {pre : TokenTrace} (hpre : Missed scope pre) (resp : Response)
    (token : TokenResponse) (now : Instant) (tr : TokenTrace) :
    fetches (pre ++ fetch_events client scope resp token now ++ tr)
      = ⟨token_form client scope, token, now⟩ :: fetches tr := by
  rw [List.append_assoc, fetches_missed hpre]
  rfl

theorem fetches_fetch {pre : TokenTrace} (hpre : Missed scope pre) {resp : Response}
    {token : TokenResponse} {now : Instant} :
    fetches (pre ++ fetch_events client scope resp token now)
      = [⟨token_form client scope, token, now⟩] := by
  rw [fetches_missed hpre]
  rfl

theorem inserts_fetch {pre : TokenTrace} (hpre : Missed scope pre) {resp : Response}
    {token : TokenResponse} {now : Instant} :
    ∀ ev ∈ pre ++ fetch_events client scope resp token now, inserts ev = false := by
  rw [List.forall_mem_append]
  exact ⟨inserts_missed hpre, by simp [fetch_events, inserts]⟩

/-- What is only at the end of a list splits it there. -/
theorem append_eq_concat {α : Type} {t u rest : List α} {x y : α} (h : t ++ x :: rest = u ++ [y])
    (hx : x ∉ u) : t = u ∧ x = y := by
  rcases List.append_eq_append_iff.mp h with ⟨a, rfl, ha⟩ | ⟨c, rfl, hc⟩
  · rcases a with _ | ⟨z, a⟩
    · rw [List.nil_append] at ha
      exact ⟨(List.append_nil _).symm, (List.cons.inj ha).1⟩
    · obtain rfl := (List.cons.inj ha).1
      exact absurd (List.mem_append_right _ List.mem_cons_self) hx
  · rcases c with _ | ⟨z, c⟩
    · rw [List.nil_append] at hc
      exact ⟨List.append_nil _, (List.cons.inj hc).1.symm⟩
    · have hlen := congrArg List.length hc
      simp only [List.length_cons, List.length_append, List.length_nil] at hlen
      omega

/-- An entry is written for what was fetched just before, under the scope of the call. -/
theorem began_insert {t : TokenTrace} {scope' : String} {cached : CachedToken} {u : Unit}
    (h : Began (token client scope) (t ++ [⟨.insert_token scope' cached, u⟩])) :
    scope' = scope ∧ ∃ token now, ⟨token_form client scope, token, now⟩ ∈ fetches t ∧
      ⟨.now, now⟩ ∈ t ∧ cached.value = token.access_token ∧
      now.checked_add token.cached_for = some cached.expires_at := by
  obtain ⟨rest, r, hrun⟩ := h
  have hinserts : inserts ⟨.insert_token scope' cached, u⟩ = true := rfl
  rw [List.append_assoc, List.singleton_append] at hrun
  have hshape := token_run hrun
  generalize hfull : t ++ ⟨.insert_token scope' cached, u⟩ :: rest = full at hshape
  have hmem : ⟨.insert_token scope' cached, u⟩ ∈ full := by
    rw [← hfull]
    exact List.mem_append_right _ List.mem_cons_self
  -- an entry is written at the end of a fetch, and nowhere else
  cases hshape with
  | hit hfresh => simp at hmem
  | failed hfetches hno =>
      rw [hno _ hmem] at hinserts
      cases hinserts
  | overflow hpre hsum =>
      rw [inserts_fetch hpre _ hmem] at hinserts
      cases hinserts
  | fetched hpre hsum =>
      obtain ⟨rfl, hev⟩ := append_eq_concat hfull fun hno => by
        rw [inserts_fetch hpre _ hno] at hinserts
        cases hinserts
      obtain ⟨rfl, rfl⟩ := TokenOp.insert_token.inj (Sigma.mk.inj hev).1
      refine ⟨rfl, _, _, ?_, ?_, rfl, hsum⟩
      · rw [fetches_fetch hpre]
        exact List.mem_cons_self
      · simp [fetch_events]

/-- A fetch whose instant cannot be computed is the last thing its call does. -/
theorem began_overflow {t : TokenTrace} (h : Began (token client scope) t) {f : Fetch}
    (hf : f ∈ fetches t) (hsum : f.completion.checked_add f.token.cached_for = none) :
    ∃ message, Returns (token client scope) t (.error (.panic message)) := by
  obtain ⟨rest, r, hrun⟩ := h
  have hshape := token_run hrun
  have hmem := mem_fetches_append hf rest
  generalize hfull : t ++ rest = full at hshape hmem hrun
  cases hshape with
  | hit hfresh => exact absurd hmem List.not_mem_nil
  | failed hfetches _ =>
      rw [hfetches] at hmem
      exact absurd hmem List.not_mem_nil
  | @overflow pre resp token now message hpre _ =>
      rcases List.eq_nil_or_concat rest with rfl | ⟨rest, ev, rfl⟩
      · rw [List.append_nil] at hfull
        exact ⟨message, by rwa [hfull]⟩
      · -- nothing is fetched before the clock is read
        rw [List.concat_eq_append] at hfull
        have hsplit : t ++ rest ++ [ev] = pre ++ [⟨.send (token_url client)
            (token_form client scope), .ok resp⟩, ⟨.json resp, .ok token⟩] ++ [⟨.now, now⟩] := by
          rw [List.append_assoc, hfull, List.append_assoc]
          rfl
        have hbefore := mem_fetches_append hf rest
        rw [(List.append_inj' hsplit rfl).1, fetches_missed hpre] at hbefore
        exact absurd hbefore List.not_mem_nil
  | fetched hpre hsome =>
      rw [fetches_fetched hpre] at hmem
      obtain rfl := List.mem_singleton.mp hmem
      rw [hsome] at hsum
      cases hsum

theorem panic_fetch {t : TokenTrace} {message : String}
    (h : Returns (token client scope) t (.error (.panic message))) :
    ∃ f ∈ fetches t, f.completion.checked_add f.token.cached_for = none := by
  cases token_run h with
  | overflow hpre hsum =>
      rw [fetches_fetch hpre]
      exact ⟨_, List.mem_cons_self, hsum⟩

/-- A fetch that is answered comes to its instant. -/
theorem fetch_token_returns {tail : TokenTrace} {resp : Response} {token : TokenResponse}
    {now : Instant} {r : Except Failure String} (hstatus : resp.status.is_success = true)
    (h : Returns (do
      let expires_at ← add_secs now token.cached_for
      let _ : Unit ← request (TokenOp.insert_token scope ⟨token.access_token, expires_at⟩)
      pure token.access_token : Task TokenOp TokenOp.Res Failure String) tail r) :
    Returns (fetch_token client scope) (fetch_events client scope resp token now ++ tail) r := by
  unfold fetch_token fetch_events
  refine returns_request_bind.mpr ⟨.ok resp, _, rfl, ?_⟩
  change Returns (if _ then _ else _) _ r
  rw [hstatus, if_neg (by decide)]
  refine returns_request_bind.mpr ⟨.ok token, _, rfl, ?_⟩
  exact returns_request_bind.mpr ⟨now, _, rfl, h⟩

theorem fetched_returns {resp : Response} {token : TokenResponse} {now expires_at : Instant}
    (hstatus : resp.status.is_success = true)
    (hsum : now.checked_add token.cached_for = some expires_at) :
    Returns (intune.token client scope) (⟨.read_token scope, none⟩ ::
      (fetch_events client scope resp token now ++
        [⟨.insert_token scope ⟨token.access_token, expires_at⟩, ()⟩])) (.ok token.access_token) := by
  unfold intune.token
  refine returns_request_bind.mpr ⟨none, _, rfl, fetch_token_returns hstatus ?_⟩
  refine returns_lift_bind.mpr (.inr ⟨expires_at, ?_, ?_⟩)
  · rw [add_secs, hsum]
  · exact returns_request_bind.mpr ⟨(), _, rfl, returns_pure.mpr ⟨rfl, rfl⟩⟩

theorem overflow_returns {resp : Response} {token : TokenResponse} {now : Instant}
    (hstatus : resp.status.is_success = true) (hsum : now.checked_add token.cached_for = none) :
    Returns (intune.token client scope) (⟨.read_token scope, none⟩ ::
      (fetch_events client scope resp token now ++ []))
      (.error (.panic "overflow when adding duration to instant")) := by
  unfold intune.token
  refine returns_request_bind.mpr ⟨none, _, rfl, fetch_token_returns hstatus ?_⟩
  refine returns_lift_bind.mpr (.inl ⟨_, ?_, rfl, rfl⟩)
  rw [add_secs, hsum]

theorem hit_returns {cached : CachedToken} {now : Instant}
    (hfresh : now.nanos < cached.expires_at.nanos) :
    Returns (intune.token client scope) [⟨.read_token scope, some cached⟩, ⟨.now, now⟩]
      (.ok cached.value) := by
  unfold intune.token
  refine returns_request_bind.mpr ⟨some cached, _, rfl, ?_⟩
  refine returns_request_bind.mpr ⟨now, _, rfl, ?_⟩
  rw [if_pos hfresh]
  exact returns_pure.mpr ⟨rfl, rfl⟩

end Runs

/-! ## The world -/

/-- The cache and the clock. -/
structure World where
  tokens : AList fun _ : String => CachedToken
  clock : Instant

/-- The cache as `IntuneClient::new` makes it. -/
def World.new (clock : Instant) : World := ⟨∅, clock⟩

@[simp] theorem lookup_new (clock : Instant) (scope : String) :
    (World.new clock).tokens.lookup scope = none := AList.lookup_empty scope

/-- The clock does not go back, and nobody but the callers writes to the cache. -/
def World.step (s : World) : (o : TokenOp) → TokenOp.Res o → World → Prop
  | .read_token scope, cached, s' => cached = s.tokens.lookup scope ∧ s' = s
  | .now, t, s' => s.clock.nanos ≤ t.nanos ∧ s' = { s with clock := t }
  | .insert_token scope cached, _, s' => s' = { s with tokens := s.tokens.insert scope cached }
  | .send _ _, _, s' => s' = s
  | .text _, _, s' => s' = s
  | .json _, _, s' => s' = s

theorem World.step_clock {s s' : World} {ev : Event TokenOp.Res} (h : s.step ev.1 ev.2 s') :
    s.clock.nanos ≤ s'.clock.nanos := by
  obtain ⟨o, r⟩ := ev
  cases o with
  | now =>
      obtain ⟨hle, rfl⟩ := h
      exact hle
  | read_token scope =>
      obtain ⟨_, rfl⟩ := h
      exact le_rfl
  | _ =>
      obtain rfl := h
      exact le_rfl

/-- The clock is read when it is no earlier than it was. -/
theorem clock_le_now {s s' : World} {tr : TokenTrace} (h : Steps World.step s tr s') {t : Instant}
    (hmem : ⟨.now, t⟩ ∈ tr) : s.clock.nanos ≤ t.nanos := by
  obtain ⟨t₁, t₂, u, u', rfl, h₁, hstep, _⟩ := h.mem hmem
  have hle : s.clock.nanos ≤ u.clock.nanos :=
    h₁.preserves (I := fun v => s.clock.nanos ≤ v.clock.nanos)
      (fun ev _ v v' hv hstep => hv.trans (World.step_clock hstep)) le_rfl
  exact hle.trans hstep.1

/-! ## The cache -/

section Cache

variable {ι : Type} [DecidableEq ι] {client : IntuneClient} {scopes : ι → String}
  {w : List (ι × Event TokenOp.Res)} {s s' : World}

/-- Somebody asked for a token for this scope, and was answered at that time. -/
def Fetched (client : IntuneClient) (w : List (ι × Event TokenOp.Res)) (scope : String)
    (token : TokenResponse) (completion : Instant) : Prop :=
  ∃ i, ⟨token_form client scope, token, completion⟩ ∈ fetches (events_of i w)

theorem Fetched.append {scope : String} {token : TokenResponse} {completion : Instant}
    (h : Fetched client w scope token completion) (rest : List (ι × Event TokenOp.Res)) :
    Fetched client (w ++ rest) scope token completion := by
  obtain ⟨i, hmem⟩ := h
  refine ⟨i, ?_⟩
  rw [events_of_append]
  exact mem_fetches_append hmem _

/-- An entry is a token fetched for its scope by now, with the instant a minute before it
runs out. -/
def Cached (client : IntuneClient) (w : List (ι × Event TokenOp.Res)) (clock : Instant)
    (scope : String) (cached : CachedToken) : Prop :=
  ∃ token completion, Fetched client w scope token completion ∧
    completion.nanos ≤ clock.nanos ∧ cached.value = token.access_token ∧
    completion.checked_add token.cached_for = some cached.expires_at

theorem Cached.later {clock clock' : Instant} {scope : String} {cached : CachedToken}
    (h : Cached client w clock scope cached) (hle : clock.nanos ≤ clock'.nanos)
    (rest : List (ι × Event TokenOp.Res)) : Cached client (w ++ rest) clock' scope cached := by
  obtain ⟨token, completion, hfetched, hclock, hvalue, hsum⟩ := h
  exact ⟨token, completion, hfetched.append rest, hclock.trans hle, hvalue, hsum⟩

/-- What holds of the cache and the clock after every trace. -/
structure CacheInvariant (client : IntuneClient) (w : List (ι × Event TokenOp.Res))
    (s : World) : Prop where
  cached : ∀ scope entry, s.tokens.lookup scope = some entry →
    Cached client w s.clock scope entry
  clock : ∀ i t, ⟨.now, t⟩ ∈ events_of i w → t.nanos ≤ s.clock.nanos

/-- The clock has been read when it was no later than it is. -/
theorem read_before {i j : ι} {ev : Event TokenOp.Res} {t : Instant}
    (hI : CacheInvariant client w s) (hstep : s.step ev.1 ev.2 s')
    (hmem : ⟨.now, t⟩ ∈ events_of j (w ++ [(i, ev)])) : t.nanos ≤ s'.clock.nanos := by
  rw [mem_events_of, List.mem_append, List.mem_singleton] at hmem
  rcases hmem with hmem | hmem
  · exact (hI.clock j t (mem_events_of.mpr hmem)).trans (World.step_clock hstep)
  · -- the event is a look at the clock
    obtain ⟨_, rfl⟩ := Prod.mk.inj hmem
    obtain ⟨_, rfl⟩ := hstep
    exact le_rfl

/-- Every event of a call keeps it. -/
theorem invariant_step {i : ι} {ev : Event TokenOp.Res}
    (hbegan : Began (token client (scopes i)) (events_of i w ++ [ev]))
    (hI : CacheInvariant client w s) (hstep : s.step ev.1 ev.2 s') :
    CacheInvariant client (w ++ [(i, ev)]) s' := by
  refine ⟨?_, fun j t hmem => read_before hI hstep hmem⟩
  intro scope entry hentry
  have hold : s.tokens.lookup scope = some entry →
      Cached client (w ++ [(i, ev)]) s'.clock scope entry := by
    intro hlookup
    exact (hI.cached scope entry hlookup).later (World.step_clock hstep) _
  obtain ⟨o, r⟩ := ev
  -- only an insert changes the cache, and what it inserts was just fetched
  cases o with
  | read_token _ => exact hold (by rwa [hstep.2] at hentry)
  | now => exact hold (by rwa [hstep.2] at hentry)
  | send _ _ => exact hold (by rwa [show s' = s from hstep] at hentry)
  | text _ => exact hold (by rwa [show s' = s from hstep] at hentry)
  | json _ => exact hold (by rwa [show s' = s from hstep] at hentry)
  | insert_token scope' cached =>
      have hs' : s' = { s with tokens := s.tokens.insert scope' cached } := hstep
      by_cases heq : scope = scope'
      · obtain ⟨hscope, token, now, hfetch, hnow, hvalue, hsum⟩ := began_insert hbegan
        have hclock := hI.clock i now hnow
        rw [hs', heq, AList.lookup_insert] at hentry
        obtain rfl := Option.some.inj hentry
        rw [heq, hscope, hs']
        exact ⟨token, now, .append ⟨i, hfetch⟩ _, hclock, hvalue, hsum⟩
      · rw [hs', AList.lookup_insert_ne heq] at hentry
        exact hold hentry

theorem cache_invariant {clock : Instant}
    (hsteps : Steps World.step (World.new clock) (w.map Prod.snd) s)
    (hbegan : ∀ i, Began (token client (scopes i)) (events_of i w)) :
    CacheInvariant client w s := by
  apply hsteps.together hbegan
  · constructor
    · intro scope entry hentry
      rw [lookup_new] at hentry
      cases hentry
    · intro i t hmem
      exact absurd hmem List.not_mem_nil
  · intro w i ev u u' hbegan' hI hstep
    exact invariant_step hbegan' hI hstep

/-- A token that was served without being asked for was fetched for this scope before the
call began, and runs out more than a minute later. -/
def ServedInTime (client : IntuneClient) (w : List (ι × Event TokenOp.Res)) (i : ι)
    (scope value : String) : Prop :=
  ∃ past token completion now, past <+: w ∧ events_of i past = [] ∧
    Fetched client past scope token completion ∧ value = token.access_token ∧
    ⟨.now, now⟩ ∈ events_of i w ∧ 60 < token.lifetime ∧
    now.nanos + 60 * 1000000000 < completion.nanos + token.lifetime * 1000000000

theorem served_in_time {clock : Instant}
    (hsteps : Steps World.step (World.new clock) (w.map Prod.snd) s)
    (hbegan : ∀ i, Began (token client (scopes i)) (events_of i w)) {i : ι} {value : String}
    (hreturns : Returns (token client (scopes i)) (events_of i w) (.ok value))
    (hserved : fetches (events_of i w) = []) :
    ServedInTime client w i (scopes i) value := by
  have hrun := token_run hreturns
  generalize hevents : events_of i w = events at hrun
  cases hrun with
  | fetched hpre hsum =>
      rw [hevents, fetches_fetched hpre] at hserved
      cases hserved
  | @hit entry now hfresh =>
      -- the entry is of the cache as it was when the call began
      obtain ⟨past, rest, rfl, hpast, hrest⟩ := events_of_eq_cons hevents
      rw [List.map_append, List.map_cons] at hsteps
      obtain ⟨u, hbefore, hread⟩ := steps_append.mp hsteps
      obtain ⟨u', ⟨hlookup, rfl⟩, hafter⟩ := steps_cons.mp hread
      have hbegan' : ∀ j, Began (token client (scopes j)) (events_of j past) := by
        intro j
        have hj := hbegan j
        rw [events_of_append] at hj
        exact hj.left
      obtain ⟨token, completion, hfetched, hcompletion, hvalue, hsum⟩ :=
        (cache_invariant hbefore hbegan').cached _ _ hlookup.symm
      -- the clock is read after that
      have hnow : ⟨.now, now⟩ ∈ events_of i rest := by
        rw [hrest]
        exact List.mem_cons_self
      have hle : completion.nanos ≤ now.nanos :=
        hcompletion.trans (clock_le_now hafter (events_of_sublist.subset hnow))
      have hexpires := nanos_of_checked_add hsum
      have hlifetime := cached_for_eq token
      refine ⟨past, token, completion, now, List.prefix_append _ _, hpast, hfetched, hvalue, ?_, ?_⟩
      · rw [hevents]
        exact List.mem_cons_of_mem _ List.mem_cons_self
      · rw [hexpires, hlifetime] at hfresh
        omega

/-- No call panics when the instants can be computed. -/
theorem no_panic_iff (hbegan : ∀ i, Began (token client (scopes i)) (events_of i w)) :
    (∀ i message, ¬ Returns (token client (scopes i)) (events_of i w) (.error (.panic message))) ↔
      ∀ i, ∀ f ∈ fetches (events_of i w), (f.completion.checked_add f.token.cached_for).isSome := by
  constructor
  · intro hno i f hf
    rw [Option.isSome_iff_ne_none]
    intro hsum
    obtain ⟨message, hpanic⟩ := began_overflow (hbegan i) hf hsum
    exact hno i message hpanic
  · intro hsome i message hpanic
    obtain ⟨f, hf, hsum⟩ := panic_fetch hpanic
    have hfits := hsome i f hf
    rw [hsum] at hfits
    cases hfits

end Cache

/-- What `token` serves from the cache it serves in time, and it does not panic, when every
lifetime that is answered can be added to the clock. -/
theorem token_cache_iff {ι : Type} [DecidableEq ι] {client : IntuneClient} {scopes : ι → String}
    {w : List (ι × Event TokenOp.Res)} {clock : Instant} {s : World}
    (hsteps : Steps World.step (World.new clock) (w.map Prod.snd) s)
    (hbegan : ∀ i, Began (token client (scopes i)) (events_of i w)) :
    ((∀ i value, Returns (token client (scopes i)) (events_of i w) (.ok value) →
        fetches (events_of i w) = [] → ServedInTime client w i (scopes i) value) ∧
      ∀ i message,
        ¬ Returns (token client (scopes i)) (events_of i w) (.error (.panic message))) ↔
    ∀ i, ∀ f ∈ fetches (events_of i w),
      f.completion.secs + (max f.token.lifetime 60 - 60) < 2 ^ 63 := by
  have hsum : ∀ f : Fetch, (f.completion.checked_add f.token.cached_for).isSome = true ↔
      f.completion.secs + (max f.token.lifetime 60 - 60) < 2 ^ 63 := by
    intro f
    rw [Option.isSome_iff_ne_none, ne_eq, checked_add_eq_none, cached_for_eq, not_le]
  simp only [← hsum]
  rw [← no_panic_iff hbegan]
  constructor
  · rintro ⟨_, hpanic⟩
    exact hpanic
  · intro hpanic
    exact ⟨fun i value hreturns hserved => served_in_time hsteps hbegan hreturns hserved, hpanic⟩

/-! ## A tenant -/

namespace tenant

def client : IntuneClient where
  tenant_id := "contoso"
  client_id := "blapki"
  client_secret := "s3cret"
  login_host := "https://login.microsoftonline.com"
  intune_resource := "https://api.manage.microsoft.com/"

def answered : Response := ⟨200, "200 OK"⟩

/-- A number of seconds after the start of the clock. -/
def second (n : Nat) (h : (n : Int) < 2 ^ 63 := by decide) : Instant :=
  ⟨n * 1000000000, by omega⟩

/-- One call fetches a token for an hour, and the other is served it. -/
def hour : List (Bool × Event TokenOp.Res) :=
  (⟨.read_token "graph", none⟩ ::
    (fetch_events client "graph" answered ⟨"abc", some 3600⟩ (second 10) ++
      [⟨.insert_token "graph" ⟨"abc", second 3550⟩, ()⟩])).map (Prod.mk false) ++
  [⟨.read_token "graph", some ⟨"abc", second 3550⟩⟩, ⟨.now, second 100⟩].map (Prod.mk true)

/-- The longest lifetime there is. -/
def forever : TokenResponse := ⟨"abc", some 9223372036854775807⟩

/-- The token is fetched when the clock has run for some minutes. -/
def overflow : List (Unit × Event TokenOp.Res) :=
  (⟨.read_token "graph", none⟩ ::
    (fetch_events client "graph" answered forever (second 100) ++ [])).map (Prod.mk ())

end tenant

/-- The call that follows is served what the first one fetched. -/
theorem tenant_token_served :
    ServedInTime tenant.client tenant.hour true "graph" "abc" := by
  have hsteps : ∃ s, Steps World.step (World.new (tenant.second 0))
      (tenant.hour.map Prod.snd) s := by
    exact ⟨_, .cons ⟨(lookup_new _ _).symm, rfl⟩ (.cons rfl (.cons rfl (.cons ⟨by decide, rfl⟩
      (.cons rfl (.cons ⟨by rw [AList.lookup_insert], rfl⟩ (.cons ⟨by decide, rfl⟩
        (.nil _)))))))⟩
  obtain ⟨s, hsteps⟩ := hsteps
  have hserved : Returns (token tenant.client "graph") (events_of true tenant.hour)
      (.ok "abc") := hit_returns (by decide)
  have hbegan : ∀ i, Began (token tenant.client "graph") (events_of i tenant.hour) := by
    intro i
    refine ⟨[], .ok "abc", ?_⟩
    rw [List.append_nil]
    cases i with
    | false => exact fetched_returns (by decide) (by decide)
    | true => exact hserved
  -- the lifetimes of this run are short
  have hfits : ∀ i, ∀ f ∈ fetches (events_of i tenant.hour),
      f.completion.secs + (max f.token.lifetime 60 - 60) < 2 ^ 63 := by
    intro i f hf
    cases i with
    | false =>
        obtain rfl := List.mem_singleton.mp hf
        decide
    | true => exact absurd hf List.not_mem_nil
  exact ((token_cache_iff hsteps hbegan).mpr hfits).1 true "abc"
    hserved rfl

/-- A lifetime that no clock reaches panics the call. -/
theorem tenant_token_panics :
    ¬ ∀ (w : List (Unit × Event TokenOp.Res)) (clock : Instant) (s : World),
      Steps World.step (World.new clock) (w.map Prod.snd) s →
      (∀ i, Began (token tenant.client "graph") (events_of i w)) →
      ∀ i message, ¬ Returns (token tenant.client "graph") (events_of i w)
        (.error (.panic message)) := by
  intro hclaim
  have hsteps : ∃ s, Steps World.step (World.new (tenant.second 0))
      (tenant.overflow.map Prod.snd) s := by
    exact ⟨_, .cons ⟨(lookup_new _ _).symm, rfl⟩
      (.cons rfl (.cons rfl (.cons ⟨by decide, rfl⟩ (.nil _))))⟩
  obtain ⟨s, hsteps⟩ := hsteps
  have hpanics : Returns (token tenant.client "graph") (events_of () tenant.overflow)
      (.error (.panic "overflow when adding duration to instant")) :=
    overflow_returns (by decide) (by decide)
  exact hclaim tenant.overflow _ s hsteps
    (fun _ => ⟨[], _, by rw [List.append_nil]; exact hpanics⟩) () _ hpanics

end intune

end Blapki
