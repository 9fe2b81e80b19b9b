/-
Programs over the requests of another, and what a task says of its own events.

`handle h p` answers every request of `p` by a task over other requests. A run of it is
a run of `p` whose events are realized one after the other, each by a run of its handler
(`returns_handle`), and an event of one that is under way is an event of the handler that is
at work (`Began.at_event`).

`Guarantees P t` is the property of an event in the light of what the task saw before it:
of what was sent, that it was received, or of what was written, that it was read. The
rules are one for each way a task is put together. A guarantee does not speak of the other
tasks; `Began.guaranteed` hands it to an invariant that does.
-/
import Blapki.Interleaving

set_option autoImplicit false

namespace Effect

variable {Op Op' : Type} {Res : Op → Type} {Res' : Op' → Type} {α β ε π : Type}

/-! ## Runs exist -/

/-- A program whose requests can be answered has a run. -/
theorem exists_run [∀ o, Nonempty (Res o)] (p : Prog Op Res α) : ∃ tr a, Prog.Run p tr a := by
  induction p with
  | pure a => exact ⟨[], a, .pure a⟩
  | ask o k ih =>
      obtain ⟨r⟩ : Nonempty (Res o) := inferInstance
      obtain ⟨tr, a, h⟩ := ih r
      exact ⟨⟨o, r⟩ :: tr, a, .ask h⟩

theorem began_nil [∀ o, Nonempty (Res o)] (t : Task Op Res ε α) : Began t [] := by
  obtain ⟨tr, r, h⟩ := exists_run t.run
  exact ⟨tr, r, h⟩

/-- A sequence that has begun is in its first task, or past it. -/
theorem began_bind {t : Task Op Res ε α} {f : α → Task Op Res ε β} {tr : List (Event Res)}
    (h : Began (t >>= f) tr) :
    Began t tr ∨ ∃ a t₁ t₂, tr = t₁ ++ t₂ ∧ Returns t t₁ (.ok a) ∧ Began (f a) t₂ := by
  obtain ⟨rest, r, hrun⟩ := h
  rcases returns_bind.mp hrun with ⟨e, _, h₁⟩ | ⟨a, t₁, t₂, heq, h₁, h₂⟩
  · exact .inl ⟨rest, _, h₁⟩
  · -- the seam of the two runs is behind what has been seen, or within it
    rcases List.append_eq_append_iff.mp heq with ⟨u, rfl, rfl⟩ | ⟨u, rfl, rfl⟩
    · exact .inl ⟨u, _, h₁⟩
    · exact .inr ⟨a, t₁, u, rfl, h₁, rest, r, h₂⟩

/-! ## Guarantees -/

/-- Every event of every run has the property, given what the task saw before it. -/
def Guarantees (P : List (Event Res) → Event Res → Prop) (t : Task Op Res ε α) : Prop :=
  ∀ tr r, Returns t tr r → ∀ past e rest, tr = past ++ e :: rest → P past e

section Guarantees

variable {P Q : List (Event Res) → Event Res → Prop} {t : Task Op Res ε α}
  {f : α → Task Op Res ε β}

/-- The next event of a task that has begun has it. -/
theorem Began.guaranteed {past : List (Event Res)} {e : Event Res} (h : Began t (past ++ [e]))
    (hP : Guarantees P t) : P past e := by
  obtain ⟨rest, r, hrun⟩ := h
  apply hP _ _ hrun past e rest
  rw [List.append_assoc, List.singleton_append]

theorem Guarantees.mono (h : Guarantees P t) (hPQ : ∀ past e, P past e → Q past e) :
    Guarantees Q t :=
  fun tr r hrun past e rest htr => hPQ past e (h tr r hrun past e rest htr)

/-- A guarantee that looks at nothing before an event is one of every event. -/
theorem guarantees_each {Q : Event Res → Prop} :
    Guarantees (fun _ => Q) t ↔ ∀ tr r, Returns t tr r → ∀ e ∈ tr, Q e := by
  constructor
  · intro h tr r hrun e he
    obtain ⟨past, rest, htr⟩ := List.append_of_mem he
    exact h tr r hrun past e rest htr
  · intro h tr r hrun past e rest htr
    apply h tr r hrun e
    rw [htr]
    exact List.mem_append_right past List.mem_cons_self

/-- A task without events guarantees anything. -/
theorem guarantees_of_nil (h : ∀ tr r, Returns t tr r → tr = []) : Guarantees P t := by
  intro tr r hrun past e rest htr
  rw [h tr r hrun] at htr
  exact absurd htr.symm (List.append_ne_nil_of_right_ne_nil past (List.cons_ne_nil e rest))

theorem guarantees_pure (a : α) : Guarantees P (pure a : Task Op Res ε α) :=
  guarantees_of_nil fun _ _ hrun => (returns_pure.mp hrun).1

theorem guarantees_throw (e : ε) : Guarantees P (throw e : Task Op Res ε α) :=
  guarantees_of_nil fun _ _ hrun => (returns_throw.mp hrun).1

theorem guarantees_lift (x : Except ε α) : Guarantees P (liftM x : Task Op Res ε α) :=
  guarantees_of_nil fun _ _ hrun => (returns_lift.mp hrun).1

/-- A request has seen nothing before its event. -/
theorem guarantees_request {o : Op} (h : ∀ r, P [] ⟨o, r⟩) :
    Guarantees P (request o : Task Op Res ε (Res o)) := by
  intro tr r hrun past e rest htr
  obtain ⟨a, _, rfl⟩ := returns_request.mp hrun
  obtain ⟨rfl, hrest⟩ : past = [] ∧ e :: rest = [⟨o, a⟩] := by
    cases past with
    | nil => exact ⟨rfl, htr.symm⟩
    | cons x past =>
        rw [List.cons_append, List.cons.injEq] at htr
        exact absurd htr.2.symm
          (List.append_ne_nil_of_right_ne_nil past (List.cons_ne_nil e rest))
  rw [(List.cons.inj hrest).1]
  exact h a

theorem guarantees_attempt (h : Guarantees P t) : Guarantees P (attempt t) := by
  intro tr r hrun past e rest htr
  obtain ⟨x, _, hx⟩ := returns_attempt.mp hrun
  exact h tr x hx past e rest htr

/-- A second task has what the first one saw in its past. -/
theorem Guarantees.bind (ht : Guarantees P t)
    (hf : ∀ a t₁, Returns t t₁ (.ok a) → Guarantees (fun past => P (t₁ ++ past)) (f a)) :
    Guarantees P (t >>= f) := by
  intro tr r hrun past e rest htr
  rcases returns_bind.mp hrun with ⟨err, _, h₁⟩ | ⟨a, t₁, t₂, heq, h₁, h₂⟩
  · exact ht tr _ h₁ past e rest htr
  · rw [heq] at htr
    -- the event is one of the first task, or one of the second
    rcases List.append_eq_append_iff.mp htr with ⟨u, rfl, hu⟩ | ⟨u, rfl, hu⟩
    · exact hf a t₁ h₁ t₂ r h₂ u e rest hu
    · cases u with
      | nil =>
          rw [List.nil_append] at hu
          have hnil : P (past ++ []) e :=
            hf a past (by rwa [List.append_nil] at h₁) t₂ r h₂ [] e rest hu.symm
          rwa [List.append_nil] at hnil
      | cons x u =>
          rw [List.cons_append, List.cons.injEq] at hu
          rw [hu.1]
          exact ht _ _ h₁ past x u rfl

/-- A computed step in front has seen nothing. -/
theorem guarantees_lift_bind {x : Except ε α} (h : ∀ a, x = .ok a → Guarantees P (f a)) :
    Guarantees P ((liftM x : Task Op Res ε α) >>= f) := by
  refine (guarantees_lift x).bind ?_
  intro a t₁ hrun
  obtain ⟨rfl, hx⟩ := returns_lift.mp hrun
  exact h a hx.symm

/-- A request in front has seen its answer. -/
theorem guarantees_request_bind {o : Op} {f : Res o → Task Op Res ε β} (ho : ∀ r, P [] ⟨o, r⟩)
    (hf : ∀ r, Guarantees (fun past => P (⟨o, r⟩ :: past)) (f r)) :
    Guarantees P ((request o : Task Op Res ε (Res o)) >>= f) := by
  refine (guarantees_request ho).bind ?_
  intro a t₁ hrun
  obtain ⟨r, hr, rfl⟩ := returns_request.mp hrun
  rw [Except.ok.inj hr]
  exact hf r

end Guarantees

/-! ## Handlers -/

/-- The program with every request answered by the task of its handler, which may end it. -/
def handle (h : (o : Op) → Task Op' Res' π (Res o)) : Prog Op Res α → Task Op' Res' π α
  | .pure a => pure a
  | .ask o k => h o >>= fun r => handle h (k r)

/-- The events are realized one after the other, each by a run of its handler. -/
inductive Realizes (h : (o : Op) → Task Op' Res' π (Res o)) :
    List (Event Res) → List (Event Res') → Prop
  | nil : Realizes h [] []
  | cons {o : Op} {r : Res o} {evs : List (Event Res)} {t₁ t₂ : List (Event Res')}
      (hhead : Returns (h o) t₁ (.ok r)) (htail : Realizes h evs t₂) :
      Realizes h (⟨o, r⟩ :: evs) (t₁ ++ t₂)

/-- The program gets to this request when its requests are answered like this. -/
inductive Prog.Asks : Prog Op Res α → List (Event Res) → Op → Prop
  | here {o : Op} {k : Res o → Prog Op Res α} : Prog.Asks (.ask o k) [] o
  | later {o o' : Op} {k : Res o → Prog Op Res α} {r : Res o} {evs : List (Event Res)} :
      Prog.Asks (k r) evs o' → Prog.Asks (.ask o k) (⟨o, r⟩ :: evs) o'

section Handle

variable {h : (o : Op) → Task Op' Res' π (Res o)}

/-- A request that is reached can be answered in any way. -/
theorem Prog.Asks.run [∀ o, Nonempty (Res o)] {p : Prog Op Res α} {evs : List (Event Res)} {o : Op}
    (hasks : Prog.Asks p evs o) (r : Res o) :
    ∃ rest a, Prog.Run p (evs ++ ⟨o, r⟩ :: rest) a := by
  induction hasks with
  | @here o k =>
      obtain ⟨rest, a, hrun⟩ := exists_run (k r)
      exact ⟨rest, a, .ask hrun⟩
  | later _ ih =>
      obtain ⟨rest, a, hrun⟩ := ih r
      exact ⟨rest, a, .ask hrun⟩

/-- **The rule for handlers.** A run of the handled program is a run of the program, with
its events realized. -/
theorem returns_handle {p : Prog Op Res α} {tr : List (Event Res')} {a : α} :
    Returns (handle h p) tr (.ok a) ↔ ∃ evs, Prog.Run p evs a ∧ Realizes h evs tr := by
  induction p generalizing tr with
  | pure b =>
      rw [handle, returns_pure]
      constructor
      · rintro ⟨rfl, hb⟩
        rw [Except.ok.inj hb]
        exact ⟨[], .pure b, .nil⟩
      · rintro ⟨evs, hrun, hreal⟩
        obtain ⟨rfl, rfl⟩ := run_pure.mp hrun
        cases hreal
        exact ⟨rfl, rfl⟩
  | ask o k ih =>
      rw [handle, returns_bind_ok]
      constructor
      · rintro ⟨r, t₁, t₂, rfl, hhead, hrest⟩
        obtain ⟨evs, hrun, hreal⟩ := (ih r).mp hrest
        exact ⟨⟨o, r⟩ :: evs, .ask hrun, .cons hhead hreal⟩
      · rintro ⟨_, hrun, hreal⟩
        obtain ⟨r, evs, rfl, hrest⟩ := run_ask.mp hrun
        cases hreal with
        | cons hhead htail => exact ⟨r, _, _, rfl, hhead, (ih r).mpr ⟨evs, hrest, htail⟩⟩

theorem Realizes.append {evs evs' : List (Event Res)} {tr tr' : List (Event Res')}
    (hreal : Realizes h evs tr) (hreal' : Realizes h evs' tr') :
    Realizes h (evs ++ evs') (tr ++ tr') := by
  induction hreal with
  | nil => exact hreal'
  | @cons o r evs t₁ t₂ hhead htail ih =>
      rw [List.cons_append, List.append_assoc]
      exact .cons hhead ih

/-- Where a handler makes one request, and hands its answer on, the events are translated
one by one. -/
theorem realizes_map {f : Event Res → Event Res'}
    (hf : ∀ o tr x, Returns (h o) tr x ↔ ∃ r, x = .ok r ∧ tr = [f ⟨o, r⟩])
    {evs : List (Event Res)} {tr : List (Event Res')} :
    Realizes h evs tr ↔ tr = evs.map f := by
  constructor
  · intro hreal
    induction hreal with
    | nil => rfl
    | cons hhead _ ih =>
        obtain ⟨r, hr, rfl⟩ := (hf _ _ _).mp hhead
        rw [ih, List.map_cons, Except.ok.inj hr]
        rfl
  · rintro rfl
    induction evs with
    | nil => exact .nil
    | cons e evs ih =>
        have hhead : Returns (h e.1) [f e] (.ok e.2) := (hf _ _ _).mpr ⟨e.2, rfl, rfl⟩
        exact .cons hhead ih

/-- **What a handled program has seen before an event.** Some requests were answered, and the
handler of the next one made the event, after others of its own. -/
theorem Began.at_event {p : Prog Op Res α} {t₁ t₂ : List (Event Res')} {e : Event Res'}
    (hbegan : Began (handle h p) (t₁ ++ e :: t₂)) :
    ∃ evs o u₁ u, t₁ = u₁ ++ u ∧ Realizes h evs u₁ ∧ Prog.Asks p evs o ∧
      Began (h o) (u ++ [e]) := by
  rw [← List.singleton_append, ← List.append_assoc] at hbegan
  replace hbegan := hbegan.left
  induction p generalizing t₁ with
  | pure a =>
      obtain ⟨rest, r, hrun⟩ := hbegan
      have hnil := (List.append_eq_nil_iff.mp (returns_pure.mp hrun).1).1
      exact absurd hnil (List.append_ne_nil_of_right_ne_nil t₁ (List.cons_ne_nil e []))
  | ask o k ih =>
      rw [handle] at hbegan
      rcases began_bind hbegan with hat | ⟨r, s₁, s₂, heq, hhead, hrest⟩
      · exact ⟨[], o, [], t₁, rfl, .nil, .here, hat⟩
      · rcases List.eq_nil_or_concat s₂ with rfl | ⟨s, x, rfl⟩
        · -- the first handler ended with the event
          rw [List.append_nil] at heq
          refine ⟨[], o, [], t₁, rfl, .nil, .here, [], .ok r, ?_⟩
          rwa [List.append_nil, heq]
        · rw [List.concat_eq_append] at heq hrest
          rw [← List.append_assoc] at heq
          obtain ⟨rfl, hlast⟩ := List.append_inj' heq rfl
          obtain ⟨rfl, _⟩ := List.cons.inj hlast
          obtain ⟨evs, o', u₁, u, rfl, hreal, hasks, hat⟩ := ih r hrest
          exact ⟨⟨o, r⟩ :: evs, o', s₁ ++ u₁, u, (List.append_assoc s₁ u₁ u).symm,
            .cons hhead hreal, .later hasks, hat⟩

/-- A handled program does not fail where no handler does. -/
theorem ok_of_handle (hok : ∀ o tr x, Returns (h o) tr x → ∃ r, x = .ok r) {p : Prog Op Res α}
    {tr : List (Event Res')} {x : Except π α} (hrun : Returns (handle h p) tr x) :
    ∃ a, x = .ok a := by
  induction p generalizing tr with
  | pure a => exact ⟨a, (returns_pure.mp hrun).2⟩
  | ask o k ih =>
      rcases returns_bind.mp hrun with ⟨e, _, hhead⟩ | ⟨r, t₁, t₂, _, _, hrest⟩
      · obtain ⟨r, hr⟩ := hok _ _ _ hhead
        cases hr
      · exact ih r hrest

/-- What every handler guarantees, whatever was seen before it, the handled program does. -/
theorem guarantees_handle {P : List (Event Res') → Event Res' → Prop}
    (hP : ∀ o pre, Guarantees (fun past => P (pre ++ past)) (h o)) (p : Prog Op Res α) :
    Guarantees P (handle h p) := by
  have hpre : ∀ pre, Guarantees (fun past => P (pre ++ past)) (handle h p) := by
    induction p with
    | pure a => exact fun pre => guarantees_pure a
    | ask o k ih =>
        intro pre
        refine (hP o pre).bind fun r t₁ _ => ?_
        simpa only [List.append_assoc] using ih r (pre ++ t₁)
  exact hpre []

end Handle

/-! ## Results -/

/-- A task with its result read in another way. -/
def convert (f : Except ε α → Except π β) (t : Task Op Res ε α) : Task Op Res π β :=
  ExceptT.mk (t.run.bind fun x => .pure (f x))

theorem returns_convert {f : Except ε α → Except π β} {t : Task Op Res ε α}
    {tr : List (Event Res)} {r : Except π β} :
    Returns (convert f t) tr r ↔ ∃ x, Returns t tr x ∧ r = f x := by
  constructor
  · intro hrun
    obtain ⟨x, t₁, t₂, rfl, hx, hpure⟩ := run_bind.mp hrun
    obtain ⟨rfl, rfl⟩ := run_pure.mp hpure
    rw [List.append_nil]
    exact ⟨x, hx, rfl⟩
  · rintro ⟨x, hx, rfl⟩
    exact run_bind.mpr ⟨x, tr, [], (List.append_nil tr).symm, hx, .pure _⟩

theorem Guarantees.convert {P : List (Event Res) → Event Res → Prop} {t : Task Op Res ε α}
    (hP : Guarantees P t) (f : Except ε α → Except π β) : Guarantees P (convert f t) := by
  intro tr r hrun
  obtain ⟨x, hx, _⟩ := returns_convert.mp hrun
  exact hP tr x hx

/-! ## Tasks over a part of the requests -/

/-- The handler of a part of the requests, which are made as they are. -/
structure Embedding (Op : Type) (Res : Op → Type) (Op' : Type) (Res' : Op' → Type) where
  op : Op → Op'
  answer : (o : Op) → Res' (op o) → Res o
  event : Event Res → Event Res'
  event_eq : ∀ o r, event ⟨o, answer o r⟩ = ⟨op o, r⟩
  surjective : ∀ o r, ∃ r', answer o r' = r

/-- A task over a part of the requests, among all of them. -/
def embed (i : Embedding Op Res Op' Res') (t : Task Op Res ε α) : Task Op' Res' ε α :=
  handle (fun o => do
    let r : Res' (i.op o) ← request (i.op o)
    pure (i.answer o r)) t.run >>= fun r => liftM r

section Embed

variable {i : Embedding Op Res Op' Res'} {t : Task Op Res ε α}

/-- The runs of an embedded task are those of the task. -/
theorem returns_embed {tr : List (Event Res')} {r : Except ε α} :
    Returns (embed i t) tr r ↔ ∃ evs, tr = evs.map i.event ∧ Returns t evs r := by
  have hone : ∀ o tr (x : Except ε (Res o)), Returns (do
      let r : Res' (i.op o) ← request (i.op o)
      pure (i.answer o r)) tr x ↔ ∃ r, x = .ok r ∧ tr = [i.event ⟨o, r⟩] := by
    intro o tr x
    rw [returns_request_bind]
    constructor
    · rintro ⟨r, _, rfl, hpure⟩
      obtain ⟨rfl, rfl⟩ := returns_pure.mp hpure
      exact ⟨_, rfl, by rw [i.event_eq]⟩
    · rintro ⟨r, rfl, rfl⟩
      obtain ⟨r', rfl⟩ := i.surjective o r
      exact ⟨r', [], by rw [i.event_eq], returns_pure.mpr ⟨rfl, rfl⟩⟩
  have hok : ∀ o tr (x : Except ε (Res o)), Returns (do
      let r : Res' (i.op o) ← request (i.op o)
      pure (i.answer o r)) tr x → ∃ r, x = .ok r :=
    fun o tr x hx => ((hone o tr x).mp hx).imp fun _ hr => hr.1
  rw [embed, returns_bind]
  constructor
  · rintro (⟨e, rfl, h₁⟩ | ⟨x, t₁, t₂, rfl, h₁, h₂⟩)
    · obtain ⟨a, ha⟩ := ok_of_handle hok h₁
      cases ha
    · obtain ⟨evs, hrun, hreal⟩ := returns_handle.mp h₁
      obtain ⟨rfl, rfl⟩ := returns_lift.mp h₂
      rw [List.append_nil]
      exact ⟨evs, (realizes_map hone).mp hreal, hrun⟩
  · rintro ⟨evs, rfl, hrun⟩
    refine .inr ⟨r, evs.map i.event, [], (List.append_nil _).symm, ?_, returns_lift.mpr ⟨rfl, rfl⟩⟩
    exact returns_handle.mpr ⟨evs, hrun, (realizes_map hone).mpr rfl⟩

/-- An embedded task guarantees what the task does. -/
theorem Guarantees.embed {P : List (Event Res) → Event Res → Prop}
    {Q : List (Event Res') → Event Res' → Prop} (h : Guarantees P t)
    (hPQ : ∀ past e, P past e → Q (past.map i.event) (i.event e)) :
    Guarantees Q (Effect.embed i t) := by
  intro tr r hrun past e rest htr
  obtain ⟨evs, hevs, hrun'⟩ := returns_embed.mp hrun
  obtain ⟨past', evs', rfl, hpast, hrest⟩ := List.map_eq_append_iff.mp (hevs.symm.trans htr)
  obtain ⟨e', rest', rfl, he, _⟩ := List.map_eq_cons_iff.mp hrest
  rw [← hpast, ← he]
  exact hPQ past' e' (h _ _ hrun' past' e' rest' rfl)

end Embed

/-! ## Parts of a world -/

/-- **The selection rule.** The events that a part of the world sees, as its own, are steps
of it when the others leave it alone. -/
theorem Steps.select {σ τ : Type} {step : σ → (o : Op') → Res' o → σ → Prop}
    {step' : τ → (o : Op) → Res o → τ → Prop} {tr : List (Event Res')} {s s' : σ}
    (h : Steps step s tr s') (abs : σ → τ) (see : Event Res' → Option (Event Res))
    (hsee : ∀ e e', see e = some e' → ∀ s s', step s e.1 e.2 s' →
      step' (abs s) e'.1 e'.2 (abs s'))
    (hskip : ∀ e, see e = none → ∀ s s', step s e.1 e.2 s' → abs s' = abs s) :
    Steps step' (abs s) (tr.filterMap see) (abs s') := by
  induction h with
  | nil => exact .nil _
  | @cons s u s' o r tr hstep _ ih =>
      cases he : see ⟨o, r⟩ with
      | none =>
          rw [List.filterMap_cons_none he, ← hskip _ he _ _ hstep]
          exact ih
      | some e' =>
          rw [List.filterMap_cons_some he]
          exact .cons (hsee _ _ he _ _ hstep) ih

end Effect
