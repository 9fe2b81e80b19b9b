/-
Tasks that can be run again.

A world has an order of its states, by what a later one still has, and events that are
settled in a state: the answers that this state and every later one give (`Settles`). A task
is `Durable` in it when a run, however far it comes, ends in a later state, and one that
succeeds ends in a state where its value can be had again, on settled answers only (`Again`).
The rules are one for each way a task is put together; a task that writes is durable by an
argument of its own.

Where a request has one settled answer, a value that can be had again is the one that is had:
in a history of runs, of which any may fail or be cut off, and of changes in between, all
that succeed agree (`Durable.history`).
-/
import Blapki.Handler

set_option autoImplicit false

namespace Effect

variable {Op : Type} {Res : Op → Type} {α β ε σ : Type}

/-! ## Runs on the same answers -/

/-- Two runs that get the same answers end in the same value. -/
theorem Prog.Run.unique {p : Prog Op Res α} {tr tr' : List (Event Res)} {a a' : α}
    (h : Prog.Run p tr a) (h' : Prog.Run p tr' a')
    (hsame : ∀ o (r r' : Res o), ⟨o, r⟩ ∈ tr → ⟨o, r'⟩ ∈ tr' → r = r') : a = a' := by
  induction h generalizing tr' with
  | pure a => exact (run_pure.mp h').2.symm
  | @ask o k r tr a _ ih =>
      obtain ⟨r', tr'', rfl, hrest⟩ := run_ask.mp h'
      obtain rfl := hsame o r r' List.mem_cons_self List.mem_cons_self
      apply ih hrest
      intro o' x x' hx hx'
      exact hsame o' x x' (List.mem_cons_of_mem _ hx) (List.mem_cons_of_mem _ hx')

/-! ## Beginnings of single steps -/

theorem began_lift {x : Except ε α} {tr : List (Event Res)}
    (h : Began (liftM x : Task Op Res ε α) tr) : tr = [] := by
  obtain ⟨rest, r, hrun⟩ := h
  exact (List.append_eq_nil_iff.mp (returns_lift.mp hrun).1).1

/-- A request in front of a task: nothing has been seen, or its answer. -/
theorem began_request_bind {o : Op} {f : Res o → Task Op Res ε β} {tr : List (Event Res)}
    (h : Began ((request o : Task Op Res ε (Res o)) >>= f) tr) :
    tr = [] ∨ ∃ r tr', tr = ⟨o, r⟩ :: tr' ∧ Began (f r) tr' := by
  obtain ⟨rest, x, hrun⟩ := h
  obtain ⟨r, tr', heq, hrest⟩ := returns_request_bind.mp hrun
  cases tr with
  | nil => exact .inl rfl
  | cons e tr =>
      rw [List.cons_append] at heq
      obtain ⟨rfl, rfl⟩ := List.cons.inj heq
      exact .inr ⟨r, tr, rfl, rest, x, hrest⟩

/-! ## Durable tasks -/

/-- What is settled in a state is settled in every later one. -/
structure Settles (le : σ → σ → Prop) (settled : σ → Event Res → Prop) : Prop where
  refl : ∀ s, le s s
  trans : ∀ {s s' s''}, le s s' → le s' s'' → le s s''
  mono : ∀ {s s' e}, le s s' → settled s e → settled s' e

/-- A request has one settled answer. -/
def Single (settled : σ → Event Res → Prop) : Prop :=
  ∀ s o (r r' : Res o), settled s ⟨o, r⟩ → settled s ⟨o, r'⟩ → r = r'

/-- The task returns the value on settled answers. -/
def Again (settled : σ → Event Res → Prop) (s : σ) (t : Task Op Res ε α) (a : α) : Prop :=
  ∃ tr, Returns t tr (.ok a) ∧ ∀ e ∈ tr, settled s e

/-- A run leaves a later state, and one that succeeds can be had again there. -/
structure Durable (step : σ → (o : Op) → Res o → σ → Prop) (le : σ → σ → Prop)
    (settled : σ → Event Res → Prop) (t : Task Op Res ε α) : Prop where
  adds : ∀ {s tr s'}, Began t tr → Steps step s tr s' → le s s'
  again : ∀ {s tr s' a}, Returns t tr (.ok a) → Steps step s tr s' → Again settled s' t a

section Durable

variable {step : σ → (o : Op) → Res o → σ → Prop} {le : σ → σ → Prop}
  {settled : σ → Event Res → Prop} {t : Task Op Res ε α} {f : α → Task Op Res ε β}

theorem Returns.began {tr : List (Event Res)} {r : Except ε α} (h : Returns t tr r) :
    Began t tr := ⟨[], r, by rwa [List.append_nil]⟩

theorem Again.mono (hs : Settles le settled) {s s' : σ} {a : α} (h : Again settled s t a)
    (hle : le s s') : Again settled s' t a := by
  obtain ⟨tr, hrun, hsettled⟩ := h
  exact ⟨tr, hrun, fun e he => hs.mono hle (hsettled e he)⟩

/-- There is one value to be had. -/
theorem Again.unique (hsingle : Single settled) {s : σ} {a a' : α} (h : Again settled s t a)
    (h' : Again settled s t a') : a = a' := by
  obtain ⟨tr, hrun, hsettled⟩ := h
  obtain ⟨tr', hrun', hsettled'⟩ := h'
  have hsame := hrun.unique hrun' fun o r r' hr hr' =>
    hsingle s o r r' (hsettled _ hr) (hsettled' _ hr')
  exact Except.ok.inj hsame

/-- A task that asks for nothing. -/
theorem durable_lift (hs : Settles le settled) (x : Except ε α) :
    Durable step le settled (liftM x : Task Op Res ε α) where
  adds := by
    intro s tr s' hbegan hsteps
    rw [began_lift hbegan] at hsteps
    rw [steps_nil.mp hsteps]
    exact hs.refl s
  again := by
    intro s tr s' a hrun _
    obtain ⟨_, hx⟩ := returns_lift.mp hrun
    exact ⟨[], returns_lift.mpr ⟨rfl, hx⟩, fun e he => absurd he List.not_mem_nil⟩

theorem durable_pure (hs : Settles le settled) (a : α) :
    Durable step le settled (pure a : Task Op Res ε α) := durable_lift hs (.ok a)

theorem durable_throw (hs : Settles le settled) (e : ε) :
    Durable step le settled (throw e : Task Op Res ε α) := durable_lift hs (.error e)

/-- **Durable tasks compose**: what the second one leaves still has what the first one left. -/
theorem Durable.bind (hs : Settles le settled) (ht : Durable step le settled t)
    (hf : ∀ a, Durable step le settled (f a)) : Durable step le settled (t >>= f) where
  adds := by
    intro s tr s' hbegan hsteps
    rcases began_bind hbegan with hbegan | ⟨a, t₁, t₂, rfl, hrun, hbegan⟩
    · exact ht.adds hbegan hsteps
    · obtain ⟨u, h₁, h₂⟩ := steps_append.mp hsteps
      exact hs.trans (ht.adds hrun.began h₁) ((hf a).adds hbegan h₂)
  again := by
    intro s tr s' b hrun hsteps
    obtain ⟨a, t₁, t₂, rfl, hrun₁, hrun₂⟩ := returns_bind_ok.mp hrun
    obtain ⟨u, h₁, h₂⟩ := steps_append.mp hsteps
    have hle : le u s' := (hf a).adds hrun₂.began h₂
    obtain ⟨t₁', hrun₁', hsettled₁⟩ := (ht.again hrun₁ h₁).mono hs hle
    obtain ⟨t₂', hrun₂', hsettled₂⟩ := (hf a).again hrun₂ h₂
    refine ⟨t₁' ++ t₂', returns_bind_ok.mpr ⟨a, t₁', t₂', rfl, hrun₁', hrun₂'⟩, ?_⟩
    intro e he
    exact (List.mem_append.mp he).elim (hsettled₁ e) (hsettled₂ e)

/-- A computed step in front of a task. -/
theorem durable_lift_bind (hs : Settles le settled) {x : Except ε α}
    (hf : ∀ a, x = .ok a → Durable step le settled (f a)) :
    Durable step le settled ((liftM x : Task Op Res ε α) >>= f) := by
  cases x with
  | ok a =>
      rw [lift_bind_of_ok rfl]
      exact hf a rfl
  | error e => exact durable_throw hs e

/-- A request whose answer is settled, or the end of the task. -/
theorem durable_request_bind (hs : Settles le settled) {o : Op} {f : Res o → Task Op Res ε β}
    (hle : ∀ s r s', step s o r s' → le s s')
    (hsettled : ∀ s r s', step s o r s' → settled s' ⟨o, r⟩ ∨ ∀ tr b, ¬ Returns (f r) tr (.ok b))
    (hf : ∀ r, Durable step le settled (f r)) :
    Durable step le settled ((request o : Task Op Res ε (Res o)) >>= f) where
  adds := by
    intro s tr s' hbegan hsteps
    rcases began_request_bind hbegan with rfl | ⟨r, rest, rfl, hrest⟩
    · rw [steps_nil.mp hsteps]
      exact hs.refl s
    · obtain ⟨u, hstep, hsteps'⟩ := steps_cons.mp hsteps
      exact hs.trans (hle s r u hstep) ((hf r).adds hrest hsteps')
  again := by
    intro s tr s' b hrun hsteps
    obtain ⟨r, rest, rfl, hrest⟩ := returns_request_bind.mp hrun
    obtain ⟨u, hstep, hsteps'⟩ := steps_cons.mp hsteps
    rcases hsettled s r u hstep with hanswer | hno
    · obtain ⟨tr', hrun', hsettled'⟩ := (hf r).again hrest hsteps'
      refine ⟨⟨o, r⟩ :: tr', returns_request_bind.mpr ⟨r, tr', rfl, hrun'⟩, ?_⟩
      exact List.forall_mem_cons.mpr ⟨hs.mono ((hf r).adds hrest.began hsteps') hanswer, hsettled'⟩
    · exact absurd hrest (hno rest b)

/-- A request whose answer is settled. -/
theorem durable_request (hs : Settles le settled) {o : Op}
    (h : ∀ s r s', step s o r s' → le s s' ∧ settled s' ⟨o, r⟩) :
    Durable step le settled (request o : Task Op Res ε (Res o)) where
  adds := by
    rintro s tr s' ⟨rest, x, hrun⟩ hsteps
    obtain ⟨r, _, htr⟩ := returns_request.mp hrun
    rcases tr with _ | ⟨e, tr⟩
    · rw [steps_nil.mp hsteps]
      exact hs.refl s
    · obtain ⟨rfl, hnil⟩ := List.cons.inj htr
      obtain ⟨u, hstep, hsteps'⟩ := steps_cons.mp hsteps
      rw [(List.append_eq_nil_iff.mp hnil).1] at hsteps'
      rw [steps_nil.mp hsteps']
      exact (h s r u hstep).1
  again := by
    intro s tr s' a hrun hsteps
    obtain ⟨r, hr, rfl⟩ := returns_request.mp hrun
    obtain ⟨u, hstep, hnil⟩ := steps_cons.mp hsteps
    rw [steps_nil.mp hnil]
    exact ⟨_, hrun, List.forall_mem_singleton.mpr (h s r u hstep).2⟩

/-- A task with its runs attached is as durable. -/
theorem durable_attach (ht : Durable step le settled t) :
    Durable step le settled (attach t) where
  adds := by
    rintro s tr s' ⟨rest, r, hrun⟩ hsteps
    cases r with
    | ok a => exact ht.adds ⟨rest, _, returns_attach.mp hrun⟩ hsteps
    | error e => exact ht.adds ⟨rest, _, returns_attach_error.mp hrun⟩ hsteps
  again := by
    intro s tr s' a hrun hsteps
    obtain ⟨tr', hrun', hsettled⟩ := ht.again (returns_attach.mp hrun) hsteps
    exact ⟨tr', returns_attach.mpr hrun', hsettled⟩

/-! ## Histories -/

/-- Runs of the task one after the other, with the values of those that succeeded. Any may fail
or be cut off, and what others do in between leaves a later state. -/
inductive History (step : σ → (o : Op) → Res o → σ → Prop) (le : σ → σ → Prop)
    (t : Task Op Res ε α) : σ → List α → σ → Prop
  | nil (s : σ) : History step le t s [] s
  | succeeded {s u s' : σ} {tr : List (Event Res)} {a : α} {values : List α}
      (hrun : Returns t tr (.ok a)) (hsteps : Steps step s tr u)
      (hrest : History step le t u values s') : History step le t s (a :: values) s'
  | cut_off {s u s' : σ} {tr : List (Event Res)} {values : List α} (hbegan : Began t tr)
      (hsteps : Steps step s tr u) (hrest : History step le t u values s') :
      History step le t s values s'
  | changed {s u s' : σ} {values : List α} (hle : le s u)
      (hrest : History step le t u values s') : History step le t s values s'

/-- Every value of a history can be had again at its end. -/
theorem Durable.again_of_history (hs : Settles le settled) (ht : Durable step le settled t)
    {s s' : σ} {values : List α} (h : History step le t s values s') :
    le s s' ∧ ∀ a ∈ values, Again settled s' t a := by
  induction h with
  | nil s => exact ⟨hs.refl s, fun a ha => absurd ha List.not_mem_nil⟩
  | succeeded hrun hsteps _ ih =>
      refine ⟨hs.trans (ht.adds hrun.began hsteps) ih.1, ?_⟩
      exact List.forall_mem_cons.mpr ⟨(ht.again hrun hsteps).mono hs ih.1, ih.2⟩
  | cut_off hbegan hsteps _ ih => exact ⟨hs.trans (ht.adds hbegan hsteps) ih.1, ih.2⟩
  | changed hle _ ih => exact ⟨hs.trans hle ih.1, ih.2⟩

/-- **The runs of a durable task agree.** -/
theorem Durable.history (hs : Settles le settled) (hsingle : Single settled)
    (ht : Durable step le settled t) {s s' : σ} {values : List α}
    (h : History step le t s values s') :
    ∀ a ∈ values, ∀ a' ∈ values, a = a' := by
  intro a ha a' ha'
  have hagain := (ht.again_of_history hs h).2
  exact (hagain a ha).unique hsingle (hagain a' ha')

end Durable

end Effect
