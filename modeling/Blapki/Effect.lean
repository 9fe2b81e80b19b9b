/-
Effect trees: programs that talk to an environment, and what can be said about
every run of one.

A program is the tree of the requests it makes. A node asks the environment for
something and branches on the answer, a leaf returns. Nothing about the
environment is fixed by the tree, so a property of every path of the tree is a
property under every environment: every failure of every call, every clock,
every random byte, and every other program running in between.

Three layers are kept apart:

* `Prog.Run p tr a`: the path through `p` that sees the events `tr` returns `a`.
* `Steps step s tr s'`: a world whose reactions are `step` goes through the
  events `tr` from state `s` to `s'`.
* `Prog.eval`: one deterministic environment, so that a closed program can be
  evaluated; it is a path the world accepts.

A request is a value `o : Op`, the type of its answers is `Res o`.
-/
import Mathlib.Data.Sigma.Basic
import Mathlib.Tactic.Basic

set_option autoImplicit false

namespace Effect

variable {Op : Type} {Res : Op → Type} {α β γ ε σ : Type}

/-! ## Programs -/

/-- A program over the requests `Op`: a value, or a request and what to do with
its answer. -/
inductive Prog (Op : Type) (Res : Op → Type) (α : Type) : Type
  | pure (a : α) : Prog Op Res α
  | ask (o : Op) (k : Res o → Prog Op Res α) : Prog Op Res α

/-- Sequencing: the leaves of the first program become the second. -/
def Prog.bind : Prog Op Res α → (α → Prog Op Res β) → Prog Op Res β
  | .pure a, f => f a
  | .ask o k, f => .ask o fun r => (k r).bind f

instance : Monad (Prog Op Res) where
  pure := Prog.pure
  bind := Prog.bind

/-- The program that makes one request and returns its answer. -/
def Prog.perform (o : Op) : Prog Op Res (Res o) := .ask o .pure

/-! ## Paths -/

/-- One exchange with the environment: a request and the answer it got. -/
abbrev Event (Res : Op → Type) : Type := (o : Op) × Res o

/-- `Run p tr a`: answering the requests of `p` as in `tr` ends in `a`. -/
inductive Prog.Run : Prog Op Res α → List (Event Res) → α → Prop
  | pure (a : α) : Prog.Run (.pure a) [] a
  | ask {o : Op} {k : Res o → Prog Op Res α} {r : Res o} {tr : List (Event Res)} {a : α} :
      Prog.Run (k r) tr a → Prog.Run (.ask o k) (⟨o, r⟩ :: tr) a

theorem run_pure {a b : α} {tr : List (Event Res)} :
    Prog.Run (Prog.pure a) tr b ↔ tr = [] ∧ b = a := by
  constructor
  · rintro ⟨⟩
    exact ⟨rfl, rfl⟩
  · rintro ⟨rfl, rfl⟩
    exact .pure b

theorem run_ask {o : Op} {k : Res o → Prog Op Res α} {tr : List (Event Res)} {a : α} :
    Prog.Run (.ask o k) tr a ↔ ∃ r tr', tr = ⟨o, r⟩ :: tr' ∧ Prog.Run (k r) tr' a := by
  constructor
  · intro h
    cases h with
    | ask h => exact ⟨_, _, rfl, h⟩
  · rintro ⟨r, tr', rfl, h⟩
    exact .ask h

theorem run_perform {o : Op} {tr : List (Event Res)} {r : Res o} :
    Prog.Run (Prog.perform o) tr r ↔ tr = [⟨o, r⟩] := by
  constructor
  · intro h
    obtain ⟨r', tr', rfl, h'⟩ := run_ask.mp h
    obtain ⟨rfl, rfl⟩ := run_pure.mp h'
    rfl
  · rintro rfl
    exact .ask (.pure r)

/-- A path through a sequence is a path through the first program followed by
one through the second. -/
theorem run_bind {p : Prog Op Res α} {f : α → Prog Op Res β} {tr : List (Event Res)} {b : β} :
    Prog.Run (p.bind f) tr b ↔
      ∃ a t₁ t₂, tr = t₁ ++ t₂ ∧ Prog.Run p t₁ a ∧ Prog.Run (f a) t₂ b := by
  constructor
  · intro h
    induction p generalizing tr with
    | pure a => exact ⟨a, [], tr, rfl, .pure a, h⟩
    | ask o k ih =>
        obtain ⟨r, tr', rfl, h'⟩ := run_ask.mp h
        obtain ⟨a, t₁, t₂, rfl, h₁, h₂⟩ := ih r h'
        exact ⟨a, ⟨o, r⟩ :: t₁, t₂, rfl, .ask h₁, h₂⟩
  · rintro ⟨a, t₁, t₂, rfl, h₁, h₂⟩
    induction h₁ with
    | pure a => exact h₂
    | ask _ ih => exact .ask (ih h₂)

/-! ## Programs that can fail

`Task` is the program with an error result, `Returns` its runs. The rules below
are one per way a task is put together, and every property of a task is proved
by taking its runs apart with them. -/

/-- A program that returns a value or an error. -/
abbrev Task (Op : Type) (Res : Op → Type) (ε α : Type) : Type := ExceptT ε (Prog Op Res) α

/-- `Returns t tr r`: the run of `t` that sees the events `tr` ends in `r`. -/
def Returns (t : Task Op Res ε α) (tr : List (Event Res)) (r : Except ε α) : Prop :=
  Prog.Run t.run tr r

/-- Run a task and hand its result over as a value, error or not. -/
def attempt (t : Task Op Res ε α) : Task Op Res ε (Except ε α) := ExceptT.lift t.run

/-- Make one request that cannot fail as a request. -/
def request (o : Op) : Task Op Res ε (Res o) := ExceptT.lift (Prog.perform o)

theorem returns_pure {a : α} {tr : List (Event Res)} {r : Except ε α} :
    Returns (pure a : Task Op Res ε α) tr r ↔ tr = [] ∧ r = .ok a := run_pure

theorem returns_throw {e : ε} {tr : List (Event Res)} {r : Except ε α} :
    Returns (throw e : Task Op Res ε α) tr r ↔ tr = [] ∧ r = .error e := run_pure

theorem returns_lift {x : Except ε α} {tr : List (Event Res)} {r : Except ε α} :
    Returns (liftM x : Task Op Res ε α) tr r ↔ tr = [] ∧ r = x := run_pure

private theorem returns_of_lift {p : Prog Op Res α} {tr : List (Event Res)} {r : Except ε α} :
    Returns (ExceptT.lift p : Task Op Res ε α) tr r ↔ ∃ a, r = .ok a ∧ Prog.Run p tr a := by
  have hmap : (ExceptT.lift p : Task Op Res ε α).run = p.bind fun a => .pure (.ok a) := rfl
  rw [Returns, hmap, run_bind]
  constructor
  · rintro ⟨a, t₁, t₂, rfl, h₁, h₂⟩
    obtain ⟨rfl, rfl⟩ := run_pure.mp h₂
    exact ⟨a, rfl, by rwa [List.append_nil]⟩
  · rintro ⟨a, rfl, h⟩
    exact ⟨a, tr, [], by rw [List.append_nil], h, .pure _⟩

theorem returns_attempt {t : Task Op Res ε α} {tr : List (Event Res)}
    {r : Except ε (Except ε α)} :
    Returns (attempt t) tr r ↔ ∃ x, r = .ok x ∧ Returns t tr x := returns_of_lift

theorem returns_request {o : Op} {tr : List (Event Res)} {r : Except ε (Res o)} :
    Returns (request o : Task Op Res ε (Res o)) tr r ↔ ∃ a, r = .ok a ∧ tr = [⟨o, a⟩] := by
  simp only [request, returns_of_lift, run_perform]

/-- A run of a sequence of tasks stops at the first error, or goes through. -/
theorem returns_bind {t : Task Op Res ε α} {f : α → Task Op Res ε β} {tr : List (Event Res)}
    {r : Except ε β} :
    Returns (t >>= f) tr r ↔
      (∃ e, r = .error e ∧ Returns t tr (.error e)) ∨
        ∃ a t₁ t₂, tr = t₁ ++ t₂ ∧ Returns t t₁ (.ok a) ∧ Returns (f a) t₂ r := by
  have hbind : (t >>= f).run = t.run.bind (ExceptT.bindCont f) := rfl
  rw [Returns, hbind, run_bind]
  constructor
  · rintro ⟨x, t₁, t₂, rfl, h₁, h₂⟩
    cases x with
    | error e =>
        obtain ⟨rfl, rfl⟩ := run_pure.mp h₂
        exact .inl ⟨e, rfl, by rwa [List.append_nil]⟩
    | ok a => exact .inr ⟨a, t₁, t₂, rfl, h₁, h₂⟩
  · rintro (⟨e, rfl, h⟩ | ⟨a, t₁, t₂, rfl, h₁, h₂⟩)
    · exact ⟨.error e, tr, [], by rw [List.append_nil], h, .pure _⟩
    · exact ⟨.ok a, t₁, t₂, rfl, h₁, h₂⟩

/-- The successful runs of a sequence. -/
theorem returns_bind_ok {t : Task Op Res ε α} {f : α → Task Op Res ε β}
    {tr : List (Event Res)} {b : β} :
    Returns (t >>= f) tr (.ok b) ↔
      ∃ a t₁ t₂, tr = t₁ ++ t₂ ∧ Returns t t₁ (.ok a) ∧ Returns (f a) t₂ (.ok b) := by
  rw [returns_bind]
  constructor
  · rintro (⟨e, h, _⟩ | h)
    · cases h
    · exact h
  · exact .inr

/-- A computed step in front of a task: an error ends it, a value goes on with
no event seen. -/
theorem returns_lift_bind {x : Except ε α} {f : α → Task Op Res ε β} {tr : List (Event Res)}
    {r : Except ε β} :
    Returns ((liftM x : Task Op Res ε α) >>= f) tr r ↔
      (∃ e, x = .error e ∧ tr = [] ∧ r = .error e) ∨ ∃ a, x = .ok a ∧ Returns (f a) tr r := by
  cases x with
  -- the task is over before it has asked for anything
  | error e =>
      constructor
      · intro h
        obtain ⟨htr, hr⟩ := run_pure.mp h
        exact .inl ⟨e, rfl, htr, hr⟩
      · rintro (⟨_, ⟨⟩, rfl, rfl⟩ | ⟨_, ⟨⟩, _⟩)
        exact .pure _
  | ok a =>
      constructor
      · exact fun h => .inr ⟨a, rfl, h⟩
      · rintro (⟨_, ⟨⟩, _⟩ | ⟨_, ⟨⟩, h⟩)
        exact h

/-- The successful runs of it. -/
theorem returns_lift_bind_ok {x : Except ε α} {f : α → Task Op Res ε β} {tr : List (Event Res)}
    {b : β} :
    Returns ((liftM x : Task Op Res ε α) >>= f) tr (.ok b) ↔
      ∃ a, x = .ok a ∧ Returns (f a) tr (.ok b) := by
  rw [returns_lift_bind]
  constructor
  · rintro (⟨e, _, _, h⟩ | h)
    · cases h
    · exact h
  · exact .inr

/-- A computed step that succeeds goes on with its value. -/
theorem lift_bind_of_ok {x : Except ε α} {a : α} (h : x = .ok a) {f : α → Task Op Res ε β} :
    ((liftM x : Task Op Res ε α) >>= f) = f a := by
  rw [h]
  rfl

/-- A caught step in front of a task: whatever it returns, the task goes on. -/
theorem returns_attempt_bind {t : Task Op Res ε α} {f : Except ε α → Task Op Res ε β}
    {tr : List (Event Res)} {r : Except ε β} :
    Returns (attempt t >>= f) tr r ↔
      ∃ x t₁ t₂, tr = t₁ ++ t₂ ∧ Returns t t₁ x ∧ Returns (f x) t₂ r := by
  rw [returns_bind]
  constructor
  · rintro (⟨e, _, h⟩ | ⟨x, t₁, t₂, rfl, h₁, h₂⟩)
    · obtain ⟨x, hx, _⟩ := returns_attempt.mp h
      cases hx
    · obtain ⟨y, hy, h₁⟩ := returns_attempt.mp h₁
      cases hy
      exact ⟨x, t₁, t₂, rfl, h₁, h₂⟩
  · rintro ⟨x, t₁, t₂, rfl, h₁, h₂⟩
    exact .inr ⟨x, t₁, t₂, rfl, returns_attempt.mpr ⟨x, rfl, h₁⟩, h₂⟩

/-- A caught step whose runs are one event each. -/
theorem returns_attempt_event_bind {t : Task Op Res ε α} {f : Except ε α → Task Op Res ε β}
    {ev : Except ε α → Event Res} (ht : ∀ tr x, Returns t tr x ↔ tr = [ev x])
    {tr : List (Event Res)} {r : Except ε β} :
    Returns (attempt t >>= f) tr r ↔ ∃ x tr', tr = ev x :: tr' ∧ Returns (f x) tr' r := by
  rw [returns_attempt_bind]
  constructor
  · rintro ⟨x, t₁, t₂, rfl, h₁, h₂⟩
    obtain rfl := (ht t₁ x).mp h₁
    exact ⟨x, t₂, rfl, h₂⟩
  · rintro ⟨x, tr', rfl, h⟩
    exact ⟨x, [ev x], tr', rfl, (ht _ x).mpr rfl, h⟩

/-- A request in front of a task: its event comes first. -/
theorem returns_request_bind {o : Op} {f : Res o → Task Op Res ε β} {tr : List (Event Res)}
    {r : Except ε β} :
    Returns ((request o : Task Op Res ε (Res o)) >>= f) tr r ↔
      ∃ a tr', tr = ⟨o, a⟩ :: tr' ∧ Returns (f a) tr' r := by
  rw [returns_bind]
  constructor
  · rintro (⟨e, _, h⟩ | ⟨a, t₁, t₂, rfl, h₁, h₂⟩)
    · obtain ⟨a, ha, _⟩ := returns_request.mp h
      cases ha
    · obtain ⟨a', ha, rfl⟩ := returns_request.mp h₁
      cases ha
      exact ⟨a, t₂, rfl, h₂⟩
  · rintro ⟨a, tr', rfl, h⟩
    exact .inr ⟨a, [⟨o, a⟩], tr', rfl, returns_request.mpr ⟨a, rfl, rfl⟩, h⟩

/-- A request followed by a computed step on its answer. -/
theorem returns_request_lift {o : Op} {g : Res o → Except ε β} {tr : List (Event Res)}
    {r : Except ε β} :
    Returns ((request o : Task Op Res ε (Res o)) >>= fun a => liftM (g a)) tr r ↔
      ∃ a, tr = [⟨o, a⟩] ∧ r = g a := by
  rw [returns_request_bind]
  constructor
  · rintro ⟨a, tr', rfl, h⟩
    obtain ⟨rfl, rfl⟩ := returns_lift.mp h
    exact ⟨a, rfl, rfl⟩
  · rintro ⟨a, rfl, rfl⟩
    exact ⟨a, [], rfl, returns_lift.mpr ⟨rfl, rfl⟩⟩

/-! ## Loops

A task run on every element of a list in turn. -/

/-- The events and the values of a loop that went through. -/
inductive Each (t : α → Task Op Res ε β) : List α → List (Event Res) → List β → Prop
  | nil : Each t [] [] []
  | cons {a : α} {l : List α} {t₁ t₂ : List (Event Res)} {b : β} {bs : List β}
      (hhead : Returns (t a) t₁ (.ok b)) (htail : Each t l t₂ bs) :
      Each t (a :: l) (t₁ ++ t₂) (b :: bs)

theorem Each.length_eq {t : α → Task Op Res ε β} {l : List α} {tr : List (Event Res)} {bs : List β}
    (h : Each t l tr bs) : bs.length = l.length := by
  induction h with
  | nil => rfl
  | cons _ _ ih => rw [List.length_cons, List.length_cons, ih]

/-- Every value was returned for an element, in a part of the run. -/
theorem Each.mem_zip {t : α → Task Op Res ε β} {l : List α} {tr : List (Event Res)} {bs : List β}
    (h : Each t l tr bs) {a : α} {b : β} (hmem : (a, b) ∈ l.zip bs) :
    ∃ t', t' <:+: tr ∧ Returns (t a) t' (.ok b) := by
  induction h with
  | nil => exact absurd hmem List.not_mem_nil
  | @cons a' l t₁ t₂ b' bs hhead htail ih =>
      rw [List.zip_cons_cons] at hmem
      rcases List.mem_cons.mp hmem with heq | hmem
      · obtain ⟨rfl, rfl⟩ := Prod.mk.inj heq
        exact ⟨t₁, List.infix_append' [] t₁ t₂, hhead⟩
      · obtain ⟨t', ht', hrun⟩ := ih hmem
        exact ⟨t', ht'.trans (List.suffix_append t₁ t₂).isInfix, hrun⟩

/-- Every element has a value. -/
theorem Each.exists_zip {t : α → Task Op Res ε β} {l : List α} {tr : List (Event Res)} {bs : List β}
    (h : Each t l tr bs) {a : α} (hmem : a ∈ l) : ∃ b, (a, b) ∈ l.zip bs := by
  have hfst : (l.zip bs).map Prod.fst = l := List.map_fst_zip (Nat.le_of_eq h.length_eq.symm)
  rw [← hfst] at hmem
  obtain ⟨⟨a', b⟩, hzip, rfl⟩ := List.mem_map.mp hmem
  exact ⟨b, hzip⟩

/-! ## Results with their runs

A result can be handed on together with the fact that it was returned, for a
caller that builds on what the task establishes. -/

/-- Every value with a run that returned it. -/
def Prog.attach : (p : Prog Op Res α) → Prog Op Res { a // ∃ tr, Prog.Run p tr a }
  | .pure a => .pure ⟨a, [], .pure a⟩
  | .ask _ k => .ask _ fun r => (k r).attach.bind fun a =>
      .pure ⟨a.val, a.property.imp' (List.cons ⟨_, r⟩) fun _ h => .ask h⟩

/-- Attaching the runs changes nothing else. -/
theorem run_attach {p : Prog Op Res α} {tr : List (Event Res)} {a : { a // ∃ tr, Prog.Run p tr a }} :
    Prog.Run p.attach tr a ↔ Prog.Run p tr a.val := by
  induction p generalizing tr with
  | pure b =>
      rw [Prog.attach, run_pure, run_pure]
      exact and_congr_right fun _ => Subtype.ext_iff
  | ask o k ih =>
      rw [Prog.attach, run_ask, run_ask]
      refine exists_congr fun r => exists_congr fun tr' => and_congr_right fun _ => ?_
      -- the witness added at the end asks for nothing
      rw [run_bind]
      constructor
      · rintro ⟨b, t₁, t₂, rfl, h₁, h₂⟩
        obtain ⟨rfl, rfl⟩ := run_pure.mp h₂
        rw [List.append_nil]
        exact (ih r).mp h₁
      · intro h
        exact ⟨⟨a.val, tr', h⟩, tr', [], by rw [List.append_nil], (ih r).mpr h, run_pure.mpr ⟨rfl, rfl⟩⟩

/-- The value of a task with a run that returned it. -/
def attach (t : Task Op Res ε α) : Task Op Res ε { a // ∃ tr, Returns t tr (.ok a) } :=
  ExceptT.mk (t.run.attach.bind fun r => .pure (match r with
    | ⟨.ok a, h⟩ => .ok ⟨a, h⟩
    | ⟨.error e, _⟩ => .error e))

theorem returns_attach {t : Task Op Res ε α} {tr : List (Event Res)}
    {a : { a // ∃ tr, Returns t tr (.ok a) }} :
    Returns (attach t) tr (.ok a) ↔ Returns t tr (.ok a.val) := by
  rw [Returns, attach, ExceptT.run_mk, run_bind]
  constructor
  · rintro ⟨⟨r, hr⟩, t₁, t₂, rfl, h₁, h₂⟩
    obtain ⟨rfl, hval⟩ := run_pure.mp h₂
    rw [List.append_nil]
    rcases r with e | b
    · cases hval
    · cases hval
      exact run_attach.mp h₁
  · intro h
    exact ⟨⟨.ok a.val, tr, h⟩, tr, [], by rw [List.append_nil], run_attach.mpr h,
      run_pure.mpr ⟨rfl, rfl⟩⟩

/-- Attaching the runs keeps an error. -/
theorem returns_attach_error {t : Task Op Res ε α} {tr : List (Event Res)} {e : ε} :
    Returns (attach t) tr (.error e) ↔ Returns t tr (.error e) := by
  rw [Returns, attach, ExceptT.run_mk, run_bind]
  constructor
  · rintro ⟨⟨r, hr⟩, t₁, t₂, rfl, h₁, h₂⟩
    obtain ⟨rfl, hval⟩ := run_pure.mp h₂
    rw [List.append_nil]
    rcases r with e' | b
    · cases hval
      exact run_attach.mp h₁
    · cases hval
  · intro h
    exact ⟨⟨.error e, tr, h⟩, tr, [], by rw [List.append_nil], run_attach.mpr h,
      run_pure.mpr ⟨rfl, rfl⟩⟩

/-! ## What a result depends on

Two runs of a task may differ in what it does not look at. `Determined P Q t` says
that among the runs whose events satisfy `Q`, the events `P` keeps fix the result of
`t`; that they fix how far `t` goes with them makes the notion compose. -/

/-- Of two runs that see the same kept events, the results and what is left are the
same. -/
def Determined (P : Event Res → Bool) (Q : Event Res → Prop) (t : Task Op Res ε α) : Prop :=
  ∀ (tr tr' : List (Event Res)) (r r' : Except ε α) (rest rest' : List (Event Res)),
    Returns t tr r → Returns t tr' r' → (∀ e ∈ tr, Q e) → (∀ e ∈ tr', Q e) →
    tr.filter P ++ rest = tr'.filter P ++ rest' → r = r' ∧ rest = rest'

section Determined

variable {P : Event Res → Bool} {Q : Event Res → Prop} {t : Task Op Res ε α}

theorem Determined.result (h : Determined P Q t) {tr tr' : List (Event Res)} {r r' : Except ε α}
    (hrun : Returns t tr r) (hrun' : Returns t tr' r') (hQ : ∀ e ∈ tr, Q e)
    (hQ' : ∀ e ∈ tr', Q e) (hkept : tr.filter P = tr'.filter P) : r = r' :=
  (h tr tr' r r' [] [] hrun hrun' hQ hQ' (by rw [hkept])).1

theorem determined_lift (x : Except ε α) : Determined P Q (liftM x : Task Op Res ε α) := by
  intro tr tr' r r' rest rest' h h' _ _ heq
  obtain ⟨rfl, rfl⟩ := returns_lift.mp h
  obtain ⟨rfl, rfl⟩ := returns_lift.mp h'
  exact ⟨rfl, heq⟩

theorem determined_pure (a : α) : Determined P Q (pure a : Task Op Res ε α) := by
  intro tr tr' r r' rest rest' h h' _ _ heq
  obtain ⟨rfl, rfl⟩ := returns_pure.mp h
  obtain ⟨rfl, rfl⟩ := returns_pure.mp h'
  exact ⟨rfl, heq⟩

/-- A request that is kept. -/
theorem determined_request {o : Op} (h : ∀ a, P ⟨o, a⟩ = true) :
    Determined P Q (request o : Task Op Res ε (Res o)) := by
  intro tr tr' r r' rest rest' hrun hrun' _ _ heq
  obtain ⟨a, rfl, rfl⟩ := returns_request.mp hrun
  obtain ⟨a', rfl, rfl⟩ := returns_request.mp hrun'
  rw [List.filter_cons_of_pos (h a), List.filter_cons_of_pos (h a')] at heq
  obtain ⟨hhead, htail⟩ := List.cons.inj heq
  exact ⟨congrArg Except.ok (eq_of_heq (Sigma.mk.inj hhead).2), htail⟩

/-- A request that is not kept, with one answer. -/
theorem determined_request_fixed {o : Op} (h : ∀ a, P ⟨o, a⟩ = false)
    (hQ : ∀ a a', Q ⟨o, a⟩ → Q ⟨o, a'⟩ → a = a') :
    Determined P Q (request o : Task Op Res ε (Res o)) := by
  intro tr tr' r r' rest rest' hrun hrun' hall hall' heq
  obtain ⟨a, rfl, rfl⟩ := returns_request.mp hrun
  obtain ⟨a', rfl, rfl⟩ := returns_request.mp hrun'
  rw [List.filter_cons_of_neg (by rw [h a]; exact Bool.false_ne_true),
    List.filter_cons_of_neg (by rw [h a']; exact Bool.false_ne_true)] at heq
  exact ⟨congrArg Except.ok (hQ a a' (hall _ List.mem_cons_self) (hall' _ List.mem_cons_self)), heq⟩

theorem determined_bind {f : α → Task Op Res ε β} (h : Determined P Q t)
    (hf : ∀ a, Determined P Q (f a)) : Determined P Q (t >>= f) := by
  intro tr tr' r r' rest rest' hrun hrun' hQ hQ' heq
  -- the first parts agree, so both runs go on to the second or neither does
  rcases returns_bind.mp hrun with ⟨e, rfl, h₁⟩ | ⟨a, t₁, t₂, rfl, h₁, h₂⟩
  · rcases returns_bind.mp hrun' with ⟨e', rfl, h₁'⟩ | ⟨a', t₁', t₂', rfl, h₁', h₂'⟩
    · obtain ⟨hr, hrest⟩ := h _ _ _ _ _ _ h₁ h₁' hQ hQ' heq
      cases hr
      exact ⟨rfl, hrest⟩
    · rw [List.filter_append, List.append_assoc] at heq
      have hleft := fun e he => hQ' e (List.mem_append_left _ he)
      cases (h _ _ _ _ _ _ h₁ h₁' hQ hleft heq).1
  · have hleft := fun e he => hQ e (List.mem_append_left _ he)
    have hright := fun e he => hQ e (List.mem_append_right _ he)
    rw [List.filter_append, List.append_assoc] at heq
    rcases returns_bind.mp hrun' with ⟨e', rfl, h₁'⟩ | ⟨a', t₁', t₂', rfl, h₁', h₂'⟩
    · cases (h _ _ _ _ _ _ h₁ h₁' hleft hQ' heq).1
    · have hleft' := fun e he => hQ' e (List.mem_append_left _ he)
      have hright' := fun e he => hQ' e (List.mem_append_right _ he)
      rw [List.filter_append, List.append_assoc] at heq
      obtain ⟨ha, heq'⟩ := h _ _ _ _ _ _ h₁ h₁' hleft hleft' heq
      obtain rfl := Except.ok.inj ha
      exact hf a _ _ _ _ _ _ h₂ h₂' hright hright' heq'

theorem determined_attempt (h : Determined P Q t) : Determined P Q (attempt t) := by
  intro tr tr' r r' rest rest' hrun hrun' hQ hQ' heq
  obtain ⟨x, rfl, hx⟩ := returns_attempt.mp hrun
  obtain ⟨x', rfl, hx'⟩ := returns_attempt.mp hrun'
  obtain ⟨rfl, hrest⟩ := h _ _ _ _ _ _ hx hx' hQ hQ' heq
  exact ⟨rfl, hrest⟩

/-- A caught step that is not kept, and whose result is dropped. -/
theorem determined_best_effort {k : Task Op Res ε β}
    (hquiet : ∀ tr r, Returns t tr r → ∀ e ∈ tr, P e = false) (hk : Determined P Q k) :
    Determined P Q (attempt t >>= fun _ => k) := by
  intro tr tr' r r' rest rest' hrun hrun' hQ hQ' heq
  obtain ⟨x, t₁, t₂, rfl, h₁, h₂⟩ := returns_attempt_bind.mp hrun
  obtain ⟨x', t₁', t₂', rfl, h₁', h₂'⟩ := returns_attempt_bind.mp hrun'
  have hnone : ∀ {tr : List (Event Res)}, (∀ e ∈ tr, P e = false) → tr.filter P = [] := by
    intro tr htr
    rw [List.filter_eq_nil_iff]
    intro e he
    rw [htr e he]
    exact Bool.false_ne_true
  rw [List.filter_append, List.filter_append, hnone (hquiet _ _ h₁), hnone (hquiet _ _ h₁')] at heq
  exact hk _ _ _ _ _ _ h₂ h₂' (fun e he => hQ e (List.mem_append_right _ he))
    (fun e he => hQ' e (List.mem_append_right _ he)) heq

end Determined

/-! ## Worlds -/

/-- `Steps step s tr s'`: the world goes through the events `tr` from `s` to
`s'`, where `step s o r s'` says that in state `s` it may answer `o` by `r` and
move to `s'`. -/
inductive Steps (step : σ → (o : Op) → Res o → σ → Prop) : σ → List (Event Res) → σ → Prop
  | nil (s : σ) : Steps step s [] s
  | cons {s s' s'' : σ} {o : Op} {r : Res o} {tr : List (Event Res)} :
      step s o r s' → Steps step s' tr s'' → Steps step s (⟨o, r⟩ :: tr) s''

variable {step : σ → (o : Op) → Res o → σ → Prop}

theorem steps_nil {s s' : σ} : Steps step s [] s' ↔ s' = s := by
  constructor
  · rintro ⟨⟩
    rfl
  · rintro rfl
    exact .nil s'

theorem steps_cons {s s'' : σ} {e : Event Res} {tr : List (Event Res)} :
    Steps step s (e :: tr) s'' ↔ ∃ s', step s e.1 e.2 s' ∧ Steps step s' tr s'' := by
  constructor
  · intro h
    cases h with
    | cons h₁ h₂ => exact ⟨_, h₁, h₂⟩
  · rintro ⟨s', h₁, h₂⟩
    exact .cons h₁ h₂

theorem steps_append {s s'' : σ} {t₁ t₂ : List (Event Res)} :
    Steps step s (t₁ ++ t₂) s'' ↔ ∃ s', Steps step s t₁ s' ∧ Steps step s' t₂ s'' := by
  induction t₁ generalizing s with
  | nil => simp [steps_nil]
  | cons e t ih =>
      simp only [List.cons_append, steps_cons, ih]
      constructor
      · rintro ⟨s₁, h₁, s₂, h₂, h₃⟩
        exact ⟨s₂, ⟨s₁, h₁, h₂⟩, h₃⟩
      · rintro ⟨s₂, ⟨s₁, h₁, h₂⟩, h₃⟩
        exact ⟨s₁, h₁, s₂, h₂, h₃⟩

/-- **The invariant rule.** What every event of the trace preserves, the trace
preserves. -/
theorem Steps.preserves {I : σ → Prop} {s s' : σ} {tr : List (Event Res)}
    (h : Steps step s tr s')
    (hI : ∀ e ∈ tr, ∀ s s', I s → step s e.1 e.2 s' → I s') (hs : I s) : I s' := by
  induction h with
  | nil s => exact hs
  | cons h₁ _ ih =>
      refine ih (fun e he => hI e (List.mem_cons_of_mem _ he)) ?_
      exact hI _ List.mem_cons_self _ _ hs h₁

/-- **The frame rule.** What no event of the trace changes is the same at its
end. -/
theorem Steps.frame {τ : Type} {f : σ → τ} {s s' : σ} {tr : List (Event Res)}
    (h : Steps step s tr s')
    (hf : ∀ e ∈ tr, ∀ s s', step s e.1 e.2 s' → f s' = f s) : f s' = f s :=
  h.preserves (I := fun u => f u = f s) (fun e he u u' hu hstep => (hf e he u u' hstep).trans hu) rfl

/-- **The refinement rule.** When each event of the trace moves the abstraction as
`next` says, and keeps what that needs, the abstraction of the last state is the
fold of the trace. -/
theorem Steps.refines {τ : Type} {I : σ → Prop} {s s' : σ} {tr : List (Event Res)}
    (h : Steps step s tr s') (abs : σ → τ) (next : τ → Event Res → τ)
    (hnext : ∀ e ∈ tr, ∀ s s', I s → step s e.1 e.2 s' → I s' ∧ abs s' = next (abs s) e)
    (hs : I s) : abs s' = tr.foldl next (abs s) := by
  induction h with
  | nil s => rfl
  | cons h₁ _ ih =>
      obtain ⟨hI, habs⟩ := hnext _ List.mem_cons_self _ _ hs h₁
      rw [ih (fun e he => hnext e (List.mem_cons_of_mem _ he)) hI, List.foldl_cons, habs]

/-- Every event of a trace is a step between two states the trace passes. -/
theorem Steps.mem {s s' : σ} {tr : List (Event Res)} (h : Steps step s tr s') {e : Event Res}
    (he : e ∈ tr) :
    ∃ t₁ t₂ u u', tr = t₁ ++ e :: t₂ ∧ Steps step s t₁ u ∧ step u e.1 e.2 u' ∧
      Steps step u' t₂ s' := by
  obtain ⟨t₁, t₂, rfl⟩ := List.append_of_mem he
  obtain ⟨u, h₁, h₂⟩ := steps_append.mp h
  obtain ⟨u', hstep, h₃⟩ := steps_cons.mp h₂
  exact ⟨t₁, t₂, u, u', rfl, h₁, hstep, h₃⟩

/-- A world that allows more steps goes through more traces. -/
theorem Steps.mono {step' : σ → (o : Op) → Res o → σ → Prop} {s s' : σ} {tr : List (Event Res)}
    (h : Steps step s tr s') (hle : ∀ s o r s', step s o r s' → step' s o r s') :
    Steps step' s tr s' := by
  induction h with
  | nil s => exact .nil s
  | cons h₁ _ ih => exact .cons (hle _ _ _ _ h₁) ih

/-- The first event of a trace with a property splits it. -/
theorem exists_first {P : Event Res → Prop} {tr : List (Event Res)} (h : ∃ e ∈ tr, P e) :
    ∃ t₁ e t₂, tr = t₁ ++ e :: t₂ ∧ P e ∧ ∀ e' ∈ t₁, ¬ P e' := by
  induction tr with
  | nil =>
      obtain ⟨e, he, _⟩ := h
      exact absurd he List.not_mem_nil
  | cons e tr ih =>
      by_cases he : P e
      · exact ⟨[], e, tr, rfl, he, fun _ h => absurd h List.not_mem_nil⟩
      · have htail : ∃ e ∈ tr, P e := by
          obtain ⟨e', he', hP⟩ := h
          rcases List.mem_cons.mp he' with rfl | he'
          · exact absurd hP he
          · exact ⟨e', he', hP⟩
        obtain ⟨t₁, e', t₂, rfl, hP, hfirst⟩ := ih htail
        refine ⟨e :: t₁, e', t₂, rfl, hP, ?_⟩
        rw [List.forall_mem_cons]
        exact ⟨he, hfirst⟩

/-! ## One deterministic environment -/

/-- The answers, the result and the last state of a program whose requests are
answered by `h`. -/
def Prog.eval (h : σ → (o : Op) → Res o × σ) : Prog Op Res α → σ → List (Event Res) × α × σ
  | .pure a, s => ([], a, s)
  | .ask o k, s =>
      let (r, s') := h s o
      let (tr, a, s'') := (k r).eval h s'
      (⟨o, r⟩ :: tr, a, s'')

theorem run_eval (h : σ → (o : Op) → Res o × σ) (p : Prog Op Res α) (s : σ) :
    Prog.Run p (p.eval h s).1 (p.eval h s).2.1 := by
  induction p generalizing s with
  | pure a => exact .pure a
  | ask o k ih => exact .ask (ih (h s o).1 (h s o).2)

theorem steps_eval {h : σ → (o : Op) → Res o × σ} (hstep : ∀ s o, step s o (h s o).1 (h s o).2)
    (p : Prog Op Res α) (s : σ) : Steps step s (p.eval h s).1 (p.eval h s).2.2 := by
  induction p generalizing s with
  | pure a => exact .nil s
  | ask o k ih => exact .cons (hstep s o) (ih (h s o).1 (h s o).2)

/-- Every event of an evaluation is an answer of the environment. -/
theorem mem_eval {h : σ → (o : Op) → Res o × σ} {p : Prog Op Res α} {s : σ} {e : Event Res}
    (he : e ∈ (p.eval h s).1) : ∃ u, e.2 = (h u e.1).1 := by
  induction p generalizing s with
  | pure a => exact absurd he List.not_mem_nil
  | ask o k ih =>
      rcases List.mem_cons.mp he with rfl | he
      · exact ⟨s, rfl⟩
      · exact ih _ he

end Effect
