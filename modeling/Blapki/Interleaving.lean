/-
Tasks that run at once.

A trace of several tasks is a list of events, each tagged with the task it is of.
`events_of i` is what task `i` saw of it, and the tasks ran interleaved when that is a
run of each of them. `Steps.together` is the rule of an invariant that the next event of
any of them keeps. `Steps.project` looks at a world through an abstraction: the
events it does not see drop out, and the others are steps of the abstract world.
-/
import Blapki.Effect
import Mathlib.Data.List.Induction

set_option autoImplicit false

namespace Effect

variable {Op : Type} {Res : Op → Type} {ι κ σ τ : Type}

/-! ## Tagged traces -/

section EventsOf

variable [DecidableEq ι] {i j : ι} {e : Event Res} {w w' : List (ι × Event Res)}

/-- What task `i` saw. -/
def events_of (i : ι) (w : List (ι × Event Res)) : List (Event Res) :=
  (w.filter fun x => x.1 = i).map Prod.snd

@[simp] theorem events_of_nil : events_of i ([] : List (ι × Event Res)) = [] := rfl

/-- An event of the task is the next it saw. -/
@[simp] theorem events_of_cons_same : events_of i ((i, e) :: w) = e :: events_of i w := by
  rw [events_of, List.filter_cons, if_pos (by exact decide_eq_true rfl)]
  rfl

/-- An event of another task it did not see. -/
theorem events_of_cons_other (h : j ≠ i) : events_of i ((j, e) :: w) = events_of i w := by
  rw [events_of, List.filter_cons, if_neg (by exact mt of_decide_eq_true h)]
  rfl

theorem events_of_append : events_of i (w ++ w') = events_of i w ++ events_of i w' := by
  rw [events_of, List.filter_append, List.map_append]
  rfl

theorem mem_events_of : e ∈ events_of i w ↔ (i, e) ∈ w := by
  simp only [events_of, List.mem_map, List.mem_filter, decide_eq_true_eq]
  constructor
  · rintro ⟨⟨_, _⟩, ⟨hmem, rfl⟩, rfl⟩
    exact hmem
  · exact fun hmem => ⟨(i, e), ⟨hmem, rfl⟩, rfl⟩

/-- What a task saw first is in the trace where it had seen nothing yet. -/
theorem events_of_eq_cons {t : List (Event Res)} (h : events_of i w = e :: t) :
    ∃ p q, w = p ++ (i, e) :: q ∧ events_of i p = [] ∧ events_of i q = t := by
  induction w with
  | nil => exact absurd h (List.cons_ne_nil e t).symm
  | cons x w ih =>
      obtain ⟨j, e'⟩ := x
      by_cases hj : j = i
      · rw [hj, events_of_cons_same] at h
        obtain ⟨rfl, rfl⟩ := List.cons.inj h
        exact ⟨[], w, by rw [hj, List.nil_append], rfl, rfl⟩
      · rw [events_of_cons_other hj] at h
        obtain ⟨p, q, rfl, hp, hq⟩ := ih h
        exact ⟨(j, e') :: p, q, rfl, by rw [events_of_cons_other hj, hp], hq⟩

/-- Where what a task saw is cut, the trace can be cut. -/
theorem events_of_eq_append {t t' : List (Event Res)} (h : events_of i w = t ++ t') :
    ∃ p q, w = p ++ q ∧ events_of i p = t ∧ events_of i q = t' := by
  induction t generalizing w with
  | nil => exact ⟨[], w, rfl, rfl, h⟩
  | cons e t ih =>
      obtain ⟨p, q, rfl, hp, hq⟩ := events_of_eq_cons h
      obtain ⟨p', q', rfl, rfl, hq'⟩ := ih hq
      refine ⟨p ++ (i, e) :: p', q', by simp, ?_, hq'⟩
      rw [events_of_append, events_of_cons_same, hp, List.nil_append]

/-- Where a task saw an event, the trace is cut in two. -/
theorem events_of_eq_append_cons {t t' : List (Event Res)} (h : events_of i w = t ++ e :: t') :
    ∃ p q, w = p ++ (i, e) :: q ∧ events_of i p = t ∧ events_of i q = t' := by
  obtain ⟨p, q, rfl, hp, hq⟩ := events_of_eq_append h
  obtain ⟨p', q', rfl, hp', hq'⟩ := events_of_eq_cons hq
  refine ⟨p ++ p', q', (List.append_assoc _ _ _).symm, ?_, hq'⟩
  rw [events_of_append, hp, hp', List.append_nil]

/-- A trace that is all one task's. -/
theorem events_of_tagged {t : List (Event Res)} : events_of i (t.map (Prod.mk i)) = t := by
  induction t with
  | nil => rfl
  | cons e t ih => rw [List.map_cons, events_of_cons_same, ih]

theorem events_of_tagged_other (h : j ≠ i) {t : List (Event Res)} :
    events_of i (t.map (Prod.mk j)) = [] := by
  induction t with
  | nil => rfl
  | cons e t ih => rw [List.map_cons, events_of_cons_other h, ih]

/-- The events of a task are a part of the trace. -/
theorem events_of_sublist : (events_of i w).Sublist (w.map Prod.snd) :=
  List.filter_sublist.map Prod.snd

/-- A choice of tasks leaves the events of a chosen one as they are. -/
theorem events_of_filter {p : ι → Bool} (hi : p i = true) :
    events_of i (w.filter fun x => p x.1) = events_of i w := by
  rw [events_of, events_of, List.filter_filter]
  congr 1
  refine List.filter_congr fun x _ => ?_
  by_cases hx : x.1 = i
  · rw [hx, hi, decide_eq_true rfl]
    rfl
  · rw [decide_eq_false hx]
    rfl

end EventsOf

/-! ## Tasks that run at once -/

/-- A task that has seen these events and may go on. -/
def Began {ε α : Type} (t : Task Op Res ε α) (tr : List (Event Res)) : Prop :=
  ∃ rest r, Returns t (tr ++ rest) r

theorem Began.left {ε α : Type} {t : Task Op Res ε α} {tr rest : List (Event Res)}
    (h : Began t (tr ++ rest)) : Began t tr := by
  obtain ⟨rest', r, hrun⟩ := h
  exact ⟨rest ++ rest', r, by rwa [← List.append_assoc]⟩

/-- **The rule for tasks that run at once.** What holds at first and is kept by the next
event of every task, among tasks that have begun, holds in the end. -/
theorem Steps.together [DecidableEq ι] {ε α : Type} {tasks : ι → Task Op Res ε α}
    {step : σ → (o : Op) → Res o → σ → Prop} {I : List (ι × Event Res) → σ → Prop}
    {w : List (ι × Event Res)} {s s' : σ} (h : Steps step s (w.map Prod.snd) s')
    (hbegan : ∀ i, Began (tasks i) (events_of i w)) (hs : I [] s)
    (hI : ∀ w i e u u', Began (tasks i) (events_of i w ++ [e]) → I w u → step u e.1 e.2 u' →
      I (w ++ [(i, e)]) u') : I w s' := by
  induction w using List.reverseRecOn generalizing s' with
  | nil =>
      obtain rfl := steps_nil.mp h
      exact hs
  | append_singleton w x ih =>
      obtain ⟨i, e⟩ := x
      rw [List.map_append] at h
      obtain ⟨u, h₁, h₂⟩ := steps_append.mp h
      obtain ⟨u', hstep, h₃⟩ := steps_cons.mp h₂
      obtain rfl := steps_nil.mp h₃
      -- what every task has done before the last event is a beginning of its run
      have hprefix : ∀ j, Began (tasks j) (events_of j w) := by
        intro j
        have hj := hbegan j
        rw [events_of_append] at hj
        exact hj.left
      have hi := hbegan i
      rw [events_of_append, events_of_cons_same, events_of_nil] at hi
      exact hI w i e u _ hi (ih h₁ hprefix) hstep

/-! ## Abstract worlds -/

/-- **The projection rule.** When the events that are kept are steps of the abstract
world, and the others leave it alone, the kept ones are a trace of it. -/
theorem Steps.project {step : σ → (o : Op) → Res o → σ → Prop}
    {step' : τ → (o : Op) → Res o → τ → Prop} {f : κ → Event Res} {w : List κ} {s s' : σ}
    (h : Steps step s (w.map f) s') (abs : σ → τ) (keep : κ → Bool)
    (hkeep : ∀ x ∈ w, keep x = true → ∀ s s', step s (f x).1 (f x).2 s' →
      step' (abs s) (f x).1 (f x).2 (abs s'))
    (hskip : ∀ x ∈ w, keep x = false → ∀ s s', step s (f x).1 (f x).2 s' → abs s' = abs s) :
    Steps step' (abs s) ((w.filter keep).map f) (abs s') := by
  induction w generalizing s with
  | nil =>
      obtain rfl := steps_nil.mp h
      exact .nil _
  | cons x w ih =>
      obtain ⟨u, hstep, hrest⟩ := steps_cons.mp h
      have ih' := ih hrest (fun y hy => hkeep y (List.mem_cons_of_mem _ hy))
        (fun y hy => hskip y (List.mem_cons_of_mem _ hy))
      -- a kept event is a step of the projection, another one leaves it where it is
      by_cases hx : keep x = true
      · rw [List.filter_cons_of_pos hx]
        exact .cons (hkeep x List.mem_cons_self hx _ _ hstep) ih'
      · rw [List.filter_cons_of_neg hx,
          ← hskip x List.mem_cons_self (Bool.eq_false_iff.mpr hx) _ _ hstep]
        exact ih'

end Effect
