/-
Answers that were read one after the other while the world moved on.

A task that asks the world for several things gets each answer at a moment of its own, and
others write in between. `Collects P l bs tr` says of the task alone that every element of `l`
has its value in `bs` from an event of its run, in order. In a log that contains the run,
`Collects.spread` finds the moments: events of the task, one behind the other, each in a
state of the log in which its answer is right (`Spread`).

What holds between a state and a later one, such as a value that only grows, then holds between
any two answers of which the one was given before the other was asked for.
-/
import Blapki.Interleaving

set_option autoImplicit false

namespace Effect

variable {Op : Type} {Res : Op → Type} {α β ι σ : Type}

/-! ## Later states -/

section Reaches

variable {step : σ → (o : Op) → Res o → σ → Prop} {s u s' : σ}

/-- The world can go from one state to the other. -/
def Reaches (step : σ → (o : Op) → Res o → σ → Prop) (s s' : σ) : Prop :=
  ∃ tr, Steps step s tr s'

theorem Reaches.trans (h : Reaches step s u) (h' : Reaches step u s') : Reaches step s s' := by
  obtain ⟨t₁, h₁⟩ := h
  obtain ⟨t₂, h₂⟩ := h'
  exact ⟨t₁ ++ t₂, steps_append.mpr ⟨u, h₁, h₂⟩⟩

theorem Steps.reaches {tr : List (Event Res)} (h : Steps step s tr s') : Reaches step s s' :=
  ⟨tr, h⟩

theorem reaches_of_step {o : Op} {r : Res o} (h : step s o r s') : Reaches step s s' :=
  ⟨[⟨o, r⟩], .cons h (.nil s')⟩

end Reaches

/-! ## One task -/

/-- Every element has its value from an event of the run, in order. -/
inductive Collects (P : α → β → Event Res → Prop) : List α → List β → List (Event Res) → Prop
  | nil (tr : List (Event Res)) : Collects P [] [] tr
  | cons {a : α} {b : β} {e : Event Res} {l : List α} {bs : List β} {t₁ t₂ : List (Event Res)}
      (hhead : P a b e) (he : e ∈ t₁) (htail : Collects P l bs t₂) :
      Collects P (a :: l) (b :: bs) (t₁ ++ t₂)

theorem Collects.prepend {P : α → β → Event Res → Prop} {l : List α} {bs : List β}
    {tr : List (Event Res)} (h : Collects P l bs tr) (t : List (Event Res)) :
    Collects P l bs (t ++ tr) := by
  cases h with
  | nil => exact .nil _
  | cons hhead he htail =>
      rw [← List.append_assoc]
      exact .cons hhead (List.mem_append_right t he) htail

theorem Collects.append {P : α → β → Event Res → Prop} {l : List α} {bs : List β}
    {tr : List (Event Res)} (h : Collects P l bs tr) (t : List (Event Res)) :
    Collects P l bs (tr ++ t) := by
  induction h with
  | nil => exact .nil _
  | cons hhead he _ ih =>
      rw [List.append_assoc]
      exact .cons hhead he ih

/-! ## All of them -/

/-- In the course of the log, from its first state to its last, the task gets its values one
behind the other, each from an event of its own and right of the state in which that came. -/
inductive Spread (step : σ → (o : Op) → Res o → σ → Prop) (P : α → β → Event Res → Prop)
    (Q : σ → α → β → Prop) (i : ι) : σ → List (ι × Event Res) → List α → List β → σ → Prop
  | nil {s s' : σ} {w : List (ι × Event Res)} (h : Steps step s (w.map Prod.snd) s') :
      Spread step P Q i s w [] [] s'
  | cons {s u u' s' : σ} {w w' : List (ι × Event Res)} {e : Event Res} {a : α} {b : β}
      {l : List α} {bs : List β} (hbefore : Steps step s (w.map Prod.snd) u) (he : P a b e)
      (hhead : Q u a b) (hstep : step u e.1 e.2 u') (htail : Spread step P Q i u' w' l bs s') :
      Spread step P Q i s (w ++ (i, e) :: w') (a :: l) (b :: bs) s'

section Spread

variable {step : σ → (o : Op) → Res o → σ → Prop} {P : α → β → Event Res → Prop}
  {Q : σ → α → β → Prop} {i : ι} {s u s' : σ} {w w' : List (ι × Event Res)} {l : List α}
  {bs : List β}

/-- The log may start earlier. -/
theorem Spread.prepend (h : Steps step s (w.map Prod.snd) u)
    (hspread : Spread step P Q i u w' l bs s') : Spread step P Q i s (w ++ w') l bs s' := by
  cases hspread with
  | nil hu =>
      apply Spread.nil
      rw [List.map_append]
      exact steps_append.mpr ⟨u, h, hu⟩
  | @cons _ v v' _ w₁ w₂ e a b l bs hbefore he hhead hstep htail =>
      rw [← List.append_assoc]
      refine .cons ?_ he hhead hstep htail
      rw [List.map_append]
      exact steps_append.mpr ⟨u, h, hbefore⟩

/-- The states of a spread log are those of the log. -/
theorem Spread.steps (h : Spread step P Q i s w l bs s') : Steps step s (w.map Prod.snd) s' := by
  induction h with
  | nil hs => exact hs
  | cons hbefore _ _ hstep _ ih =>
      rw [List.map_append, List.map_cons]
      exact steps_append.mpr ⟨_, hbefore, .cons hstep ih⟩

/-- Every value was right of an element at a moment of the log. -/
theorem Spread.moment (h : Spread step P Q i s w l bs s') {b : β} (hb : b ∈ bs) :
    ∃ a u, a ∈ l ∧ Reaches step s u ∧ Q u a b ∧ Reaches step u s' := by
  induction h with
  | nil hs => exact absurd hb List.not_mem_nil
  | @cons s u u' s' w w' e a b' l bs hbefore he hhead hstep htail ih =>
      have hnext : Reaches step u u' := reaches_of_step hstep
      rcases List.mem_cons.mp hb with rfl | hb
      · exact ⟨a, u, List.mem_cons_self, hbefore.reaches, hhead, hnext.trans htail.steps.reaches⟩
      · obtain ⟨a', v, ha', hv, hq, hs'⟩ := ih hb
        exact ⟨a', v, List.mem_cons_of_mem a ha', (hbefore.reaches.trans hnext).trans hv, hq, hs'⟩

/-- **The rule for answers.** Whatever else is in the log, what a task has collected from its
events was right at these, when the event of an answer says so of its state. -/
theorem Collects.spread [DecidableEq ι] (h : Collects P l bs (events_of i w))
    (hw : Steps step s (w.map Prod.snd) s')
    (hPQ : ∀ a b e u u', P a b e → step u e.1 e.2 u' → Q u a b) :
    Spread step P Q i s w l bs s' := by
  generalize htr : events_of i w = tr at h
  induction h generalizing w s with
  | nil tr => exact .nil hw
  | @cons a b e l bs t₁ t₂ hhead he _ ih =>
      -- the part of the log with the event of the head, and the rest
      obtain ⟨w₁, w₂, rfl, rfl, hrest⟩ := events_of_eq_append htr
      obtain ⟨p, q, rfl⟩ := List.append_of_mem (mem_events_of.mp he)
      rw [List.map_append] at hw
      obtain ⟨v, hw₁, hw₂⟩ := steps_append.mp hw
      rw [List.map_append, List.map_cons] at hw₁
      obtain ⟨u, hbefore, hw₃⟩ := steps_append.mp hw₁
      obtain ⟨u', hstep, hafter⟩ := steps_cons.mp hw₃
      rw [List.append_assoc, List.cons_append]
      exact .cons hbefore hhead (hPQ _ _ _ _ _ hhead hstep) hstep ((ih hw₂ hrest).prepend hafter)

end Spread

end Effect
