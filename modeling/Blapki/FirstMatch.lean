/-
The first element of a list that satisfies a predicate.

It is not moved by elements the predicate does not hold of (`find?_of_insertions`), it
stands where its index says (`find?_eq_getElem?`), and its index depends on nothing but
the predicate at every element (`findIdx?_congr`). Inserting bindings into a map one by
one keeps the last of each key instead (`lookup_insert_all`), which is the first where no
two of a key differ.
-/
import Mathlib.Logic.Relation
import Mathlib.Data.List.Forall2
import Mathlib.Data.List.AList

set_option autoImplicit false

namespace FirstMatch

variable {α β : Type} {p : α → Bool} {q : β → Bool} {xs ys : List α} {zs : List β}

/-! ## Insertions -/

/-- The list with one more element, which the predicate does not hold of. -/
def Inserted (p : α → Bool) (xs ys : List α) : Prop :=
  ∃ front back x, p x = false ∧ xs = front ++ back ∧ ys = front ++ x :: back

theorem filter_of_inserted (h : Inserted p xs ys) : xs.filter p = ys.filter p := by
  obtain ⟨front, back, x, hx, rfl, rfl⟩ := h
  rw [List.filter_append, List.filter_append,
    List.filter_cons_of_neg (by rw [hx]; exact Bool.false_ne_true)]

/-- However many elements are inserted or removed, the others stay as they are. -/
theorem filter_of_insertions (h : Relation.EqvGen (Inserted p) xs ys) :
    xs.filter p = ys.filter p := by
  induction h with
  | rel _ _ h => exact filter_of_inserted h
  | refl _ => rfl
  | symm _ _ _ ih => exact ih.symm
  | trans _ _ _ _ _ ih₁ ih₂ => exact ih₁.trans ih₂

/-- However many elements are inserted or removed, the first of the others stays the same. -/
theorem find?_of_insertions (h : Relation.EqvGen (Inserted p) xs ys) :
    xs.find? p = ys.find? p := by
  rw [← List.head?_filter, ← List.head?_filter, filter_of_insertions h]

/-! ## Positions -/

/-- The element that is found stands at the index that is found. -/
theorem find?_eq_getElem? (xs : List α) (p : α → Bool) :
    xs.find? p = (xs.findIdx? p).bind fun i => xs[i]? := by
  induction xs with
  | nil => rfl
  | cons x xs ih =>
      by_cases hx : p x = true
      · rw [List.find?_cons_of_pos hx, List.findIdx?_cons, if_pos hx]
        rfl
      · rw [List.find?_cons_of_neg hx, List.findIdx?_cons, if_neg hx, ih, Option.bind_map]
        rfl

/-- Two lists on which the predicates agree one for one. -/
theorem map_eq_of_forall₂ {R : α → β → Prop} (h : List.Forall₂ R xs zs)
    (hpq : ∀ x z, R x z → p x = q z) : xs.map p = zs.map q := by
  induction h with
  | nil => rfl
  | cons hr _ ih => rw [List.map_cons, List.map_cons, hpq _ _ hr, ih]

/-- The index that is found depends on what the predicate says of each element only. -/
theorem findIdx?_congr (h : xs.map p = zs.map q) : xs.findIdx? p = zs.findIdx? q := by
  have hfind : (xs.map p).findIdx? id = (zs.map q).findIdx? id := by rw [h]
  rw [List.findIdx?_map, List.findIdx?_map] at hfind
  exact hfind

/-- How many elements there are depends on what the predicate says of each only. -/
theorem countP_congr (h : xs.map p = zs.map q) : xs.countP p = zs.countP q := by
  have hcount : (xs.map p).countP id = (zs.map q).countP id := by rw [h]
  rw [List.countP_map, List.countP_map] at hcount
  exact hcount

/-! ## Bindings -/

section Bindings

variable {κ ν : Type} [DecidableEq κ] {l : List (κ × ν)} {k : κ} {v : ν}

/-- The value of the first binding of a key. -/
def first (l : List (κ × ν)) (k : κ) : Option ν := (l.find? fun b => b.1 = k).map Prod.snd

/-- The value of the last one. -/
def last (l : List (κ × ν)) (k : κ) : Option ν := first l.reverse k

/-- All of them inserted, in their order. -/
def insert_all (m : AList fun _ : κ => ν) (l : List (κ × ν)) : AList fun _ : κ => ν :=
  l.foldl (fun m b => m.insert b.1 b.2) m

theorem first_append (l l' : List (κ × ν)) (k : κ) :
    first (l ++ l') k = (first l k).or (first l' k) := by
  unfold first
  rw [List.find?_append, Option.map_or]

theorem mem_of_first (h : first l k = some v) : (k, v) ∈ l := by
  unfold first at h
  obtain ⟨b, hb, hv⟩ := Option.map_eq_some_iff.mp h
  have hkey := List.find?_some hb
  rw [decide_eq_true_eq] at hkey
  have hmem := List.mem_of_find?_eq_some hb
  rwa [← hkey, ← hv]

theorem exists_first (h : (k, v) ∈ l) : ∃ v', first l k = some v' := by
  rcases hfind : first l k with _ | v'
  · unfold first at hfind
    rw [Option.map_eq_none_iff, List.find?_eq_none] at hfind
    exact absurd (decide_eq_true rfl) (hfind _ h)
  · exact ⟨v', rfl⟩

theorem mem_of_last (h : last l k = some v) : (k, v) ∈ l := List.mem_reverse.mp (mem_of_first h)

theorem exists_last (h : (k, v) ∈ l) : ∃ v', last l k = some v' :=
  exists_first (List.mem_reverse.mpr h)

/-- Insertion keeps the last binding of a key. -/
theorem lookup_insert_all (m : AList fun _ : κ => ν) (l : List (κ × ν)) (k : κ) :
    (insert_all m l).lookup k = (last l k).or (m.lookup k) := by
  induction l generalizing m with
  | nil => rfl
  | cons b l ih =>
      have hlast : last (b :: l) k = (last l k).or (first [b] k) := by
        rw [last, List.reverse_cons, first_append]
        rfl
      have hcons : insert_all m (b :: l) = insert_all (m.insert b.1 b.2) l := rfl
      rw [hcons, ih, hlast]
      -- the head is the last binding of its key unless a later one replaces it
      by_cases hkey : b.1 = k
      · have hfirst : first [b] k = some b.2 := by
          rw [first, List.find?_cons_of_pos (by simpa using hkey)]
          rfl
        rw [hfirst, ← hkey, AList.lookup_insert]
        rcases last l b.1 with _ | v <;> rfl
      · have hfirst : first [b] k = none := by
          rw [first, List.find?_cons_of_neg (by simpa using hkey)]
          rfl
        rw [hfirst, AList.lookup_insert_ne (Ne.symm hkey), Option.or_none]

/-- Every binding is kept just when no two of a key differ. -/
theorem last_of_mem_iff :
    (∀ b ∈ l, last l b.1 = some b.2) ↔ ∀ b ∈ l, ∀ b' ∈ l, b.1 = b'.1 → b.2 = b'.2 := by
  constructor
  · intro h b hb b' hb' hkey
    have hlast := h b hb
    rw [hkey, h b' hb'] at hlast
    exact (Option.some.inj hlast).symm
  · intro h b hb
    obtain ⟨v, hv⟩ := exists_last (k := b.1) (v := b.2) hb
    have hsame : v = b.2 := h (b.1, v) (mem_of_last hv) b hb rfl
    rw [hv, hsame]

end Bindings

end FirstMatch
