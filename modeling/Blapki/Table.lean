/-
Tables with a primary key.

A table is a list of rows in insertion order whose keys are pairwise different.
The key constraint is part of the value, so no operation can break it and no
later proof has to carry it along. The operations are the four a relational
store offers: insert (refused on a key conflict), select, count and update in
place. An update may not move a row to another key.
-/
import Mathlib.Data.List.Nodup
import Mathlib.Data.List.Count

set_option autoImplicit false

/-- Rows with pairwise different keys. -/
structure Table (ρ κ : Type) (key : ρ → κ) where
  rows : List ρ
  unique : (rows.map key).Nodup

namespace Table

variable {ρ κ : Type} {key : ρ → κ}

@[ext] theorem ext {t t' : Table ρ κ key} (h : t.rows = t'.rows) : t = t' := by
  cases t
  cases t'
  cases h
  rfl

instance [DecidableEq ρ] : DecidableEq (Table ρ κ key) := fun t t' =>
  decidable_of_iff (t.rows = t'.rows) ⟨Table.ext, fun h => h ▸ rfl⟩

/-- The table with no rows. -/
def empty : Table ρ κ key := ⟨[], List.nodup_nil⟩

/-- Two rows with one key are one row. -/
theorem eq_of_key (t : Table ρ κ key) {r r' : ρ} (hr : r ∈ t.rows) (hr' : r' ∈ t.rows)
    (h : key r = key r') : r = r' :=
  List.inj_on_of_nodup_map t.unique hr hr' h

/-! ## Select -/

/-- The first row that satisfies the condition. -/
def first (t : Table ρ κ key) (p : ρ → Bool) : Option ρ := t.rows.find? p

/-- The rows that satisfy the condition. -/
def select (t : Table ρ κ key) (p : ρ → Bool) : List ρ := t.rows.filter p

/-- A condition that fixes the key finds its row wherever it stands. -/
theorem first_eq_some (t : Table ρ κ key) {p : ρ → Bool} {r : ρ} (hr : r ∈ t.rows)
    (hp : p r = true) (hkey : ∀ r', p r' = true → key r' = key r) : t.first p = some r := by
  cases hf : t.first p with
  | none => exact absurd hp (List.find?_eq_none.mp hf r hr)
  | some r' =>
      have hp' : p r' = true := List.find?_some hf
      have hr' : r' ∈ t.rows := List.mem_of_find?_eq_some hf
      rw [t.eq_of_key hr' hr (hkey r' hp')]

theorem first_eq_none {t : Table ρ κ key} {p : ρ → Bool} :
    t.first p = none ↔ ∀ r ∈ t.rows, p r = false := by
  simp [first]

theorem first_mem {t : Table ρ κ key} {p : ρ → Bool} {r : ρ} (h : t.first p = some r) :
    r ∈ t.rows ∧ p r = true :=
  ⟨List.mem_of_find?_eq_some h, List.find?_some h⟩

/-- A selection keeps the key constraint. -/
theorem select_unique (t : Table ρ κ key) (p : ρ → Bool) : ((t.select p).map key).Nodup :=
  t.unique.sublist (List.filter_sublist.map key)

/-- A condition that fixes the key is met by one row at most. -/
theorem select_of_first {t : Table ρ κ key} {p : ρ → Bool} {r : ρ} (h : t.first p = some r)
    (hkey : ∀ r', p r' = true → key r' = key r) : t.select p = [r] := by
  obtain ⟨hr, hp⟩ := first_mem h
  have hone : ∀ r' ∈ t.select p, r' = r := fun r' hr' =>
    t.eq_of_key (List.mem_of_mem_filter hr') hr (hkey r' (List.mem_filter.mp hr').2)
  have hnodup := (t.select_unique p).of_map
  have hmem : r ∈ t.select p := List.mem_filter_of_mem hr hp
  -- a list without duplicates whose members are all one row
  cases hrows : t.select p with
  | nil =>
      rw [hrows] at hmem
      exact absurd hmem List.not_mem_nil
  | cons r₁ rest =>
      rw [hrows] at hone hnodup
      rw [List.forall_mem_cons] at hone
      obtain ⟨rfl, hrest⟩ := hone
      have hempty : rest = [] := List.eq_nil_iff_forall_not_mem.mpr fun r' hr' =>
        (List.nodup_cons.mp hnodup).1 (hrest r' hr' ▸ hr')
      rw [hempty]

/-! ## Insert -/

section Insert

variable [DecidableEq κ]

/-- Append a row, or refuse when its key is taken. -/
def insert (t : Table ρ κ key) (r : ρ) : Option (Table ρ κ key) :=
  if h : key r ∈ t.rows.map key then none
  else some ⟨t.rows ++ [r], by
    rw [List.map_append, List.map_singleton]
    exact List.nodup_append.mpr ⟨t.unique, List.nodup_singleton _, fun a ha b hb hab =>
      h (by rwa [← List.mem_singleton.mp hb, ← hab])⟩⟩

theorem insert_eq_some {t t' : Table ρ κ key} {r : ρ} :
    t.insert r = some t' ↔ key r ∉ t.rows.map key ∧ t'.rows = t.rows ++ [r] := by
  unfold insert
  split
  · rename_i h
    exact ⟨fun h' => absurd h' (by simp), fun h' => absurd h h'.1⟩
  · rename_i h
    constructor
    · intro h'
      cases h'
      exact ⟨h, rfl⟩
    · rintro ⟨_, h'⟩
      exact congrArg some (Table.ext h'.symm)

theorem insert_eq_none {t : Table ρ κ key} {r : ρ} :
    t.insert r = none ↔ ∃ r' ∈ t.rows, key r' = key r := by
  unfold insert
  split
  · rename_i h
    exact ⟨fun _ => by simpa [List.mem_map] using h, fun _ => rfl⟩
  · rename_i h
    refine ⟨fun h' => absurd h' (by simp), fun h' => absurd ?_ h⟩
    simpa [List.mem_map] using h'

end Insert

/-! ## Update -/

/-- Rewrite in place the rows that satisfy the condition. -/
def update (t : Table ρ κ key) (p : ρ → Bool) (f : ρ → ρ) (hf : ∀ r, key (f r) = key r) :
    Table ρ κ key :=
  ⟨t.rows.map fun r => if p r then f r else r, by
    have hkeys : (t.rows.map fun r => if p r then f r else r).map key = t.rows.map key := by
      rw [List.map_map]
      refine List.map_congr_left fun r _ => ?_
      by_cases hp : p r <;> simp [hp, hf]
    rw [hkeys]
    exact t.unique⟩

theorem mem_update {t : Table ρ κ key} {p : ρ → Bool} {f : ρ → ρ} {hf : ∀ r, key (f r) = key r}
    {r' : ρ} : r' ∈ (t.update p f hf).rows ↔ ∃ r ∈ t.rows, r' = if p r then f r else r := by
  simp only [update, List.mem_map]
  exact exists_congr fun r => and_congr_right fun _ => eq_comm

theorem mem_update_of_not {t : Table ρ κ key} {p : ρ → Bool} {f : ρ → ρ}
    {hf : ∀ r, key (f r) = key r} {r : ρ} (hr : r ∈ t.rows) (hp : p r = false) :
    r ∈ (t.update p f hf).rows :=
  mem_update.mpr ⟨r, hr, by simp [hp]⟩

theorem mem_update_of {t : Table ρ κ key} {p : ρ → Bool} {f : ρ → ρ}
    {hf : ∀ r, key (f r) = key r} {r : ρ} (hr : r ∈ t.rows) (hp : p r = true) :
    f r ∈ (t.update p f hf).rows :=
  mem_update.mpr ⟨r, hr, by simp [hp]⟩

/-- An update that meets no row changes nothing. -/
theorem update_of_none {t : Table ρ κ key} {p : ρ → Bool} {f : ρ → ρ}
    {hf : ∀ r, key (f r) = key r} (h : ∀ r ∈ t.rows, p r = false) : t.update p f hf = t := by
  apply Table.ext
  simp only [update]
  conv_rhs => rw [← List.map_id t.rows]
  exact List.map_congr_left fun r hr => by simp [h r hr]

/-- A query an update does not change meets the same row, as updated. -/
theorem first_update {t : Table ρ κ key} {p q : ρ → Bool} {f : ρ → ρ}
    (hf : ∀ r, key (f r) = key r) (h : ∀ r, q (f r) = q r) :
    (t.update p f hf).first q = (t.first q).map fun r => if p r then f r else r := by
  rw [first, first, update, List.find?_map]
  congr 2
  funext r
  by_cases hp : p r = true
  · simp only [Function.comp_apply, if_pos hp, h r]
  · simp only [Function.comp_apply, if_neg hp]

/-- How many rows satisfy the condition. -/
def count (t : Table ρ κ key) (p : ρ → Bool) : Nat := t.rows.countP p

theorem count_pos {t : Table ρ κ key} {p : ρ → Bool} :
    0 < t.count p ↔ ∃ r ∈ t.rows, p r = true := List.countP_pos_iff

theorem count_eq_zero {t : Table ρ κ key} {p : ρ → Bool} :
    t.count p = 0 ↔ ∀ r ∈ t.rows, p r = false := by
  simp [count, List.countP_eq_zero]

/-! ## Restriction

The rows of one kind are a table of their own. An update that keeps the kind of a row
acts on the two alike; an insert does when the key is free in the whole table. -/

/-- The rows that satisfy the condition, as a table. -/
def restrict (t : Table ρ κ key) (p : ρ → Bool) : Table ρ κ key := ⟨t.select p, t.select_unique p⟩

section Restrict

variable {t t' : Table ρ κ key} {p q : ρ → Bool} {f : ρ → ρ}

theorem restrict_rows : (t.restrict p).rows = t.rows.filter p := rfl

/-- Of a query for rows of the kind, the other rows are no part. -/
theorem select_restrict (h : ∀ r, q r = true → p r = true) :
    (t.restrict p).select q = t.select q := by
  rw [select, select, restrict_rows, List.filter_filter]
  refine List.filter_congr fun r _ => ?_
  by_cases hq : q r = true
  · rw [hq, h r hq]
    rfl
  · rw [Bool.eq_false_iff.mpr hq]
    rfl

theorem first_restrict (h : ∀ r, q r = true → p r = true) :
    (t.restrict p).first q = t.first q := by
  have hselect := select_restrict (t := t) h
  rw [select, select] at hselect
  rw [first, first, ← List.head?_filter, ← List.head?_filter, hselect]

theorem count_restrict (h : ∀ r, q r = true → p r = true) :
    (t.restrict p).count q = t.count q := by
  have hselect := select_restrict (t := t) h
  rw [select, select] at hselect
  rw [count, count, List.countP_eq_length_filter, List.countP_eq_length_filter, hselect]

/-- An update that keeps the kind of every row commutes with the restriction. -/
theorem restrict_update (hf : ∀ r, key (f r) = key r) (h : ∀ r, p (f r) = p r) :
    (t.update q f hf).restrict p = (t.restrict p).update q f hf := by
  apply Table.ext
  simp only [restrict_rows, update, List.filter_map]
  congr 1
  refine List.filter_congr fun r _ => ?_
  by_cases hq : q r = true
  · simp only [Function.comp_apply, if_pos hq, h r]
  · simp only [Function.comp_apply, if_neg hq]

/-- An update of rows of another kind is not seen. -/
theorem restrict_update_other (hf : ∀ r, key (f r) = key r) (h : ∀ r, p (f r) = p r)
    (hq : ∀ r, q r = true → p r = false) :
    (t.update q f hf).restrict p = t.restrict p := by
  rw [restrict_update hf h]
  refine update_of_none fun r hr => ?_
  rw [restrict_rows, List.mem_filter] at hr
  refine Bool.eq_false_iff.mpr fun hno => ?_
  rw [hq r hno] at hr
  exact Bool.noConfusion hr.2

section Insert

variable [DecidableEq κ] {r : ρ}

/-- An insert of a row of another kind is not seen. -/
theorem restrict_insert_other (h : t.insert r = some t') (hr : p r = false) :
    t'.restrict p = t.restrict p := by
  apply Table.ext
  rw [restrict_rows, restrict_rows, (insert_eq_some.mp h).2, List.filter_append,
    List.filter_cons_of_neg (by rw [hr]; exact Bool.false_ne_true), List.filter_nil,
    List.append_nil]

/-- An insert of a row of the kind goes through in the restriction. -/
theorem restrict_insert (h : t.insert r = some t') (hr : p r = true) :
    (t.restrict p).insert r = some (t'.restrict p) := by
  obtain ⟨hnew, hrows⟩ := insert_eq_some.mp h
  refine insert_eq_some.mpr ⟨fun hno => hnew ?_, ?_⟩
  · obtain ⟨r', hr', hkey⟩ := List.mem_map.mp hno
    rw [← hkey]
    exact List.mem_map_of_mem (List.mem_of_mem_filter hr')
  · rw [restrict_rows, restrict_rows, hrows, List.filter_append,
      List.filter_cons_of_pos hr, List.filter_nil]

end Insert

end Restrict

end Table
