/-
Recording transactions at once (`db/repo.rs`, `record_transaction`).

The upsert is two statements, a look-up and then an insert or an update, with nothing
to hold them together. What they do to the table they do to one row, `cell`, and
`recordings_iff` reads an interleaving of any number of calls row by row: a call fails
exactly where two of them look up a transaction that neither has inserted yet.
-/
import Blapki.Repo
import Blapki.Interleaving

set_option autoImplicit false

namespace Blapki

open Effect

/-- The transaction a statement is about. -/
def Stmt.transaction : Stmt → Option String
  | .select_transaction transaction_id => some transaction_id
  | .update_transaction _ _ transaction_id => some transaction_id
  | .insert_transaction row => some row.transaction_id
  | _ => none

namespace repo

/-! ## One row of the table -/

/-- The row of a transaction. -/
def cell (t : String) (db : Db) : Option ScepTransaction :=
  db.scep_transaction.first fun r => r.transaction_id = t

/-- How the statements on one transaction move its row. -/
def cell_step (c : Option ScepTransaction) : (o : Op) → o.Res → Option ScepTransaction → Prop
  | .db (.select_transaction _), x, c' =>
      x = .ok (c.map ScepTransaction.transaction_id) ∧ c' = c
  | .db (.insert_transaction row), x, c' =>
      (c = none ∧ x = .ok () ∧ c' = some row) ∨ (c.isSome ∧ (∃ e, x = .error e) ∧ c' = c)
  | .db (.update_transaction status message_type _), x, c' =>
      (∃ n : Nat, x = .ok n) ∧ c' = c.map (set_transaction status message_type)
  | _, _, c' => c' = c

section Cell

variable {t : String} {db db' : Db} {q : Stmt} {x : Except String q.Rows}

theorem cell_eq_none : cell t db = none ↔ ∀ r ∈ db.scep_transaction.rows, r.transaction_id ≠ t := by
  rw [cell, Table.first_eq_none]
  exact forall₂_congr fun r _ => decide_eq_false_iff_not

theorem cell_eq_some {row : ScepTransaction} :
    cell t db = some row ↔ row ∈ db.scep_transaction.rows ∧ row.transaction_id = t := by
  constructor
  · intro h
    obtain ⟨hmem, hp⟩ := Table.first_mem h
    exact ⟨hmem, of_decide_eq_true hp⟩
  · rintro ⟨hmem, rfl⟩
    exact Table.first_eq_some _ hmem (decide_eq_true rfl) fun r' hr' => of_decide_eq_true hr'

/-- The row of a transaction is the only one of it. -/
theorem select_cell {row : ScepTransaction} (h : cell t db = some row) :
    db.scep_transaction.select (fun r => r.transaction_id = t) = [row] := by
  refine Table.select_of_first h fun r' hr' => ?_
  rw [(cell_eq_some.mp h).2]
  exact of_decide_eq_true hr'

/-- An update of one transaction is one of its row. -/
theorem cell_update {p : ScepTransaction → Bool} {status message_type : String} :
    cell t { db with scep_transaction :=
      db.scep_transaction.update p (set_transaction status message_type) fun _ => rfl }
      = (cell t db).map fun r => if p r then set_transaction status message_type r else r :=
  Table.first_update (f := set_transaction status message_type) (fun _ => rfl) fun _ => rfl

/-- A statement on a transaction moves its row. -/
theorem cell_step_of_step (hq : q.transaction = some t) (h : step False db (.db q) x db') :
    cell_step (cell t db) (.db q) x (cell t db') := by
  obtain ⟨rfl, rfl⟩ : x = (db.exec q).1 ∧ db' = (db.exec q).2 := by
    rcases h with h | ⟨hno, _⟩
    · exact ⟨congrArg Prod.fst h, congrArg Prod.snd h⟩
    · exact absurd hno id
  cases q with
  | select_transaction transaction_id =>
      obtain rfl := Option.some.inj hq
      exact ⟨rfl, rfl⟩
  | update_transaction status message_type transaction_id =>
      obtain rfl := Option.some.inj hq
      refine ⟨⟨_, rfl⟩, cell_update.trans ?_⟩
      cases hc : cell transaction_id db with
      | none => rfl
      | some row =>
          have hrow : decide (row.transaction_id = transaction_id) = true :=
            decide_eq_true (cell_eq_some.mp hc).2
          rw [Option.map_some, Option.map_some, if_pos hrow]
  | insert_transaction row =>
      obtain rfl := Option.some.inj hq
      simp only [Db.exec, cell_step]
      cases hins : db.scep_transaction.insert row with
      | none =>
          obtain ⟨r, hr, hid⟩ := Table.insert_eq_none.mp hins
          refine .inr ⟨?_, ⟨_, rfl⟩, rfl⟩
          rw [cell_eq_some.mpr ⟨hr, hid⟩]
          rfl
      | some table =>
          obtain ⟨hnew, hrows⟩ := Table.insert_eq_some.mp hins
          refine .inl ⟨cell_eq_none.mpr fun r hr hid => hnew ?_, rfl, ?_⟩
          · rw [← hid]
            exact List.mem_map_of_mem hr
          · refine cell_eq_some.mpr ⟨?_, rfl⟩
            rw [hrows]
            exact List.mem_append_right _ List.mem_cons_self
  | _ => cases hq

/-- Every other statement leaves it as it is. -/
theorem cell_frame (hq : q.transaction ≠ some t) (h : step False db (.db q) x db') :
    cell t db' = cell t db := by
  obtain rfl : db' = (db.exec q).2 := by
    rcases h with h | ⟨hno, _⟩
    · exact congrArg Prod.snd h
    · exact absurd hno id
  cases q with
  | insert_issued cert =>
      simp only [Db.exec]
      cases db.issued_certificate.insert cert with
      | none => rfl
      | some table => rfl
  | update_transaction status message_type transaction_id =>
      refine cell_update.trans ?_
      cases hc : cell t db with
      | none => rfl
      | some row =>
          have hrow : ¬ decide (row.transaction_id = transaction_id) = true := fun hno =>
            hq (congrArg some ((of_decide_eq_true hno).symm.trans (cell_eq_some.mp hc).2))
          rw [Option.map_some, if_neg hrow]
  | insert_transaction row =>
      simp only [Db.exec]
      cases hins : db.scep_transaction.insert row with
      | none => rfl
      | some table =>
          have hrow : ¬ decide (row.transaction_id = t) = true := fun hno =>
            hq (congrArg some (of_decide_eq_true hno))
          rw [cell, Table.first, (Table.insert_eq_some.mp hins).2, List.find?_append,
            List.find?_singleton, if_neg hrow, Option.or_none, cell, Table.first]
  | _ => rfl

end Cell

/-! ## Calls -/

/-- A call of `record_transaction`. -/
structure Recording where
  transaction_id : String
  profile : String
  status : String
  message_type : String
  created_at : String

namespace Recording

/-- The function that is called. -/
def run (c : Recording) : Async Unit :=
  record_transaction c.transaction_id c.profile c.status c.message_type c.created_at

/-- The row it inserts. -/
def row (c : Recording) : ScepTransaction :=
  ⟨c.transaction_id, c.profile, c.status, c.message_type, c.created_at⟩

variable {c : Recording} {tr : Trace} {r : AppResult Unit}

/-- Every statement of a call is about its transaction. -/
theorem run_frame (h : Returns c.run tr r) :
    ∀ e ∈ tr, ∃ q x, e = ⟨Op.db q, x⟩ ∧ q.transaction = some c.transaction_id :=
  record_transaction_forall (p := fun q => q.transaction = some c.transaction_id) rfl rfl rfl h

/-- What is left of a call that finds its row: all of it, the update, or nothing. -/
inductive Pending (c : Recording) : Trace → AppResult Unit → Prop
  | waiting {tr : Trace} {r : AppResult Unit} : Returns c.run tr r → Pending c tr r
  | updating (x : Except String Nat) :
      Pending c [⟨Op.db (.update_transaction c.status c.message_type c.transaction_id), x⟩]
        ((map_err x .Database).map fun _ => ())
  | done : Pending c [] (.ok ())

/-- The next event of such a call is its look-up, which finds the row, or its update. -/
theorem Pending.next {e : Event Op.Res} {d d' : Option ScepTransaction}
    (h : c.Pending (e :: tr) r) (hd : d.isSome) (hstep : cell_step d e.1 e.2 d') :
    c.Pending tr r ∧ d'.isSome ∧ (tr ≠ [] ∨ ∃ row, d' = some row ∧ row.status = c.status ∧
      row.message_type = c.message_type) := by
  generalize htr : e :: tr = tr' at h
  cases h with
  | done => cases htr
  | updating x =>
      obtain ⟨rfl, rfl⟩ := List.cons.inj htr
      obtain ⟨⟨n, rfl⟩, rfl⟩ := hstep
      obtain ⟨row, rfl⟩ := Option.isSome_iff_exists.mp hd
      exact ⟨.done, rfl, .inr ⟨_, rfl, rfl, rfl⟩⟩
  | waiting hrun =>
      subst htr
      rcases record_transaction_returns.mp hrun with ⟨msg, htr, _⟩ | ⟨x, htr, _⟩ | ⟨found, x, htr, rfl⟩
      · obtain ⟨rfl, rfl⟩ := List.cons.inj htr
        cases hstep.1
      · -- A look-up that finds a row does not return none.
        obtain ⟨rfl, rfl⟩ := List.cons.inj htr
        obtain ⟨row, rfl⟩ := Option.isSome_iff_exists.mp hd
        cases hstep.1
      · obtain ⟨rfl, rfl⟩ := List.cons.inj htr
        obtain ⟨_, rfl⟩ := hstep
        exact ⟨.updating x, hd, .inl (List.cons_ne_nil _ _)⟩

/-- Every call makes a statement. -/
theorem run_ne_nil (h : Returns c.run tr r) : tr ≠ [] := by
  rcases record_transaction_returns.mp h with ⟨_, rfl, _⟩ | ⟨_, rfl, _⟩ | ⟨_, _, rfl, _⟩
  · exact List.cons_ne_nil _ _
  · exact List.cons_ne_nil _ _
  · exact List.cons_ne_nil _ _

/-- A call with nothing left has succeeded. -/
theorem Pending.result (h : c.Pending [] r) : r = .ok () := by
  generalize htr : ([] : Trace) = tr' at h
  cases h with
  | done => rfl
  | updating x => cases htr
  | waiting hrun => exact absurd htr.symm (run_ne_nil hrun)

end Recording

/-! ## Calls at once -/

section Recordings

variable {ι : Type} [DecidableEq ι] {calls : ι → Recording} {r : ι → AppResult Unit} {t : String}

/-- The row has the status and the message type of a call. -/
def Records (c : Recording) (d : Option ScepTransaction) : Prop :=
  ∃ row, d = some row ∧ row.status = c.status ∧ row.message_type = c.message_type

/-- Once there is a row, every call updates it, and the last one stays. -/
theorem recordings_found {w : List (ι × Event Op.Res)} {d d' : Option ScepTransaction}
    (hw : Steps cell_step d (w.map Prod.snd) d') (hd : d.isSome)
    (hon : ∀ x ∈ w, (calls x.1).transaction_id = t)
    (hpend : ∀ i, (calls i).transaction_id = t → (calls i).Pending (events_of i w) (r i)) :
    (∀ i, (calls i).transaction_id = t → r i = .ok ()) ∧ d'.isSome ∧
      ∀ w₁ i e, w = w₁ ++ [(i, e)] → Records (calls i) d' := by
  induction w generalizing d with
  | nil =>
      obtain rfl := steps_nil.mp hw
      refine ⟨fun i hi => (hpend i hi).result, hd, fun w₁ i e hno => ?_⟩
      exact absurd hno.symm (List.append_ne_nil_of_right_ne_nil _ (List.cons_ne_nil _ _))
  | cons x w ih =>
      obtain ⟨j, e⟩ := x
      obtain ⟨u, hstep, hrest⟩ := steps_cons.mp hw
      rw [List.forall_mem_cons] at hon
      have hj := hpend j hon.1
      rw [events_of_cons_same] at hj
      obtain ⟨hj', hu, hlast⟩ := hj.next hd hstep
      have hpend' : ∀ i, (calls i).transaction_id = t →
          (calls i).Pending (events_of i w) (r i) := by
        intro i hi
        by_cases hij : j = i
        · rw [← hij]
          exact hj'
        · have hother := hpend i hi
          rwa [events_of_cons_other hij] at hother
      obtain ⟨hok, hd', hrec⟩ := ih hrest hu hon.2 hpend'
      refine ⟨hok, hd', fun w₁ i e' hw₁ => ?_⟩
      rcases w₁ with _ | ⟨y, w₁⟩
      · -- The event is the last one, so its call has nothing left.
        obtain ⟨hhead, rfl⟩ := List.cons.inj hw₁
        obtain ⟨rfl, rfl⟩ := Prod.mk.inj hhead
        obtain rfl := steps_nil.mp hrest
        rcases hlast with hleft | hrow
        · exact absurd rfl hleft
        · exact hrow
      · exact hrec w₁ i e' (List.cons.inj hw₁).2

/-- A row is inserted once. -/
theorem inserted_once {t₀ tr : Trace} {row : ScepTransaction} {x : Except String Unit}
    {d d' : Option ScepTransaction}
    (h : Steps cell_step d (t₀ ++ ⟨Op.db (.insert_transaction row), .ok ()⟩ :: tr) d')
    (htr : ∀ e ∈ tr, ∃ q y, e = ⟨Op.db q, y⟩ ∧ q.transaction = some t)
    {row' : ScepTransaction} (hmem : ⟨Op.db (.insert_transaction row'), x⟩ ∈ tr) : x ≠ .ok () := by
  obtain ⟨_, _, hins⟩ := steps_append.mp h
  obtain ⟨u, hstep, hrest⟩ := steps_cons.mp hins
  have hu : u.isSome := by
    rcases hstep with ⟨_, _, rfl⟩ | ⟨_, ⟨e, hno⟩, _⟩
    · rfl
    · cases hno
  -- No statement on the transaction removes the row.
  have hkeeps : ∀ e ∈ tr, ∀ s s' : Option ScepTransaction, s.isSome → cell_step s e.1 e.2 s' →
      s'.isSome := by
    intro e he s s' hs hse
    obtain ⟨q, y, rfl, hq⟩ := htr e he
    cases q with
    | select_transaction transaction_id => exact hse.2 ▸ hs
    | insert_transaction row =>
        rcases hse with ⟨_, _, rfl⟩ | ⟨_, _, rfl⟩
        · rfl
        · exact hs
    | update_transaction status message_type transaction_id =>
        rw [hse.2, Option.isSome_map]
        exact hs
    | _ => cases hq
  obtain ⟨t₁, t₂, v, v', rfl, h₁, hins, _⟩ := hrest.mem hmem
  have hv : v.isSome := h₁.preserves
    (fun e he s s' => hkeeps e (List.mem_append_left _ he) s s') hu
  rcases hins with ⟨rfl, _⟩ | ⟨_, ⟨e, he⟩, _⟩
  · cases hv
  · rw [show x = .error e from he]
    exact fun hno => by cases hno

omit [DecidableEq ι] in
/-- A row is inserted by one call. -/
theorem inserted_by_one {w : List (ι × Event Op.Res)} {d d' : Option ScepTransaction}
    (h : Steps cell_step d (w.map Prod.snd) d')
    (hw : ∀ x ∈ w, ∃ q y, x.2 = ⟨Op.db q, y⟩ ∧ q.transaction = some t) {i j : ι}
    {row row' : ScepTransaction} (hi : (i, ⟨Op.db (.insert_transaction row), .ok ()⟩) ∈ w)
    (hj : (j, ⟨Op.db (.insert_transaction row'), .ok ()⟩) ∈ w) : j = i := by
  have hsub : ∀ a ⊆ w, ∀ e ∈ a.map Prod.snd, ∃ q y, e = ⟨Op.db q, y⟩ ∧ q.transaction = some t := by
    intro a ha e he
    obtain ⟨y, hy, rfl⟩ := List.mem_map.mp he
    exact hw y (ha hy)
  obtain ⟨a, b, rfl⟩ := List.append_of_mem hi
  rcases List.mem_append.mp hj with hbefore | hafter
  · obtain ⟨a₁, a₂, rfl⟩ := List.append_of_mem hbefore
    rw [List.append_assoc, List.cons_append, List.map_append, List.map_cons] at h
    have hmem : (⟨Op.db (.insert_transaction row), .ok ()⟩ : Event Op.Res)
        ∈ (a₂ ++ (i, ⟨Op.db (.insert_transaction row), .ok ()⟩) :: b).map Prod.snd :=
      List.mem_map_of_mem (f := Prod.snd) (List.mem_append_right _ List.mem_cons_self)
    refine absurd rfl (inserted_once h (hsub _ ?_) hmem)
    rw [List.append_assoc, List.cons_append]
    exact fun y hy => List.mem_append_right _ (List.mem_cons_of_mem _ hy)
  · rcases List.mem_cons.mp hafter with hsame | hafter
    · exact congrArg Prod.fst hsame
    · rw [List.map_append, List.map_cons] at h
      refine absurd rfl (inserted_once h (hsub _ ?_) (List.mem_map_of_mem (f := Prod.snd) hafter))
      exact fun y hy => List.mem_append_right _ (List.mem_cons_of_mem _ hy)

/-- A look-up that finds no row is followed by the insert. -/
theorem insert_of_not_found {c : Recording} {e : Event Op.Res} {tr : Trace} {y : AppResult Unit}
    {d : Option ScepTransaction} (h : Returns c.run (e :: tr) y)
    (hstep : cell_step none e.1 e.2 d) : d = none ∧ ∃ x : Except String Unit,
      tr = [⟨Op.db (.insert_transaction c.row), x⟩] ∧ y = map_err x .Database := by
  rcases record_transaction_returns.mp h with ⟨msg, htr, _⟩ | ⟨x, htr, rfl⟩ | ⟨found, x, htr, _⟩
  · obtain ⟨rfl, rfl⟩ := List.cons.inj htr
    cases hstep.1
  · obtain ⟨rfl, rfl⟩ := List.cons.inj htr
    exact ⟨hstep.2, x, rfl, rfl⟩
  · obtain ⟨rfl, rfl⟩ := List.cons.inj htr
    cases hstep.1

/-- Where there is no row, the calls go through exactly when the first of them to look it
up inserts it before the next one does. -/
theorem recordings_not_found {w : List (ι × Event Op.Res)} {d' : Option ScepTransaction}
    (hw : Steps cell_step none (w.map Prod.snd) d')
    (hon : ∀ x ∈ w, (calls x.1).transaction_id = t)
    (hruns : ∀ i, (calls i).transaction_id = t → Returns (calls i).run (events_of i w) (r i)) :
    ((∀ i, (calls i).transaction_id = t → r i = .ok ()) →
      ∀ i j rest, w.map Prod.fst = i :: j :: rest → j = i) ∧
    ((∀ i j rest, w.map Prod.fst = i :: j :: rest → j = i) →
      (∀ i, (calls i).transaction_id = t → r i = .ok () ∧ d'.isSome) ∧
        ∀ w₁ i e, w = w₁ ++ [(i, e)] → Records (calls i) d') := by
  have habout : ∀ x ∈ w, ∃ q y, x.2 = ⟨Op.db q, y⟩ ∧ q.transaction = some t := by
    intro x hx
    obtain ⟨q, y, hev, hq⟩ := Recording.run_frame (hruns x.1 (hon x hx)) x.2 (mem_events_of.mpr hx)
    exact ⟨q, y, hev, hq.trans (congrArg some (hon x hx))⟩
  rcases w with _ | ⟨⟨i, e⟩, w⟩
  · refine ⟨fun _ i j rest hno => ?_, fun _ => ⟨fun i hi => ?_, fun w₁ i e hno => ?_⟩⟩
    · cases hno
    · exact absurd rfl (Recording.run_ne_nil (hruns i hi))
    · exact absurd hno.symm (List.append_ne_nil_of_right_ne_nil _ (List.cons_ne_nil _ _))
  obtain ⟨u, hstep, hrest⟩ := steps_cons.mp hw
  rw [List.forall_mem_cons] at hon habout
  have hi := hruns i hon.1
  rw [events_of_cons_same] at hi
  obtain ⟨rfl, x, hx, hri⟩ := insert_of_not_found hi hstep
  rcases w with _ | ⟨⟨j, e'⟩, w⟩
  · cases hx
  obtain ⟨v, hstep', hrest'⟩ := steps_cons.mp hrest
  rw [List.forall_mem_cons] at hon habout
  constructor
  · intro hok i' j' rest hfirst
    obtain ⟨hi', hfirst⟩ := List.cons.inj hfirst
    obtain ⟨hj', _⟩ := List.cons.inj hfirst
    rw [← hi', ← hj']
    show j = i
    by_contra hne
    -- Both looked the row up before it was there, and both insert it.
    have hj := hruns j hon.2.1
    rw [events_of_cons_other (Ne.symm hne), events_of_cons_same] at hj
    obtain ⟨rfl, x', hx', hrj⟩ := insert_of_not_found hj hstep'
    rw [events_of_cons_other hne] at hx
    obtain rfl := map_err_eq_ok.mp (hri.symm.trans (hok i hon.1))
    obtain rfl := map_err_eq_ok.mp (hrj.symm.trans (hok j hon.2.1))
    have hmem : (i, _) ∈ w := mem_events_of.mp (hx ▸ List.mem_cons_self)
    have hmem' : (j, _) ∈ w := mem_events_of.mp (hx' ▸ List.mem_cons_self)
    exact hne (inserted_by_one hrest' habout.2.2 hmem hmem')
  · intro hfirst
    obtain rfl : j = i := hfirst i j _ rfl
    rw [events_of_cons_same] at hx
    obtain ⟨rfl, hdone⟩ := List.cons.inj hx
    obtain ⟨_, rfl, rfl⟩ | ⟨hno, _⟩ := hstep'
    · have hpend : ∀ k, (calls k).transaction_id = t →
          (calls k).Pending (events_of k w) (r k) := by
        intro k hk
        by_cases hjk : j = k
        · rw [← hjk, hdone, hri]
          exact .done
        · have hrun := hruns k hk
          rw [events_of_cons_other hjk, events_of_cons_other hjk] at hrun
          exact .waiting hrun
      obtain ⟨hok, hd', hrec⟩ := recordings_found hrest' rfl hon.2.2 hpend
      refine ⟨fun k hk => ⟨hok k hk, hd'⟩, fun w₁ k e'' hw₁ => ?_⟩
      rcases w₁ with _ | ⟨y, _ | ⟨y', w₁⟩⟩
      · cases hw₁
      · -- Nothing came after the insert.
        obtain ⟨_, hw₁⟩ := List.cons.inj hw₁
        obtain ⟨hlast, rfl⟩ := List.cons.inj hw₁
        obtain ⟨rfl, rfl⟩ := Prod.mk.inj hlast
        obtain rfl := steps_nil.mp hrest'
        exact ⟨_, rfl, rfl, rfl⟩
      · exact hrec w₁ k e'' (List.cons.inj (List.cons.inj hw₁).2).2
    · cases hno

/-- The call is the last one on its transaction to complete. -/
def CompletedLast (calls : ι → Recording) (w : List (ι × Event Op.Res)) (i : ι) : Prop :=
  ∃ w₁ e w₂, w = w₁ ++ (i, e) :: w₂ ∧
    ∀ x ∈ w₂, (calls x.1).transaction_id ≠ (calls i).transaction_id

/-- Of the statements on a transaction without a row, the first two are of one call. -/
def FirstAlone (calls : ι → Recording) (db : Db) (schedule : List ι) : Prop :=
  ∀ t, (∀ row ∈ db.scep_transaction.rows, row.transaction_id ≠ t) →
    ∀ i j rest, schedule.filter (fun i => (calls i).transaction_id = t) = i :: j :: rest → j = i

section Interleaved

variable {w : List (ι × Event Op.Res)} {db db' : Db}

/-- The statements of the calls on one transaction. -/
def on_transaction (calls : ι → Recording) (t : String) (w : List (ι × Event Op.Res)) :
    List (ι × Event Op.Res) := w.filter fun x => (calls x.1).transaction_id = t

omit [DecidableEq ι] in
theorem transaction_of_on {x : ι × Event Op.Res} (hx : x ∈ on_transaction calls t w) :
    (calls x.1).transaction_id = t := of_decide_eq_true (List.mem_filter.mp hx).2

/-- The runs on a transaction are whole runs. -/
theorem run_on (hruns : ∀ i, Returns (calls i).run (events_of i w) (r i)) (i : ι)
    (hi : (calls i).transaction_id = t) :
    Returns (calls i).run (events_of i (on_transaction calls t w)) (r i) := by
  rw [on_transaction,
    events_of_filter (p := fun i => (calls i).transaction_id = t) (decide_eq_true hi)]
  exact hruns i

omit [DecidableEq ι] in
theorem schedule_on : (on_transaction calls t w).map Prod.fst
    = (w.map Prod.fst).filter fun i => (calls i).transaction_id = t := by
  rw [List.filter_map]
  rfl

/-- The calls on one transaction, in the world of its row. -/
theorem recordings_project (hruns : ∀ i, Returns (calls i).run (events_of i w) (r i))
    (hworld : Steps (step False) db (w.map Prod.snd) db') (t : String) :
    Steps cell_step (cell t db) ((on_transaction calls t w).map Prod.snd) (cell t db') := by
  refine hworld.project (cell t) _ ?_ ?_
  · rintro ⟨i, e⟩ hmem hkeep s s' hstep
    obtain ⟨q, y, rfl, hq⟩ := Recording.run_frame (hruns i) e (mem_events_of.mpr hmem)
    exact cell_step_of_step (hq.trans (congrArg some (of_decide_eq_true hkeep))) hstep
  · rintro ⟨i, e⟩ hmem hskip s s' hstep
    obtain ⟨q, y, rfl, hq⟩ := Recording.run_frame (hruns i) e (mem_events_of.mpr hmem)
    refine cell_frame (fun hno => ?_) hstep
    exact of_decide_eq_false hskip (Option.some.inj (hq.symm.trans hno))

/-- What the calls on one transaction come to, from its row as it stood before. -/
theorem recordings_cell (hruns : ∀ i, Returns (calls i).run (events_of i w) (r i))
    (hworld : Steps (step False) db (w.map Prod.snd) db')
    (hfirst : FirstAlone calls db (w.map Prod.fst)) (i : ι) :
    r i = .ok () ∧ (cell (calls i).transaction_id db').isSome ∧
      (CompletedLast calls w i → Records (calls i) (cell (calls i).transaction_id db')) := by
  generalize ht : (calls i).transaction_id = t
  have hcell := recordings_project hruns hworld t
  have hon : ∀ x ∈ on_transaction calls t w, (calls x.1).transaction_id = t :=
    fun x hx => transaction_of_on hx
  -- Nothing on the transaction comes after the call that completed last.
  have hlast : CompletedLast calls w i → ∃ w₁ e, on_transaction calls t w = w₁ ++ [(i, e)] := by
    rintro ⟨w₁, e, w₂, rfl, hafter⟩
    refine ⟨on_transaction calls t w₁, e, ?_⟩
    rw [on_transaction, List.filter_append, List.filter_cons,
      if_pos (by exact decide_eq_true ht), on_transaction]
    congr 2
    rw [List.filter_eq_nil_iff]
    exact fun x hx hno => hafter x hx ((of_decide_eq_true hno).trans ht.symm)
  cases hd : cell t db with
  | some row =>
      rw [hd] at hcell
      obtain ⟨hok, hsome, hrec⟩ := recordings_found hcell rfl hon
        fun k hk => .waiting (run_on hruns k hk)
      refine ⟨hok i ht, hsome, fun hcompleted => ?_⟩
      obtain ⟨w₁, e, hw₁⟩ := hlast hcompleted
      exact hrec w₁ i e hw₁
  | none =>
      rw [hd] at hcell
      have hhead : ∀ i j rest, (on_transaction calls t w).map Prod.fst = i :: j :: rest → j = i :=
        fun i j rest heq => hfirst t (cell_eq_none.mp hd) i j rest (schedule_on.symm.trans heq)
      obtain ⟨hok, hrec⟩ := (recordings_not_found hcell hon (run_on hruns)).2 hhead
      refine ⟨(hok i ht).1, (hok i ht).2, fun hcompleted => ?_⟩
      obtain ⟨w₁, e, hw₁⟩ := hlast hcompleted
      exact hrec w₁ i e hw₁

end Interleaved

/-- **Upserts at once.** In an interleaving of calls none fails, every transaction used
has one row, and that the status and the message type of the call that completed last
on it, exactly when the first call to look up a new transaction is alone with it until it has
inserted it. -/
theorem recordings_iff {w : List (ι × Event Op.Res)} {db db' : Db}
    (hruns : ∀ i, Returns (calls i).run (events_of i w) (r i))
    (hworld : Steps (step False) db (w.map Prod.snd) db') :
    ((∀ i, r i = .ok ()) ∧
      (∀ i, ∃ row, db'.scep_transaction.select
        (fun row => row.transaction_id = (calls i).transaction_id) = [row]) ∧
      ∀ i, CompletedLast calls w i → ∃ row, db'.scep_transaction.select
        (fun row => row.transaction_id = (calls i).transaction_id) = [row] ∧
          row.status = (calls i).status ∧ row.message_type = (calls i).message_type) ↔
    FirstAlone calls db (w.map Prod.fst) := by
  constructor
  · rintro ⟨hok, _⟩ t hnone i j rest hfirst
    have hcell := recordings_project hruns hworld t
    rw [cell_eq_none.mpr hnone] at hcell
    have halone := (recordings_not_found hcell (fun x hx => transaction_of_on hx) (run_on hruns)).1
    exact halone (fun k _ => hok k) i j rest (schedule_on.trans hfirst)
  · intro hfirst
    have hcell := recordings_cell hruns hworld hfirst
    refine ⟨fun i => (hcell i).1, fun i => ?_, fun i hlast => ?_⟩
    · obtain ⟨row, hrow⟩ := Option.isSome_iff_exists.mp (hcell i).2.1
      exact ⟨row, select_cell hrow⟩
    · obtain ⟨row, hrow, hstatus, htype⟩ := (hcell i).2.2 hlast
      exact ⟨row, select_cell hrow, hstatus, htype⟩

end Recordings

/-- A transaction that is issued by one call, and fails by the other. -/
private def twice (failed : Bool) : Recording :=
  ⟨"txn-1", "p", if failed then "failed" else "issued", "PKCSReq", "2026-01-01T00:00:00Z"⟩

/-- One after the other, the second call updates the row of the first. -/
theorem recordings_of_two :
    ∃ row, ((Db.empty.exec (.insert_transaction (twice false).row)).2.exec
        (.update_transaction "failed" "PKCSReq" "txn-1")).2.scep_transaction.select
          (fun row => row.transaction_id = "txn-1") = [row] ∧ row.status = "failed" := by
  have hruns : ∀ i, Returns (twice i).run (events_of i [
      (false, ⟨Op.db (.select_transaction "txn-1"), .ok none⟩),
      (false, ⟨Op.db (.insert_transaction (twice false).row), .ok ()⟩),
      (true, ⟨Op.db (.select_transaction "txn-1"), .ok (some "txn-1")⟩),
      (true, ⟨Op.db (.update_transaction "failed" "PKCSReq" "txn-1"), .ok (1 : Nat)⟩)]) (.ok ())
    | false => record_transaction_returns.mpr (.inr (.inl ⟨.ok (), rfl, rfl⟩))
    | true => record_transaction_returns.mpr (.inr (.inr ⟨"txn-1", .ok 1, rfl, rfl⟩))
  have hfirst : FirstAlone twice Db.empty [false, false, true, true] := by
    intro t _ i j rest hfilter
    by_cases ht : t = "txn-1"
    · subst ht
      obtain ⟨rfl, hrest⟩ := List.cons.inj hfilter
      exact (List.cons.inj hrest).1.symm
    · rw [List.filter_eq_nil_iff.mpr fun i _ hno => ht (of_decide_eq_true hno).symm] at hfilter
      cases hfilter
  obtain ⟨row, hrow, hstatus, _⟩ := ((recordings_iff hruns (.cons (.inl rfl) (.cons (.inl rfl)
    (.cons (.inl rfl) (.cons (.inl rfl) (.nil _)))))).mpr hfirst).2.2 true
      ⟨[_, _, _], _, [], rfl, fun _ hno => absurd hno List.not_mem_nil⟩
  exact ⟨row, hrow, hstatus⟩

/-- At once, both find no row, and the call that completes last fails and is lost. -/
theorem recordings_race :
    ∃ (r : Bool → AppResult Unit) (w : List (Bool × Event Op.Res)) (db : Db),
      (∀ i, Returns (twice i).run (events_of i w) (r i)) ∧
      Steps (step False) Db.empty (w.map Prod.snd) db ∧ r true ≠ .ok () ∧
      CompletedLast twice w true ∧ db.scep_transaction.rows = [(twice false).row] ∧
      (twice false).row.status ≠ (twice true).status := by
  refine ⟨fun i => if i then .error (.Database
      "UNIQUE constraint failed: scep_transaction.transaction_id") else .ok (),
    [(false, ⟨Op.db (.select_transaction "txn-1"), .ok none⟩),
      (true, ⟨Op.db (.select_transaction "txn-1"), .ok none⟩),
      (false, ⟨Op.db (.insert_transaction (twice false).row), .ok ()⟩),
      (true, ⟨Op.db (.insert_transaction (twice true).row),
        .error "UNIQUE constraint failed: scep_transaction.transaction_id"⟩)], _, fun i => ?_,
    .cons (.inl rfl) (.cons (.inl rfl) (.cons (.inl rfl) (.cons (.inl rfl) (.nil _)))), ?_,
    ⟨[_, _, _], _, [], rfl, fun _ hno => absurd hno List.not_mem_nil⟩, rfl, by decide⟩
  · cases i with
    | false => exact record_transaction_returns.mpr (.inr (.inl ⟨.ok (), rfl, rfl⟩))
    | true => exact record_transaction_returns.mpr (.inr (.inl ⟨.error _, rfl, rfl⟩))
  · exact fun hno => by cases hno

end repo

end Blapki
