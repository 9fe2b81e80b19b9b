/-
The disk of the host a server starts on.

A path is resolved in the disk as it is at that moment (`Host.locate`), so a directory that
is created can make a path lead somewhere it did not lead before. Two relations say what
happens to a disk: `Extends`, after which every path that led to a place leads to it still,
and `Lasting`, after which whatever was there is there still as well.

A key file is `Direct` when creating directories never makes its path lead to something that
was there. On a tree of directories that is every path without `..` (`direct_of_names`).
-/
import Blapki.App

set_option autoImplicit false

namespace Blapki

open Effect

/-- What is at a place of the disk. -/
inductive Node where
  | file (contents : Bytes)
  | directory
  | link (target : String)
deriving DecidableEq

/-- Nothing or a file: what can be written. -/
def Plain : Option Node → Prop
  | none | some (.file _) => True
  | _ => False

instance : DecidablePred Plain := fun n =>
  match n with
  | none | some (.file _) => .isTrue trivial
  | some .directory | some (.link _) => .isFalse id

section Contents

variable {κ : Type} {K : Set κ} {d d' d'' : κ → Option Node}

/-- Directories are created where nothing was. -/
def Grown (d d' : κ → Option Node) : Prop :=
  ∀ k, d' k = d k ∨ (d k = none ∧ d' k = some .directory)

/-- Files are written at these places. -/
def Rewritten (K : Set κ) (d d' : κ → Option Node) : Prop :=
  ∀ k, d' k = d k ∨ (k ∈ K ∧ Plain (d k) ∧ Plain (d' k))

/-- Directories and links stay, and no link is made. -/
def Extends (d d' : κ → Option Node) : Prop :=
  ∀ k, d' k = d k ∨ (Plain (d k) ∧ ∀ target, d' k ≠ some (.link target))

/-- The disk is extended, and outside these places whatever was there is there still. -/
structure Lasting (K : Set κ) (d d' : κ → Option Node) : Prop where
  extends_to : Extends d d'
  kept : ∀ k ∉ K, ∀ n, d k = some n → d' k = some n

theorem Extends.refl (d : κ → Option Node) : Extends d d := fun _ => .inl rfl

theorem Extends.trans (h : Extends d d') (h' : Extends d' d'') : Extends d d'' := by
  intro k
  rcases h k with hsame | ⟨hplain, hlink⟩
  · rcases h' k with hsame' | ⟨hplain', hlink'⟩
    · exact .inl (hsame'.trans hsame)
    · exact .inr ⟨hsame ▸ hplain', hlink'⟩
  · -- plain at first, and whatever it has become, no link
    rcases h' k with hsame' | ⟨_, hlink'⟩
    · exact .inr ⟨hplain, hsame' ▸ hlink⟩
    · exact .inr ⟨hplain, hlink'⟩

theorem Extends.directory (h : Extends d d') {k : κ} (hk : d k = some .directory) :
    d' k = some .directory := by
  rcases h k with hsame | ⟨hplain, _⟩
  · exact hsame.trans hk
  · rw [hk] at hplain
    exact hplain.elim

theorem Grown.extends_to (h : Grown d d') : Extends d d' := by
  intro k
  rcases h k with hsame | ⟨hnone, hdir⟩
  · exact .inl hsame
  · refine .inr ⟨hnone ▸ trivial, fun target hno => ?_⟩
    cases hdir.symm.trans hno

theorem Rewritten.extends_to (h : Rewritten K d d') : Extends d d' := by
  intro k
  rcases h k with hsame | ⟨_, hplain, hplain'⟩
  · exact .inl hsame
  · refine .inr ⟨hplain, fun target hno => ?_⟩
    rw [hno] at hplain'
    exact hplain'

theorem Lasting.refl (K : Set κ) (d : κ → Option Node) : Lasting K d d :=
  ⟨.refl d, fun _ _ _ h => h⟩

theorem Lasting.trans (h : Lasting K d d') (h' : Lasting K d' d'') : Lasting K d d'' :=
  ⟨h.extends_to.trans h'.extends_to, fun k hk n hn => h'.kept k hk n (h.kept k hk n hn)⟩

theorem Lasting.mono {K' : Set κ} (h : Lasting K d d') (hsub : K ⊆ K') : Lasting K' d d' :=
  ⟨h.extends_to, fun k hk => h.kept k fun hmem => hk (hsub hmem)⟩

theorem Grown.lasting (h : Grown d d') : Lasting K d d' := by
  refine ⟨h.extends_to, fun k _ n hn => ?_⟩
  rcases h k with hsame | ⟨hnone, _⟩
  · exact hsame.trans hn
  · cases hnone.symm.trans hn

theorem Grown.trans (h : Grown d d') (h' : Grown d' d'') : Grown d d'' := by
  intro k
  rcases h k with hsame | ⟨hnone, hdir⟩
  · rw [← hsame]
    exact h' k
  · rcases h' k with hsame' | ⟨hnone', _⟩
    · exact .inr ⟨hnone, hsame'.trans hdir⟩
    · cases hdir.symm.trans hnone'

theorem Rewritten.lasting (h : Rewritten K d d') : Lasting K d d' := by
  refine ⟨h.extends_to, fun k hk n hn => ?_⟩
  rcases h k with hsame | ⟨hmem, _⟩
  · exact hsame.trans hn
  · exact absurd hmem hk

end Contents

/-! ## Hosts -/

/-- A host: its disks, where a path leads on each of them, the variables of the process, and
the places that the database engine writes. A path leads nowhere where a directory on the way
is missing; where it leads to, it still does with more on the disk. -/
structure Host (κ δ : Type) where
  node : δ → κ → Option Node
  locate : δ → String → Option κ
  vars : String → Option String
  database : Set κ
  locate_mono : ∀ {d d' : δ} {path : String} {k : κ}, Extends (node d) (node d') →
    locate d path = some k → locate d' path = some k

namespace Host

variable {κ δ : Type} (H : Host κ δ)

/-- What a path leads to. -/
def find (d : δ) (path : String) : Option Node := (H.locate d path).bind (H.node d)

/-- How the host answers: a directory is created where nothing was, a write that fails may
leave anything in its file, the database engine writes its own files, and whatever is not
about the disk leaves it alone. -/
def step (d : δ) : (o : Op) → o.Res → δ → Prop
  | .env_var name, value, d' => value = H.vars name ∧ d' = d
  | .connect _, _, d' => Rewritten H.database (H.node d) (H.node d')
  | .path_exists path, there, d' => there = (H.find d path).isSome ∧ d' = d
  | .read_file path, read, d' =>
      (∀ contents, read = .ok contents → H.find d path = some (.file contents)) ∧ d' = d
  | .create_dir_all _, _, d' => Grown (H.node d) (H.node d')
  | .write_file path contents, written, d' =>
      Rewritten {k | H.locate d path = some k} (H.node d) (H.node d') ∧
        (written = .ok () → ∃ k, H.locate d path = some k ∧ H.node d' k = some (.file contents))
  | _, _, d' => d' = d

/-- Creating directories never makes the path lead to something that was there. -/
def Direct (path : String) : Prop :=
  ∀ d d' k, Grown (H.node d) (H.node d') → H.locate d path = none → H.locate d' path = some k →
    H.node d k = none

/-- What these paths lead to stays. -/
def Keeps (paths : Set String) (d d' : δ) : Prop :=
  ∀ path ∈ paths, ∀ n, H.find d path = some n → H.find d' path = some n

variable {H} {d d' : δ}

theorem find_eq_some {path : String} {n : Node} :
    H.find d path = some n ↔ ∃ k, H.locate d path = some k ∧ H.node d k = some n :=
  Option.bind_eq_some_iff

theorem find_eq_none {path : String} :
    H.find d path = none ↔ ∀ k, H.locate d path = some k → H.node d k = none :=
  Option.bind_eq_none_iff

/-- What a path leads to stays, unless it is a file of the database. -/
theorem keeps_of_lasting {paths : Set String}
    (hapart : ∀ path ∈ paths, ∀ d k, H.locate d path = some k → k ∉ H.database)
    (h : Lasting H.database (H.node d) (H.node d')) : H.Keeps paths d d' := by
  intro path hpath n hn
  obtain ⟨k, hk, hnode⟩ := find_eq_some.mp hn
  exact find_eq_some.mpr ⟨k, H.locate_mono h.extends_to hk,
    h.kept k (hapart path hpath d k hk) n hnode⟩

end Host

/-! ## Directory trees -/

/-- A tree of directories: whatever is there is in a directory. -/
structure Tree where
  node : List String → Option Node
  root : node [] = some .directory
  parent : ∀ name dir, node (name :: dir) ≠ none → node dir = some .directory

namespace Tree

/-- Where a name leads from a directory. -/
def enter (dir : List String) (name : String) : List String :=
  if name = ".." then dir.tail else name :: dir

/-- Follow names, each of them out of a directory. -/
def walk (node : List String → Option Node) : List String → List String → Option (List String)
  | k, [] => some k
  | k, name :: names => if node k = some .directory then walk node (enter k name) names else none

/-- The names in a path. -/
def names (path : String) : List String :=
  ((path.toList.splitOn '/').map String.ofList).filter fun name => name ≠ "" ∧ name ≠ "."

/-- The place a path leads to from the root, which is the working directory. -/
def locate (t : Tree) (path : String) : Option (List String) := walk t.node [] (names path)

theorem walk_mono {d d' : List String → Option Node} (h : Extends d d') {ns k k' : List String}
    (hwalk : walk d k ns = some k') : walk d' k ns = some k' := by
  induction ns generalizing k with
  | nil => exact hwalk
  | cons name ns ih =>
      rw [walk] at hwalk ⊢
      split at hwalk
      · rw [if_pos (h.directory ‹_›)]
        exact ih hwalk
      · cases hwalk

/-- Without `..` the walk goes down. -/
theorem walk_down {d : List String → Option Node} {ns k k' : List String} (hns : ".." ∉ ns)
    (hwalk : walk d k ns = some k') : k' = ns.reverse ++ k := by
  induction ns generalizing k with
  | nil => exact (Option.some.inj hwalk).symm
  | cons name ns ih =>
      rw [List.mem_cons, not_or] at hns
      rw [walk] at hwalk
      split at hwalk
      · rw [ih hns.2 hwalk, enter, if_neg (Ne.symm hns.1), List.reverse_cons, List.append_assoc,
          List.singleton_append]
      · cases hwalk

/-- There is nothing below what is not a directory. -/
theorem directory_of_below (t : Tree) {l k : List String} (hl : l ≠ [])
    (h : t.node (l ++ k) ≠ none) : t.node k = some .directory := by
  induction l with
  | nil => exact absurd rfl hl
  | cons name l ih =>
      have hdir := t.parent name (l ++ k) h
      by_cases hnil : l = []
      · rwa [hnil, List.nil_append] at hdir
      · exact ih hnil (by rw [hdir]; exact Option.some_ne_none _)

/-- What is found below a directory that was missing was not there. -/
theorem walk_fresh (t : Tree) {d : List String → Option Node} {ns k k' : List String}
    (hns : ".." ∉ ns) (hnone : walk t.node k ns = none) (hwalk : walk d k ns = some k') :
    t.node k' = none := by
  induction ns generalizing k with
  | nil => cases hnone
  | cons name ns ih =>
      have hbelow := walk_down hns hwalk
      rw [List.mem_cons, not_or] at hns
      rw [walk] at hnone hwalk
      split at hwalk
      · split at hnone
        · exact ih hns.2 hnone hwalk
        · -- whatever is below would make a directory of what was none
          rename_i hno
          by_contra hsome
          rw [hbelow] at hsome
          exact hno (t.directory_of_below (by simp) hsome)
      · cases hwalk

/-- The tree as the disk of a host. -/
def host (vars : String → Option String) (database : Set (List String)) :
    Host (List String) Tree where
  node := node
  locate := locate
  vars := vars
  database := database
  locate_mono := fun h hlocate => walk_mono h hlocate

/-- **A path without `..` is direct.** -/
theorem direct_of_names {vars : String → Option String} {database : Set (List String)}
    {path : String} (h : ".." ∉ names path) : (host vars database).Direct path := by
  intro t t' k _ hnone hsome
  exact t.walk_fresh (k := []) h hnone hsome

end Tree

end Blapki
