import HybridFtp.Lib.LexicalPath
import Mathlib.Data.List.Dedup
import Mathlib.Data.List.Infix

/-!
# File systems with symbolic links

A file system is a tree of directories, files and symbolic links. The *location*
of an entry is the list of names from the root, none of them a link: two paths
lead to the same entry if and only if they resolve to the same location.

* `FileSystem.node`: what is at a location;
* `FileSystem.alter`: the file system after a change at one location. Nothing else
  changes (`node_alter_of_not_below`);
* `FileSystem.Extends`, `FileSystem.ChangesWithin`: only new entries, and only entries
  in a directory.
-/

namespace HybridFtp

/-- A tree of directories, with the attributes of each, files, symbolic links, and
    anything else. -/
inductive Tree (ν δ β : Type)
  | dir (attributes : δ) (entries : List (ν × Tree ν δ β))
  | file (data : β)
  | link (target : Path ν)
  | special

/-- What is at a location, without what is below it. -/
inductive Node (ν δ β : Type)
  | dir (attributes : δ)
  | file (data : β)
  | link (target : Path ν)
  | special
  deriving DecidableEq, Repr

namespace Tree

variable {ν δ β : Type}

/-- The root of a tree. -/
def node : Tree ν δ β → Node ν δ β
  | dir attributes _ => .dir attributes
  | file data => .file data
  | link target => .link target
  | special => .special

variable [DecidableEq ν]

/-- The entry of a directory with a name. -/
def child (t : Tree ν δ β) (n : ν) : Option (Tree ν δ β) :=
  match t with
  | dir _ entries => entries.lookup n
  | file _ | link _ | special => none

/-- The tree at a location. -/
def get : List ν → Tree ν δ β → Option (Tree ν δ β)
  | [], t => some t
  | n :: l, t => (t.child n).bind (get l)

/-- The entries of a directory after a change of the one with a name. -/
def setEntry (entries : List (ν × Tree ν δ β)) (n : ν) (t : Option (Tree ν δ β)) :
    List (ν × Tree ν δ β) :=
  (t.map (n, ·)).toList ++ entries.filter fun e => e.1 ≠ n

/-- The tree after a change at a location. -/
def alter (f : Option (Tree ν δ β) → Option (Tree ν δ β)) :
    List ν → Option (Tree ν δ β) → Option (Tree ν δ β)
  | [], t => f t
  | n :: l, some (dir attributes entries) =>
    some (dir attributes (setEntry entries n (alter f l (entries.lookup n))))
  | _ :: _, t => t

/-! ## Changes -/

theorem lookup_cons (n m : ν) (t : Tree ν δ β) (entries : List (ν × Tree ν δ β)) :
    ((n, t) :: entries).lookup m = if m = n then some t else entries.lookup m := by
  rw [List.lookup_cons]
  by_cases h : m = n
  · simp [h]
  · rw [if_neg h, beq_false_of_ne h]

theorem lookup_filter_ne (entries : List (ν × Tree ν δ β)) (n m : ν) :
    (entries.filter fun e => e.1 ≠ n).lookup m = if m = n then none else entries.lookup m := by
  induction entries with
  | nil => simp
  | cons e entries ih =>
    obtain ⟨k, t⟩ := e
    by_cases hk : k = n
    · rw [List.filter_cons_of_neg (by simpa using hk), ih, lookup_cons]
      subst hk
      split_ifs <;> rfl
    · rw [List.filter_cons_of_pos (by simpa using hk), lookup_cons, ih, lookup_cons]
      by_cases hm : m = k
      · rw [if_pos hm, if_neg (hm ▸ hk), if_pos hm]
      · rw [if_neg hm, if_neg hm]

theorem lookup_setEntry (entries : List (ν × Tree ν δ β)) (n m : ν) (t : Option (Tree ν δ β)) :
    (setEntry entries n t).lookup m = if m = n then t else entries.lookup m := by
  cases t with
  | none => exact lookup_filter_ne entries n m
  | some t =>
    rw [setEntry, Option.map_some, Option.toList_some, List.singleton_append, lookup_cons,
      lookup_filter_ne]
    split_ifs <;> rfl

theorem get_append (l r : List ν) (t : Tree ν δ β) : get (l ++ r) t = (get l t).bind (get r) := by
  induction l generalizing t with
  | nil => rfl
  | cons n l ih =>
    rw [List.cons_append, get, get, Option.bind_assoc]
    exact congrArg _ (funext ih)

/-- Nothing changes but what is at the location of the change, or below it. -/
theorem node_alter_of_not_below (f : Option (Tree ν δ β) → Option (Tree ν δ β)) {l l' : List ν}
    (h : ¬l <+: l') (t : Option (Tree ν δ β)) :
    ((alter f l t).bind (get l')).map node = (t.bind (get l')).map node := by
  induction l generalizing t l' with
  | nil => exact absurd List.nil_prefix h
  | cons n l ih =>
    match t with
    | none | some (file _) | some (link _) | some special => rfl
    | some (dir attributes entries) =>
      cases l' with
      | nil => rfl
      | cons m l' =>
        simp only [alter, Option.bind_some, get, child, lookup_setEntry]
        by_cases hm : m = n
        · rw [if_pos hm, hm]
          exact ih (fun hl => h (hm ▸ (List.prefix_cons_inj n).2 hl)) _
        · rw [if_neg hm]

/-- The change itself, in a directory. -/
theorem get_alter_append (f : Option (Tree ν δ β) → Option (Tree ν δ β)) {l : List ν} {n : ν}
    {t : Option (Tree ν δ β)} {attributes : δ} {entries : List (ν × Tree ν δ β)}
    (h : t.bind (get l) = some (dir attributes entries)) :
    (alter f (l ++ [n]) t).bind (get (l ++ [n])) = f (t.bind (get (l ++ [n]))) := by
  induction l generalizing t with
  | nil =>
    obtain rfl : t = some (dir attributes entries) := by simpa [get] using h
    simp [alter, get, child, lookup_setEntry]
  | cons m l ih =>
    match t with
    | none | some (file _) | some (link _) | some special => simp [get, child] at h
    | some (dir _ es) =>
      have h : (es.lookup m).bind (get l) = some (dir attributes entries) := by
        simpa [get, child] using h
      simpa [alter, get, child, lookup_setEntry] using ih h

end Tree

/-- A file system: the entries of its root, which is a directory. -/
structure FileSystem (ν δ β : Type) where
  attributes : δ
  entries : List (ν × Tree ν δ β)

namespace FileSystem

variable {ν δ β : Type}

/-- All of it, as a tree. -/
def tree (fs : FileSystem ν δ β) : Tree ν δ β := .dir fs.attributes fs.entries

variable [DecidableEq ν]

/-- The tree at a location, which is a path without links. -/
def get (fs : FileSystem ν δ β) (l : List ν) : Option (Tree ν δ β) := fs.tree.get l

/-- What is at a location. -/
def node (fs : FileSystem ν δ β) (l : List ν) : Option (Node ν δ β) := (fs.get l).map Tree.node

/-- There is a directory at a location. -/
def IsDir (fs : FileSystem ν δ β) (l : List ν) : Prop :=
  match fs.node l with
  | some (.dir _) => True
  | some (.file _) | some (.link _) | some .special | none => False

instance (fs : FileSystem ν δ β) : DecidablePred fs.IsDir := fun l => by
  unfold IsDir
  split <;> infer_instance

/-- The names of the entries of a directory. -/
def names (fs : FileSystem ν δ β) (l : List ν) : List ν :=
  match fs.get l with
  | some (.dir _ entries) => (entries.map Prod.fst).dedup
  | some (.file _) | some (.link _) | some .special | none => []

/-- The file system after a change at a location other than the root. -/
def alter (f : Option (Tree ν δ β) → Option (Tree ν δ β)) :
    List ν → FileSystem ν δ β → FileSystem ν δ β
  | [], fs => fs
  | n :: l, fs =>
    { fs with entries := Tree.setEntry fs.entries n (Tree.alter f l (fs.entries.lookup n)) }

variable {fs : FileSystem ν δ β} {l l' : List ν} {n : ν}

theorem isDir_iff : fs.IsDir l ↔ ∃ attributes, fs.node l = some (.dir attributes) := by
  rw [IsDir]
  split <;> simp_all

theorem not_isDir_of_file {data : β} (h : fs.node l = some (.file data)) : ¬fs.IsDir l := by
  rw [isDir_iff, h]
  rintro ⟨_, hdir⟩
  cases hdir

theorem node_nil : fs.node [] = some (.dir fs.attributes) := rfl

theorem isDir_nil (fs : FileSystem ν δ β) : fs.IsDir [] := isDir_iff.2 ⟨_, node_nil⟩

/-- Only directories have entries. -/
theorem isDir_of_node_append (h : fs.node (l ++ [n]) ≠ none) : fs.IsDir l := by
  rw [node, get, Tree.get_append, ← get] at h
  rw [IsDir, node]
  match hl : fs.get l with
  | some (.dir _ _) => trivial
  | none | some (.file _) | some (.link _) | some .special => simp [hl, Tree.get, Tree.child] at h

theorem isDir_of_prefix (h : fs.node l' ≠ none) (hl : l <+: l') (hne : l ≠ l') : fs.IsDir l := by
  obtain ⟨r, rfl⟩ := hl
  induction r using List.reverseRecOn with
  | nil => simp at hne
  | append_singleton r n ih =>
    rw [← List.append_assoc] at h
    have hdir := isDir_of_node_append h
    rcases eq_or_ne r [] with rfl | hr
    · simpa using hdir
    · obtain ⟨_, hnode⟩ := isDir_iff.1 hdir
      exact ih (by simp [hnode]) (by simpa using hr)

/-- Nothing changes but what is at the location of the change, or below it. -/
theorem node_alter_of_not_below (f : Option (Tree ν δ β) → Option (Tree ν δ β))
    (h : ¬l <+: l') : (fs.alter f l).node l' = fs.node l' := by
  cases l with
  | nil => rfl
  | cons n l => exact Tree.node_alter_of_not_below f h (some fs.tree)

/-- The change itself, in a directory. -/
theorem get_alter_append (f : Option (Tree ν δ β) → Option (Tree ν δ β)) (h : fs.IsDir l) :
    (fs.alter f (l ++ [n])).get (l ++ [n]) = f (fs.get (l ++ [n])) := by
  rw [IsDir, node] at h
  match hl : fs.get l with
  | some (.dir attributes entries) =>
    have hget := Tree.get_alter_append f (n := n) (t := some fs.tree) (l := l) hl
    cases l with
    | nil => exact hget
    | cons m l => exact hget
  | none | some (.file _) | some (.link _) | some .special => simp [hl, Tree.node] at h

/-- A directory stays where it is if nothing above it changes. -/
theorem isDir_alter (f : Option (Tree ν δ β) → Option (Tree ν δ β)) (h : ¬l <+: l')
    (hdir : fs.IsDir l') : (fs.alter f l).IsDir l' := by
  rwa [IsDir, node_alter_of_not_below f h]

/-- What is there is among the names of its directory. -/
theorem mem_names_of_node (h : fs.node (l ++ [n]) ≠ none) : n ∈ fs.names l := by
  rw [node, get, Tree.get_append, ← get] at h
  rw [names]
  match hl : fs.get l with
  | none | some (.file _) | some (.link _) | some .special => simp [hl, Tree.get, Tree.child] at h
  | some (.dir _ entries) =>
    rw [List.mem_dedup, List.mem_map]
    have hlookup : entries.lookup n ≠ none := by
      rintro hnone
      simp [hl, Tree.get, Tree.child, hnone] at h
    obtain ⟨t, ht⟩ := Option.ne_none_iff_exists'.1 hlookup
    obtain ⟨before, after, rfl, _⟩ := List.lookup_eq_some_iff.1 ht
    exact ⟨(n, t), by simp, rfl⟩

/-! ## New entries -/

variable {fs₁ fs₂ : FileSystem ν δ β}

/-- What is there stays as it is. -/
def Extends (fs fs' : FileSystem ν δ β) : Prop := ∀ l, fs.node l ≠ none → fs'.node l = fs.node l

theorem Extends.refl (fs : FileSystem ν δ β) : fs.Extends fs := fun _ _ => rfl

theorem Extends.trans (h₁ : fs.Extends fs₁) (h₂ : fs₁.Extends fs₂) : fs.Extends fs₂ := by
  intro l hl
  rw [h₂ l (by rwa [h₁ l hl]), h₁ l hl]

theorem Extends.isDir (h : fs.Extends fs₁) (hdir : fs.IsDir l) : fs₁.IsDir l := by
  obtain ⟨_, hnode⟩ := isDir_iff.1 hdir
  rwa [IsDir, h l (by simp [hnode])]

/-- A new entry is in nobody's way. -/
theorem extends_alter (f : Option (Tree ν δ β) → Option (Tree ν δ β)) (hn : fs.node l = none) :
    fs.Extends (fs.alter f l) := by
  intro l' hl'
  refine node_alter_of_not_below f fun hbelow => ?_
  rcases eq_or_ne l l' with rfl | hne
  · exact hl' hn
  · have hdir : fs.IsDir l := isDir_of_prefix hl' hbelow hne
    obtain ⟨_, hnode⟩ := isDir_iff.1 hdir
    simp [hn] at hnode

/-! ## Changes in a directory -/

/-- Nothing changes but entries of directories in `root`. -/
def ChangesWithin (root : List ν) (fs fs' : FileSystem ν δ β) : Prop :=
  ∀ l, fs'.node l ≠ fs.node l → ∃ dir n, l = dir ++ [n] ∧ root <+: dir

variable {root : List ν}

theorem ChangesWithin.refl (root : List ν) (fs : FileSystem ν δ β) : fs.ChangesWithin root fs :=
  fun _ h => absurd rfl h

theorem ChangesWithin.trans (h₁ : fs.ChangesWithin root fs₁) (h₂ : fs₁.ChangesWithin root fs₂) :
    fs.ChangesWithin root fs₂ := by
  intro l hl
  by_cases h : fs₁.node l = fs.node l
  · exact h₂ l (by rwa [h])
  · exact h₁ l h

theorem ChangesWithin.mono (h : fs.ChangesWithin l fs₁) (hl : root <+: l) :
    fs.ChangesWithin root fs₁ := by
  intro l' hl'
  obtain ⟨dir, n, heq, hdir⟩ := h l' hl'
  exact ⟨dir, n, heq, hl.trans hdir⟩

/-- A change of an entry is one in the directory of the entry. -/
theorem changesWithin_alter (f : Option (Tree ν δ β) → Option (Tree ν δ β)) (h : root <+: l) (n : ν)
    (fs : FileSystem ν δ β) : fs.ChangesWithin root (fs.alter f (l ++ [n])) := by
  intro l' hl'
  obtain ⟨r, rfl⟩ : l ++ [n] <+: l' := by
    by_contra hprefix
    exact hl' (node_alter_of_not_below f hprefix)
  rcases List.eq_nil_or_concat r with rfl | ⟨r, m, rfl⟩
  · exact ⟨l, n, by simp, h⟩
  · refine ⟨l ++ [n] ++ r, m, by simp, ?_⟩
    rw [List.append_assoc]
    exact h.trans (List.prefix_append _ _)

/-- The root is not changed itself. -/
theorem ChangesWithin.isDir (h : fs.ChangesWithin root fs₁) (hdir : fs.IsDir root) :
    fs₁.IsDir root := by
  have hnode : fs₁.node root = fs.node root := by
    by_contra hne
    obtain ⟨dir, n, heq, hroot⟩ := h root hne
    have hlength := hroot.length_le
    rw [heq, List.length_append] at hlength
    exact absurd hlength (by simp)
  rwa [IsDir, hnode]

/-- What is new in a directory is a change of it only if the directory is in `root`. -/
theorem ChangesWithin.prefix_of_node_ne (h : fs.ChangesWithin root fs₁)
    (hne : fs₁.node (l ++ [n]) ≠ fs.node (l ++ [n])) : root <+: l := by
  obtain ⟨dir, m, heq, hroot⟩ := h _ hne
  rwa [(List.append_inj' heq rfl).1]

end FileSystem

end HybridFtp
