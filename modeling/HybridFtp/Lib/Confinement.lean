import HybridFtp.Lib.Creation

/-!
# Confinement

Two file systems with the same tree at a directory. A path that is not led out of the
directory, apart from the way to it, leads to the same place in both.

* `SameInside`: the same tree at a directory, which is there;
* `ConfinedTo`: the walk along a path, and along all its links, does not look up anything
  outside;
* `SameInside.resolve`: where such a path leads, which is in the directory or on the way
  to it (`placed_resolve`);
* `SameInside.alter`: the same change inside.
-/

namespace HybridFtp

namespace FileSystem

variable {ν δ β : Type} [DecidableEq ν]

/-- The same tree at `root`, which is a directory. -/
structure SameInside (root : List ν) (fs fs' : FileSystem ν δ β) : Prop where
  isDir : fs.IsDir root
  get : fs'.get root = fs.get root

/-- A location in `root`, or one on the way to it. -/
def Near (root l : List ν) : Prop := l <+: root ∨ root <+: l

instance (root : List ν) : DecidablePred (Near root) := fun l => by
  unfold Near
  infer_instance

section

variable (fs : FileSystem ν δ β) (root : List ν)

/-- The walk from the directory `l`, up to the next link, only looks up what is near
    `root`. -/
def WalksNear : List ν → List (Part ν) → Prop
  | _, [] => True
  | l, .self :: rest => WalksNear l rest
  | l, .parent :: rest => WalksNear l.dropLast rest
  | l, .name n :: rest =>
    Near root (l ++ [n]) ∧ (fs.IsDir (l ++ [n]) → WalksNear (l ++ [n]) rest)

/-- So does the walk along at most `budget` links. -/
def ResolvesNear : Nat → List ν → List (Part ν) → Prop
  | 0, l, parts => fs.WalksNear root l parts
  | budget + 1, l, parts =>
    fs.WalksNear root l parts ∧
      match fs.walk true l parts with
      | .ends _ => True
      | .link l target rest =>
        ResolvesNear budget (if target.rooted then [] else l) (walkParts target ++ rest)

/-- A path that is not led out of `root`, along any of its links. -/
def ConfinedTo (p : NormalPath ν) : Prop :=
  fs.ResolvesNear root MAXSYMLINKS [] (p.names.map .name ++ if p.slash then [.self] else [])

instance decidableWalksNear (l : List ν) (parts : List (Part ν)) :
    Decidable (fs.WalksNear root l parts) :=
  match parts with
  | [] => instDecidableTrue
  | .self :: rest => decidableWalksNear l rest
  | .parent :: rest => decidableWalksNear l.dropLast rest
  | .name n :: rest =>
    have := decidableWalksNear (l ++ [n]) rest
    inferInstanceAs (Decidable (_ ∧ (_ → _)))

instance decidableResolvesNear (budget : Nat) (l : List ν) (parts : List (Part ν)) :
    Decidable (fs.ResolvesNear root budget l parts) :=
  match budget with
  | 0 => decidableWalksNear fs root l parts
  | budget + 1 => by
    unfold ResolvesNear
    have := decidableResolvesNear budget
    cases fs.walk true l parts with
    | ends r => infer_instance
    | link l target rest => infer_instance

instance (p : NormalPath ν) : Decidable (fs.ConfinedTo root p) :=
  decidableResolvesNear ..

end

variable {fs fs' : FileSystem ν δ β} {root l : List ν} {n : ν} {p : NormalPath ν}

/-! ## The same tree -/

theorem SameInside.isDir' (h : fs.SameInside root fs') : fs'.IsDir root := by
  have hdir := h.isDir
  rwa [IsDir, node, ← h.get] at hdir

theorem SameInside.symm (h : fs.SameInside root fs') : fs'.SameInside root fs :=
  ⟨h.isDir', h.get.symm⟩

theorem SameInside.get_below (h : fs.SameInside root fs') (hl : root <+: l) :
    fs'.get l = fs.get l := by
  obtain ⟨r, rfl⟩ := hl
  have hget := h.get
  rw [FileSystem.get] at hget ⊢
  rw [FileSystem.get, Tree.get_append, hget, FileSystem.get, Tree.get_append]

theorem SameInside.node (h : fs.SameInside root fs') (hl : root <+: l) :
    fs'.node l = fs.node l := by
  rw [FileSystem.node, FileSystem.node, h.get_below hl]

theorem SameInside.names (h : fs.SameInside root fs') (hl : root <+: l) :
    fs'.names l = fs.names l := by
  rw [FileSystem.names, FileSystem.names, h.get_below hl]

theorem isDir_of_prefix_of_isDir (hroot : fs.IsDir root) (hl : l <+: root) : fs.IsDir l := by
  obtain ⟨r, rfl⟩ := hl
  exact isDir_of_append hroot

theorem SameInside.isDir_iff (h : fs.SameInside root fs') (hl : Near root l) :
    fs'.IsDir l ↔ fs.IsDir l := by
  rcases hl with hl | hl
  · exact iff_of_true (isDir_of_prefix_of_isDir h.isDir' hl) (isDir_of_prefix_of_isDir h.isDir hl)
  · rw [IsDir, IsDir, h.node hl]

/-- What is there, but a directory on the way to the one with the same tree, is the
    same. -/
theorem SameInside.node_cases (h : fs.SameInside root fs') (hl : Near root l) :
    fs'.node l = fs.node l ∨
      ∃ attributes attributes', fs.node l = some (.dir attributes) ∧
        fs'.node l = some (.dir attributes') := by
  rcases hl with hl | hl
  · obtain ⟨attributes, hnode⟩ := FileSystem.isDir_iff.1 (isDir_of_prefix_of_isDir h.isDir hl)
    obtain ⟨attributes', hnode'⟩ := FileSystem.isDir_iff.1 (isDir_of_prefix_of_isDir h.isDir' hl)
    exact .inr ⟨attributes, attributes', hnode, hnode'⟩
  · exact .inl (h.node hl)

/-! ## Walks -/

variable {follow : Bool} {parts rest : List (Part ν)} {budget : Nat}

theorem SameInside.walk (h : fs.SameInside root fs') (follow : Bool)
    (hnear : fs.WalksNear root l parts) :
    fs'.walk follow l parts = fs.walk follow l parts ∧ fs'.WalksNear root l parts := by
  induction parts generalizing l with
  | nil => exact ⟨rfl, trivial⟩
  | cons part parts ih =>
    cases part with
    | self => exact ih hnear
    | parent => exact ih hnear
    | name n =>
      obtain ⟨hn, hrest⟩ := hnear
      have hdir : fs'.IsDir (l ++ [n]) → fs'.WalksNear root (l ++ [n]) parts := fun hdir =>
        (ih (hrest ((h.isDir_iff hn).1 hdir))).2
      refine ⟨?_, hn, hdir⟩
      rw [FileSystem.walk, FileSystem.walk]
      rcases h.node_cases hn with heq | ⟨attributes, attributes', hnode, hnode'⟩
      · rw [heq]
        cases hnode : fs.node (l ++ [n]) with
        | none => rfl
        | some node =>
          cases node with
          | dir attributes => exact (ih (hrest (FileSystem.isDir_iff.2 ⟨attributes, hnode⟩))).1
          | file | link | special => rfl
      · rw [hnode, hnode']
        exact (ih (hrest (FileSystem.isDir_iff.2 ⟨attributes, hnode⟩))).1

omit [DecidableEq ν] in
theorem near_dropLast (h : Near root l) : Near root l.dropLast := by
  rcases h with h | ⟨r, rfl⟩
  · exact .inl ((List.dropLast_prefix l).trans h)
  · rcases List.eq_nil_or_concat r with rfl | ⟨r, n, rfl⟩
    · rw [List.append_nil]
      exact .inl (List.dropLast_prefix root)
    · rw [List.concat_eq_append, ← List.append_assoc, List.dropLast_concat]
      exact .inr (List.prefix_append _ _)

omit [DecidableEq ν] in
theorem near_nil : Near root ([] : List ν) := .inl List.nil_prefix

/-- What is found is near `root`, and what is absent is absent from a directory in it. -/
def Placed (root : List ν) : Resolved ν → Prop
  | .found l => Near root l
  | .absent l _ => root <+: l
  | .notFound | .notDirectory | .tooManyLinks => True

/-- What is not there is not on the way to `root`. -/
theorem prefix_of_absent (hroot : fs.IsDir root) (hnear : Near root (l ++ [n]))
    (hn : fs.node (l ++ [n]) = none) : root <+: l := by
  have hne : ¬l ++ [n] <+: root := by
    intro hl
    obtain ⟨_, hnode⟩ := FileSystem.isDir_iff.1 (isDir_of_prefix_of_isDir hroot hl)
    rw [hn] at hnode
    cases hnode
  rcases List.prefix_concat_iff.1 (hnear.resolve_left hne) with rfl | hl
  · exact absurd List.prefix_rfl hne
  · exact hl

theorem placed_walk (hroot : fs.IsDir root) (follow : Bool) (hl : Near root l)
    (hnear : fs.WalksNear root l parts) :
    match fs.walk follow l parts with
    | .ends r => Placed root r
    | .link l _ _ => Near root l := by
  induction parts generalizing l with
  | nil => exact hl
  | cons part parts ih =>
    cases part with
    | self => exact ih hl hnear
    | parent => exact ih (near_dropLast hl) hnear
    | name n =>
      obtain ⟨hn, hrest⟩ := hnear
      rw [FileSystem.walk]
      cases hnode : fs.node (l ++ [n]) with
      | none =>
        dsimp only
        split_ifs
        · exact prefix_of_absent hroot hn hnode
        · trivial
      | some node =>
        cases node with
        | dir attributes => exact ih hn (hrest (FileSystem.isDir_iff.2 ⟨attributes, hnode⟩))
        | link target =>
          dsimp only
          split_ifs
          · exact hn
          · exact hl
        | file | special =>
          dsimp only
          split_ifs
          · exact hn
          · trivial

/-! ## Resolution -/

theorem ResolvesNear.walksNear (h : fs.ResolvesNear root budget l parts) :
    fs.WalksNear root l parts := by
  cases budget with
  | zero => exact h
  | succ budget => exact h.1

theorem ResolvesNear.of_link {l' : List ν} {target : Path ν}
    (h : fs.ResolvesNear root (budget + 1) l parts)
    (hwalk : fs.walk true l parts = .link l' target rest) :
    fs.ResolvesNear root budget (if target.rooted then [] else l') (walkParts target ++ rest) := by
  have hlink := h.2
  rwa [hwalk] at hlink

theorem walk_true_of_link {l' : List ν} {target : Path ν}
    (h : fs.walk follow l parts = .link l' target rest) :
    fs.walk true l parts = .link l' target rest := by
  cases follow with
  | true => exact h
  | false =>
    rcases walk_true_of_walk_false fs l parts with ⟨l₁, hl₁⟩ | heq
    · rw [hl₁] at h
      cases h
    · rw [heq, h]

theorem SameInside.resolveFrom (h : fs.SameInside root fs') (follow : Bool)
    (hnear : fs.ResolvesNear root budget l parts) :
    fs'.resolveFrom follow budget l parts = fs.resolveFrom follow budget l parts ∧
      fs'.ResolvesNear root budget l parts := by
  induction budget generalizing l parts with
  | zero =>
    obtain ⟨hwalk, hnear'⟩ := h.walk follow hnear
    exact ⟨by rw [FileSystem.resolveFrom, FileSystem.resolveFrom, hwalk], hnear'⟩
  | succ budget ih =>
    obtain ⟨hwalk, hnear'⟩ := h.walk follow hnear.walksNear
    refine ⟨?_, hnear', ?_⟩
    · cases hw : fs.walk follow l parts with
      | ends r => rw [resolveFrom_of_ends hw, resolveFrom_of_ends (hwalk.trans hw)]
      | link l' target rest =>
        rw [resolveFrom_of_link hw, resolveFrom_of_link (hwalk.trans hw)]
        exact (ih (hnear.of_link (walk_true_of_link hw))).1
    · rw [(h.walk true hnear.walksNear).1]
      cases hw : fs.walk true l parts with
      | ends r => trivial
      | link l' target rest => exact (ih (hnear.of_link hw)).2

theorem placed_resolveFrom (hroot : fs.IsDir root) (follow : Bool) (hl : Near root l)
    (hnear : fs.ResolvesNear root budget l parts) :
    Placed root (fs.resolveFrom follow budget l parts) := by
  induction budget generalizing l parts with
  | zero =>
    have hplaced := placed_walk hroot follow hl hnear
    cases hw : fs.walk follow l parts with
    | ends r =>
      rw [hw] at hplaced
      rwa [resolveFrom_of_ends hw]
    | link l' target rest =>
      rw [resolveFrom_of_link_zero hw]
      trivial
  | succ budget ih =>
    have hplaced := placed_walk hroot follow hl hnear.walksNear
    cases hw : fs.walk follow l parts with
    | ends r =>
      rw [hw] at hplaced
      rwa [resolveFrom_of_ends hw]
    | link l' target rest =>
      rw [hw] at hplaced
      rw [resolveFrom_of_link hw]
      refine ih ?_ (hnear.of_link (walk_true_of_link hw))
      split_ifs
      · exact near_nil
      · exact hplaced

/-- A confined path leads to the same place. -/
theorem SameInside.resolve (h : fs.SameInside root fs') (follow : Bool)
    (hp : fs.ConfinedTo root p) : fs'.resolve follow p = fs.resolve follow p :=
  (h.resolveFrom follow hp).1

theorem SameInside.confinedTo (h : fs.SameInside root fs') (hp : fs.ConfinedTo root p) :
    fs'.ConfinedTo root p :=
  (h.resolveFrom true hp).2

theorem placed_resolve (hroot : fs.IsDir root) (follow : Bool) (hp : fs.ConfinedTo root p) :
    Placed root (fs.resolve follow p) :=
  placed_resolveFrom hroot follow near_nil hp

/-! ## Paths with less at the end -/

theorem WalksNear.of_append (h : fs.WalksNear root l (parts ++ rest)) :
    fs.WalksNear root l parts := by
  induction parts generalizing l with
  | nil => trivial
  | cons part parts ih =>
    cases part with
    | self => exact ih h
    | parent => exact ih h
    | name n => exact ⟨h.1, fun hdir => ih (h.2 hdir)⟩

theorem ResolvesNear.of_append (hl : fs.IsDir l) (h : fs.ResolvesNear root budget l (parts ++ rest)) :
    fs.ResolvesNear root budget l parts := by
  rcases eq_or_ne rest [] with rfl | hrest
  · rwa [List.append_nil] at h
  induction budget generalizing l parts with
  | zero => exact WalksNear.of_append h
  | succ budget ih =>
    refine ⟨h.walksNear.of_append, ?_⟩
    have hw := walk_append true parts hl hrest
    have hsound := walk_sound true parts hl
    cases hwalk : fs.walk true l parts with
    | ends r => trivial
    | link l' target rest' =>
      rw [hwalk] at hw hsound
      have hlink := h.of_link hw
      rw [← List.append_assoc] at hlink
      refine ih ?_ hlink
      split_ifs
      · exact isDir_nil fs
      · exact hsound

/-- A separator at the end does not lead further. -/
theorem ConfinedTo.of_slash (h : fs.ConfinedTo root p) :
    fs.ConfinedTo root { names := p.names } := by
  rw [ConfinedTo, if_neg Bool.false_ne_true, List.append_nil]
  exact ResolvesNear.of_append (isDir_nil fs) h

theorem ConfinedTo.of_append {d r : List ν} {slash : Bool}
    (h : fs.ConfinedTo root { names := d ++ r, slash }) : fs.ConfinedTo root { names := d } := by
  rw [ConfinedTo, List.map_append, List.append_assoc] at h
  rw [ConfinedTo, if_neg Bool.false_ne_true, List.append_nil]
  exact ResolvesNear.of_append (isDir_nil fs) h

theorem ConfinedTo.parentPath (h : fs.ConfinedTo root p) : fs.ConfinedTo root p.parentPath := by
  obtain ⟨names, slash⟩ := p
  cases slash with
  | true => exact h.of_slash
  | false =>
    rcases List.eq_nil_or_concat names with rfl | ⟨names, n, rfl⟩
    · exact h
    · rw [List.concat_eq_append] at h ⊢
      rw [NormalPath.parentPath, if_neg Bool.false_ne_true, List.dropLast_concat]
      exact h.of_append

/-! ## Tests -/

theorem SameInside.fileType (h : fs.SameInside root fs') (hl : Near root l) :
    (fs'.node l).map Node.fileType = (fs.node l).map Node.fileType := by
  rcases h.node_cases hl with heq | ⟨_, _, hnode, hnode'⟩
  · rw [heq]
  · rw [hnode, hnode']
    rfl

theorem SameInside.status (h : fs.SameInside root fs') (hp : fs.ConfinedTo root p) :
    fs'.status p = fs.status p := by
  have hplaced := placed_resolve h.isDir true hp
  rw [FileSystem.status, FileSystem.status, h.resolve true hp]
  cases hr : fs.resolve true p with
  | found l =>
    rw [hr] at hplaced
    exact h.fileType hplaced
  | absent _ _ | notFound | notDirectory | tooManyLinks => rfl

theorem SameInside.pathExists (h : fs.SameInside root fs') (hp : fs.ConfinedTo root p) :
    fs'.pathExists p = fs.pathExists p := by
  rw [FileSystem.pathExists, FileSystem.pathExists, h.status hp]

/-- Only what is in the directory is a file. -/
theorem SameInside.fileAt (h : fs.SameInside root fs') (hp : fs.ConfinedTo root p) :
    fs'.fileAt p = fs.fileAt p := by
  have hplaced := placed_resolve h.isDir true hp
  rw [FileSystem.fileAt, FileSystem.fileAt, h.resolve true hp]
  cases hr : fs.resolve true p with
  | found l =>
    rw [hr] at hplaced
    rcases h.node_cases hplaced with heq | ⟨_, _, hnode, hnode'⟩
    · dsimp only
      rw [heq]
    · dsimp only
      rw [hnode, hnode']
  | absent _ _ | notFound | notDirectory | tooManyLinks => rfl

theorem SameInside.isDirectory (h : fs.SameInside root fs') (hp : fs.ConfinedTo root p) :
    fs'.isDirectory p = fs.isDirectory p := by
  rw [FileSystem.isDirectory, FileSystem.isDirectory, h.status hp]

/-! ## Changes of the tree -/

/-- What is below a location after a change there. -/
theorem get_alter_below (f : Option (Tree ν δ β) → Option (Tree ν δ β)) {r : List ν}
    (hl : fs.IsDir l) (hr : r ≠ []) :
    (fs.alter f (l ++ r)).get l = Tree.alter f r (fs.get l) := by
  -- The induction is on the path, for any tree it leads into.
  have htree : ∀ (l : List ν) (t : Option (Tree ν δ β)), t.bind (Tree.get l) ≠ none →
      (Tree.alter f (l ++ r) t).bind (Tree.get l) = Tree.alter f r (t.bind (Tree.get l)) := by
    intro l
    induction l with
    | nil =>
      intro t _
      have hnil : ∀ t : Option (Tree ν δ β), t.bind (Tree.get []) = t := by
        intro t
        cases t <;> rfl
      rw [hnil, hnil, List.nil_append]
    | cons n l ih =>
      intro t ht
      match t with
      | none | some (.file _) | some (.link _) | some .special =>
        simp [Tree.get, Tree.child] at ht
      | some (.dir attributes entries) =>
        have hlookup : (entries.lookup n).bind (Tree.get l) ≠ none := by
          simpa [Tree.get, Tree.child] using ht
        simpa [Tree.alter, Tree.get, Tree.child, Tree.lookup_setEntry] using ih _ hlookup
  have hget : (some fs.tree).bind (Tree.get l) ≠ none := by
    intro hnone
    rw [IsDir, FileSystem.node, FileSystem.get] at hl
    rw [Option.bind_some] at hnone
    rw [hnone] at hl
    exact hl
  have halter := htree l (some fs.tree) hget
  rw [Option.bind_some] at halter
  rw [FileSystem.get, FileSystem.get, ← halter]
  cases l with
  | nil =>
    cases r with
    | nil => exact absurd rfl hr
    | cons m r => rfl
  | cons m l => rfl

/-- The same change of an entry in the directory. -/
theorem SameInside.alter (h : fs.SameInside root fs')
    (f : Option (Tree ν δ β) → Option (Tree ν δ β)) (hl : root <+: l) (n : ν) :
    (fs.alter f (l ++ [n])).SameInside root (fs'.alter f (l ++ [n])) := by
  obtain ⟨r, rfl⟩ := hl
  have hr : r ++ [n] ≠ [] := by simp
  have hbelow : ¬root ++ r ++ [n] <+: root := by
    intro hle
    have hlength := hle.length_le
    simp only [List.length_append, List.length_singleton] at hlength
    omega
  refine ⟨isDir_alter f hbelow h.isDir, ?_⟩
  rw [List.append_assoc, get_alter_below f h.isDir' hr, get_alter_below f h.isDir hr, h.get]

/-- What is changed is below `root`. -/
def Below (root l : List ν) : Prop := ∃ d n, l = d ++ [n] ∧ root <+: d

omit [DecidableEq ν] in
theorem below_of_ne (hl : root <+: l) (hne : l ≠ root) : Below root l := by
  rcases List.eq_nil_or_concat l with rfl | ⟨d, n, rfl⟩
  · exact absurd (List.prefix_nil.1 hl).symm hne
  · rw [List.concat_eq_append] at hl hne ⊢
    exact ⟨d, n, rfl, (List.prefix_concat_iff.1 hl).resolve_left (Ne.symm hne)⟩

theorem SameInside.alter_below (h : fs.SameInside root fs')
    (f : Option (Tree ν δ β) → Option (Tree ν δ β)) (hl : Below root l) :
    (fs.alter f l).SameInside root (fs'.alter f l) := by
  obtain ⟨d, n, rfl, hd⟩ := hl
  exact h.alter f hd n

theorem SameInside.move (h : fs.SameInside root fs') {s d : List ν} (hs : Below root s)
    (hd : Below root d) : (fs.move s d).SameInside root (fs'.move s d) := by
  have hget : fs'.get s = fs.get s := by
    obtain ⟨r, n, rfl, hr⟩ := id hs
    exact h.get_below (hr.trans (List.prefix_append r [n]))
  rw [FileSystem.move, FileSystem.move, hget]
  exact (h.alter_below _ hs).alter_below _ hd

/-! ## Changes -/

/-- Both fail, or both succeed with the same tree at `root`. -/
def SameOutcome (root : List ν) (r r' : Option (FileSystem ν δ β)) : Prop :=
  r = none ∧ r' = none ∨
    ∃ fs₁ fs₁', r = some fs₁ ∧ r' = some fs₁' ∧ fs₁.SameInside root fs₁'

theorem SameInside.mkdir (h : fs.SameInside root fs') (attributes : δ)
    (hp : fs.ConfinedTo root p) :
    SameOutcome root (fs.mkdir attributes p) (fs'.mkdir attributes p) := by
  have hp := hp.of_slash
  have hplaced := placed_resolve h.isDir false hp
  have hresolve := h.resolve false hp
  rw [FileSystem.mkdir, FileSystem.mkdir, hresolve]
  cases hr : fs.resolve false { names := p.names } with
  | absent l n =>
    rw [hr] at hplaced
    exact .inr ⟨_, _, rfl, rfl, h.alter _ hplaced n⟩
  | found _ | notFound | notDirectory | tooManyLinks => exact .inl ⟨rfl, rfl⟩

/-- `remove`, by the canonical path of what is in the directory. -/
theorem SameInside.remove (h : fs.SameInside root fs') (hsound : fs.Sound true (.found l))
    (hl : root <+: l) (hne : l ≠ root) :
    fs.remove { names := l } = none ∧ fs'.remove { names := l } = none ∨
      ∃ removed fs₁ fs₁', fs.remove { names := l } = some (removed, fs₁) ∧
        fs'.remove { names := l } = some (removed, fs₁') ∧ fs₁.SameInside root fs₁' := by
  have hfound : ∀ fs₀ : FileSystem ν δ β, fs₀.node l ≠ none →
      fs₀.resolve false { names := l } = .found l := fun fs₀ hnode =>
    resolve_found ⟨hnode, fun hf => nomatch hf⟩
  have hnode' : fs'.node l ≠ none := by
    rw [h.node hl]
    exact hsound.1
  rw [FileSystem.remove, FileSystem.remove, hfound fs hsound.1, hfound fs' hnode']
  simp only [h.names hl, h.isDir_iff (.inr hl)]
  split_ifs
  · exact .inl ⟨rfl, rfl⟩
  · exact .inr ⟨true, _, _, rfl, rfl, h.alter_below _ (below_of_ne hl hne)⟩

/-- `rename`, from the canonical path of what is in the directory to a path in a
    directory in it. -/
theorem SameInside.rename (h : fs.SameInside root fs') {s ns d : List ν}
    (hsound : fs.Sound true (.found s)) (hs : root <+: s) (hne : s ≠ root)
    (hns : fs.LeadsTo ns d) (hns' : fs'.LeadsTo ns d) (hd : root <+: d) :
    SameOutcome root (fs.rename { names := s } { names := ns ++ [n] })
      (fs'.rename { names := s } { names := ns ++ [n] }) := by
  have hfound : ∀ fs₀ : FileSystem ν δ β, fs₀.node s ≠ none →
      fs₀.resolve false { names := s } = .found s := fun fs₀ hnode =>
    resolve_found ⟨hnode, fun hf => nomatch hf⟩
  have hnode' : fs'.node s ≠ none := by
    rw [h.node hs]
    exact hsound.1
  have hdn : root <+: d ++ [n] := hd.trans (List.prefix_append d [n])
  -- Both trees are moved to the same place.
  have hmove : ∀ {d' : List ν}, d' = d ++ [n] →
      SameOutcome root (some (fs.move s d')) (some (fs'.move s d')) := by
    rintro _ rfl
    exact .inr ⟨_, _, rfl, rfl, h.move (below_of_ne hs hne) ⟨d, n, rfl, hd⟩⟩
  rw [FileSystem.rename, FileSystem.rename, hfound fs hsound.1, hfound fs' hnode',
    resolve_last hns.1 hns.2, resolve_last hns'.1 hns'.2, h.node hdn]
  by_cases hn : fs.node (d ++ [n]) = none
  · rw [if_pos hn]
    dsimp only
    split_ifs
    · exact .inl ⟨rfl, rfl⟩
    · exact hmove rfl
  · rw [if_neg hn]
    simp only [h.isDir_iff (.inr hs), h.isDir_iff (.inr hdn), h.names hdn]
    split_ifs
    · exact .inr ⟨fs, fs', rfl, rfl, h⟩
    · exact .inl ⟨rfl, rfl⟩
    · exact hmove rfl
    · exact .inl ⟨rfl, rfl⟩
    · exact .inl ⟨rfl, rfl⟩
    · exact hmove rfl

/-- `writeFile`, at a path that leads to the same place near the directory. -/
theorem SameInside.writeFile (h : fs.SameInside root fs') (write : Option β → β)
    (hresolve : fs'.resolve true p = fs.resolve true p)
    (hplaced : Placed root (fs.resolve true p)) :
    SameOutcome root (fs.writeFile write p) (fs'.writeFile write p) := by
  rw [FileSystem.writeFile, FileSystem.writeFile, hresolve]
  cases hr : fs.resolve true p with
  | found l =>
    rw [hr] at hplaced
    dsimp only
    rcases h.node_cases hplaced with heq | ⟨_, _, hnode, hnode'⟩
    · rw [heq]
      cases hnode : fs.node l with
      | none => exact .inl ⟨rfl, rfl⟩
      | some node =>
        cases node with
        | file data =>
          -- A file is not on the way to the directory.
          have hndir := FileSystem.not_isDir_of_file hnode
          have hl : root <+: l := hplaced.resolve_left fun hl =>
            hndir (isDir_of_prefix_of_isDir h.isDir hl)
          have hne : l ≠ root := by
            rintro rfl
            exact hndir h.isDir
          exact .inr ⟨_, _, rfl, rfl, h.alter_below _ (below_of_ne hl hne)⟩
        | special => exact .inr ⟨fs, fs', rfl, rfl, h⟩
        | dir | link => exact .inl ⟨rfl, rfl⟩
    · rw [hnode, hnode']
      exact .inl ⟨rfl, rfl⟩
  | absent l n =>
    rw [hr] at hplaced
    exact .inr ⟨_, _, rfl, rfl, h.alter _ hplaced n⟩
  | notFound | notDirectory | tooManyLinks => exact .inl ⟨rfl, rfl⟩

/-! ## Directories on the way -/

/-- One directory in the other, from location `l` on. -/
def createChain (attributes : δ) : List ν → List ν → FileSystem ν δ β → FileSystem ν δ β
  | _, [], fs => fs
  | l, n :: rest, fs =>
    createChain attributes (l ++ [n]) rest
      (fs.alter (fun _ => some (.dir attributes [])) (l ++ [n]))

variable {d : List ν}

theorem createDirectory_eq (attributes : δ) (hd : fs.LeadsTo d l) (hn : fs.node (l ++ [n]) = none) :
    fs.createDirectory attributes { names := d ++ [n] } =
      some (true, fs.alter (fun _ => some (.dir attributes [])) (l ++ [n])) := by
  have habsent : fs.resolve false { names := d ++ [n] } = .absent l n := by
    rw [hd.resolve_absent hn false [] false, if_pos ⟨rfl, rfl⟩]
  rw [createDirectory, mkdir_eq_some_iff.2 ⟨l, n, habsent, rfl⟩]

theorem createAll_eq (attributes : δ) (hd : fs.LeadsTo d l) (hn : fs.node (l ++ [n]) = none)
    (rest : List ν) :
    createAll attributes (chain d (n :: rest)) fs =
      (true, createChain attributes l (n :: rest) fs) := by
  induction rest generalizing fs d l n with
  | nil =>
    rw [chain, createAll, createDirectory_eq attributes hd hn]
    rfl
  | cons m rest ih =>
    obtain ⟨fs₁, hcreate, _, _, hd₁, hempty⟩ := createDirectory_of_leadsTo attributes hd hn
    rw [createDirectory_eq attributes hd hn, Option.some.injEq, Prod.mk.injEq] at hcreate
    obtain ⟨_, rfl⟩ := hcreate
    rw [chain, createAll, createDirectory_eq attributes hd hn]
    exact ih hd₁ (hempty m)

theorem createDirectories_eq (attributes : δ) (hd : fs.LeadsTo d l)
    (hn : fs.node (l ++ [n]) = none) {rest : List ν} (hrest : rest.length < MAX_MISSING)
    (hp : p.names = d ++ n :: rest) :
    (fs.createDirectories attributes p).2 = createChain attributes l (n :: rest) fs := by
  obtain ⟨names, slash⟩ := p
  obtain rfl : names = d ++ n :: rest := hp
  rw [createDirectories, status_of_absent hd hn, missing_of_absent hd hn hrest]
  dsimp only
  rw [List.reverse_reverse, createAll_eq attributes hd hn]

theorem SameInside.createChain (h : fs.SameInside root fs') (attributes : δ) (hl : root <+: l)
    (ns : List ν) :
    (createChain attributes l ns fs).SameInside root (createChain attributes l ns fs') := by
  induction ns generalizing l fs fs' with
  | nil => exact h
  | cons n ns ih => exact ih (h.alter _ hl n) (hl.trans (List.prefix_append l [n]))

/-- The last directory on a confined path is the same. -/
theorem SameInside.leadsTo (h : fs.SameInside root fs') (hp : fs.ConfinedTo root p)
    {rest : List ν} (hnames : p.names = d ++ n :: rest) (hd : fs.LeadsTo d l)
    (hn : fs.node (l ++ [n]) = none) :
    fs'.LeadsTo d l ∧ fs'.node (l ++ [n]) = none ∧ root <+: l := by
  obtain ⟨names, slash⟩ := p
  obtain rfl : names = d ++ n :: rest := hnames
  have hfirst : fs.ConfinedTo root { names := d ++ [n] } := by
    rw [List.append_cons] at hp
    exact hp.of_append
  have hplaced := placed_resolve h.isDir true hfirst
  rw [hd.resolve_absent hn true [] false, if_pos ⟨rfl, rfl⟩] at hplaced
  have hl : root <+: l := hplaced
  refine ⟨⟨?_, (h.isDir_iff (.inr hl)).2 hd.2⟩, ?_, hl⟩
  · rw [h.resolve true hp.of_append, hd.1]
  · rw [h.node (hl.trans (List.prefix_append l [n])), hn]

theorem SameInside.createDirectories (h : fs.SameInside root fs') (attributes : δ)
    (hp : fs.ConfinedTo root p) :
    (fs.createDirectories attributes p).2.SameInside root
      (fs'.createDirectories attributes p).2 := by
  rcases createDirectories_cases fs attributes p with
    heq | ⟨d, n, rest, l, hnames, hrest, hd, hn⟩
  · rcases createDirectories_cases fs' attributes p with
      heq' | ⟨d, n, rest, l, hnames, hrest, hd', hn'⟩
    · rw [heq, heq']
      exact h
    · obtain ⟨hd, hn, hl⟩ := h.symm.leadsTo (h.confinedTo hp) hnames hd' hn'
      rw [createDirectories_eq attributes hd hn hrest hnames,
        createDirectories_eq attributes hd' hn' hrest hnames]
      exact h.createChain attributes hl _
  · obtain ⟨hd', hn', hl⟩ := h.leadsTo hp hnames hd hn
    rw [createDirectories_eq attributes hd hn hrest hnames,
      createDirectories_eq attributes hd' hn' hrest hnames]
    exact h.createChain attributes hl _

/-- Where a path leads after the directories on the way to it have been created. -/
theorem resolve_createDirectories (attributes : δ) {rest : List ν}
    (hnames : p.parentPath.names = d ++ n :: rest) (hrest : rest.length < MAX_MISSING)
    (hd : fs.LeadsTo d l) (hn : fs.node (l ++ [n]) = none) :
    (fs.createDirectories attributes p.parentPath).2.resolve true p =
      if p.slash then .found (l ++ n :: rest)
      else match p.names.getLast? with
        | some m => .absent (l ++ n :: rest) m
        | none => .notFound := by
  obtain ⟨fs₁, heq, _, _, hlast, _, hempty⟩ :=
    createDirectories_of_leadsTo attributes hd hn hrest hnames
  rw [hnames] at hlast
  rw [heq]
  rcases eq_of_parentPath hnames with rfl | ⟨m, rfl⟩
  · rw [if_pos rfl]
    exact resolve_slash hlast.1 hlast.2 true
  · have habsent := hlast.resolve_absent (hempty m) true [] false
    rw [if_pos ⟨rfl, rfl⟩, List.append_assoc, List.cons_append] at habsent
    have hgetLast : (d ++ n :: (rest ++ [m])).getLast? = some m := by
      rw [← List.cons_append, ← List.append_assoc, List.getLast?_concat]
    rw [habsent, if_neg Bool.false_ne_true, hgetLast]

theorem SameInside.resolve_created (h : fs.SameInside root fs') (attributes : δ)
    (hp : fs.ConfinedTo root p) :
    (fs'.createDirectories attributes p.parentPath).2.resolve true p =
        (fs.createDirectories attributes p.parentPath).2.resolve true p ∧
      Placed root ((fs.createDirectories attributes p.parentPath).2.resolve true p) := by
  -- Where one of the two lacks directories, the other lacks the same.
  have hcreated : ∀ {d n rest l}, p.parentPath.names = d ++ n :: rest →
      rest.length < MAX_MISSING → fs.LeadsTo d l → fs.node (l ++ [n]) = none →
      fs'.LeadsTo d l → fs'.node (l ++ [n]) = none → root <+: l →
      (fs'.createDirectories attributes p.parentPath).2.resolve true p =
          (fs.createDirectories attributes p.parentPath).2.resolve true p ∧
        Placed root ((fs.createDirectories attributes p.parentPath).2.resolve true p) := by
    intro d n rest l hnames hrest hd hn hd' hn' hl
    rw [resolve_createDirectories attributes hnames hrest hd hn,
      resolve_createDirectories attributes hnames hrest hd' hn']
    refine ⟨rfl, ?_⟩
    have hlast : root <+: l ++ n :: rest := hl.trans (List.prefix_append _ _)
    split_ifs
    · exact .inr hlast
    · cases p.names.getLast? with
      | some m => exact hlast
      | none => trivial
  rcases createDirectories_cases fs attributes p.parentPath with
    heq | ⟨d, n, rest, l, hnames, hrest, hd, hn⟩
  · rcases createDirectories_cases fs' attributes p.parentPath with
      heq' | ⟨d, n, rest, l, hnames, hrest, hd', hn'⟩
    · rw [heq, heq']
      exact ⟨h.resolve true hp, placed_resolve h.isDir true hp⟩
    · obtain ⟨hd, hn, hl⟩ := h.symm.leadsTo (h.confinedTo hp.parentPath) hnames hd' hn'
      exact hcreated hnames hrest hd hn hd' hn' hl
  · obtain ⟨hd', hn', hl⟩ := h.leadsTo hp.parentPath hnames hd hn
    exact hcreated hnames hrest hd hn hd' hn' hl

end FileSystem

end HybridFtp
