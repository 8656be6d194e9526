import HybridFtp.Common.Sandbox
import HybridFtp.Lib.Confinement

/-!
# What the path manager observes

The operations of a path manager on two file systems with the same tree at its root
directory.

* `PathManager.targetOf`: what a path leads to, if that is inside the root
  (`canonicalTarget_eq`);
* `Sees`: a path that leads to something inside the root does so without leaving it;
* `sees_cases`: such a path is refused on both file systems, or leads to the same place;
* the operations: the same results, and the same tree afterwards.
-/

namespace HybridFtp

namespace FileSystem

variable {ν δ β : Type} [DecidableEq ν] {fs fs' : FileSystem ν δ β} {root l : List ν}

theorem walksNear_names (hl : root <+: l) {done ns : List ν} (h : done ++ ns = l)
    {rest : List (Part ν)} (hrest : fs.WalksNear root l rest) :
    fs.WalksNear root done (ns.map .name ++ rest) := by
  induction ns generalizing done with
  | nil =>
    rw [List.append_nil] at h
    rwa [h]
  | cons n ns ih =>
    rw [List.append_cons] at h
    exact ⟨List.prefix_or_prefix_of_prefix ⟨ns, h⟩ hl, fun _ => ih h⟩

theorem resolvesNear_of_ends {parts : List (Part ν)} {budget : Nat} {r : Resolved ν}
    (hnear : fs.WalksNear root l parts) (hwalk : fs.walk true l parts = .ends r) :
    fs.ResolvesNear root budget l parts := by
  cases budget with
  | zero => exact hnear
  | succ budget =>
    refine ⟨hnear, ?_⟩
    rw [hwalk]
    trivial

/-- The names of what is inside are confined. -/
theorem confinedTo_location (hsound : fs.Sound true (.found l)) (hl : root <+: l) :
    fs.ConfinedTo root { names := l } := by
  rw [ConfinedTo, if_neg Bool.false_ne_true]
  refine resolvesNear_of_ends (r := .found l)
    (walksNear_names hl (List.nil_append l) trivial) ?_
  rw [List.append_nil]
  rcases List.eq_nil_or_concat l with rfl | ⟨d, n, rfl⟩
  · rfl
  · rw [List.concat_eq_append] at hsound ⊢
    obtain ⟨hnode, hlink⟩ := hsound
    rw [List.map_append, walk_names (l := []) (isDir_of_node_append hnode), List.nil_append]
    simp only [List.map_singleton, walk]
    cases hn : fs.node (d ++ [n]) with
    | none => exact absurd hn hnode
    | some node =>
      cases node with
      | link target => exact absurd hn (hlink rfl target)
      | dir | file | special => rfl

/-- So are those of a directory, with a separator or without. -/
theorem confinedTo_isDir (hdir : fs.IsDir l) (hl : root <+: l) (slash : Bool) :
    fs.ConfinedTo root { names := l, slash } := by
  refine resolvesNear_of_ends (r := .found l) (walksNear_names hl (List.nil_append l) ?_) ?_
  · cases slash <;> trivial
  · rw [walk_names (l := []) hdir, List.nil_append]
    cases slash <;> rfl

end FileSystem

namespace PathManager

variable (pm : PathManager) (fs : Storage)

/-- What a path leads to, if that is inside the root. -/
def targetOf (p : NormalPath String) : Option (List String) :=
  match fs.resolve true p with
  | .found l => if pm.rootDirectory <+: l then some l else none
  | .absent .. | .notFound | .notDirectory | .tooManyLinks => none

/-- A path that leads to something inside the root is not led out of it on the way. -/
def Sees (p : NormalPath String) : Prop :=
  pm.targetOf fs p ≠ none → fs.ConfinedTo pm.rootDirectory p

/-- A file or directory that is renamed, and its new path, are not led out of it. -/
def RenamesInside (oldPath newPath : String) : Prop :=
  pm.Sees fs (pm.resolvePath oldPath) ∧
    (pm.canRename fs oldPath = true → (pm.resolvePath newPath).filename ≠ none →
      pm.isPathInsideRoot newPath = true →
      pm.targetOf fs (pm.resolvePath newPath).parentPath ≠ none →
        fs.ConfinedTo pm.rootDirectory (pm.resolvePath newPath))

instance : DecidablePred (pm.Sees fs) := fun p => by
  unfold Sees
  infer_instance

variable {pm fs} {fs' : Storage} {p : NormalPath String} {path : String} {l : List String}

theorem targetOf_eq_some_iff :
    pm.targetOf fs p = some l ↔ fs.resolve true p = .found l ∧ pm.rootDirectory <+: l := by
  rw [targetOf]
  cases hr : fs.resolve true p with
  | found l' =>
    simp only [Option.ite_none_right_eq_some, Option.some.injEq, FileSystem.Resolved.found.injEq]
    constructor
    · rintro ⟨hl, rfl⟩
      exact ⟨rfl, hl⟩
    · rintro ⟨rfl, hl⟩
      exact ⟨hl, rfl⟩
  | absent _ _ | notFound | notDirectory | tooManyLinks => simp

theorem pathExists_location (h : fs.resolve true p = .found l) :
    fs.pathExists { names := l } = some true :=
  FileSystem.pathExists_iff.2 ⟨l, FileSystem.resolve_found (FileSystem.sound_of_resolve h)⟩

/-- Paths by their names, to what is inside. -/
theorem targetOf_of_weaklyCanonical {q : NormalPath String} (hq : fs.weaklyCanonical p = some q)
    (hinside : pm.isInsideRoot q = true) (hexists : fs.pathExists q = some true) :
    ∃ l, q = { names := l } ∧ pm.targetOf fs p = some l := by
  obtain ⟨l, hl, rfl⟩ := FileSystem.resolve_of_weaklyCanonical hq hexists
  exact ⟨l, rfl, targetOf_eq_some_iff.2 ⟨hl, by simpa [isInsideRoot] using hinside⟩⟩

theorem canonicalTarget_eq (pm : PathManager) (fs : Storage) (path : String) :
    pm.canonicalTarget fs path =
      (pm.targetOf fs (pm.resolvePath path)).map fun l => { names := l } := by
  rw [canonicalTarget]
  cases hl : pm.targetOf fs (pm.resolvePath path) with
  | some l =>
    obtain ⟨hfound, hroot⟩ := targetOf_eq_some_iff.1 hl
    have hinside : pm.isInsideRoot { names := l } = true := by simpa [isInsideRoot] using hroot
    rw [FileSystem.weaklyCanonical_of_found hfound]
    dsimp only
    rw [if_pos ⟨hinside, pathExists_location hfound⟩]
    rfl
  | none =>
    cases hq : fs.weaklyCanonical (pm.resolvePath path) with
    | none => rfl
    | some q =>
      dsimp only
      rw [if_neg]
      · rfl
      · rintro ⟨hinside, hexists⟩
        obtain ⟨l, -, hl'⟩ := targetOf_of_weaklyCanonical hq hinside hexists
        rw [hl] at hl'
        cases hl'

/-! ## What is refused -/

theorem changeDirectory_of_targetOf_none (h : pm.targetOf fs (pm.resolvePath path) = none) :
    pm.changeDirectory fs path = (false, pm) := by
  rw [changeDirectory]
  split_ifs with hinside htest
  · rfl
  · split
    · rfl
    · rename_i q hq
      split_ifs with hwithin
      · rw [not_or, not_not, not_not] at htest
        obtain ⟨l, hl⟩ := FileSystem.pathExists_iff.1 htest.1
        rw [FileSystem.weaklyCanonical_of_found hl, Option.some.injEq] at hq
        subst hq
        rw [targetOf_eq_some_iff.2 ⟨hl, hwithin⟩] at h
        cases h
      · rfl
  · rfl

theorem removeDirectory_of_targetOf_none (h : pm.targetOf fs (pm.resolvePath path) = none) :
    pm.removeDirectory fs path = (false, fs) := by
  rw [removeDirectory]
  dsimp only
  split_ifs with hpath hinside
  · rfl
  · split
    · rfl
    · rename_i q hq
      split_ifs with hwithin hroot htest
      · rfl
      · rfl
      · rw [not_or, not_not] at htest
        obtain ⟨l, -, hl⟩ := targetOf_of_weaklyCanonical hq hwithin htest.1
        rw [h] at hl
        cases hl
      · rfl
  · rfl

theorem deleteFile_of_targetOf_none (h : pm.targetOf fs (pm.resolvePath path) = none) :
    pm.deleteFile fs path = (false, fs) := by
  rw [deleteFile]
  dsimp only
  split_ifs with hpath hinside
  · rfl
  · split
    · rfl
    · rename_i q hq
      split_ifs with htest hfile
      · rfl
      · rfl
      · rw [not_or, not_not, not_not] at htest
        obtain ⟨l, -, hl⟩ := targetOf_of_weaklyCanonical hq htest.1 htest.2
        rw [h] at hl
        cases hl
  · rfl

theorem canRename_of_targetOf_none (h : pm.targetOf fs (pm.resolvePath path) = none) :
    pm.canRename fs path = false := by
  by_contra hcan
  obtain ⟨l, hl, -, hroot, -⟩ := canRename_spec (eq_true_of_ne_false hcan)
  rw [targetOf_eq_some_iff.2 ⟨hl, hroot⟩] at h
  cases h

/-- A rename is refused if its source is, or its destination by its names. -/
theorem renamePath_of_refused {oldPath newPath : String}
    (h : ¬(pm.canRename fs oldPath = true ∧ (pm.resolvePath newPath).filename ≠ none ∧
      pm.isPathInsideRoot newPath = true)) : pm.renamePath fs oldPath newPath = (false, fs) := by
  rw [renamePath]
  split
  · rfl
  rename_i hargs
  rw [not_or, not_or, not_not] at hargs
  split
  · rfl
  split
  · rfl
  dsimp only
  split
  · rfl
  rename_i hdestination
  rw [not_or, not_not] at hdestination
  exact absurd ⟨hargs.2.2, hdestination⟩ h

/-- So it is if the directory of the destination is not inside the root. -/
theorem renamePath_of_targetOf_none {oldPath newPath : String}
    (h : pm.targetOf fs (pm.resolvePath newPath).parentPath = none) :
    pm.renamePath fs oldPath newPath = (false, fs) := by
  rw [renamePath]
  split
  · rfl
  split
  · rfl
  split
  · rfl
  dsimp only
  split
  · rfl
  split
  · rfl
  split
  · rfl
  rename_i q hq
  split
  · rfl
  rename_i htest
  rw [not_or, not_or, not_not, not_not, not_not] at htest
  obtain ⟨l, -, hl⟩ := targetOf_of_weaklyCanonical hq htest.1 htest.2.1
  rw [h] at hl
  cases hl

/-- The same result, and the same tree at `root` afterwards. -/
structure SameResult (root : List String) (r r' : Bool × Storage) : Prop where
  result : r'.1 = r.1
  fs : r.2.SameInside root r'.2

/-- The way from the current directory to what is found. -/
theorem relative_of_found (hcurrent : fs.IsDir pm.currentDirectory)
    (hl : fs.resolve true p = .found l) :
    fs.relative { names := pm.currentDirectory } { names := l } =
      some (lexicallyRelative pm.currentDirectory l) := by
  rw [FileSystem.relative,
    FileSystem.weaklyCanonical_of_found (FileSystem.resolve_isDir hcurrent false),
    FileSystem.weaklyCanonical_of_found (FileSystem.resolve_found (FileSystem.sound_of_resolve hl))]
  rfl

/-! ## Two file systems -/

section

variable (h : fs.SameInside pm.rootDirectory fs')
include h

/-- A path is refused on both file systems, or leads to the same place on both. -/
theorem sees_cases (hs : pm.Sees fs p) (hs' : pm.Sees fs' p) :
    pm.targetOf fs p = none ∧ pm.targetOf fs' p = none ∨
      ∃ l, pm.targetOf fs p = some l ∧ pm.targetOf fs' p = some l ∧
        fs.resolve true p = .found l ∧ fs'.resolve true p = .found l ∧ pm.rootDirectory <+: l ∧
        fs.ConfinedTo pm.rootDirectory p := by
  by_cases hp : fs.ConfinedTo pm.rootDirectory p
  · have hresolve := h.resolve true hp
    cases hl : pm.targetOf fs p with
    | none =>
      refine .inl ⟨rfl, ?_⟩
      rw [targetOf, hresolve]
      exact hl
    | some l =>
      obtain ⟨hfound, hroot⟩ := targetOf_eq_some_iff.1 hl
      have hfound' := hresolve.trans hfound
      exact .inr ⟨l, rfl, targetOf_eq_some_iff.2 ⟨hfound', hroot⟩, hfound, hfound', hroot, hp⟩
  · refine .inl ⟨?_, ?_⟩
    · by_contra hne
      exact hp (hs hne)
    · by_contra hne
      exact hp (h.symm.confinedTo (hs' hne))

theorem canonicalTarget_cases (hs : pm.Sees fs (pm.resolvePath path))
    (hs' : pm.Sees fs' (pm.resolvePath path)) :
    pm.canonicalTarget fs path = none ∧ pm.canonicalTarget fs' path = none ∨
      ∃ l, pm.canonicalTarget fs path = some { names := l } ∧
        pm.canonicalTarget fs' path = some { names := l } ∧
        fs.resolve true (pm.resolvePath path) = .found l ∧ pm.rootDirectory <+: l := by
  rw [canonicalTarget_eq, canonicalTarget_eq]
  rcases sees_cases h hs hs' with ⟨hnone, hnone'⟩ | ⟨l, hl, hl', hfound, _, hroot, _⟩
  · rw [hnone, hnone']
    exact .inl ⟨rfl, rfl⟩
  · rw [hl, hl']
    exact .inr ⟨l, rfl, rfl, hfound, hroot⟩

/-! ## The current directory -/

theorem changeDirectory_congr
    (hs : pm.isPathInsideRoot path = true →
      pm.Sees fs (pm.resolvePath path) ∧ pm.Sees fs' (pm.resolvePath path)) :
    pm.changeDirectory fs' path = pm.changeDirectory fs path := by
  by_cases hinside : pm.isPathInsideRoot path = true
  swap
  · rw [isPathInsideRoot] at hinside
    rw [changeDirectory, changeDirectory, if_pos hinside, if_pos hinside]
  obtain ⟨hs, hs'⟩ := hs hinside
  rcases sees_cases h hs hs' with ⟨hnone, hnone'⟩ | ⟨l, _, _, hl, hl', _, hp⟩
  · rw [changeDirectory_of_targetOf_none hnone, changeDirectory_of_targetOf_none hnone']
  · rw [changeDirectory, changeDirectory, h.pathExists hp, h.isDirectory hp,
      FileSystem.weaklyCanonical_of_found hl, FileSystem.weaklyCanonical_of_found hl']

/-- The parent directory of the current one is on the way to it. -/
theorem changeToParentDirectory_congr (hcurrent : fs.IsDir pm.currentDirectory) :
    pm.changeToParentDirectory fs' = pm.changeToParentDirectory fs := by
  rw [changeToParentDirectory, changeToParentDirectory]
  split
  · rfl
  · rename_i hne
    have hroot : pm.rootDirectory <+: pm.currentDirectory.dropLast := by
      obtain ⟨d, n, heq, hd⟩ := FileSystem.below_of_ne pm.inside hne
      rwa [heq, List.dropLast_concat]
    have hparent : ∃ slash, pm.resolvePath ".." =
        { names := pm.currentDirectory.dropLast, slash } := ⟨_, rfl⟩
    have hsees : ∀ {fs : Storage}, fs.IsDir pm.currentDirectory →
        pm.Sees fs (pm.resolvePath "..") := by
      intro fs hcurrent _
      obtain ⟨slash, heq⟩ := hparent
      rw [heq]
      exact FileSystem.confinedTo_isDir
        (FileSystem.isDir_of_prefix_of_isDir hcurrent (List.dropLast_prefix _)) hroot slash
    exact changeDirectory_congr h fun _ =>
      ⟨hsees hcurrent, hsees ((h.isDir_iff (.inr pm.inside)).2 hcurrent)⟩

/-! ## Changes -/

theorem createDirectory_congr (perms : Perms)
    (hp : pm.isPathInsideRoot path = true →
      fs.ConfinedTo pm.rootDirectory (pm.resolvePath path)) :
    SameResult pm.rootDirectory (pm.createDirectory fs perms path)
      (pm.createDirectory fs' perms path) := by
  have hsame : SameResult pm.rootDirectory (false, fs) (false, fs') := ⟨rfl, h⟩
  rw [createDirectory, createDirectory]
  split
  · exact hsame
  dsimp only
  split
  · exact hsame
  rename_i hinside
  have hp := hp (not_not.1 hinside)
  rw [h.pathExists hp]
  split
  · exact hsame
  rw [FileSystem.createDirectory, FileSystem.createDirectory, h.isDirectory hp]
  rcases h.mkdir perms hp with ⟨hnone, hnone'⟩ | ⟨fs₁, fs₁', hsome, hsome', h₁⟩
  · rw [hnone, hnone']
    dsimp only
    split_ifs
    · exact ⟨rfl, h⟩
    · exact hsame
  · rw [hsome, hsome']
    exact ⟨rfl, h₁⟩

theorem isDirectory_location (hl : fs.resolve true p = .found l) (hroot : pm.rootDirectory <+: l) :
    fs'.isDirectory { names := l } = fs.isDirectory { names := l } :=
  h.isDirectory (FileSystem.confinedTo_location (FileSystem.sound_of_resolve hl) hroot)

theorem isRegularFile_location (hl : fs.resolve true p = .found l)
    (hroot : pm.rootDirectory <+: l) :
    fs'.isRegularFile { names := l } = fs.isRegularFile { names := l } := by
  rw [FileSystem.isRegularFile, FileSystem.isRegularFile,
    h.status (FileSystem.confinedTo_location (FileSystem.sound_of_resolve hl) hroot)]

theorem removeDirectory_congr
    (hs : pm.isPathInsideRoot path = true →
      pm.Sees fs (pm.resolvePath path) ∧ pm.Sees fs' (pm.resolvePath path)) :
    SameResult pm.rootDirectory (pm.removeDirectory fs path) (pm.removeDirectory fs' path) := by
  have hsame : SameResult pm.rootDirectory (false, fs) (false, fs') := ⟨rfl, h⟩
  by_cases hinside : pm.isPathInsideRoot path = true
  swap
  · rw [isPathInsideRoot] at hinside
    rw [removeDirectory, removeDirectory]
    dsimp only
    rw [if_pos hinside, if_pos hinside]
    split_ifs
    · exact hsame
    · exact hsame
  obtain ⟨hs, hs'⟩ := hs hinside
  rcases sees_cases h hs hs' with ⟨hnone, hnone'⟩ | ⟨l, _, _, hl, hl', hroot, _⟩
  · rw [removeDirectory_of_targetOf_none hnone, removeDirectory_of_targetOf_none hnone']
    exact hsame
  · rw [removeDirectory, removeDirectory]
    dsimp only
    rw [FileSystem.weaklyCanonical_of_found hl, FileSystem.weaklyCanonical_of_found hl']
    dsimp only
    rw [pathExists_location hl, pathExists_location hl', isDirectory_location h hl hroot]
    split_ifs with hpath hinside hwithin hprotected htest
    · exact hsame
    · exact hsame
    · exact hsame
    · rw [not_or] at hprotected
      have hne : l ≠ pm.rootDirectory := by
        rintro rfl
        exact hprotected.1 rfl
      rcases h.remove (FileSystem.sound_of_resolve hl) hroot hne with
        ⟨hnone, hnone'⟩ | ⟨removed, fs₁, fs₁', hsome, hsome', h₁⟩
      · rw [hnone, hnone']
        exact hsame
      · rw [hsome, hsome']
        exact ⟨rfl, h₁⟩
    all_goals exact hsame

theorem deleteFile_congr
    (hs : pm.isPathInsideRoot path = true →
      pm.Sees fs (pm.resolvePath path) ∧ pm.Sees fs' (pm.resolvePath path)) :
    SameResult pm.rootDirectory (pm.deleteFile fs path) (pm.deleteFile fs' path) := by
  have hsame : SameResult pm.rootDirectory (false, fs) (false, fs') := ⟨rfl, h⟩
  by_cases hinside : pm.isPathInsideRoot path = true
  swap
  · rw [isPathInsideRoot] at hinside
    rw [deleteFile, deleteFile]
    dsimp only
    rw [if_pos hinside, if_pos hinside]
    split_ifs
    · exact hsame
    · exact hsame
  obtain ⟨hs, hs'⟩ := hs hinside
  rcases sees_cases h hs hs' with ⟨hnone, hnone'⟩ | ⟨l, _, _, hl, hl', hroot, _⟩
  · rw [deleteFile_of_targetOf_none hnone, deleteFile_of_targetOf_none hnone']
    exact hsame
  · rw [deleteFile, deleteFile]
    dsimp only
    rw [FileSystem.weaklyCanonical_of_found hl, FileSystem.weaklyCanonical_of_found hl']
    dsimp only
    rw [pathExists_location hl, pathExists_location hl', isRegularFile_location h hl hroot]
    split_ifs with hpath hinside hwithin hfile
    · exact hsame
    · exact hsame
    · exact hsame
    · -- A file is not the root.
      have hne : l ≠ pm.rootDirectory := by
        rintro rfl
        obtain ⟨l', data, hl', hnode⟩ := FileSystem.isRegularFile_iff.1 (not_not.1 hfile)
        rw [FileSystem.resolve_isDir h.isDir] at hl'
        cases hl'
        exact FileSystem.not_isDir_of_file hnode h.isDir
      rcases h.remove (FileSystem.sound_of_resolve hl) hroot hne with
        ⟨hnone, hnone'⟩ | ⟨removed, fs₁, fs₁', hsome, hsome', h₁⟩
      · rw [hnone, hnone']
        exact hsame
      · rw [hsome, hsome']
        exact ⟨rfl, h₁⟩
    all_goals exact hsame

theorem canRename_congr (hcurrent : fs.IsDir pm.currentDirectory)
    (hs : pm.Sees fs (pm.resolvePath path)) (hs' : pm.Sees fs' (pm.resolvePath path)) :
    pm.canRename fs' path = pm.canRename fs path := by
  have hcurrent' : fs'.IsDir pm.currentDirectory := (h.isDir_iff (.inr pm.inside)).2 hcurrent
  rcases sees_cases h hs hs' with ⟨hnone, hnone'⟩ | ⟨l, _, _, hl, hl', hroot, _⟩
  · rw [canRename_of_targetOf_none hnone, canRename_of_targetOf_none hnone']
  · rw [canRename, canRename, FileSystem.weaklyCanonical_of_found hl,
      FileSystem.weaklyCanonical_of_found hl']
    dsimp only
    rw [pathExists_location hl, pathExists_location hl', isRegularFile_location h hl hroot,
      isDirectory_location h hl hroot, relative_of_found hcurrent hl,
      relative_of_found hcurrent' hl']

theorem renamePath_congr (hcurrent : fs.IsDir pm.currentDirectory) {oldPath newPath : String}
    (hs : pm.RenamesInside fs oldPath newPath) (hs' : pm.RenamesInside fs' oldPath newPath) :
    SameResult pm.rootDirectory (pm.renamePath fs oldPath newPath)
      (pm.renamePath fs' oldPath newPath) := by
  have hsame : SameResult pm.rootDirectory (false, fs) (false, fs') := ⟨rfl, h⟩
  obtain ⟨hs, hd⟩ := hs
  obtain ⟨hs', hd'⟩ := hs'
  have hcan' := canRename_congr h hcurrent hs hs'
  by_cases hrefused : pm.canRename fs oldPath = true ∧ (pm.resolvePath newPath).filename ≠ none ∧
    pm.isPathInsideRoot newPath = true
  swap
  · rw [renamePath_of_refused hrefused, renamePath_of_refused (by rwa [hcan'])]
    exact hsame
  obtain ⟨hcan, hfilename, hlexical⟩ := hrefused
  -- The directory of the destination is the same, or the rename is refused.
  have hparent : pm.Sees fs (pm.resolvePath newPath).parentPath := fun hne =>
    (hd hcan hfilename hlexical hne).parentPath
  have hparent' : pm.Sees fs' (pm.resolvePath newPath).parentPath := fun hne =>
    (hd' (hcan'.trans hcan) hfilename hlexical hne).parentPath
  rcases sees_cases h hparent hparent' with ⟨hnone, hnone'⟩ | ⟨d, htarget, _, hns, hns', hinside, _⟩
  · rw [renamePath_of_targetOf_none hnone, renamePath_of_targetOf_none hnone']
    exact hsame
  have hp : fs.ConfinedTo pm.rootDirectory (pm.resolvePath newPath) :=
    hd hcan hfilename hlexical (by rw [htarget]; exact Option.some_ne_none _)
  obtain ⟨s, hsource, hcanonical, hwithin, hne⟩ := canRename_spec hcan
  have hsource' : fs'.resolve true (pm.resolvePath oldPath) = .found s := by
    rcases sees_cases h hs hs' with ⟨hnone, _⟩ | ⟨l, _, _, hl, hl', _⟩
    · rw [targetOf_eq_some_iff.2 ⟨hsource, hwithin⟩] at hnone
      cases hnone
    · rw [hsource] at hl
      cases hl
      exact hl'
  rw [renamePath, renamePath, hcan', hcanonical, FileSystem.weaklyCanonical_of_found hsource']
  dsimp only
  rw [h.pathExists hp, FileSystem.weaklyCanonical_of_found hns,
    FileSystem.weaklyCanonical_of_found hns']
  dsimp only
  rw [pathExists_location hns, pathExists_location hns', isDirectory_location h hns hinside]
  split
  · exact hsame
  split
  · exact hsame
  split
  · exact hsame
  split
  · exact hsame
  split
  · exact hsame
  rename_i htest
  rw [not_or, not_or, not_not, not_not, not_not] at htest
  obtain ⟨ns, n, heq⟩ := NormalPath.eq_of_filename hfilename
  have hparentPath : (pm.resolvePath newPath).parentPath = { names := ns } := by
    rw [heq, NormalPath.parentPath, if_neg Bool.false_ne_true, List.dropLast_concat]
  rw [hparentPath] at hns hns'
  have hdir := FileSystem.isDir_of_isDirectory hns htest.2.2
  have hdir' : fs'.IsDir d := (h.isDir_iff (.inr hinside)).2 hdir
  rw [heq]
  rcases h.rename (n := n) (FileSystem.sound_of_resolve hsource) hwithin hne ⟨hns, hdir⟩
    ⟨hns', hdir'⟩ hinside with ⟨hnone, hnone'⟩ | ⟨fs₁, fs₁', hsome, hsome', h₁⟩
  · rw [hnone, hnone']
    exact hsame
  · rw [hsome, hsome']
    exact ⟨rfl, h₁⟩

end

end PathManager

end HybridFtp
