import HybridFtp.Common.PathManager
import HybridFtp.Lib.Machine

/-!
# The sandbox

What the operations of a `PathManager` change, in a file system with symbolic
links that others change as well.

* `sandbox`: a path manager at work, others changing the file system between its
  operations;
* `contained_iff`: an operation changes nothing but entries of directories inside
  the root, unless it is `createDirectory`: that only tests the path lexically, and
  makes a directory wherever symbolic links lead (`not_contained`).
-/

namespace HybridFtp

/-- A path manager, and the file system. -/
structure PathState where
  pm : PathManager
  fs : Storage

/-- The operations that change something. -/
inductive PathOperation
  | changeDirectory (path : String)
  | changeToParentDirectory
  | createDirectory (perms : Perms) (path : String)
  | removeDirectory (path : String)
  | deleteFile (path : String)
  | renamePath (oldPath newPath : String)

/-- The state after an operation. -/
def PathState.operate (s : PathState) : PathOperation → PathState
  | .changeDirectory path => { s with pm := (s.pm.changeDirectory s.fs path).2 }
  | .changeToParentDirectory => { s with pm := (s.pm.changeToParentDirectory s.fs).2 }
  | .createDirectory perms path => { s with fs := (s.pm.createDirectory s.fs perms path).2 }
  | .removeDirectory path => { s with fs := (s.pm.removeDirectory s.fs path).2 }
  | .deleteFile path => { s with fs := (s.pm.deleteFile s.fs path).2 }
  | .renamePath oldPath newPath => { s with fs := (s.pm.renamePath s.fs oldPath newPath).2 }

/-- An operation, or whatever others do to the file system, as long as they leave
    the root directory where it is. -/
inductive PathEvent
  | operation (op : PathOperation)
  | others (fs : Storage)

/-- The machine of a path manager that has found or made its root directory. -/
def sandbox : Machine PathState PathEvent where
  init := {s | ∃ perms root fs, PathManager.create perms root fs = (s.pm, s.fs) ∧
    s.fs.IsDir s.pm.rootDirectory}
  step
    | .operation op, s => some (s.operate op)
    | .others fs, s => if fs.IsDir s.pm.rootDirectory then some { s with fs } else none

/-- Nothing changes but entries of directories inside the root, and the current
    directory, if it changes, is a canonical one inside the root. -/
structure PathState.Contained (s s' : PathState) : Prop where
  fs : s.fs.ChangesWithin s.pm.rootDirectory s'.fs
  rootDirectory : s'.pm.rootDirectory = s.pm.rootDirectory
  currentDirectory : s'.pm.currentDirectory = s.pm.currentDirectory ∨
    s'.fs.canonical { names := s'.pm.currentDirectory } =
        some { names := s'.pm.currentDirectory } ∧
      s'.fs.IsDir s'.pm.currentDirectory ∧ s.pm.rootDirectory <+: s'.pm.currentDirectory

/-- The directory that `createDirectory` makes an entry in, along symbolic links, is
    inside the root. -/
def PathState.LandsInside (s : PathState) : PathOperation → Prop
  | .createDirectory _ path => path ≠ "" → s.pm.isPathInsideRoot path →
      ∀ dir n, s.fs.resolve false { names := (s.pm.resolvePath path).names } = .absent dir n →
        s.pm.rootDirectory <+: dir
  | .changeDirectory _ | .changeToParentDirectory | .removeDirectory _ | .deleteFile _
  | .renamePath .. => True

namespace PathManager

variable {pm : PathManager} {fs : Storage} {path : String}

/-! ## What each operation does -/

theorem changeDirectory_cases (pm : PathManager) (fs : Storage) (path : String) :
    (pm.changeDirectory fs path).2 = pm ∨
      (pm.changeDirectory fs path).2.rootDirectory = pm.rootDirectory ∧
        fs.IsDir (pm.changeDirectory fs path).2.currentDirectory := by
  rw [changeDirectory]
  split_ifs with hinside htest
  · exact .inl rfl
  · split
    · exact .inl rfl
    · rename_i q hq
      split_ifs with hwithin
      · rw [not_or, not_not, not_not] at htest
        obtain ⟨l, hl, hdir⟩ := FileSystem.isDirectory_iff.1 htest.2
        rw [FileSystem.weaklyCanonical_of_found hl, Option.some.injEq] at hq
        subst hq
        exact .inr ⟨rfl, hdir⟩
      · exact .inl rfl
  · exact .inl rfl

theorem changeToParentDirectory_cases (pm : PathManager) (fs : Storage) :
    (pm.changeToParentDirectory fs).2 = pm ∨
      (pm.changeToParentDirectory fs).2.rootDirectory = pm.rootDirectory ∧
        fs.IsDir (pm.changeToParentDirectory fs).2.currentDirectory := by
  rw [changeToParentDirectory]
  split_ifs
  · exact .inl rfl
  · exact pm.changeDirectory_cases fs ".."

/-- What is removed is below the root. -/
theorem removeDirectory_changesWithin (pm : PathManager) (fs : Storage) (path : String) :
    fs.ChangesWithin pm.rootDirectory (pm.removeDirectory fs path).2 := by
  have hsame := FileSystem.ChangesWithin.refl pm.rootDirectory fs
  rw [removeDirectory]
  dsimp only
  split_ifs with hpath hinside
  · exact hsame
  · split
    · exact hsame
    · rename_i q hq
      split_ifs with hwithin hroot htest
      · exact hsame
      · exact hsame
      · rw [not_or, not_not] at htest
        obtain ⟨l, hl, rfl⟩ := FileSystem.resolve_of_weaklyCanonical hq htest.1
        have hsound := FileSystem.sound_of_resolve hl
        split
        · rename_i removed fs' hremove
          refine FileSystem.changesWithin_remove hsound ?_ ?_ hremove
          · simpa [isInsideRoot] using hwithin
          · rintro rfl
            exact hroot (.inl rfl)
        · exact hsame
      · exact hsame
  · exact hsame

theorem deleteFile_changesWithin (hdir : fs.IsDir pm.rootDirectory) (path : String) :
    fs.ChangesWithin pm.rootDirectory (pm.deleteFile fs path).2 := by
  have hsame := FileSystem.ChangesWithin.refl pm.rootDirectory fs
  rw [deleteFile]
  dsimp only
  split_ifs with hpath hinside
  · exact hsame
  · split
    · exact hsame
    · rename_i q hq
      split_ifs with htest hfile
      · exact hsame
      · exact hsame
      · rw [not_or, not_not, not_not] at htest
        rw [not_not] at hfile
        obtain ⟨l, hl, rfl⟩ := FileSystem.resolve_of_weaklyCanonical hq htest.2
        have hsound := FileSystem.sound_of_resolve hl
        -- A file is not the root, which is a directory.
        have hne : l ≠ pm.rootDirectory := by
          rintro rfl
          obtain ⟨data, hnode⟩ := FileSystem.node_of_isRegularFile hl hfile
          exact FileSystem.not_isDir_of_file hnode hdir
        split
        · rename_i removed fs' hremove
          exact FileSystem.changesWithin_remove hsound (by simpa [isInsideRoot] using htest.1) hne
            hremove
        · exact hsame
  · exact hsame

/-- What can be renamed is below the root, by its canonical path. -/
theorem canRename_spec (h : pm.canRename fs path = true) :
    ∃ l, fs.resolve true (pm.resolvePath path) = .found l ∧
      fs.weaklyCanonical (pm.resolvePath path) = some { names := l } ∧
        pm.rootDirectory <+: l ∧ l ≠ pm.rootDirectory := by
  rw [canRename] at h
  split_ifs at h with hpath
  split at h
  · cases h
  · rename_i q hq
    dsimp only at h
    split_ifs at h with htest htype hroot
    all_goals
      rw [not_or, not_not, not_not] at htest
      obtain ⟨l, hl, rfl⟩ := FileSystem.resolve_of_weaklyCanonical hq htest.2
      refine ⟨l, hl, hq, by simpa [isInsideRoot] using htest.1, ?_⟩
      rintro rfl
      exact hroot rfl

variable (pm fs) in
/-- A rename goes from a canonical path below the root, to a path in a directory inside
    the root where nothing is. -/
theorem renamePath_cases (oldPath newPath : String) :
    (pm.renamePath fs oldPath newPath).2 = fs ∨
      ∃ s ns n d, pm.canRename fs oldPath = true ∧
        fs.resolve true (pm.resolvePath oldPath) = .found s ∧ pm.rootDirectory <+: s ∧
        s ≠ pm.rootDirectory ∧ fs.LeadsTo ns d ∧ pm.rootDirectory <+: d ∧
        (fs.resolve true { names := ns ++ [n] }).Missing ∧
        fs.rename { names := s } { names := ns ++ [n] } =
          some (pm.renamePath fs oldPath newPath).2 := by
  rw [renamePath]
  split
  · exact .inl rfl
  rename_i hargs
  rw [not_or, not_or, not_not] at hargs
  obtain ⟨s, hs, hcanonical, hwithin, hne⟩ := canRename_spec hargs.2.2
  rw [hcanonical]
  dsimp only
  split
  · exact .inl rfl
  split
  · exact .inl rfl
  rename_i hdestination
  split
  · exact .inl rfl
  rename_i hnew
  split
  · exact .inl rfl
  rename_i parent hparent
  split
  · exact .inl rfl
  rename_i htest
  split
  swap
  · exact .inl rfl
  rename_i fs' hrename
  rw [not_or, not_or, not_not, not_not, not_not] at htest
  obtain ⟨d, hd, rfl⟩ := FileSystem.resolve_of_weaklyCanonical hparent htest.2.1
  obtain ⟨hinside, _, hdirectory⟩ := htest
  have hdir := FileSystem.isDir_of_isDirectory hd hdirectory
  -- The destination has a last name, without a separator after it.
  obtain ⟨ns, n, heq⟩ := NormalPath.eq_of_filename fun hnone => hdestination (.inl hnone)
  rw [heq] at hd hrename hnew
  rw [NormalPath.parentPath, if_neg Bool.false_ne_true, List.dropLast_concat] at hd
  exact .inr ⟨s, ns, n, d, hargs.2.2, hs, hwithin, hne, ⟨hd, hdir⟩,
    by simpa [isInsideRoot] using hinside,
    FileSystem.pathExists_eq_false_iff.1 (not_not.1 hnew), hrename⟩

/-- What is renamed is below the root, before and after. -/
theorem renamePath_changesWithin (pm : PathManager) (fs : Storage) (oldPath newPath : String) :
    fs.ChangesWithin pm.rootDirectory (pm.renamePath fs oldPath newPath).2 := by
  rcases pm.renamePath_cases fs oldPath newPath with
    heq | ⟨s, ns, n, d, _, hs, hroot, hne, hd, hroot', _, hrename⟩
  · rw [heq]
    exact .refl pm.rootDirectory fs
  · have hsound := FileSystem.sound_of_resolve hs
    exact FileSystem.changesWithin_rename hsound hroot hne hd.1 hd.2 hroot' hrename

theorem createDirectory_cases (pm : PathManager) (fs : Storage) (perms : Perms) (path : String) :
    (pm.createDirectory fs perms path).2 = fs ∨
      path ≠ "" ∧ pm.isPathInsideRoot path ∧
        ∃ dir n, fs.resolve false { names := (pm.resolvePath path).names } = .absent dir n ∧
          (pm.createDirectory fs perms path).2 =
            fs.alter (fun _ => some (.dir perms [])) (dir ++ [n]) := by
  rw [createDirectory]
  split
  · exact .inl rfl
  rename_i hpath
  dsimp only
  split
  · exact .inl rfl
  rename_i hinside
  split
  · exact .inl rfl
  split
  swap
  · exact .inl rfl
  rename_i created fs' hcreate
  rw [FileSystem.createDirectory] at hcreate
  split at hcreate
  · rename_i fs'' hmkdir
    obtain ⟨dir, n, habsent, rfl⟩ := FileSystem.mkdir_eq_some_iff.1 hmkdir
    cases hcreate
    exact .inr ⟨hpath, not_not.1 hinside, dir, n, habsent, rfl⟩
  · simp only [Option.ite_none_right_eq_some, Option.some.injEq, Prod.mk.injEq] at hcreate
    obtain ⟨_, _, rfl⟩ := hcreate
    exact .inl rfl

/-- A directory is made wherever the path leads, as long as it lies in the root by
    its names. -/
theorem createDirectory_of_absent {pm : PathManager} {fs : Storage} {path : String} (perms : Perms)
    (hpath : path ≠ "") (hinside : pm.isPathInsideRoot path = true) {dir : List String} {n : String}
    (habsent : fs.resolve false { names := (pm.resolvePath path).names } = .absent dir n) :
    pm.createDirectory fs perms path =
      (true, fs.alter (fun _ => some (.dir perms [])) (dir ++ [n])) := by
  have hmissing : (fs.resolve false { names := (pm.resolvePath path).names }).Missing := by
    rw [habsent]
    trivial
  have hexists : fs.pathExists (pm.resolvePath path) = some false :=
    FileSystem.pathExists_eq_false_iff.2 (FileSystem.missing_of_missing_false hmissing _)
  rw [isPathInsideRoot] at hinside
  rw [createDirectory, if_neg hpath]
  dsimp only
  rw [if_neg (not_not.2 hinside), if_neg (not_not.2 hexists), FileSystem.createDirectory,
    FileSystem.mkdir_eq_some_iff.2 ⟨dir, n, habsent, rfl⟩]

theorem createDirectory_changesWithin_iff (pm : PathManager) (fs : Storage) (perms : Perms)
    (path : String) :
    fs.ChangesWithin pm.rootDirectory (pm.createDirectory fs perms path).2 ↔
      (path ≠ "" → pm.isPathInsideRoot path →
        ∀ dir n, fs.resolve false { names := (pm.resolvePath path).names } = .absent dir n →
          pm.rootDirectory <+: dir) := by
  constructor
  · intro h hpath hinside dir n habsent
    have hsound := FileSystem.sound_of_resolve habsent
    rw [createDirectory_of_absent perms hpath hinside habsent] at h
    refine h.prefix_of_node_ne (n := n) ?_
    rw [hsound.2, FileSystem.node, FileSystem.get_alter_append _ hsound.1]
    simp
  · intro h
    rcases pm.createDirectory_cases fs perms path with heq | ⟨hpath, hinside, dir, n, habsent, heq⟩
    · rw [heq]
      exact .refl _ fs
    · rw [heq]
      exact FileSystem.changesWithin_alter _ (h hpath hinside dir n habsent) n fs

end PathManager

/-! ## Every operation, in every reachable state -/

variable {s s' : PathState}

/-- The root directory stays where it is. -/
theorem isDir_rootDirectory (hs : sandbox.Reachable s) : s.fs.IsDir s.pm.rootDirectory := by
  refine Machine.Reachable.invariant (I := fun s => s.fs.IsDir s.pm.rootDirectory) hs
    (fun s ⟨_, _, _, _, h⟩ => h) ?_
  rintro s (op | fs) s' h hstep
  · obtain rfl : s.operate op = s' := Option.some.inj hstep
    cases op with
    | changeDirectory path =>
      rcases s.pm.changeDirectory_cases s.fs path with heq | ⟨heq, _⟩
      · simpa only [PathState.operate, heq] using h
      · simpa only [PathState.operate, heq] using h
    | changeToParentDirectory =>
      rcases s.pm.changeToParentDirectory_cases s.fs with heq | ⟨heq, _⟩
      · simpa only [PathState.operate, heq] using h
      · simpa only [PathState.operate, heq] using h
    | createDirectory perms path =>
      rcases s.pm.createDirectory_cases s.fs perms path with heq | ⟨_, _, dir, n, habsent, heq⟩
      · simpa only [PathState.operate, heq] using h
      · have hsound := FileSystem.sound_of_resolve habsent
        simpa only [PathState.operate, heq] using (FileSystem.extends_alter _ hsound.2).isDir h
    | removeDirectory path => exact (s.pm.removeDirectory_changesWithin s.fs path).isDir h
    | deleteFile path => exact (PathManager.deleteFile_changesWithin h path).isDir h
    | renamePath oldPath newPath =>
      exact (s.pm.renamePath_changesWithin s.fs oldPath newPath).isDir h
  · simp only [sandbox, Option.ite_none_right_eq_some, Option.some.injEq] at hstep
    obtain ⟨h', rfl⟩ := hstep
    exact h'

/-- Another current directory is a canonical one. -/
theorem PathState.contained_of_cases {pm : PathManager}
    (h : pm = s.pm ∨ pm.rootDirectory = s.pm.rootDirectory ∧ s.fs.IsDir pm.currentDirectory) :
    s.Contained { s with pm } := by
  rcases h with rfl | ⟨hroot, hdir⟩
  · exact ⟨.refl _ _, rfl, .inl rfl⟩
  · refine ⟨.refl _ _, hroot, .inr ⟨?_, hdir, hroot ▸ pm.inside⟩⟩
    exact FileSystem.canonical_eq_some_iff.2 ⟨_, FileSystem.resolve_isDir hdir false, rfl⟩

/-- In every reachable state, an operation is contained in the root, unless it makes a
    directory outside of it. -/
theorem contained_iff (hs : sandbox.Reachable s) (op : PathOperation) :
    s.Contained (s.operate op) ↔ s.LandsInside op := by
  have hdir := isDir_rootDirectory hs
  cases op with
  | changeDirectory path =>
    exact iff_of_true (PathState.contained_of_cases (s.pm.changeDirectory_cases s.fs path)) trivial
  | changeToParentDirectory =>
    exact iff_of_true (PathState.contained_of_cases (s.pm.changeToParentDirectory_cases s.fs))
      trivial
  | createDirectory perms path =>
    refine Iff.trans ⟨fun h => h.fs, fun h => ⟨h, rfl, .inl rfl⟩⟩
      (s.pm.createDirectory_changesWithin_iff s.fs perms path)
  | removeDirectory path =>
    exact iff_of_true ⟨s.pm.removeDirectory_changesWithin s.fs path, rfl, .inl rfl⟩ trivial
  | deleteFile path =>
    exact iff_of_true ⟨PathManager.deleteFile_changesWithin hdir path, rfl, .inl rfl⟩ trivial
  | renamePath oldPath newPath =>
    exact iff_of_true ⟨s.pm.renamePath_changesWithin s.fs oldPath newPath, rfl, .inl rfl⟩ trivial

/-- A root directory with a link to a directory outside. -/
def linkedStorage : Storage where
  attributes := 0o755
  entries := [
    ("srv", .dir 0o755 [("out", .link { rooted := true, parts := [.name "etc"] })]),
    ("etc", .dir 0o755 [])]

/-- A path manager that has found that root directory. -/
def linked : PathState :=
  let created := PathManager.create 0o755 { names := ["srv"] } linkedStorage
  { pm := created.1, fs := created.2 }

theorem linked_reachable : sandbox.Reachable linked :=
  ⟨linked, ⟨0o755, { names := ["srv"] }, linkedStorage, rfl, by decide +kernel⟩, .refl⟩

theorem contained_iff_linked :
    linked.Contained (linked.operate (.createDirectory 0o755 "new")) := by
  refine (contained_iff linked_reachable _).2 fun _ _ dir n h => ?_
  have hresolve : linked.fs.resolve false { names := (linked.pm.resolvePath "new").names } =
      .absent ["srv"] "new" := by decide +kernel
  rw [hresolve] at h
  cases h
  decide +kernel

/-- Below a link to a directory outside, a directory is made there. -/
theorem not_contained :
    ¬∀ (s : PathState) (op : PathOperation), sandbox.Reachable s → s.Contained (s.operate op) := by
  intro h
  have hfs := (h linked (.createDirectory 0o755 "out/x") linked_reachable).fs
  have hne : (linked.operate (.createDirectory 0o755 "out/x")).fs.node (["etc"] ++ ["x"]) ≠
      linked.fs.node (["etc"] ++ ["x"]) := by decide +kernel
  exact absurd (hfs.prefix_of_node_ne hne) (by decide +kernel)

end HybridFtp
