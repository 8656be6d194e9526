import HybridFtp.Server.Upload

/-!
# The working directory

A path manager whose file system nobody else changes: its operations, and the uploads
of its session.

* `undisturbed`: the machine, from any file system;
* `PathState.Valid`: the current directory is there, and so is the root;
* `valid_of_reaches`: they stay, if the root is there to start with. No operation takes
  away a directory on the way to the current one.
-/

namespace HybridFtp

/-- An operation of the path manager, or an upload of its session. -/
inductive OwnEvent
  | operation (op : PathOperation)
  | upload (session : SessionState) (o : Outcomes) (destName : String)
      (appendMode skipOpeningReply : Bool)

/-- The machine of a path manager that has just been constructed, and of nobody else. -/
def undisturbed : Machine PathState OwnEvent where
  init := {s | ∃ perms root fs, PathManager.create perms root fs = (s.pm, s.fs)}
  step
    | .operation op, s => some (s.operate op)
    | .upload session o destName appendMode skipOpeningReply, s =>
      some { s with fs :=
        (receiveFileOverDataChannel o { session with pathManager := s.pm } s.fs destName appendMode
          skipOpeningReply).fs }

/-- The current directory is there, by its canonical path, inside the root directory,
    which is there, too. -/
structure PathState.Valid (s : PathState) : Prop where
  rootDirectory : s.fs.IsDir s.pm.rootDirectory
  currentDirectory : s.fs.IsDir s.pm.currentDirectory
  canonical : s.fs.canonical { names := s.pm.currentDirectory } =
    some { names := s.pm.currentDirectory }
  inside : s.pm.rootDirectory <+: s.pm.currentDirectory

/-! ## Operations -/

/-- The way from a directory to another one above it does not begin with a step up. -/
theorem head?_lexicallyRelative {ν : Type*} [DecidableEq ν] {a b : List ν} (h : b <+: a) :
    (lexicallyRelative a b).head? ≠ some .parent := by
  induction b generalizing a with
  | nil => cases a <;> simp [lexicallyRelative]
  | cons y b ih =>
    obtain ⟨r, rfl⟩ := h
    rw [List.cons_append, lexicallyRelative, if_pos rfl]
    exact ih (List.prefix_append b r)

namespace PathManager

variable {pm : PathManager} {fs : Storage} {path : String} {l : List String}

theorem removeDirectory_isDir (h : fs.IsDir l)
    (hl : l = pm.rootDirectory ∨ l = pm.currentDirectory) :
    (pm.removeDirectory fs path).2.IsDir l := by
  rw [removeDirectory]
  dsimp only
  split_ifs with hpath hinside
  · exact h
  · split
    · exact h
    · rename_i q hq
      split_ifs with hwithin hguard htest
      · exact h
      · exact h
      · rw [not_or, not_not] at htest
        obtain ⟨t, ht, rfl⟩ := FileSystem.resolve_of_weaklyCanonical hq htest.1
        have hsound := FileSystem.sound_of_resolve ht
        split
        · rename_i removed fs' hremove
          refine FileSystem.isDir_remove hsound h ?_ hremove
          rintro rfl
          exact hguard (hl.imp (fun heq => by rw [heq]) fun heq => by rw [heq])
        · exact h
      · exact h
  · exact h

/-- Only files are deleted. -/
theorem deleteFile_isDir (h : fs.IsDir l) : (pm.deleteFile fs path).2.IsDir l := by
  rw [deleteFile]
  dsimp only
  split_ifs with hpath hinside
  · exact h
  · split
    · exact h
    · rename_i q hq
      split_ifs with htest hfile
      · exact h
      · exact h
      · rw [not_or, not_not, not_not] at htest
        obtain ⟨t, ht, rfl⟩ := FileSystem.resolve_of_weaklyCanonical hq htest.2
        have hsound := FileSystem.sound_of_resolve ht
        split
        · rename_i removed fs' hremove
          refine FileSystem.isDir_remove hsound h ?_ hremove
          rintro rfl
          obtain ⟨data, hnode⟩ := FileSystem.node_of_isRegularFile ht (not_not.1 hfile)
          exact FileSystem.not_isDir_of_file hnode h
        · exact h
  · exact h

/-- A directory that can be renamed is not on the way to the current one. -/
theorem not_prefix_of_canRename (h : pm.canRename fs path = true)
    (hcurrent : fs.IsDir pm.currentDirectory) {s : List String}
    (hs : fs.resolve true (pm.resolvePath path) = .found s) : ¬s <+: pm.currentDirectory := by
  intro hprefix
  obtain ⟨r, hr⟩ := hprefix
  have hdir : fs.IsDir s := FileSystem.isDir_of_append (by rwa [hr])
  have hfound : fs.resolve true { names := s } = .found s := FileSystem.resolve_isDir hdir false
  rw [canRename, FileSystem.weaklyCanonical_of_found hs] at h
  dsimp only at h
  rw [FileSystem.isDirectory_iff.2 ⟨s, hfound, hdir⟩, FileSystem.relative,
    FileSystem.weaklyCanonical_of_found (FileSystem.resolve_isDir hcurrent false),
    FileSystem.weaklyCanonical_of_found hfound] at h
  split_ifs at h with _ _ _ _ hdirectory
  · simp only [Option.bind_some, Option.map_some, decide_eq_true_eq] at h
    exact head?_lexicallyRelative ⟨r, hr⟩ h
  · exact hdirectory rfl

theorem renamePath_isDir (h : fs.IsDir l) (hcurrent : fs.IsDir pm.currentDirectory)
    (hl : l <+: pm.currentDirectory) (oldPath newPath : String) :
    (pm.renamePath fs oldPath newPath).2.IsDir l := by
  rcases pm.renamePath_cases fs oldPath newPath with
    heq | ⟨s, ns, n, d, hcan, hs, _, _, hd, _, hnew, hrename⟩
  · rwa [heq]
  · have hsound := FileSystem.sound_of_resolve hs
    exact FileSystem.isDir_rename hsound hd hnew hrename h fun hle =>
      not_prefix_of_canRename hcan hcurrent hs (hle.trans hl)

theorem createDirectory_isDir (h : fs.IsDir l) (perms : Perms) (path : String) :
    (pm.createDirectory fs perms path).2.IsDir l := by
  rcases pm.createDirectory_cases fs perms path with heq | ⟨_, _, dir, n, habsent, heq⟩
  · rwa [heq]
  · have hsound := FileSystem.sound_of_resolve habsent
    rw [heq]
    exact (FileSystem.extends_alter _ hsound.2).isDir h

end PathManager

/-- An upload takes no directory away. -/
theorem receiveFileOverDataChannel_isDir {fs : Storage} {l : List String} (h : fs.IsDir l)
    (o : Outcomes) (session : SessionState) (destName : String)
    (appendMode skipOpeningReply : Bool) :
    (receiveFileOverDataChannel o session fs destName appendMode skipOpeningReply).fs.IsDir l := by
  rcases receiveFileOverDataChannel_fs o session fs destName appendMode skipOpeningReply with
    heq | ⟨peer, _, _, heq⟩
  · rwa [heq]
  · have hdirs := (FileSystem.addsDirectories_createDirectories o.directoryPerms
      (session.pathManager.resolvePath destName).parentPath).kept.isDir h
    rw [heq]
    rcases receiveFileFrom_fs o session _ peer (session.pathManager.resolvePath destName)
      appendMode with heq | ⟨write, hwrite⟩
    · rwa [heq]
    · exact FileSystem.isDir_writeFile hwrite hdirs

/-! ## Runs -/

theorem PathState.Valid.of_isDir {s : PathState} (hroot : s.fs.IsDir s.pm.rootDirectory)
    (hcurrent : s.fs.IsDir s.pm.currentDirectory) : s.Valid where
  rootDirectory := hroot
  currentDirectory := hcurrent
  canonical := FileSystem.canonical_eq_some_iff.2
    ⟨_, FileSystem.resolve_isDir hcurrent false, rfl⟩
  inside := s.pm.inside

/-- A change of the current directory. -/
theorem PathState.Valid.change {s : PathState} (h : s.Valid) {pm : PathManager}
    (hpm : pm = s.pm ∨ pm.rootDirectory = s.pm.rootDirectory ∧ s.fs.IsDir pm.currentDirectory) :
    PathState.Valid { s with pm } := by
  rcases hpm with rfl | ⟨hroot, hcurrent⟩
  · exact h
  · refine .of_isDir ?_ hcurrent
    show s.fs.IsDir pm.rootDirectory
    rw [hroot]
    exact h.rootDirectory

/-- A change of the file system that takes neither directory away. -/
theorem PathState.Valid.update {s : PathState} (h : s.Valid) {fs : Storage}
    (hfs : ∀ l, s.fs.IsDir l → l <+: s.pm.currentDirectory →
      l = s.pm.rootDirectory ∨ l = s.pm.currentDirectory → fs.IsDir l) :
    PathState.Valid { s with fs } :=
  .of_isDir (hfs _ h.rootDirectory h.inside (.inl rfl))
    (hfs _ h.currentDirectory List.prefix_rfl (.inr rfl))

theorem PathState.Valid.step {s s' : PathState} {e : OwnEvent} (h : s.Valid)
    (hstep : undisturbed.step e s = some s') : s'.Valid := by
  match e with
  | .operation op =>
    obtain rfl : s.operate op = s' := Option.some.inj hstep
    match op with
    | .changeDirectory path => exact h.change (s.pm.changeDirectory_cases s.fs path)
    | .changeToParentDirectory => exact h.change (s.pm.changeToParentDirectory_cases s.fs)
    | .createDirectory perms path =>
      exact h.update fun l hl _ _ => PathManager.createDirectory_isDir hl perms path
    | .removeDirectory path =>
      exact h.update fun l hl _ heq => PathManager.removeDirectory_isDir hl heq
    | .deleteFile path => exact h.update fun l hl _ _ => PathManager.deleteFile_isDir hl
    | .renamePath oldPath newPath =>
      exact h.update fun l hl hle _ =>
        PathManager.renamePath_isDir hl h.currentDirectory hle oldPath newPath
  | .upload session o destName appendMode skipOpeningReply =>
    obtain rfl := Option.some.inj hstep
    exact h.update fun l hl _ _ => receiveFileOverDataChannel_isDir hl ..

/-- If the root directory is there when the path manager has been constructed, it stays
    there, and so does the current directory. -/
theorem valid_of_reaches {s₀ s : PathState} (h₀ : s₀ ∈ undisturbed.init)
    (hroot : s₀.fs.IsDir s₀.pm.rootDirectory)
    (h : undisturbed.Reaches (fun _ _ => True) s₀ s) : s.Valid := by
  refine h.invariant (I := PathState.Valid) (fun s e s' hs _ hstep => hs.step hstep) ?_
  obtain ⟨perms, root, fs, hcreate⟩ := h₀
  obtain ⟨hpm, _⟩ := Prod.mk.inj hcreate
  have hcurrent : s₀.pm.currentDirectory = s₀.pm.rootDirectory := by
    rw [← hpm]
  refine .of_isDir hroot ?_
  rwa [hcurrent]

theorem valid_of_reaches_linked :
    (linked.operate (.createDirectory 0o755 "new")).Valid := by
  have hinit : linked ∈ undisturbed.init := ⟨0o755, { names := ["srv"] }, linkedStorage, rfl⟩
  exact valid_of_reaches hinit (by decide +kernel)
    (Machine.Reaches.refl.tail (e := .operation (.createDirectory 0o755 "new")) trivial rfl)

/-- A file where the root directory is to be. -/
def blockedStorage : Storage where
  attributes := 0o755
  entries := [("srv", .file {})]

/-- The path manager cannot make its root directory then, and does not tell. -/
theorem not_valid :
    ¬∀ s₀ s, s₀ ∈ undisturbed.init → undisturbed.Reaches (fun _ _ => True) s₀ s → s.Valid := by
  intro h
  let created := PathManager.create 0o755 { names := ["srv"] } blockedStorage
  have hvalid := h { pm := created.1, fs := created.2 } _
    ⟨0o755, { names := ["srv"] }, blockedStorage, rfl⟩ .refl
  exact absurd hvalid.rootDirectory (by decide +kernel)

end HybridFtp
