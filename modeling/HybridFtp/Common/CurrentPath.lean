import HybridFtp.Common.PathText
import HybridFtp.Common.Sandbox

/-!
# The path of the current directory

What a client is told about the current directory leads back to it, and it lies as far
below the root as its path has parts.

* `toPath_getCurrentFTPPath`: the path of the current directory has the names below the
  root for its parts;
* `ascend`: steps up, each of which takes the last name away (`ascend_append`);
* `currentDirectory_retraced`: wherever `CWD` and `CDUP` lead, there is a way back and a
  way up to the root.
-/

namespace HybridFtp

/-- The names of the file system can be parts of a path, as those of any real one. -/
def Storage.Named (fs : Storage) : Prop := ∀ l n, fs.node (l ++ [n]) ≠ none → IsName n

theorem Storage.Named.of_mem {fs : Storage} (h : fs.Named) {l : List String} {n : String}
    (hdir : fs.IsDir l) (hn : n ∈ l) : IsName n := by
  obtain ⟨a, b, rfl⟩ := List.append_of_mem hn
  rw [List.append_cons] at hdir
  obtain ⟨_, hnode⟩ := FileSystem.isDir_iff.1 (FileSystem.isDir_of_append hdir)
  exact h a n (by simp [hnode])

namespace PathManager

variable {fs : Storage} {root r : List String}

/-- Where a path leads to a directory inside the root, the path manager goes. -/
theorem changeDirectory_of_isDir {pm : PathManager} {path : String} {l : List String}
    (hpath : (pm.resolvePath path).names = l) (hdir : fs.IsDir l)
    (hinside : pm.rootDirectory <+: l) :
    pm.changeDirectory fs path = (true, { pm with currentDirectory := l, inside := hinside }) := by
  obtain ⟨slash, htarget⟩ : ∃ slash, pm.resolvePath path = { names := l, slash } :=
    ⟨_, NormalPath.ext hpath rfl⟩
  have hfound : fs.resolve true { names := l, slash } = .found l :=
    FileSystem.resolve_isDir hdir slash
  rw [changeDirectory, htarget, if_neg (by simpa [isInsideRoot] using hinside),
    if_neg (by simp [FileSystem.pathExists_iff.2 ⟨l, hfound⟩,
      FileSystem.isDirectory_iff.2 ⟨l, hfound, hdir⟩]), FileSystem.weaklyCanonical_of_found hfound]
  exact dif_pos hinside

/-! ## The way back -/

/-- The path of the current directory has the names below the root for its parts. -/
theorem toPath_getCurrentFTPPath (hnamed : fs.Named) (hdir : fs.IsDir (root ++ r)) :
    toPath (getCurrentFTPPath ⟨root, root ++ r, List.prefix_append root r⟩ fs) =
      { rooted := true, parts := r.map .name } := by
  rw [getCurrentFTPPath]
  rcases eq_or_ne r [] with rfl | hr
  · rw [if_pos (List.append_nil root)]
    decide
  · have hcurrent : fs.resolve true { names := root ++ r } = .found (root ++ r) :=
      FileSystem.resolve_isDir hdir false
    have hroot : fs.resolve true { names := root } = .found root :=
      FileSystem.resolve_isDir (FileSystem.isDir_of_append hdir) false
    have htext : r.map (Part.toString ∘ .name) = r := List.map_id' r
    rw [if_neg (by simpa using hr), FileSystem.relative,
      FileSystem.weaklyCanonical_of_found hcurrent, FileSystem.weaklyCanonical_of_found hroot,
      Option.bind_some, Option.map_some, lexicallyRelative_append root hr]
    simp only [List.map_map, htext]
    exact toPath_of_names fun n hn => hnamed.of_mem hdir (List.mem_append_right root hn)

/-- It leads back, from wherever it is given. -/
theorem changeDirectory_getCurrentFTPPath (hnamed : fs.Named) (hdir : fs.IsDir (root ++ r))
    {pm : PathManager} (hpm : pm.rootDirectory = root) :
    pm.changeDirectory fs (getCurrentFTPPath ⟨root, root ++ r, List.prefix_append root r⟩ fs) =
      (true, ⟨root, root ++ r, List.prefix_append root r⟩) := by
  subst hpm
  have hpath := toPath_getCurrentFTPPath hnamed hdir
  have hne : getCurrentFTPPath ⟨pm.rootDirectory, _, List.prefix_append _ r⟩ fs ≠ "" := by
    intro hempty
    rw [hempty] at hpath
    simp [toPath] at hpath
  have hnames : (pm.resolvePath (getCurrentFTPPath ⟨pm.rootDirectory, _, List.prefix_append _ r⟩
      fs)).names = pm.rootDirectory ++ r := by
    rw [resolvePath, if_neg hne, hpath]
    exact NormalPath.names_join pm.rootDirectory r true false
  exact changeDirectory_of_isDir hnames hdir (List.prefix_append _ r)

/-! ## The way up -/

/-- A step up leads to the parent directory. -/
theorem changeToParentDirectory_append {n : String} (hdir : fs.IsDir (root ++ (r ++ [n]))) :
    changeToParentDirectory ⟨root, root ++ (r ++ [n]), List.prefix_append root _⟩ fs =
      (true, ⟨root, root ++ r, List.prefix_append root r⟩) := by
  rw [← List.append_assoc] at hdir
  have hnames : (resolvePath ⟨root, root ++ (r ++ [n]), List.prefix_append root _⟩ "..").names =
      root ++ r := by
    have hpath : toPath ".." = { parts := [.parent] } := by decide
    rw [resolvePath, if_neg (by decide), hpath]
    simp [NormalPath.join, NormalPath.append, ← List.append_assoc]
  rw [changeToParentDirectory, if_neg (by simp)]
  exact changeDirectory_of_isDir hnames (FileSystem.isDir_of_append hdir)
    (List.prefix_append root r)

/-- `CDUP`, a number of times. -/
def ascend (fs : Storage) : Nat → PathManager → Option PathManager
  | 0, pm => some pm
  | n + 1, pm =>
    match pm.changeToParentDirectory fs with
    | (true, pm) => ascend fs n pm
    | (false, _) => none

/-- Every step up takes the last name away. -/
theorem ascend_append {r' : List String} (hdir : fs.IsDir (root ++ (r ++ r'))) :
    ascend fs r'.length ⟨root, root ++ (r ++ r'), List.prefix_append root _⟩ =
      some ⟨root, root ++ r, List.prefix_append root r⟩ := by
  induction r' using List.reverseRecOn with
  | nil => simp [ascend]
  | append_singleton r' n ih =>
    simp only [← List.append_assoc r] at hdir ⊢
    rw [List.length_append, List.length_singleton, ascend, changeToParentDirectory_append hdir]
    rw [← List.append_assoc] at hdir
    exact ih (FileSystem.isDir_of_append hdir)

end PathManager

/-! ## Every directory on the way -/

/-- `CWD` and `CDUP`. -/
def PathEvent.IsMove : PathEvent → Prop
  | .operation (.changeDirectory _) | .operation .changeToParentDirectory => True
  | .operation (.createDirectory ..) | .operation (.removeDirectory _)
  | .operation (.deleteFile _) | .operation (.renamePath ..) | .others _ => False

/-- How many parts the path of the current directory has. -/
def PathState.depth (s : PathState) : Nat := (toPath (s.pm.getCurrentFTPPath s.fs)).parts.length

/-- The path of the current directory leads back to it from wherever it is given, and `CDUP`
    leads to the root, one part of the path after the other. -/
structure PathState.Retraced (s : PathState) : Prop where
  back : ∀ pm : PathManager, pm.rootDirectory = s.pm.rootDirectory →
    pm.changeDirectory s.fs (s.pm.getCurrentFTPPath s.fs) = (true, s.pm)
  parent : s.pm.currentDirectory ≠ s.pm.rootDirectory →
    ∃ pm, s.pm.changeToParentDirectory s.fs = (true, pm) ∧
      pm.rootDirectory = s.pm.rootDirectory ∧
      pm.currentDirectory = s.pm.currentDirectory.dropLast
  below : ∀ k < s.depth, ∃ pm, s.pm.ascend s.fs k = some pm ∧
    pm.currentDirectory ≠ pm.rootDirectory
  /-- From the root, there is no way up. -/
  top : ∃ pm, s.pm.ascend s.fs s.depth = some pm ∧ pm.rootDirectory = s.pm.rootDirectory ∧
    pm.currentDirectory = s.pm.rootDirectory ∧ pm.changeToParentDirectory s.fs = (false, pm)

theorem PathState.retraced_of_isDir {s : PathState} (hnamed : s.fs.Named)
    (hdir : s.fs.IsDir s.pm.currentDirectory) : s.Retraced := by
  obtain ⟨⟨root, _, r, rfl⟩, fs⟩ := s
  have hdepth : PathState.depth ⟨⟨root, root ++ r, List.prefix_append root r⟩, fs⟩ = r.length := by
    rw [depth, PathManager.toPath_getCurrentFTPPath hnamed hdir, List.length_map]
  refine ⟨fun pm hpm => PathManager.changeDirectory_getCurrentFTPPath hnamed hdir hpm, ?_, ?_, ?_⟩
  · intro hne
    rcases List.eq_nil_or_concat r with rfl | ⟨r, n, rfl⟩
    · exact absurd (List.append_nil root) hne
    · simp only [List.concat_eq_append] at hdir ⊢
      refine ⟨_, PathManager.changeToParentDirectory_append hdir, rfl, ?_⟩
      rw [← List.append_assoc, List.dropLast_concat]
  · intro k hk
    rw [hdepth] at hk
    -- The names that are left, and the ones taken away.
    obtain ⟨r₁, r₂, rfl, hlength⟩ : ∃ r₁ r₂, r = r₁ ++ r₂ ∧ r₂.length = k :=
      ⟨r.take (r.length - k), r.drop (r.length - k), (List.take_append_drop _ r).symm, by
        rw [List.length_drop]
        omega⟩
    subst hlength
    refine ⟨_, PathManager.ascend_append hdir, ?_⟩
    rintro heq
    simp_all
  · rw [hdepth]
    exact ⟨_, PathManager.ascend_append (r := []) hdir, rfl, List.append_nil root,
      if_pos (List.append_nil root)⟩

/-- `CWD` and `CDUP` lead to directories that are there. -/
theorem isDir_of_moves {s t : PathState} (hdir : s.fs.IsDir s.pm.currentDirectory)
    (h : sandbox.Reaches (fun _ e => e.IsMove) s t) :
    t.fs = s.fs ∧ t.fs.IsDir t.pm.currentDirectory := by
  refine h.invariant (I := fun t => t.fs = s.fs ∧ t.fs.IsDir t.pm.currentDirectory) ?_ ⟨rfl, hdir⟩
  rintro t (op | fs) t' ⟨hfs, hdir⟩ hmove hstep
  · obtain rfl : t.operate op = t' := Option.some.inj hstep
    cases op with
    | changeDirectory path =>
      refine ⟨hfs, ?_⟩
      rcases t.pm.changeDirectory_cases t.fs path with heq | ⟨_, hdir'⟩
      · simpa only [PathState.operate, heq] using hdir
      · exact hdir'
    | changeToParentDirectory =>
      refine ⟨hfs, ?_⟩
      rcases t.pm.changeToParentDirectory_cases t.fs with heq | ⟨_, hdir'⟩
      · simpa only [PathState.operate, heq] using hdir
      · exact hdir'
    | createDirectory _ _ | removeDirectory _ | deleteFile _ | renamePath _ _ => exact hmove.elim
  · exact hmove.elim

/-- From a directory that is there, `CWD` and `CDUP` only lead to directories to which their
    path leads back, and from which there is a way up to the root. -/
theorem currentDirectory_retraced {s t : PathState} (hnamed : s.fs.Named)
    (hdir : s.fs.IsDir s.pm.currentDirectory) (h : sandbox.Reaches (fun _ e => e.IsMove) s t) :
    t.Retraced := by
  obtain ⟨hfs, hdir'⟩ := isDir_of_moves hdir h
  exact PathState.retraced_of_isDir (hfs ▸ hnamed) hdir'

/-- A root directory with a link to a directory two levels below it. -/
def releaseStorage : Storage where
  attributes := 0o755
  entries := [("srv", .dir 0o755 [
    ("latest", .link { parts := [.name "pub", .name "v1.2"] }),
    ("pub", .dir 0o755 [("v1.2", .dir 0o755 [])])])]

/-- A path manager that has found that root directory. -/
def released : PathState :=
  let created := PathManager.create 0o755 { names := ["srv"] } releaseStorage
  { pm := created.1, fs := created.2 }

theorem releaseStorage_named : releaseStorage.Named := by
  intro l n h
  -- There are no other entries, on three levels.
  have hmem : n ∈ ["srv", "latest", "pub", "v1.2"] := by
    by_contra hn
    refine h (Option.map_eq_none_iff.2 ?_)
    rw [FileSystem.get, FileSystem.tree, releaseStorage]
    rcases l with _ | ⟨a, _ | ⟨b, _ | ⟨c, l⟩⟩⟩
    · simp_all [Tree.get, Tree.child, Tree.lookup_cons]
    · by_cases ha : a = "srv" <;> simp_all [Tree.get, Tree.child, Tree.lookup_cons]
    · by_cases ha : a = "srv" <;> by_cases hlatest : b = "latest" <;> by_cases hpub : b = "pub" <;>
        simp_all [Tree.get, Tree.child, Tree.lookup_cons]
    · by_cases ha : a = "srv" <;> by_cases hlatest : b = "latest" <;> by_cases hpub : b = "pub" <;>
        by_cases hc : c = "v1.2" <;> cases l <;>
        simp_all [Tree.get, Tree.child, Tree.lookup_cons]
  have hnames : ∀ n ∈ ["srv", "latest", "pub", "v1.2"], IsName n := by decide
  exact hnames n hmem

theorem currentDirectory_retraced_released :
    (released.operate (.changeDirectory "latest")).depth = 2 ∧
      (released.operate (.changeDirectory "latest")).Retraced :=
  ⟨by decide +kernel, currentDirectory_retraced (s := released) releaseStorage_named
    (by decide +kernel) (.tail (e := .operation (.changeDirectory "latest")) .refl trivial rfl)⟩

end HybridFtp
