import HybridFtp.Common.Observed
import HybridFtp.Common.UniqueName

/-!
# What the path manager tells of a root directory

The listings, the properties of files and the unique names, on two file systems with the
same tree at the root directory.

* `Lists`: what a listing is about is inside the root, and so is all that its entries
  lead to;
* `TriesInside`: the names that are tried for a unique one are not led out of the root;
* the operations: they tell the same.
-/

namespace HybridFtp

namespace PathManager

variable (pm : PathManager) (fs : Storage)

/-- An entry that is not led out of the root directory. -/
def ShowsInside (entry : NormalPath String) : Prop :=
  fs.ConfinedTo pm.rootDirectory entry ∧
    match fs.resolve true entry with
    | .found l => pm.rootDirectory <+: l
    | .absent .. | .notFound | .notDirectory | .tooManyLinks => True

/-- A path with a listing is not led out of the root directory, nor are the entries of
    the listing. -/
def Lists (path : String) : Prop :=
  match pm.targetOf fs (pm.resolvePath path) with
  | none => True
  | some l =>
    fs.ConfinedTo pm.rootDirectory (pm.resolvePath path) ∧
      ∀ n ∈ fs.names l, pm.ShowsInside fs { names := l ++ [n] }

/-- The names that are tried are not led out of the root directory. -/
def TriesInside (baseName : String) : Prop :=
  ∀ k, (∀ i < k, fs.pathExists (pm.resolvePath (candidate baseName i)) = some true) →
    fs.ConfinedTo pm.rootDirectory (pm.resolvePath (candidate baseName k))

variable {pm fs} {fs' : Storage} {entry : NormalPath String} {path baseName : String}
  {l : List String}

/-! ## The search of a unique name -/

theorem confinedTo_generateUniqueFilename (htries : pm.TriesInside fs baseName) :
    fs.ConfinedTo pm.rootDirectory
      (pm.resolvePath (pm.generateUniqueFilename fs baseName)) := by
  obtain ⟨m, heq, -, hall⟩ := pm.generateUniqueFilename_spec fs baseName
  rw [heq]
  exact htries m hall

/-! ## The properties of a path -/

theorem sees_of_lists (h : pm.Lists fs path) : pm.Sees fs (pm.resolvePath path) := by
  intro hne
  obtain ⟨l, hl⟩ := Option.ne_none_iff_exists'.1 hne
  rw [Lists, hl] at h
  exact h.1

/-- What is inside is shown inside. -/
theorem showsInside_location (hl : fs.resolve true entry = .found l)
    (hroot : pm.rootDirectory <+: l) : pm.ShowsInside fs { names := l } := by
  refine ⟨FileSystem.confinedTo_location (FileSystem.sound_of_resolve hl) hroot, ?_⟩
  rw [FileSystem.resolve_found (FileSystem.sound_of_resolve hl)]
  exact hroot

theorem mapM_congr_left {α β : Type} {f g : α → Option β} {as : List α}
    (h : ∀ a ∈ as, f a = g a) : as.mapM f = as.mapM g := by
  induction as with
  | nil => rfl
  | cons a as ih =>
    rw [List.mapM_cons, List.mapM_cons, h a List.mem_cons_self,
      ih fun b hb => h b (List.mem_cons_of_mem a hb)]

section

variable (h : fs.SameInside pm.rootDirectory fs')
include h

theorem generateUniqueFilename_congr (htries : pm.TriesInside fs baseName) :
    pm.generateUniqueFilename fs' baseName = pm.generateUniqueFilename fs baseName := by
  obtain ⟨m, heq, hfree, hall⟩ := pm.generateUniqueFilename_spec fs baseName
  obtain ⟨m', heq', hfree', hall'⟩ := pm.generateUniqueFilename_spec fs' baseName
  -- The names up to the one that is found are the same on both.
  have hsame : ∀ i ≤ m, fs'.pathExists (pm.resolvePath (candidate baseName i)) =
      fs.pathExists (pm.resolvePath (candidate baseName i)) := fun i hi =>
    h.pathExists (htries i fun j hj => hall j (lt_of_lt_of_le hj hi))
  rw [heq, heq']
  rcases lt_trichotomy m' m with hlt | rfl | hlt
  · rw [hsame m' hlt.le] at hfree'
    exact absurd (hall m' hlt) hfree'
  · rfl
  · have htaken := hall' m hlt
    rw [hsame m le_rfl] at htaken
    exact absurd htaken hfree

/-! ## Listings -/

theorem formatListEntry_congr (hs : pm.ShowsInside fs entry) :
    formatListEntry fs' entry = formatListEntry fs entry := by
  obtain ⟨hp, hshown⟩ := hs
  rw [formatListEntry, formatListEntry, h.resolve true hp]
  dsimp only
  cases hr : fs.resolve true entry with
  | found l =>
    rw [hr] at hshown
    dsimp only
    rw [h.node hshown]
  | absent _ _ | notFound | notDirectory | tooManyLinks => rfl

theorem sortedNames_congr (hroot : pm.rootDirectory <+: l) :
    sortedNames fs' l = sortedNames fs l := by
  rw [sortedNames, sortedNames, h.names hroot]

theorem listDirectory_congr (hs : pm.Lists fs path) (hs' : pm.Lists fs' path) :
    pm.listDirectory fs' path = pm.listDirectory fs path := by
  rw [listDirectory, listDirectory]
  rcases canonicalTarget_cases h (sees_of_lists hs) (sees_of_lists hs') with
    ⟨hnone, hnone'⟩ | ⟨l, hl, hl', hfound, hroot⟩
  · rw [hnone, hnone']
  · rw [Lists, targetOf_eq_some_iff.2 ⟨hfound, hroot⟩] at hs
    have hentries : ∀ n ∈ sortedNames fs l,
        formatListEntry fs' { names := l ++ [n] } = formatListEntry fs { names := l ++ [n] } := by
      intro n hn
      rw [sortedNames, List.mem_mergeSort] at hn
      exact formatListEntry_congr h (hs.2 n hn)
    rw [hl, hl']
    dsimp only
    rw [isRegularFile_location h hfound hroot, isDirectory_location h hfound hroot,
      formatListEntry_congr h (showsInside_location hfound hroot), sortedNames_congr h hroot,
      mapM_congr_left hentries]

theorem listNames_congr (hs : pm.Sees fs (pm.resolvePath path))
    (hs' : pm.Sees fs' (pm.resolvePath path)) : pm.listNames fs' path = pm.listNames fs path := by
  rw [listNames, listNames]
  rcases canonicalTarget_cases h hs hs' with ⟨hnone, hnone'⟩ | ⟨l, hl, hl', hfound, hroot⟩
  · rw [hnone, hnone']
  · rw [hl, hl']
    dsimp only
    rw [isRegularFile_location h hfound hroot, isDirectory_location h hfound hroot,
      sortedNames_congr h hroot]

theorem getStatus_congr (hs : pm.Lists fs path) (hs' : pm.Lists fs' path) :
    pm.getStatus fs' path = pm.getStatus fs path := by
  rw [getStatus, getStatus, listDirectory_congr h hs hs']
  rcases canonicalTarget_cases h (sees_of_lists hs) (sees_of_lists hs') with
    ⟨hnone, hnone'⟩ | ⟨l, hl, hl', hfound, hroot⟩
  · rw [hnone, hnone']
  · rw [hl, hl']
    dsimp only
    rw [isRegularFile_location h hfound hroot, isDirectory_location h hfound hroot]

/-! ## Files -/

theorem regularFile_congr (hs : pm.Sees fs (pm.resolvePath path))
    (hs' : pm.Sees fs' (pm.resolvePath path)) :
    pm.regularFile fs' path = pm.regularFile fs path := by
  rw [regularFile, regularFile]
  rcases canonicalTarget_cases h hs hs' with ⟨hnone, hnone'⟩ | ⟨l, hl, hl', hfound, hroot⟩
  · rw [hnone, hnone']
  · rw [hl, hl']
    dsimp only
    rw [isRegularFile_location h hfound hroot,
      h.fileAt (FileSystem.confinedTo_location (FileSystem.sound_of_resolve hfound) hroot)]

theorem getFileSize_congr (hs : pm.Sees fs (pm.resolvePath path))
    (hs' : pm.Sees fs' (pm.resolvePath path)) :
    pm.getFileSize fs' path = pm.getFileSize fs path := by
  rw [getFileSize, getFileSize, regularFile_congr h hs hs']

theorem getModificationTime_congr (clockSkew : Int) (hs : pm.Sees fs (pm.resolvePath path))
    (hs' : pm.Sees fs' (pm.resolvePath path)) :
    pm.getModificationTime fs' clockSkew path = pm.getModificationTime fs clockSkew path := by
  rw [getModificationTime, getModificationTime, regularFile_congr h hs hs']

/-! ## The current directory -/

theorem getCurrentFTPPath_congr (hcurrent : fs.IsDir pm.currentDirectory) :
    pm.getCurrentFTPPath fs' = pm.getCurrentFTPPath fs := by
  have hcurrent' : fs'.IsDir pm.currentDirectory := (h.isDir_iff (.inr pm.inside)).2 hcurrent
  have hrelative : ∀ {fs : Storage}, fs.IsDir pm.currentDirectory → fs.IsDir pm.rootDirectory →
      fs.relative { names := pm.currentDirectory } { names := pm.rootDirectory } =
        some (lexicallyRelative pm.currentDirectory pm.rootDirectory) := by
    intro fs hcurrent hroot
    exact relative_of_found hcurrent (FileSystem.resolve_isDir hroot false)
  rw [getCurrentFTPPath, getCurrentFTPPath, hrelative hcurrent h.isDir,
    hrelative hcurrent' h.symm.isDir]

end

end PathManager

end HybridFtp
