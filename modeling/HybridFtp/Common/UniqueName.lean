import HybridFtp.Common.Listing
import HybridFtp.Common.PathText
import Mathlib.Data.List.Perm.Subperm

/-!
# Unique names

What `generateUniqueFilename` finds: a name that leads to nothing, since it tries more
names than there are in the directory.

* `toPath_numbered`: a numbered name is in the directory of the base name;
* `resolvePath_numbered`: the numbered names are entries of one directory, a different
  one for each number;
* `not_exists_generateUniqueFilename`: the name that is found leads to nothing;
* `generateUniqueFilename_spec`: it is the first one that does.
-/

namespace HybridFtp

namespace PathManager

variable {pm : PathManager} {fs : Storage} {baseName : String}

/-- The last name of `numbered`. -/
def numberedName (baseName : String) (counter : Nat) : String :=
  (splitExtension (splitPath baseName).2).1 ++ "_" ++ toString counter ++
    (splitExtension (splitPath baseName).2).2

/-- What comes before it. -/
def numberedParent (baseName : String) : String :=
  if (splitPath baseName).1 = "" then ""
  else if (splitPath baseName).1.toList.getLast? = some '/' then (splitPath baseName).1
  else (splitPath baseName).1 ++ "/"

theorem numbered_eq (baseName : String) (counter : Nat) :
    numbered baseName counter = numberedParent baseName ++ numberedName baseName counter := by
  rw [numbered, numberedParent, numberedName]
  generalize splitPath baseName = path
  obtain ⟨dir, filename⟩ := path
  dsimp only
  generalize splitExtension filename = name
  obtain ⟨stem, ext⟩ := name
  dsimp only
  split_ifs
  · rw [String.empty_append]
  · rfl
  · rfl

/-! ## The last name -/

theorem ne_slash_of_mem_splitExtension {filename : String} (h : ∀ c ∈ filename.toList, c ≠ '/') :
    (∀ c ∈ (splitExtension filename).1.toList, c ≠ '/') ∧
      ∀ c ∈ (splitExtension filename).2.toList, c ≠ '/' := by
  rw [splitExtension]
  split_ifs
  · exact ⟨h, by simp⟩
  · simp only [String.toList_ofList]
    refine ⟨fun c hc => h c ?_, fun c hc => ?_⟩
    · exact (List.rdropWhile_prefix _ _).subset (List.dropLast_subset _ hc)
    · rcases List.mem_cons.1 hc with rfl | hc
      · decide
      · exact h c ((List.rtakeWhile_suffix _ _).subset hc)

theorem ne_slash_of_mem_filename {c : Char} (h : c ∈ (splitPath baseName).2.toList) : c ≠ '/' := by
  rw [splitPath, String.toList_ofList] at h
  exact of_decide_eq_true (List.mem_rtakeWhile_imp (p := fun x => decide (x ≠ '/')) h)

theorem ne_slash_of_mem_numberedName {counter : Nat} {c : Char}
    (h : c ∈ (numberedName baseName counter).toList) : c ≠ '/' := by
  have hfilename : ∀ c ∈ (splitPath baseName).2.toList, c ≠ '/' := fun c hc =>
    ne_slash_of_mem_filename hc
  obtain ⟨hstem, hext⟩ := ne_slash_of_mem_splitExtension hfilename
  simp only [numberedName, String.toList_append, List.mem_append] at h
  rcases h with ((h | h) | h) | h
  · exact hstem c h
  · obtain rfl : c = '_' := by simpa using h
    decide
  · rintro rfl
    have hdigit := Nat.isDigit_of_mem_toDigits (by decide) (by decide)
      (show '/' ∈ Nat.toDigits 10 counter by simpa using h)
    exact absurd hdigit (by decide)
  · exact hext c h

theorem mem_numberedName (baseName : String) (counter : Nat) :
    '_' ∈ (numberedName baseName counter).toList := by
  simp [numberedName]

theorem isName_numberedName (baseName : String) (counter : Nat) :
    IsName (numberedName baseName counter) where
  ne_empty h := by simpa [h] using mem_numberedName baseName counter
  ne_self h := by simpa [h] using mem_numberedName baseName counter
  ne_parent h := by simpa [h] using mem_numberedName baseName counter
  slash_notMem h := ne_slash_of_mem_numberedName h rfl

theorem numberedName_injective (baseName : String) :
    Function.Injective (numberedName baseName) := by
  intro counter counter' h
  have hlist := congrArg String.toList h
  simp only [numberedName, String.toList_append, List.append_cancel_right_eq,
    List.append_cancel_left_eq] at hlist
  have hdigits : Nat.toDigits 10 counter = Nat.toDigits 10 counter' := by simpa using hlist
  rw [← Nat.ofDigitChars_toDigits (b := 10) (n := counter) (by decide) (by decide), hdigits,
    Nat.ofDigitChars_toDigits (by decide) (by decide)]

/-! ## The path -/

/-- What comes before the last name is the directory, with one separator after it. -/
theorem exists_numberedParent (h : (splitPath baseName).1 ≠ "") :
    ∃ text, (numberedParent baseName).toList = text ++ ['/'] ∧
      textParts text = (toPath (splitPath baseName).1).parts ∧
      decide ((text ++ ['/']).head? = some '/') = (toPath (splitPath baseName).1).rooted := by
  rw [numberedParent, if_neg h]
  split_ifs with hlast
  · obtain ⟨text, htext⟩ := List.getLast?_eq_some_iff.1 hlast
    refine ⟨text, htext, ?_, by rw [toPath, htext]⟩
    rw [parts_toPath, htext, textParts_append_slash]
  · refine ⟨(splitPath baseName).1.toList, by simp, (parts_toPath _).symm, ?_⟩
    obtain ⟨c, rest, hcons⟩ := List.exists_cons_of_ne_nil (show (splitPath baseName).1.toList ≠ []
      by simpa using h)
    rw [toPath, hcons]
    rfl

/-- A numbered name is a name, in the directory of the base name. -/
theorem toPath_numbered (baseName : String) (counter : Nat) :
    toPath (numbered baseName counter) =
      { rooted := (toPath (splitPath baseName).1).rooted
        parts := (toPath (splitPath baseName).1).parts ++
          [.name (numberedName baseName counter)] } := by
  have hname := isName_numberedName baseName counter
  rcases eq_or_ne (splitPath baseName).1 "" with hdir | hdir
  · rw [numbered_eq, numberedParent, if_pos hdir, String.empty_append, toPath_name hname, hdir]
    simp [toPath]
  · obtain ⟨text, htext, hparts, hrooted⟩ := exists_numberedParent hdir
    have hlist : (numbered baseName counter).toList =
        text ++ '/' :: (numberedName baseName counter).toList := by
      rw [numbered_eq, String.toList_append, htext, List.append_assoc]
      rfl
    rw [toPath_entry hname hlist, hparts, hrooted]

/-- The numbered names are entries of one directory. -/
theorem resolvePath_numbered (pm : PathManager) (baseName : String) : ∃ d, ∀ counter,
    pm.resolvePath (numbered baseName counter) =
      { names := d ++ [numberedName baseName counter] } := by
  refine ⟨((toPath (splitPath baseName).1).parts.foldl NormalPath.append
    { names := if (toPath (splitPath baseName).1).rooted then pm.rootDirectory
        else pm.currentDirectory }).names, fun counter => ?_⟩
  have hpath := toPath_numbered baseName counter
  have hne : numbered baseName counter ≠ "" := by
    intro hempty
    rw [hempty] at hpath
    simp [toPath] at hpath
  rw [resolvePath, if_neg hne, hpath, NormalPath.join]
  simp [NormalPath.append]

/-! ## The search -/

/-- The names that are tried for `baseName`, in order. -/
def candidate (baseName : String) : Nat → String
  | 0 => baseName
  | k + 1 => numbered baseName (k + 1)

/-- If the search ends with a name that leads to something, so do all that it has
    tried. -/
theorem exists_of_firstUnique {fuel counter : Nat} {testName : String}
    (h : fs.pathExists (pm.resolvePath (pm.firstUnique fs baseName fuel counter testName)) =
      some true) :
    fs.pathExists (pm.resolvePath testName) = some true ∧ ∀ k < fuel,
      fs.pathExists (pm.resolvePath (numbered baseName (counter + k))) = some true := by
  induction fuel generalizing counter testName with
  | zero => exact ⟨h, fun k hk => absurd hk (Nat.not_lt_zero k)⟩
  | succ fuel ih =>
    rw [firstUnique] at h
    split at h
    · rename_i htest
      obtain ⟨hfirst, hrest⟩ := ih h
      refine ⟨htest, fun k hk => ?_⟩
      cases k with
      | zero => exact hfirst
      | succ k =>
        have hnext := hrest k (by omega)
        rwa [show counter + 1 + k = counter + (k + 1) by omega] at hnext
    · rename_i htest
      exact absurd h htest

/-- There are not more names in a directory than there are siblings in it. -/
theorem exists_numbered_not_exists (pm : PathManager) (fs : Storage) (baseName : String)
    (counter : Nat) :
    ∃ k < siblings fs (pm.resolvePath (numbered baseName counter)) + 1,
      fs.pathExists (pm.resolvePath (numbered baseName (counter + k))) ≠ some true := by
  obtain ⟨d, hd⟩ := pm.resolvePath_numbered baseName
  by_contra hall
  push Not at hall
  simp only [hd, siblings, List.dropLast_concat] at hall
  -- The first of them is found in a directory.
  obtain ⟨l₀, hl₀⟩ := FileSystem.pathExists_iff.1 (hall 0 (Nat.succ_pos _))
  obtain ⟨l, hl, -⟩ := FileSystem.exists_leadsTo_of_found hl₀
  rw [hl.1] at hall
  dsimp only at hall
  -- And so are all the others.
  have hmem : ∀ k < (fs.names l).length + 1, numberedName baseName (counter + k) ∈ fs.names l := by
    intro k hk
    obtain ⟨l', hl'⟩ := FileSystem.pathExists_iff.1 (hall k hk)
    obtain ⟨l₁, hl₁, hnode⟩ := FileSystem.exists_leadsTo_of_found hl'
    obtain rfl : l = l₁ := by
      have heq := hl.1.symm.trans hl₁.1
      cases heq
      rfl
    exact FileSystem.mem_names_of_node hnode
  have hnodup : ((List.range ((fs.names l).length + 1)).map
      fun k => numberedName baseName (counter + k)).Nodup := by
    refine List.Nodup.map (fun k k' hk => ?_) List.nodup_range
    have heq := numberedName_injective baseName hk
    omega
  have hsubset : ((List.range ((fs.names l).length + 1)).map
      fun k => numberedName baseName (counter + k)) ⊆ fs.names l := by
    intro name hname
    obtain ⟨k, hk, rfl⟩ := List.mem_map.1 hname
    exact hmem k (List.mem_range.1 hk)
  have hle := (List.subperm_of_subset hnodup hsubset).length_le
  simp at hle

/-- The name that is found leads to nothing. -/
theorem not_exists_generateUniqueFilename (pm : PathManager) (fs : Storage) (baseName : String) :
    fs.pathExists (pm.resolvePath (pm.generateUniqueFilename fs baseName)) ≠ some true := by
  intro h
  obtain ⟨-, hall⟩ := exists_of_firstUnique h
  obtain ⟨k, hk, hne⟩ := pm.exists_numbered_not_exists fs baseName 1
  exact hne (hall k hk)

/-- The search tries one name after the other, as long as they are taken. -/
theorem firstUnique_spec (pm : PathManager) (fs : Storage) (baseName : String) (fuel k : Nat) :
    ∃ m, k ≤ m ∧
      pm.firstUnique fs baseName fuel (k + 1) (candidate baseName k) = candidate baseName m ∧
        ∀ i, k ≤ i → i < m →
          fs.pathExists (pm.resolvePath (candidate baseName i)) = some true := by
  induction fuel generalizing k with
  | zero => exact ⟨k, le_rfl, rfl, fun i hk hi => absurd hi (by omega)⟩
  | succ fuel ih =>
    rw [firstUnique]
    split
    · rename_i htaken
      obtain ⟨m, hm, heq, hall⟩ := ih (k + 1)
      refine ⟨m, by omega, heq, fun i hk hi => ?_⟩
      rcases Nat.eq_or_lt_of_le hk with rfl | hk
      · exact htaken
      · exact hall i hk hi
    · exact ⟨k, le_rfl, rfl, fun i hk hi => absurd hi (by omega)⟩

/-- The name that is found is the first one that leads to nothing. -/
theorem generateUniqueFilename_spec (pm : PathManager) (fs : Storage) (baseName : String) :
    ∃ m, pm.generateUniqueFilename fs baseName = candidate baseName m ∧
      fs.pathExists (pm.resolvePath (candidate baseName m)) ≠ some true ∧
        ∀ i < m, fs.pathExists (pm.resolvePath (candidate baseName i)) = some true := by
  have hfree := pm.not_exists_generateUniqueFilename fs baseName
  obtain ⟨m, -, heq, hall⟩ := pm.firstUnique_spec fs baseName
    (siblings fs (pm.resolvePath (numbered baseName 1)) + 1) 0
  refine ⟨m, heq, ?_, fun i hi => hall i (Nat.zero_le i) hi⟩
  rw [generateUniqueFilename] at hfree
  rwa [← heq]

end PathManager

end HybridFtp
