import HybridFtp.Common.UniqueName

/-!
# The search of a unique name

The loop of `generateUniqueFilename`, which has no bound of its own.

* `Search`: the loop, from a counter and a name to test. It has at most one result
  (`Search.unique`);
* `search_firstUnique`: it ends, if the name that is found is not taken;
* `generateUniqueFilename_least`: the loop ends with the base name, or with the numbered name
  that has the least number.
-/

namespace HybridFtp

namespace PathManager

variable (pm : PathManager) (fs : Storage) (baseName : String)

/-- The name leads to something. -/
def Taken (name : String) : Prop := fs.pathExists (pm.resolvePath name) = some true

/-- The loop, at a counter and a name to test, ends with a result. -/
inductive Search : Nat → String → String → Prop
  | found {counter : Nat} {testName : String} (h : ¬pm.Taken fs testName) :
      Search counter testName testName
  | next {counter : Nat} {testName result : String} (h : pm.Taken fs testName)
      (rest : Search (counter + 1) (numbered baseName counter) result) :
      Search counter testName result

variable {pm fs baseName} {counter : Nat} {testName result result' : String}

/-! ## The loop -/

theorem Search.unique (h : pm.Search fs baseName counter testName result)
    (h' : pm.Search fs baseName counter testName result') : result = result' := by
  induction h with
  | found hfree =>
    cases h' with
    | found => rfl
    | next htaken => exact absurd htaken hfree
  | next htaken _ ih =>
    cases h' with
    | found hfree => exact absurd htaken hfree
    | next _ rest => exact ih rest

/-- The rounds that are tried are rounds of the loop. -/
theorem search_firstUnique {fuel : Nat}
    (h : ¬pm.Taken fs (pm.firstUnique fs baseName fuel counter testName)) :
    pm.Search fs baseName counter testName (pm.firstUnique fs baseName fuel counter testName) := by
  induction fuel generalizing counter testName with
  | zero => exact .found h
  | succ fuel ih =>
    rw [firstUnique] at h ⊢
    split at h
    · rename_i htaken
      rw [if_pos htaken]
      exact .next htaken (ih h)
    · rename_i hfree
      rw [if_neg hfree]
      exact .found hfree

/-- The loop ends, and always with the same name. -/
theorem search_iff : pm.Search fs baseName 1 baseName result ↔
    result = pm.generateUniqueFilename fs baseName := by
  have hends := search_firstUnique (pm.not_exists_generateUniqueFilename fs baseName)
  constructor
  · intro h
    exact h.unique hends
  · rintro rfl
    exact hends

/-! ## What it finds -/

/-- There is no need to try more numbers than there are names in the directory. -/
theorem le_siblings {k : Nat} (hall : ∀ j, 1 ≤ j → j < k → pm.Taken fs (numbered baseName j)) :
    k ≤ siblings fs (pm.resolvePath (numbered baseName 1)) + 1 := by
  obtain ⟨j, hj, hfree⟩ := pm.exists_numbered_not_exists fs baseName 1
  by_contra hlt
  exact hfree (hall (1 + j) (by omega) (by omega))

/-- The loop ends. It finds the base name if that leads to nothing, and otherwise, in the
    directory of the base name, the least number between stem and extension for which the
    name leads to nothing. -/
theorem generateUniqueFilename_least (pm : PathManager) (fs : Storage) (baseName : String) :
    (∀ result, pm.Search fs baseName 1 baseName result ↔
      result = pm.generateUniqueFilename fs baseName) ∧
    ¬pm.Taken fs (pm.generateUniqueFilename fs baseName) ∧
    (¬pm.Taken fs baseName → pm.generateUniqueFilename fs baseName = baseName) ∧
    (pm.Taken fs baseName →
      let dir := (splitPath baseName).1
      let stem := (splitExtension (splitPath baseName).2).1
      let ext := (splitExtension (splitPath baseName).2).2
      ∃ k, 1 ≤ k ∧ k ≤ siblings fs (pm.resolvePath (numbered baseName 1)) + 1 ∧
        pm.generateUniqueFilename fs baseName = numbered baseName k ∧
        toPath (numbered baseName k) =
          { rooted := (toPath dir).rooted
            parts := (toPath dir).parts ++ [.name (stem ++ "_" ++ toString k ++ ext)] } ∧
        ∀ j, 1 ≤ j → j < k → pm.Taken fs (numbered baseName j)) := by
  obtain ⟨m, heq, hfree, hall⟩ := pm.generateUniqueFilename_spec fs baseName
  refine ⟨fun result => search_iff, pm.not_exists_generateUniqueFilename fs baseName, ?_, ?_⟩
  · intro hbase
    cases m with
    | zero => exact heq
    | succ m => exact absurd (hall 0 (Nat.succ_pos m)) hbase
  · intro hbase
    cases m with
    | zero => exact absurd hbase hfree
    | succ m =>
      have htaken : ∀ j, 1 ≤ j → j < m + 1 → pm.Taken fs (numbered baseName j) := by
        intro j hj hlt
        obtain ⟨j, rfl⟩ := Nat.exists_eq_succ_of_ne_zero (Nat.one_le_iff_ne_zero.1 hj)
        exact hall (j + 1) hlt
      exact ⟨m + 1, Nat.succ_pos m, le_siblings htaken, heq, toPath_numbered baseName (m + 1),
        htaken⟩

end PathManager

end HybridFtp
