import Mathlib.Data.List.Perm.Subperm

/-!
# First fit

What is taken first in a table of slots, and in a row of numbers.

* `exists_countP_replaceF`: replacing the first element of a kind changes how many elements
  have a property by the one that is replaced and the one that replaces it;
* `lowestFree`: the lowest number that is not in use (`lowestFree_notMem`).
-/

namespace HybridFtp

variable {α : Type*}

/-- One element is replaced by one, the first for which there is a replacement. -/
theorem exists_countP_replaceF {p : α → Option α} {l : List α} (h : ∃ a ∈ l, (p a).isSome) :
    ∃ a a', l.find? (fun b => (p b).isSome) = some a ∧ p a = some a' ∧ ∀ q : α → Bool,
      (l.replaceF p).countP q + (if q a then 1 else 0) = l.countP q + if q a' then 1 else 0 := by
  obtain ⟨b, hb, hsome⟩ := h
  obtain ⟨b', hb'⟩ := Option.isSome_iff_exists.1 hsome
  obtain ⟨a, a', l₁, l₂, hnone, ha, hl, hreplace⟩ := List.exists_of_replaceF hb hb'
  refine ⟨a, a', ?_, ha, fun q => ?_⟩
  · rw [hl, List.find?_append, List.find?_eq_none.2 fun b hb => by simp [hnone b hb]]
    simp [ha]
  · rw [hreplace, hl, List.countP_append, List.countP_append, List.countP_cons, List.countP_cons]
    omega

/-- The lowest number that is not in use. -/
def lowestFree (used : List Nat) : Nat :=
  ((List.range (used.length + 1)).find? (· ∉ used)).getD used.length

theorem lowestFree_notMem (used : List Nat) : lowestFree used ∉ used := by
  rw [lowestFree]
  cases h : (List.range (used.length + 1)).find? (· ∉ used) with
  | some n => simpa using List.find?_some h
  | none =>
    -- There are not as many numbers in use as there are to choose from.
    have hsubset : List.range (used.length + 1) ⊆ used := fun n hn => by
      simpa using List.find?_eq_none.1 h n hn
    have hle := (List.subperm_of_subset List.nodup_range hsubset).length_le
    rw [List.length_range] at hle
    omega

end HybridFtp
