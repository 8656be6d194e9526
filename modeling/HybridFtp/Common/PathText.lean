import HybridFtp.Common.PathManager

/-!
# Paths and their text

* `IsName`: a name that can be a part of a path;
* `toPath_entry`: a name after the last separator is the last part;
* `toPath_of_names`: names that are joined by separators are the parts again.
-/

namespace HybridFtp

/-- A name that can be a part of a path. -/
structure IsName (n : String) : Prop where
  ne_empty : n ≠ ""
  ne_self : n ≠ "."
  ne_parent : n ≠ ".."
  slash_notMem : '/' ∉ n.toList

instance (n : String) : Decidable (IsName n) :=
  decidable_of_iff (n ≠ "" ∧ n ≠ "." ∧ n ≠ ".." ∧ '/' ∉ n.toList)
    ⟨fun ⟨h₁, h₂, h₃, h₄⟩ => ⟨h₁, h₂, h₃, h₄⟩, fun ⟨h₁, h₂, h₃, h₄⟩ => ⟨h₁, h₂, h₃, h₄⟩⟩

namespace IsName

variable {n : String}

theorem ofString (h : IsName n) : Part.ofString n = .name n := by
  rw [Part.ofString, if_neg h.ne_self, if_neg h.ne_parent]

theorem toList_ne_nil (h : IsName n) : n.toList ≠ [] := by simpa using h.ne_empty

theorem splitOn_slash (h : IsName n) : n.toList.splitOn '/' = [n.toList] :=
  List.splitOn_eq_singleton h.slash_notMem

/-- There is no separator at its end. -/
theorem getLast?_ne (h : IsName n) : n.toList.getLast? ≠ some '/' := fun hlast =>
  h.slash_notMem (List.mem_of_getLast? hlast)

end IsName

/-- The parts of a text. -/
def textParts (text : List Char) : List (Part String) :=
  ((text.splitOn '/').filter (· ≠ [])).map fun part => Part.ofString (String.ofList part)

theorem parts_toPath (s : String) : (toPath s).parts = textParts s.toList := rfl

/-- A text that does not end with a separator has none after its last part. -/
theorem toPath_of_getLast? {s : String} (h : s.toList.getLast? ≠ some '/') :
    toPath s = { rooted := s.toList.head? = some '/', parts := textParts s.toList } := by
  simp [toPath, textParts, h]

/-- A separator at the end adds no part. -/
theorem textParts_append_slash (text : List Char) : textParts (text ++ ['/']) = textParts text := by
  rw [textParts, List.splitOn_append_cons_self, List.splitOn_nil, List.filter_append, textParts]
  simp

theorem textParts_append_name {n : String} (h : IsName n) (text : List Char) :
    textParts (text ++ '/' :: n.toList) = textParts text ++ [.name n] := by
  rw [textParts, List.splitOn_append_cons_self, h.splitOn_slash, List.filter_append,
    List.map_append, textParts, List.filter_cons_of_pos (by simpa using h.ne_empty)]
  simp [h.ofString]

theorem textParts_name {n : String} (h : IsName n) : textParts n.toList = [.name n] := by
  rw [textParts, h.splitOn_slash, List.filter_cons_of_pos (by simpa using h.ne_empty)]
  simp [h.ofString]

/-- A name is its only part. -/
theorem toPath_name {n : String} (h : IsName n) : toPath n = { parts := [.name n] } := by
  have hhead : n.toList.head? ≠ some '/' := fun hhead =>
    h.slash_notMem (List.mem_of_mem_head? hhead)
  rw [toPath_of_getLast? h.getLast?_ne, textParts_name h]
  simp [hhead]

/-- A name after a separator is the last part. -/
theorem toPath_entry {n : String} (h : IsName n) {s : String} {text : List Char}
    (hs : s.toList = text ++ '/' :: n.toList) :
    toPath s =
      { rooted := (text ++ ['/']).head? = some '/', parts := textParts text ++ [.name n] } := by
  have hlast : s.toList.getLast? ≠ some '/' := by
    rw [hs, List.append_cons, List.getLast?_append_of_ne_nil _ h.toList_ne_nil]
    exact h.getLast?_ne
  have hhead : s.toList.head? = (text ++ ['/']).head? := by
    rw [hs]
    cases text <;> rfl
  rw [toPath_of_getLast? hlast, hhead, hs, textParts_append_name h]

/-! ## Joined names -/

/-- The text of names from the root. -/
def rootedText (ns : List String) : List Char := ns.flatMap fun n => '/' :: n.toList

theorem rootedText_concat (ns : List String) (n : String) :
    rootedText (ns ++ [n]) = rootedText ns ++ '/' :: n.toList := by
  rw [rootedText, List.flatMap_append, List.flatMap_singleton, rootedText]

theorem toList_intercalate {ns : List String} (hne : ns ≠ []) :
    ("/" ++ String.intercalate "/" ns).toList = rootedText ns := by
  rw [String.toList_append, String.toList_intercalate]
  induction ns with
  | nil => exact absurd rfl hne
  | cons n ns ih =>
    rcases eq_or_ne ns [] with rfl | hns
    · simp [rootedText]
    · rw [List.map_cons, List.intercalate_cons_of_ne_nil (by simpa using hns), rootedText,
        List.flatMap_cons, ← rootedText, ← ih hns]
      simp

theorem textParts_rootedText {ns : List String} (hns : ∀ n ∈ ns, IsName n) :
    textParts (rootedText ns) = ns.map .name := by
  induction ns using List.reverseRecOn with
  | nil => decide
  | append_singleton ns n ih =>
    rw [rootedText_concat, textParts_append_name (hns n (by simp)),
      ih fun m hm => hns m (List.mem_append_left _ hm), List.map_append, List.map_singleton]

/-- Names from the root are the parts of their path. -/
theorem toPath_of_names {ns : List String} (hns : ∀ n ∈ ns, IsName n) :
    toPath ("/" ++ String.intercalate "/" ns) = { rooted := true, parts := ns.map .name } := by
  rcases List.eq_nil_or_concat ns with rfl | ⟨ns, n, rfl⟩
  · decide
  · rw [List.concat_eq_append] at hns ⊢
    have htext := toList_intercalate (show ns ++ [n] ≠ [] by simp)
    rw [rootedText_concat] at htext
    rw [toPath_entry (hns n (by simp)) htext,
      textParts_rootedText fun m hm => hns m (List.mem_append_left _ hm), List.map_append,
      List.map_singleton]
    cases ns <;> simp [rootedText]

end HybridFtp
