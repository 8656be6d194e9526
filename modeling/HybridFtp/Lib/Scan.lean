import Mathlib.Data.List.Basic
import Mathlib.Tactic.Ring

/-!
# Scanning

What the standard library does with text, in the C locale: the words of an
`istringstream`, and the numbers of `sscanf`. Texts are lists of characters.
-/

namespace HybridFtp

namespace Elements

/-- What holds of all elements is tested one by one, even if the type is finite. -/
scoped instance (priority := high) decidableForallList {α : Type*} (p : α → Prop)
    [DecidablePred p] (l : List α) : Decidable (∀ a ∈ l, p a) := List.decidableBAll p l

scoped instance (priority := high) decidableForallOption {α : Type*} (p : α → Prop)
    [DecidablePred p] (o : Option α) : Decidable (∀ a ∈ o, p a) :=
  match o with
  | none => .isTrue fun _ h => nomatch h
  | some a => decidable_of_iff (p a) ⟨fun h _ heq => Option.some.inj heq ▸ h, fun h => h a rfl⟩

end Elements

/-! ## Parts of a text -/

/-- A part of a text, up to where something else starts. -/
theorem span_append {α : Type*} {p : α → Bool} {part rest : List α} (hpart : ∀ a ∈ part, p a = true)
    (hrest : ∀ a ∈ rest.head?, p a = false) :
    (part ++ rest).takeWhile p = part ∧ (part ++ rest).dropWhile p = rest := by
  rw [List.takeWhile_append_of_pos hpart, List.dropWhile_append_of_pos hpart]
  cases rest with
  | nil => simp
  | cons a rest =>
    have ha : p a = false := hrest a rfl
    simp [ha]

theorem head?_dropWhile {α : Type*} (p : α → Bool) (text : List α) :
    ∀ a ∈ (text.dropWhile p).head?, p a = false := by
  intro a ha
  have hnot := List.head?_dropWhile_not p text
  rw [ha] at hnot
  exact hnot

/-! ## Words -/

/-- `isspace` -/
def isSpace (c : Char) : Bool := c = ' ' ∨ 9 ≤ c.toNat ∧ c.toNat ≤ 13

/-- The words of a text, as `>>` finds them one after the other. -/
def words (text : List Char) : List (List Char) := (text.splitOnP isSpace).filter (· ≠ [])

section

variable {text w rest s : List Char} {c : Char} {ws : List (List Char)}

@[simp] theorem words_nil : words [] = [] := by decide

/-- Space separates words. -/
theorem words_append_cons (hc : isSpace c = true) (text rest : List Char) :
    words (text ++ c :: rest) = words text ++ words rest := by
  rw [words, List.splitOnP_append_cons text rest hc, List.filter_append, words, words]

theorem words_cons (hc : isSpace c = true) (rest : List Char) : words (c :: rest) = words rest := by
  simpa using words_append_cons hc [] rest

theorem words_of_space_append (hs : ∀ c ∈ s, isSpace c = true) (rest : List Char) :
    words (s ++ rest) = words rest := by
  induction s with
  | nil => rfl
  | cons c s ih =>
    rw [List.cons_append, words_cons (hs c List.mem_cons_self)]
    exact ih fun c hc => hs c (List.mem_cons_of_mem _ hc)

theorem words_append_of_space (hs : ∀ c ∈ s, isSpace c = true) (text : List Char) :
    words (text ++ s) = words text := by
  cases s with
  | nil => rw [List.append_nil]
  | cons c s =>
    have hempty : words s = [] := by
      simpa using words_of_space_append (fun c hc => hs c (List.mem_cons_of_mem _ hc)) []
    rw [words_append_cons (hs c List.mem_cons_self), hempty, List.append_nil]

/-- A word, up to the space after it. -/
theorem words_append_of_head (hw : w ≠ []) (hns : ∀ c ∈ w, isSpace c = false)
    (hrest : ∀ c ∈ rest.head?, isSpace c = true) : words (w ++ rest) = w :: words rest := by
  have hsingle : words w = [w] := by
    rw [words, List.splitOnP_eq_singleton hns]
    simp [hw]
  cases rest with
  | nil => rw [List.append_nil, hsingle, words_nil]
  | cons c rest =>
    have hc := hrest c rfl
    rw [words_append_cons hc, hsingle, words_cons hc]
    rfl

/-- Up to the first space. -/
theorem exists_word (text : List Char) : ∃ w rest, text = w ++ rest ∧
    (∀ c ∈ w, isSpace c = false) ∧ ∀ c ∈ rest.head?, isSpace c = true := by
  induction text with
  | nil => exact ⟨[], [], rfl, by simp, by simp⟩
  | cons c text ih =>
    by_cases hc : isSpace c = true
    · exact ⟨[], c :: text, rfl, by simp, by simpa using hc⟩
    · obtain ⟨w, rest, rfl, hw, hrest⟩ := ih
      refine ⟨c :: w, rest, rfl, fun d hd => ?_, hrest⟩
      rcases List.mem_cons.1 hd with rfl | hd
      · exact Bool.not_eq_true _ ▸ hc
      · exact hw d hd

/-- Characters without space are a word, or the start of one. -/
theorem words_append (hw : w ≠ []) (hns : ∀ c ∈ w, isSpace c = false) (rest : List Char) :
    ∃ u ws, words (w ++ rest) = (w ++ u) :: ws := by
  obtain ⟨u, rest, rfl, hu, hrest⟩ := exists_word rest
  refine ⟨u, words rest, ?_⟩
  rw [← List.append_assoc]
  exact words_append_of_head (by simp [hw])
    (fun c hc => (List.mem_append.1 hc).elim (hns c) (hu c)) hrest

/-- Without words, there is space only. -/
theorem isSpace_of_words_nil (h : words text = []) : ∀ c ∈ text, isSpace c = true := by
  induction text with
  | nil => exact List.forall_mem_nil _
  | cons c text ih =>
    by_cases hc : isSpace c = true
    · rw [words_cons hc] at h
      exact List.forall_mem_cons.2 ⟨hc, ih h⟩
    · obtain ⟨u, ws, hwords⟩ := words_append (List.cons_ne_nil c [])
        (List.forall_mem_singleton.2 (Bool.not_eq_true _ ▸ hc)) text
      rw [List.singleton_append, h] at hwords
      cases hwords

/-- Where the first word is. -/
theorem exists_of_words (h : words text = w :: ws) :
    ∃ s rest, text = s ++ w ++ rest ∧ (∀ c ∈ s, isSpace c = true) ∧ w ≠ [] ∧
      (∀ c ∈ w, isSpace c = false) ∧ (∀ c ∈ rest.head?, isSpace c = true) ∧ words rest = ws := by
  induction text with
  | nil =>
    rw [words_nil] at h
    cases h
  | cons c text ih =>
    by_cases hc : isSpace c = true
    · rw [words_cons hc] at h
      obtain ⟨s, rest, rfl, hs, hw⟩ := ih h
      refine ⟨c :: s, rest, rfl, fun d hd => ?_, hw⟩
      rcases List.mem_cons.1 hd with rfl | hd
      · exact hc
      · exact hs d hd
    · obtain ⟨w', rest, heq, hw', hrest⟩ := exists_word (c :: text)
      have hne : w' ≠ [] := by
        rintro rfl
        rw [List.nil_append] at heq
        exact hc (hrest c (by rw [← heq]; rfl))
      rw [heq, words_append_of_head hne hw' hrest] at h
      obtain ⟨rfl, rfl⟩ := List.cons.inj h
      exact ⟨[], rest, heq, by simp, hne, hw', hrest, rfl⟩

end

/-! ## Numbers -/

/-- The number of a list of decimal digits. -/
def decimal (digits : List Char) : Nat :=
  digits.foldl (fun value c => 10 * value + (c.toNat - '0'.toNat)) 0

/-- `%u` of `sscanf`, and what follows: the number may have a sign, is taken modulo
    `2 ^ 64` if it is not beyond, and is truncated. -/
def scanUnsigned (text : List Char) : Option (UInt32 × List Char) :=
  let text := text.dropWhile isSpace
  let negative := text.head? = some '-'
  let text := if negative ∨ text.head? = some '+' then text.tail else text
  let digits := text.takeWhile Char.isDigit
  if digits = [] then none
  else
    let value := decimal digits
    let value :=
      if value ≥ 2 ^ 64 then 2 ^ 64 - 1 else if negative then (2 ^ 64 - value) % 2 ^ 64 else value
    some (UInt32.ofNat value, text.dropWhile Char.isDigit)

/-- `%u,%u` and so on: `count + 1` numbers with commas between them, and what follows. -/
def scanNumbers : Nat → List Char → Option (List UInt32 × List Char)
  | 0, text => (scanUnsigned text).map fun (value, rest) => ([value], rest)
  | count + 1, text =>
    match scanUnsigned text with
    | some (value, ',' :: rest) =>
      (scanNumbers count rest).map fun (values, rest) => (value :: values, rest)
    | _ => none

example : scanNumbers 2 "1,+2, -3x".toList = some ([1, 2, 4294967293], ['x']) := by decide +kernel

end HybridFtp
