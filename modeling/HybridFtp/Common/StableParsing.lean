import HybridFtp.Common.CommandParts

/-!
# Stable parsing

What the parser of commands finds in a line does not depend on how the line is written.

* `CommandParts.withWord`, `written`, `padded`: the same command, written differently;
* `Located`: where the command word and the argument are in a line;
* `parse_stable`: more blanks at the ends, another case of the command word, and the
  result written out as a line make no difference.
-/

namespace HybridFtp

namespace CommandParser

/-- The same line with the command word in another case. -/
def CommandParts.withWord (p : CommandParts) (word : List Char)
    (h : word.map Char.toUpper = p.word.map Char.toUpper) : CommandParts :=
  { p with
    word
    word_ne_nil := by
      rintro rfl
      exact p.word_ne_nil (List.map_eq_nil_iff.1 h.symm)
    word_name := fun c hc => by
      have hmem : c.toUpper ∈ p.word.map Char.toUpper := h ▸ List.mem_map_of_mem hc
      obtain ⟨d, hd, heq⟩ := List.mem_map.1 hmem
      rw [isSeparator_of_toUpper heq.symm, p.word_name d hd]
    word_head := fun c hc => by
      have hhead := congrArg List.head? h
      rw [List.head?_map, List.head?_map, hc] at hhead
      obtain ⟨d, hd, heq⟩ := Option.map_eq_some_iff.1 hhead.symm
      rw [← isBlank_toUpper, ← heq, isBlank_toUpper, p.word_head d hd]
    word_last := fun harg => ⟨(p.word_last harg).1, fun c hc => by
      have hlast := congrArg List.getLast? h
      rw [List.getLast?_map, List.getLast?_map, hc] at hlast
      obtain ⟨d, hd, heq⟩ := Option.map_eq_some_iff.1 hlast.symm
      rw [← isBlank_toUpper, ← heq, isBlank_toUpper, (p.word_last harg).2 d hd]⟩ }

theorem map_toUpper_toUpper (word : List Char) :
    (word.map Char.toUpper).map Char.toUpper = word.map Char.toUpper := by
  rw [List.map_map]
  exact List.map_congr_left fun c _ => toUpper_toUpper c

/-- The command of the line, written out as one. -/
def CommandParts.written (p : CommandParts) : CommandParts :=
  { p.withWord (p.word.map Char.toUpper) (map_toUpper_toUpper p.word) with
    before := []
    gap := if p.argument = [] then [] else [' ']
    after := []
    before_blank := List.forall_mem_nil _
    gap_blank := by split_ifs <;> simp [isBlank]
    after_blank := List.forall_mem_nil _
    word_last := fun h => ⟨if_pos h,
      ((p.withWord (p.word.map Char.toUpper) (map_toUpper_toUpper p.word)).word_last h).2⟩
    gap_head := fun h => ⟨' ', [], if_neg h, rfl⟩ }

/-- The line with more blanks around it. -/
def CommandParts.padded (p : CommandParts) (before after : List Char)
    (hbefore : ∀ c ∈ before, isBlank c = true) (hafter : ∀ c ∈ after, isBlank c = true) :
    CommandParts :=
  { p with
    before := before ++ p.before
    after := p.after ++ after
    before_blank := fun c hc => (List.mem_append.1 hc).elim (hbefore c) (p.before_blank c)
    after_blank := fun c hc => (List.mem_append.1 hc).elim (p.after_blank c) (hafter c) }

/-! ## Stability -/

theorem parse_padded {before after : String} (hbefore : ∀ c ∈ before.toList, isBlank c = true)
    (hafter : ∀ c ∈ after.toList, isBlank c = true) (input : String) :
    parse (before ++ input ++ after) = parse input := by
  rcases parse_cases input with ⟨hblank, heq⟩ | ⟨p, rfl, heq⟩
  · rw [heq]
    refine parse_of_blank fun c hc => ?_
    rw [String.toList_append, String.toList_append] at hc
    rcases List.mem_append.1 hc with hc | hc
    · exact (List.mem_append.1 hc).elim (hbefore c) (hblank c)
    · exact hafter c hc
  · have htext : before ++ String.ofList p.text ++ after =
        String.ofList (p.padded before.toList after.toList hbefore hafter).text := by
      rw [← String.toList_inj]
      simp [CommandParts.text, CommandParts.padded]
    rw [heq, htext, CommandParts.parse_text]
    rfl

/-- The result, written out as a line. -/
def ParsedCommand.line (command : ParsedCommand) : String :=
  if command.argument = "" then command.name else command.name ++ " " ++ command.argument

theorem parse_line (input : String) : parse (ParsedCommand.line (parse input)) = parse input := by
  rcases parse_cases input with ⟨-, heq⟩ | ⟨p, -, heq⟩
  · rw [heq]
    rfl
  · have htext : ParsedCommand.line p.command = String.ofList p.written.text := by
      rw [← String.toList_inj, ParsedCommand.line]
      by_cases harg : p.argument = []
      · simp [CommandParts.command, CommandParts.text, CommandParts.written,
          CommandParts.withWord, toUpper, harg]
      · simp [CommandParts.command, CommandParts.text, CommandParts.written,
          CommandParts.withWord, toUpper, harg]
    have hcommand : p.written.command = p.command := by
      rw [CommandParts.command, CommandParts.command, toUpper, toUpper, String.toList_ofList,
        String.toList_ofList]
      exact congrArg (fun word => ({ name := String.ofList word, argument := _, valid := true } :
        ParsedCommand)) (map_toUpper_toUpper p.word)
    rw [heq, htext, p.written.parse_text, hcommand]

namespace CommandParts

variable (p : CommandParts)

theorem ofList_text : String.ofList p.text = String.ofList p.before ++ String.ofList p.word ++
    String.ofList p.gap ++ String.ofList p.argument ++ String.ofList p.after := by
  simp only [text, String.ofList_append]

theorem toUpper_name : toUpper p.command.name = p.command.name := by
  rw [command, toUpper, toUpper, String.toList_ofList, String.toList_ofList, map_toUpper_toUpper]

theorem ne_separator_of_mem_name {c : Char} (hc : c ∈ p.command.name.toList) :
    c ≠ ' ' ∧ c ≠ '\t' := by
  rw [command, toUpper, String.toList_ofList, String.toList_ofList] at hc
  have hname := (p.withWord _ (map_toUpper_toUpper p.word)).word_name c hc
  simpa [isSeparator] using hname

/-- The command word may be in another case. -/
theorem parse_withWord {word : String} (h : toUpper word = toUpper (String.ofList p.word)) :
    parse (String.ofList p.before ++ word ++ String.ofList p.gap ++ String.ofList p.argument ++
      String.ofList p.after) = p.command := by
  have hmap : word.toList.map Char.toUpper = p.word.map Char.toUpper := by
    rwa [toUpper, toUpper, String.ofList_inj, String.toList_ofList] at h
  have hparse := (p.withWord word.toList hmap).parse_text
  rw [ofList_text] at hparse
  have hcommand : (p.withWord word.toList hmap).command =
      { name := toUpper (String.ofList word.toList), argument := String.ofList p.argument,
        valid := true } := rfl
  rw [hcommand, String.ofList_toList, h] at hparse
  rw [← String.ofList_toList (s := word)]
  exact hparse

end CommandParts

/-- Where a command is in a line: its word begins at the first character that is not blank,
    has no separator in it, and ends at the first separator, or with the command. -/
structure Located (input : String) (command : ParsedCommand) (before word gap after : String) :
    Prop where
  text : input = before ++ word ++ gap ++ command.argument ++ after
  before_blank : ∀ c ∈ before.toList, isBlank c = true
  gap_blank : ∀ c ∈ gap.toList, isBlank c = true
  after_blank : ∀ c ∈ after.toList, isBlank c = true
  word_head : ∀ c ∈ word.toList.head?, isBlank c = false
  word_name : ∀ c ∈ word.toList, c ≠ ' ' ∧ c ≠ '\t'
  gap_head : command.argument ≠ "" → ∃ c ∈ gap.toList.head?, c = ' ' ∨ c = '\t'
  gap_empty : command.argument = "" → gap = ""
  name : command.name = toUpper word

theorem CommandParts.located (p : CommandParts) :
    Located (String.ofList p.text) p.command (String.ofList p.before) (String.ofList p.word)
      (String.ofList p.gap) (String.ofList p.after) where
  text := p.ofList_text
  before_blank := by simpa using p.before_blank
  gap_blank := by simpa using p.gap_blank
  after_blank := by simpa using p.after_blank
  word_head := by simpa using p.word_head
  word_name := fun c hc => by
    rw [String.toList_ofList] at hc
    simpa [isSeparator] using p.word_name c hc
  gap_head := fun hne => by
    have hargument : p.argument ≠ [] := by
      rintro hnil
      rw [command, hnil] at hne
      exact hne rfl
    obtain ⟨c, rest, hgap, hc⟩ := p.gap_head hargument
    rw [String.toList_ofList, hgap]
    exact ⟨c, rfl, by simpa [isSeparator] using hc⟩
  gap_empty := fun hempty => by
    have hargument : p.argument = [] := by
      have hnil := congrArg String.toList hempty
      rwa [command, String.toList_ofList] at hnil
    rw [(p.word_last hargument).1]
  name := rfl

end CommandParser

end HybridFtp
