import HybridFtp.Common.CommandParser
import HybridFtp.Lib.Scan
import Mathlib.Data.List.TakeWhile

/-!
# Commands in lines

Where the parser of commands finds the name and the argument.

* `trim_spec`, `trim_of_ends`: what is left between blanks;
* `CommandParts`: a command in a line, with the blanks around its name and its argument;
* `parse_text`, `exists_parts`: what is parsed of a line with a command, and every line
  that is not blank is one;
* `parse_cases`: what any line is parsed to.
-/

namespace HybridFtp

namespace CommandParser

/-! ## Both ends of a text -/

/-- What is left between blanks. -/
theorem trim_spec (text : String) : ∃ before after, text.toList = before ++ (trim text).toList ++ after ∧
    (∀ c ∈ before, isBlank c = true) ∧ (∀ c ∈ after, isBlank c = true) ∧
    ∀ c ∈ (trim text).toList.head?, isBlank c = false := by
  rw [trim, String.toList_ofList]
  refine ⟨text.toList.takeWhile isBlank, (text.toList.dropWhile isBlank).rtakeWhile isBlank, ?_,
    fun c hc => List.mem_takeWhile_imp hc, fun c hc => List.mem_rtakeWhile_imp hc, fun c hc => ?_⟩
  · rw [List.append_assoc, List.rdropWhile_append_rtakeWhile, List.takeWhile_append_dropWhile]
  · obtain ⟨after, hafter⟩ := List.rdropWhile_prefix isBlank (text.toList.dropWhile isBlank)
    refine head?_dropWhile isBlank text.toList c ?_
    rw [← hafter, List.head?_append, hc]
    rfl

/-- What is between blanks. -/
theorem trim_of_ends {before text after : List Char} (hbefore : ∀ c ∈ before, isBlank c = true)
    (hafter : ∀ c ∈ after, isBlank c = true) (hhead : ∀ c ∈ text.head?, isBlank c = false)
    (hlast : ∀ c ∈ text.getLast?, isBlank c = false) :
    trim (String.ofList (before ++ text ++ after)) = String.ofList text := by
  rw [trim, String.toList_ofList, List.append_assoc, List.dropWhile_append_of_pos hbefore]
  cases text with
  | nil => rw [List.nil_append, List.dropWhile_eq_nil_iff.2 hafter, List.rdropWhile_nil]
  | cons c text =>
    have hc : isBlank c = false := hhead c rfl
    have hafter' : ∀ c ∈ after.reverse, isBlank c = true := fun c hc =>
      hafter c (List.mem_reverse.1 hc)
    rw [List.cons_append, List.dropWhile_cons_of_neg (by rw [hc]; decide), ← List.cons_append,
      List.rdropWhile, List.reverse_append, List.dropWhile_append_of_pos hafter']
    congr 1
    rw [← List.rdropWhile, List.rdropWhile_eq_self_iff]
    intro hne
    rw [hlast _ (List.getLast?_eq_some_getLast hne)]
    decide

/-- A text is blank, or there is something between its blanks. -/
theorem exists_ends (text : List Char) : (∀ c ∈ text, isBlank c = true) ∨
    ∃ before inner after, text = before ++ inner ++ after ∧ (∀ c ∈ before, isBlank c = true) ∧
      (∀ c ∈ after, isBlank c = true) ∧ inner ≠ [] ∧ (∀ c ∈ inner.head?, isBlank c = false) ∧
      ∀ c ∈ inner.getLast?, isBlank c = false := by
  obtain ⟨before, after, htext, hbefore, hafter, hhead⟩ := trim_spec (String.ofList text)
  rw [String.toList_ofList] at htext
  have hlast : ∀ c ∈ (trim (String.ofList text)).toList.getLast?, isBlank c = false := by
    intro c hc
    have hne : (trim (String.ofList text)).toList ≠ [] := by
      rintro hnil
      rw [hnil] at hc
      cases hc
    rw [List.getLast?_eq_some_getLast hne, Option.mem_some_iff] at hc
    subst hc
    simp only [trim, String.toList_ofList] at hne ⊢
    exact Bool.not_eq_true _ ▸ List.rdropWhile_last_not isBlank _ hne
  generalize (trim (String.ofList text)).toList = inner at htext hhead hlast
  rcases eq_or_ne inner [] with rfl | hne
  · refine .inl fun c hc => ?_
    rw [htext, List.append_nil] at hc
    exact (List.mem_append.1 hc).elim (hbefore c) (hafter c)
  · exact .inr ⟨before, inner, after, htext, hbefore, hafter, hne, hhead, hlast⟩

/-- The characters that end the name of a command. -/
def isSeparator (c : Char) : Bool := c = ' ' ∨ c = '\t'

theorem isBlank_of_isSeparator {c : Char} (h : isSeparator c = true) : isBlank c = true := by
  simp only [isSeparator, decide_eq_true_eq] at h
  rcases h with rfl | rfl <;> rfl

/-! ## Case -/

/-- A character is a small letter, or its own capital. -/
theorem letter_or_toUpper_eq (c : Char) :
    (∃ n < 26, c = Char.ofNat (97 + n)) ∨ c.toUpper = c := by
  by_cases hlower : 'a'.val ≤ c.val ∧ c.val ≤ 'z'.val
  · have hlow : 97 ≤ c.toNat := UInt32.le_iff_toNat_le.1 hlower.1
    have hhigh : c.toNat ≤ 122 := UInt32.le_iff_toNat_le.1 hlower.2
    refine .inl ⟨c.toNat - 97, by omega, ?_⟩
    rw [Nat.add_sub_cancel' hlow, Char.ofNat_toNat]
  · exact .inr (dif_neg hlower)

theorem isBlank_toUpper (c : Char) : isBlank c.toUpper = isBlank c := by
  rcases letter_or_toUpper_eq c with ⟨n, hn, rfl⟩ | h
  · revert n
    decide
  · rw [h]

theorem toUpper_toUpper (c : Char) : c.toUpper.toUpper = c.toUpper := by
  rcases letter_or_toUpper_eq c with ⟨n, hn, rfl⟩ | h
  · revert n
    decide
  · rw [h, h]

/-- What comes before the letters is in no other case. -/
theorem toUpper_of_lt {c : Char} (h : c.toNat < 65 ∨ c.toUpper.toNat < 65) : c.toUpper = c := by
  rcases letter_or_toUpper_eq c with ⟨n, hn, rfl⟩ | heq
  · revert n
    decide
  · exact heq

theorem eq_of_toUpper_of_lt {c d : Char} (h : c.toUpper = d.toUpper) (hd : d.toNat < 65) :
    c = d := by
  rw [toUpper_of_lt (.inl hd)] at h
  rwa [toUpper_of_lt (.inr (h ▸ hd))] at h

theorem eq_of_toUpper_isBlank {c d : Char} (h : c.toUpper = d.toUpper) (hd : isBlank d = true) :
    c = d := by
  refine eq_of_toUpper_of_lt h ?_
  simp only [isBlank, decide_eq_true_eq] at hd
  rcases hd with rfl | rfl | rfl | rfl <;> decide

theorem isSeparator_of_toUpper {c d : Char} (h : c.toUpper = d.toUpper) :
    isSeparator c = isSeparator d := by
  rw [Bool.eq_iff_iff]
  constructor
  · intro hc
    rwa [← eq_of_toUpper_isBlank h.symm (isBlank_of_isSeparator hc)] at hc
  · intro hd
    rwa [← eq_of_toUpper_isBlank h (isBlank_of_isSeparator hd)] at hd

/-! ## Commands in lines -/

theorem toUpper_ne_empty {text : List Char} (h : text ≠ []) :
    toUpper (String.ofList text) ≠ "" := by
  intro heq
  have hnil := congrArg String.toList heq
  rw [toUpper, String.toList_ofList, String.toList_ofList, String.toList_empty,
    List.map_eq_nil_iff] at hnil
  exact h hnil

/-- A command in a line: its name and its argument, the blanks between them, which begin
    with what ends the name, and the blanks around. -/
structure CommandParts where
  before : List Char
  word : List Char
  gap : List Char
  argument : List Char
  after : List Char
  before_blank : ∀ c ∈ before, isBlank c = true
  gap_blank : ∀ c ∈ gap, isBlank c = true
  after_blank : ∀ c ∈ after, isBlank c = true
  word_ne_nil : word ≠ []
  word_name : ∀ c ∈ word, isSeparator c = false
  word_head : ∀ c ∈ word.head?, isBlank c = false
  word_last : argument = [] → gap = [] ∧ ∀ c ∈ word.getLast?, isBlank c = false
  gap_head : argument ≠ [] → ∃ c rest, gap = c :: rest ∧ isSeparator c = true
  argument_head : ∀ c ∈ argument.head?, isBlank c = false
  argument_last : ∀ c ∈ argument.getLast?, isBlank c = false

namespace CommandParts

variable (p : CommandParts)

/-- The line. -/
def text : List Char := p.before ++ p.word ++ p.gap ++ p.argument ++ p.after

/-- What the line is parsed to. -/
def command : ParsedCommand :=
  { name := toUpper (String.ofList p.word), argument := String.ofList p.argument, valid := true }

/-- Without the blanks around it. -/
theorem trim_text :
    trim (String.ofList p.text) = String.ofList (p.word ++ p.gap ++ p.argument) := by
  have htext : p.text = p.before ++ (p.word ++ p.gap ++ p.argument) ++ p.after := by
    simp [text]
  rw [htext]
  refine trim_of_ends p.before_blank p.after_blank (fun c hc => ?_) fun c hc => ?_
  · rw [List.append_assoc, List.head?_append_of_ne_nil _ p.word_ne_nil] at hc
    exact p.word_head c hc
  · rcases eq_or_ne p.argument [] with harg | harg
    · obtain ⟨hgap, hlast⟩ := p.word_last harg
      rw [harg, hgap, List.append_nil, List.append_nil] at hc
      exact hlast c hc
    · rw [List.getLast?_append_of_ne_nil _ harg] at hc
      exact p.argument_last c hc

/-- The name ends with the first blank after it that is no end of a line. -/
theorem parse_text : parse (String.ofList p.text) = p.command := by
  have hne : String.ofList (p.word ++ p.gap ++ p.argument) ≠ "" := by
    intro hempty
    have hnil := congrArg String.toList hempty
    rw [String.toList_ofList, String.toList_empty] at hnil
    exact p.word_ne_nil (List.append_eq_nil_iff.1 (List.append_eq_nil_iff.1 hnil).1).1
  have hname : toUpper (String.ofList p.word) ≠ "" := toUpper_ne_empty p.word_ne_nil
  rw [parse, trim_text]
  dsimp only
  rw [if_neg hne, String.toList_ofList]
  rcases eq_or_ne p.argument [] with harg | harg
  · obtain ⟨hgap, -⟩ := p.word_last harg
    have hfind : (p.word ++ p.gap ++ p.argument).findIdx? (fun c => c = ' ' ∨ c = '\t') = none := by
      rw [harg, hgap, List.append_nil, List.append_nil]
      exact List.findIdx?_eq_none_iff.2 p.word_name
    rw [hfind]
    simp [command, harg, hgap, hname]
  · obtain ⟨c, rest, hgap, hc⟩ := p.gap_head harg
    have hrest : ∀ c ∈ rest, isBlank c = true := fun d hd =>
      p.gap_blank d (hgap ▸ List.mem_cons_of_mem c hd)
    have hfind : (p.word ++ p.gap ++ p.argument).findIdx? (fun c => c = ' ' ∨ c = '\t') =
        some p.word.length := by
      have hword : p.word.findIdx? isSeparator = none := List.findIdx?_eq_none_iff.2 p.word_name
      show (p.word ++ p.gap ++ p.argument).findIdx? isSeparator = _
      rw [hgap, List.append_assoc, List.findIdx?_append, hword, List.cons_append,
        List.findIdx?_cons, hc]
      simp
    have htake : (p.word ++ p.gap ++ p.argument).take p.word.length = p.word := by
      rw [List.append_assoc, List.take_left]
    have hdrop : (p.word ++ p.gap ++ p.argument).drop (p.word.length + 1) = rest ++ p.argument := by
      rw [hgap, List.append_assoc, ← List.drop_drop, List.drop_left]
      rfl
    have hargument : trim (String.ofList (rest ++ p.argument)) = String.ofList p.argument := by
      have htrim := trim_of_ends hrest (List.forall_mem_nil _) p.argument_head p.argument_last
      rwa [List.append_nil] at htrim
    rw [hfind]
    simp only [htake, hdrop, hargument]
    simp [command, hname]

/-- A line that is not blank has a command. -/
theorem exists_parts (line : List Char) :
    (∀ c ∈ line, isBlank c = true) ∨ ∃ p : CommandParts, p.text = line := by
  rcases exists_ends line with
    hblank | ⟨before, inner, after, rfl, hbefore, hafter, hne, hhead, hlast⟩
  · exact .inl hblank
  right
  have hinner := List.takeWhile_append_dropWhile (p := fun c => !isSeparator c) (l := inner)
  have hword : ∀ c ∈ inner.takeWhile (fun c => !isSeparator c), isSeparator c = false := by
    intro c hc
    simpa using List.mem_takeWhile_imp hc
  have hrest := head?_dropWhile (fun c => !isSeparator c) inner
  generalize inner.takeWhile (fun c => !isSeparator c) = word at hinner hword
  generalize inner.dropWhile (fun c => !isSeparator c) = rest at hinner hrest
  subst hinner
  -- The line does not begin with the end of the name.
  have hwordne : word ≠ [] := by
    rintro rfl
    obtain ⟨c, rest, rfl⟩ := List.exists_cons_of_ne_nil hne
    have hc : isSeparator c = true := by simpa using hrest c rfl
    have hblank := hhead c rfl
    rw [isBlank_of_isSeparator hc] at hblank
    cases hblank
  rw [List.head?_append_of_ne_nil _ hwordne] at hhead
  cases rest with
  | nil =>
    rw [List.append_nil] at hlast
    exact ⟨{
      before, word, gap := [], argument := [], after
      before_blank := hbefore
      gap_blank := List.forall_mem_nil _
      after_blank := hafter
      word_ne_nil := hwordne
      word_name := hword
      word_head := hhead
      word_last := fun _ => ⟨rfl, hlast⟩
      gap_head := fun h => absurd rfl h
      argument_head := by simp
      argument_last := by simp }, by simp [text]⟩
  | cons c rest =>
    have hc : isSeparator c = true := by simpa using hrest c rfl
    rw [List.getLast?_append_of_ne_nil _ (List.cons_ne_nil c rest)] at hlast
    have hblank : ∀ d ∈ (c :: rest).getLast?, isBlank d ≠ true := fun d hd h => by
      rw [hlast d hd] at h
      cases h
    rcases exists_ends rest with
      hrest | ⟨gap, argument, more, rfl, hgap, hmore, hargne, harg, harglast⟩
    · -- Something is left after the blank that ends the name.
      have hall : ∀ d ∈ c :: rest, isBlank d = true :=
        List.forall_mem_cons.2 ⟨isBlank_of_isSeparator hc, hrest⟩
      have hlast := List.getLast?_eq_some_getLast (List.cons_ne_nil c rest)
      exact absurd (hall _ (List.getLast_mem _)) (hblank _ hlast)
    · have hmore' : more = [] := by
        by_contra hne
        refine absurd (hmore _ (List.getLast_mem hne)) (hblank _ ?_)
        rw [← List.cons_append, List.getLast?_append_of_ne_nil _ hne]
        exact List.getLast?_eq_some_getLast hne
      subst hmore'
      exact ⟨{
        before, word, gap := c :: gap, argument, after
        before_blank := hbefore
        gap_blank := List.forall_mem_cons.2 ⟨isBlank_of_isSeparator hc, hgap⟩
        after_blank := hafter
        word_ne_nil := hwordne
        word_name := hword
        word_head := hhead
        word_last := fun h => absurd h hargne
        gap_head := fun _ => ⟨c, gap, rfl, hc⟩
        argument_head := harg
        argument_last := harglast }, by simp [text]⟩

end CommandParts

theorem parse_of_blank {line : String} (h : ∀ c ∈ line.toList, isBlank c = true) :
    parse line = {} := by
  have htrim : trim line = "" := by
    rw [trim, List.dropWhile_eq_nil_iff.2 h, List.rdropWhile_nil, String.ofList_nil]
  rw [parse, htrim]
  rfl

/-- What a line is parsed to. -/
theorem parse_cases (input : String) :
    (∀ c ∈ input.toList, isBlank c = true) ∧ parse input = {} ∨
      ∃ p : CommandParts, input = String.ofList p.text ∧ parse input = p.command := by
  rcases CommandParts.exists_parts input.toList with hblank | ⟨p, hp⟩
  · exact .inl ⟨hblank, parse_of_blank hblank⟩
  · have hinput : input = String.ofList p.text := by rw [hp, String.ofList_toList]
    exact .inr ⟨p, hinput, by rw [hinput, p.parse_text]⟩

theorem valid_iff (input : String) :
    (parse input).valid = true ↔ ∃ c ∈ input.toList, isBlank c = false := by
  rcases parse_cases input with ⟨hblank, heq⟩ | ⟨p, rfl, heq⟩
  · rw [heq]
    refine ⟨fun h => (nomatch h), fun ⟨c, hc, hne⟩ => ?_⟩
    rw [hblank c hc] at hne
    cases hne
  · rw [heq]
    refine ⟨fun _ => ?_, fun _ => rfl⟩
    obtain ⟨c, word, hword⟩ := List.exists_cons_of_ne_nil p.word_ne_nil
    refine ⟨c, ?_, p.word_head c (by rw [hword]; rfl)⟩
    rw [String.toList_ofList, CommandParts.text, hword]
    simp

end CommandParser

end HybridFtp
