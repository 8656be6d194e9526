import HybridFtp.Common.CommandParts

/-!
# Command lines

What the server reads of a command line that is sent to it, and how the name and the
argument that it parses compare to the words of the line.

* `readLines`: the lines that are read of what is sent;
* `parse_spec`: where the name and the argument of a line are in it;
* `words_of_parse`: they are its words, if there is no other space in the name;
* `words_readText`: the first two words of what is sent are still the first two of what
  is read, or run together.
-/

namespace HybridFtp

/-- `sizeof(line)`, of the server. -/
def LINE_SIZE : Nat := 512

/-- A text, as much at a time as the line of the server holds. -/
def fillLines : Nat → List Char → List (List Char)
  | 0, _ => []
  | fuel + 1, text =>
    if text = [] then [] else text.take (LINE_SIZE - 1) :: fillLines fuel (text.drop (LINE_SIZE - 1))

/-- `read_line`, of a command that is sent as a line, as long as something is left of it:
    `'\r'` is skipped, and a line ends with the first NUL in it. -/
def readLines (command : String) : List String :=
  let text := command.toList.filter (· ≠ '\r')
  (fillLines text.length text).map fun line =>
    String.ofList (line.takeWhile (· ≠ Char.ofNat 0))

/-! ## Name and argument -/

namespace CommandParser

theorem isSpace_of_isBlank {c : Char} (h : isBlank c = true) : isSpace c = true := by
  simp only [isBlank, decide_eq_true_eq] at h
  rcases h with rfl | rfl | rfl | rfl <;> decide

/-- A line is blank, or the name is in front of it, up to a blank. -/
theorem parse_spec (line : String) :
    (parse line).valid = false ∧ (∀ c ∈ line.toList, isBlank c = true) ∨
      (parse line).valid = true ∧ ∃ before name rest, line.toList = before ++ name ++ rest ∧
        (∀ c ∈ before, isBlank c = true) ∧ name ≠ [] ∧ (∀ c ∈ name, isSeparator c = false) ∧
        (∀ c ∈ name.head?, isBlank c = false) ∧ (∀ c ∈ rest.head?, isBlank c = true) ∧
        (parse line).name = toUpper (String.ofList name) ∧
        words (parse line).argument.toList = words rest := by
  rcases parse_cases line with ⟨hblank, heq⟩ | ⟨p, rfl, heq⟩
  · rw [heq]
    exact .inl ⟨rfl, hblank⟩
  rw [heq]
  refine .inr ⟨rfl, p.before, p.word, p.gap ++ p.argument ++ p.after, ?_, p.before_blank,
    p.word_ne_nil, p.word_name, p.word_head, fun c hc => ?_, rfl, ?_⟩
  · rw [String.toList_ofList, CommandParts.text]
    simp only [List.append_assoc]
  · -- There is no argument without a blank in front of it.
    rcases eq_or_ne p.argument [] with harg | harg
    · rw [harg, List.append_nil] at hc
      exact (List.mem_append.1 (List.mem_of_mem_head? hc)).elim (p.gap_blank c) (p.after_blank c)
    · obtain ⟨d, rest, hgap, hd⟩ := p.gap_head harg
      rw [hgap] at hc
      cases hc
      exact isBlank_of_isSeparator hd
  · rw [words_append_of_space fun c hc => isSpace_of_isBlank (p.after_blank c hc),
      words_of_space_append fun c hc => isSpace_of_isBlank (p.gap_blank c hc),
      CommandParts.command, String.toList_ofList]

theorem valid_of_name {line : String} (h : (parse line).name ≠ "") :
    (parse line).valid = true := by
  rcases parse_cases line with ⟨_, heq⟩ | ⟨p, _, heq⟩
  · rw [heq] at h
    exact absurd rfl h
  · rw [heq]
    rfl

theorem ne_nul_of_toUpper {text : List Char}
    (h : ∀ c ∈ (toUpper (String.ofList text)).toList, c ≠ Char.ofNat 0) :
    ∀ c ∈ text, c ≠ Char.ofNat 0 := by
  rintro c hc rfl
  refine h (Char.ofNat 0).toUpper ?_ (by decide)
  rw [toUpper, String.toList_ofList, String.toList_ofList]
  exact List.mem_map_of_mem hc

theorem length_toUpper (text : String) : (toUpper text).toList.length = text.toList.length := by
  rw [toUpper, String.toList_ofList, List.length_map]

theorem toUpper_of_isSpace {c : Char} (h : isSpace c = true) : c.toUpper = c := by
  refine toUpper_of_lt (.inl ?_)
  simp only [isSpace, decide_eq_true_eq] at h
  rcases h with rfl | ⟨_, h⟩
  · decide
  · exact Nat.lt_of_le_of_lt h (by decide)

/-- A name without space in it is the first word, and the argument are the others. -/
theorem words_of_parse {line : String} (hvalid : (parse line).valid = true)
    (hname : ∀ c ∈ (parse line).name.toList, isSpace c = false) :
    ∃ w, (parse line).name = toUpper (String.ofList w) ∧ (∀ c ∈ w, isSpace c = false) ∧
      words line.toList = w :: words (parse line).argument.toList := by
  rcases parse_spec line with
    ⟨hinvalid, _⟩ | ⟨_, before, name, rest, hline, hbefore, hne, _, _, hrest, heq, hwords⟩
  · rw [hinvalid] at hvalid
    cases hvalid
  have hns : ∀ c ∈ name, isSpace c = false := by
    intro c hc
    by_contra hspace
    rw [Bool.not_eq_false] at hspace
    have hmem := hname c.toUpper (by
      rw [heq, toUpper, String.toList_ofList, String.toList_ofList]
      exact List.mem_map_of_mem hc)
    rw [toUpper_of_isSpace hspace, hspace] at hmem
    cases hmem
  refine ⟨name, heq, hns, ?_⟩
  rw [hline, List.append_assoc,
    words_of_space_append fun c hc => isSpace_of_isBlank (hbefore c hc),
    words_append_of_head hne hns fun c hc => isSpace_of_isBlank (hrest c hc), hwords]

/-- A line that begins with a word, up to a space or its end. -/
theorem parse_of_word {word rest : List Char} (hword : word ≠ [])
    (hns : ∀ c ∈ word, isBlank c = false) (hrest : ∀ c ∈ rest.head?, c = ' ') {line : String}
    (hline : line.toList = word ++ rest) :
    (parse line).valid = true ∧ (parse line).name = toUpper (String.ofList word) := by
  rcases parse_spec line with
    ⟨_, hblank⟩ | ⟨hvalid, before, name, rest', heq, hbefore, hne, hsep, _, hrest', hname, _⟩
  · obtain ⟨c, hc⟩ := List.exists_mem_of_ne_nil word hword
    have hc' := hblank c (by rw [hline]; exact List.mem_append_left _ hc)
    rw [hns c hc] at hc'
    cases hc'
  refine ⟨hvalid, ?_⟩
  rw [hline] at heq
  have hbefore : before = [] := by
    cases before with
    | nil => rfl
    | cons c before =>
      cases word with
      | nil => exact absurd rfl hword
      | cons d word =>
        obtain ⟨rfl, _⟩ := List.cons.inj heq
        have hd := hns d List.mem_cons_self
        rw [hbefore d List.mem_cons_self] at hd
        cases hd
  subst hbefore
  rw [List.nil_append] at heq
  -- Neither of the two ends before the other.
  rcases List.append_eq_append_iff.1 heq with ⟨u, rfl, rfl⟩ | ⟨u, rfl, rfl⟩
  · cases u with
    | nil => rw [hname, List.append_nil]
    | cons c u =>
      have hc := hsep c (by simp)
      rw [hrest c rfl] at hc
      exact absurd hc (by decide)
  · cases u with
    | nil => rw [hname, List.append_nil]
    | cons c u =>
      have hc := hns c (by simp)
      rw [hrest' c rfl] at hc
      cases hc

end CommandParser

/-! ## Lines that are read -/

/-- What is left of a text in a line of the server. -/
def readText (text : List Char) : List Char :=
  (text.filter (· ≠ '\r')).takeWhile (· ≠ Char.ofNat 0)

/-- A command that the line of the server has room for is read as a whole. -/
theorem readLines_of_length_lt {command : String} (h : command.toList.length < LINE_SIZE)
    (hne : command.toList.filter (· ≠ '\r') ≠ []) :
    readLines command = [String.ofList (readText command.toList)] := by
  have hlength : (command.toList.filter (· ≠ '\r')).length ≤ LINE_SIZE - 1 :=
    (List.length_filter_le _ _).trans (Nat.le_sub_one_of_lt h)
  rw [readLines, readText]
  generalize command.toList.filter (· ≠ '\r') = text at hne hlength ⊢
  obtain ⟨c, text, rfl⟩ := List.exists_cons_of_ne_nil hne
  dsimp only [List.length_cons]
  rw [fillLines, if_neg hne, List.take_of_length_le hlength, List.drop_eq_nil_of_le hlength]
  cases text.length <;> rfl

theorem readText_append {word : List Char} (hcr : ∀ c ∈ word, c ≠ '\r')
    (hnul : ∀ c ∈ word, c ≠ Char.ofNat 0) (rest : List Char) :
    readText (word ++ rest) = word ++ readText rest := by
  rw [readText, readText, List.filter_append,
    List.filter_eq_self.2 fun c hc => decide_eq_true (hcr c hc),
    List.takeWhile_append_of_pos fun c hc => decide_eq_true (hnul c hc)]

theorem ne_nul_of_isSpace {c : Char} (h : isSpace c = true) : c ≠ Char.ofNat 0 := by
  rintro rfl
  exact absurd h (by decide)

theorem ne_cr_of_not_isSpace {c : Char} (h : isSpace c = false) : c ≠ '\r' := by
  rintro rfl
  exact absurd h (by decide)

theorem readText_of_space {s : List Char} (hs : ∀ c ∈ s, isSpace c = true) (rest : List Char) :
    readText (s ++ rest) = s.filter (· ≠ '\r') ++ readText rest := by
  rw [readText, readText, List.filter_append, List.takeWhile_append_of_pos fun c hc => ?_]
  exact decide_eq_true (ne_nul_of_isSpace (hs c (List.mem_of_mem_filter hc)))

theorem infix_of_mem_fillLines {fuel : Nat} {text line : List Char}
    (h : line ∈ fillLines fuel text) : line <:+: text := by
  induction fuel generalizing text with
  | zero => cases h
  | succ fuel ih =>
    rw [fillLines] at h
    split at h
    · cases h
    · rcases List.mem_cons.1 h with rfl | h
      · exact (List.take_prefix _ _).isInfix
      · exact (ih h).trans (List.drop_suffix _ _).isInfix

/-- What begins with a word is read as such, and there is little left if it is hardly too
    long. -/
theorem readLines_of_word {command : String} {word rest : List Char} (hne : word ≠ [])
    (hshort : word.length < LINE_SIZE - 1) (hcr : ∀ c ∈ word, c ≠ '\r')
    (hnul : ∀ c ∈ word, c ≠ Char.ofNat 0) (hrest : ∀ c ∈ rest.head?, c = ' ')
    (hcommand : command.toList = word ++ rest) (hlength : command.toList.length ≤ LINE_SIZE) :
    ∃ first more rest', readLines command = first :: more ∧ first.toList = word ++ rest' ∧
      (∀ c ∈ rest'.head?, c = ' ') ∧ ∀ line ∈ more, line.toList.length ≤ 1 := by
  have hfilter : command.toList.filter (· ≠ '\r') = word ++ rest.filter (· ≠ '\r') := by
    rw [hcommand, List.filter_append, List.filter_eq_self.2 fun c hc => decide_eq_true (hcr c hc)]
  have hlength' : (word ++ rest.filter (· ≠ '\r')).length ≤ LINE_SIZE := by
    rw [← hfilter]
    exact (List.length_filter_le _ _).trans hlength
  have hhead : ∀ c ∈ (rest.filter (· ≠ '\r')).head?, c = ' ' := by
    cases rest with
    | nil => simp
    | cons c rest =>
      obtain rfl := hrest c rfl
      intro d hd
      rw [List.filter_cons_of_pos (by decide)] at hd
      exact (Option.some.inj hd).symm
  rw [readLines, hfilter]
  generalize rest.filter (· ≠ '\r') = rest at hlength' hhead ⊢
  -- There is a first line, and the word is at its start.
  have hsucc : (word ++ rest).length = (word ++ rest).length - 1 + 1 := by
    have hpos := List.length_pos_of_ne_nil hne
    rw [List.length_append]
    omega
  rw [hsucc, fillLines, if_neg (by simp [hne]), List.map_cons]
  refine ⟨_, _, ((rest.take (LINE_SIZE - 1 - word.length)).takeWhile (· ≠ Char.ofNat 0)), rfl, ?_, ?_,
    fun line hline => ?_⟩
  · rw [String.toList_ofList, List.take_append, List.take_of_length_le hshort.le,
      List.takeWhile_append_of_pos fun c hc => decide_eq_true (hnul c hc)]
  · intro c hc
    cases rest with
    | nil => simp at hc
    | cons d rest =>
      obtain rfl := hhead d rfl
      obtain ⟨k, hk⟩ := Nat.exists_eq_add_of_lt hshort
      have hk' : LINE_SIZE - 1 - word.length = k + 1 := by omega
      rw [hk', List.take_succ_cons, List.takeWhile_cons_of_pos (by decide)] at hc
      exact (Option.some.inj hc).symm
  · -- One character at most is left for another line.
    obtain ⟨line, hmem, rfl⟩ := List.mem_map.1 hline
    rw [String.toList_ofList]
    refine (List.takeWhile_sublist _).length_le.trans ((infix_of_mem_fillLines hmem).length_le.trans ?_)
    rw [List.length_drop]
    rw [LINE_SIZE] at hlength' ⊢
    omega

/-- The first two words of what is sent are the first two of what is read, or run
    together. -/
theorem words_readText {text w₀ w₁ : List Char} {ws : List (List Char)}
    (h : words text = w₀ :: w₁ :: ws) (h₀ : ∀ c ∈ w₀, c ≠ Char.ofNat 0)
    (h₁ : ∀ c ∈ w₁, c ≠ Char.ofNat 0) :
    ∃ u ws', words (readText text) = (w₀ ++ w₁ ++ u) :: ws' ∨
      words (readText text) = w₀ :: (w₁ ++ u) :: ws' := by
  obtain ⟨s, rest, rfl, hs, hne₀, hns₀, _, hrest⟩ := exists_of_words h
  obtain ⟨s', rest, rfl, hs', hne₁, hns₁, _, _⟩ := exists_of_words hrest
  have heq : readText (s ++ w₀ ++ (s' ++ w₁ ++ rest)) =
      s.filter (· ≠ '\r') ++ (w₀ ++ (s'.filter (· ≠ '\r') ++ (w₁ ++ readText rest))) := by
    rw [List.append_assoc s, readText_of_space hs,
      readText_append (fun c hc => ne_cr_of_not_isSpace (hns₀ c hc)) h₀, List.append_assoc s',
      readText_of_space hs', readText_append (fun c hc => ne_cr_of_not_isSpace (hns₁ c hc)) h₁]
  have hspace : ∀ c ∈ s'.filter (· ≠ '\r'), isSpace c = true := fun c hc =>
    hs' c (List.mem_of_mem_filter hc)
  rw [heq, words_of_space_append fun c hc => hs c (List.mem_of_mem_filter hc)]
  generalize s'.filter (· ≠ '\r') = s' at hspace ⊢
  generalize readText rest = rest
  cases s' with
  | nil =>
    obtain ⟨u, ws', hwords⟩ := words_append (w := w₀ ++ w₁) (by simp [hne₀])
      (fun c hc => (List.mem_append.1 hc).elim (hns₀ c) (hns₁ c)) rest
    exact ⟨u, ws', .inl (by simpa using hwords)⟩
  | cons c s' =>
    obtain ⟨u, ws', hwords⟩ := words_append hne₁ hns₁ rest
    refine ⟨u, ws', .inr ?_⟩
    rw [words_append_of_head hne₀ hns₀ fun d hd => hspace d (List.mem_of_mem_head? (by simpa using hd)),
      words_of_space_append hspace, hwords]

/-! ## Lengths -/

theorem length_le_of_mem_words {text w : List Char} (h : w ∈ words text) :
    w.length ≤ text.length := by
  generalize hws : words text = ws at h
  induction ws generalizing text with
  | nil => cases h
  | cons w' ws ih =>
    obtain ⟨s, rest, rfl, _, _, _, _, hrest⟩ := exists_of_words hws
    simp only [List.length_append]
    rcases List.mem_cons.1 h with rfl | h
    · omega
    · have hlength := ih hrest h
      omega

/-- There is a space between two words. -/
theorem length_lt_of_mem_words {text w w' : List Char} {ws : List (List Char)}
    (h : words text = w :: ws) (hmem : w' ∈ ws) : w.length + w'.length < text.length := by
  obtain ⟨s, rest, rfl, _, _, _, hspace, rfl⟩ := exists_of_words h
  cases rest with
  | nil =>
    rw [words_nil] at hmem
    cases hmem
  | cons c rest =>
    rw [words_cons (hspace c rfl)] at hmem
    have hlength := length_le_of_mem_words hmem
    simp only [List.length_append, List.length_cons]
    omega

end HybridFtp
