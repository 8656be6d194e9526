import HybridFtp.Client.Dialogue
import HybridFtp.Common.StableParsing

/-!
# Dispatch

What the client takes a line at the prompt for, and what the server does, if the line is
sent as it is.

* `serverNames`: the names of the commands that the server parses of the line;
* `Dispatched`: there is one command, by the name that the client has found, and the
  client has the handler of any command with a data channel for it;
* `dispatched_iff`: the lines for which this is so.
-/

namespace HybridFtp

open CommandParser Elements

/-- The handler of the client for a command of the server with an endpoint of its own. -/
def Verb.handler : Verb → Option ClientCLI.PromptVerb
  | .RETR => some .RETR
  | .STOR => some .STOR
  | .STOU => some .STOU
  | .APPE => some .APPE
  | .LIST => some .LIST
  | .NLST => some .NLST
  | .PORT => some .PORT
  | .USER | .PASS | .QUIT | .NOOP | .PWD | .CWD | .CDUP | .MKD | .RMD | .STAT | .SIZE | .MDTM
  | .DELE | .RNFR | .RNTO | .TYPE | .MODE | .PASV | .HASH | .ABOR | .HELP => none

namespace ClientCLI

/-- The names of the commands that the server parses of a line: more than one, perhaps, of
    a line that is longer than its buffer. -/
def serverNames (line : String) : List String :=
  (((readLines line).map parse).filter fun command => command.valid).map ParsedCommand.name

/-- The server parses one command of a line, by the name that the client has found, and
    whatever it executes with a data channel, or `PORT`, is left to the handler of the client
    for it. -/
structure Dispatched (line : String) : Prop where
  name : serverNames line = [toUpperFirstWord line]
  handler : ∀ sent ∈ readLines line, ∀ handler ∈ (lineVerb sent).bind Verb.handler,
    PromptVerb.ofWord (toUpperFirstWord line) = handler

/-- The characters of a line up to its first space. -/
def firstWord (line : String) : List Char := line.toList.takeWhile (· ≠ ' ')

/-- The first word has nothing that the server skips or ends a word at, and what the server
    reads after its first buffer is blank. -/
structure Plain (line : String) : Prop where
  word : ∀ c ∈ firstWord line, c ≠ '\t' ∧ c ≠ '\r' ∧ c ≠ Char.ofNat 0
  more : ∀ sent ∈ (readLines line).tail, ∀ c ∈ sent.toList, isBlank c = true

variable {line sent : String}

/-! ## What is read of a line -/

theorem readLines_ne_nul_cr (h : sent ∈ readLines line) :
    ∀ c ∈ sent.toList, c ≠ '\r' ∧ c ≠ Char.ofNat 0 := by
  obtain ⟨piece, hpiece, rfl⟩ := List.mem_map.1 h
  intro c hc
  rw [String.toList_ofList] at hc
  have hmem := (infix_of_mem_fillLines hpiece).subset ((List.takeWhile_sublist _).subset hc)
  exact ⟨by simpa using (List.mem_filter.1 hmem).2, by simpa using List.mem_takeWhile_imp hc⟩

/-- The first buffer of a line. -/
theorem readLines_cons {c : Char} {text : List Char} (h : line.toList = c :: text)
    (hcr : c ≠ '\r') :
    ∃ more, readLines line =
      String.ofList (((line.toList.filter (· ≠ '\r')).take (LINE_SIZE - 1)).takeWhile
        (· ≠ Char.ofNat 0)) :: more := by
  rw [readLines, h, List.filter_cons_of_pos (by simpa using hcr)]
  exact ⟨_, rfl⟩

/-- What the client finds and the server parses has no character that the server skips. -/
theorem word_of_name (h : toUpperFirstWord line ∈ serverNames line) :
    ∀ c ∈ firstWord line, c ≠ '\t' ∧ c ≠ '\r' ∧ c ≠ Char.ofNat 0 := by
  obtain ⟨command, hcommand, hname⟩ := List.mem_map.1 h
  obtain ⟨hmem, hvalid⟩ := List.mem_filter.1 hcommand
  obtain ⟨sent, hsent, rfl⟩ := List.mem_map.1 hmem
  rcases parse_cases sent with ⟨-, heq⟩ | ⟨p, rfl, heq⟩
  · rw [heq] at hvalid
    cases hvalid
  have hread := readLines_ne_nul_cr hsent
  rw [String.toList_ofList] at hread
  have hupper : p.word.map Char.toUpper = (firstWord line).map Char.toUpper := by
    rw [heq, CommandParts.command, toUpperFirstWord, toUpper, toUpper, String.ofList_inj,
      String.toList_ofList, String.toList_ofList] at hname
    exact hname
  intro c hc
  obtain ⟨d, hd, hcase⟩ := List.mem_map.1 (hupper ▸ List.mem_map_of_mem hc)
  have hsep := p.word_name d hd
  obtain ⟨hcr, hnul⟩ := hread d (by simp [CommandParts.text, hd])
  refine ⟨?_, ?_, ?_⟩
  · rintro rfl
    rw [eq_of_toUpper_of_lt hcase (by decide)] at hsep
    cases hsep
  · rintro rfl
    exact hcr (eq_of_toUpper_of_lt hcase (by decide))
  · rintro rfl
    exact hnul (eq_of_toUpper_of_lt hcase (by decide))

/-- A line begins with its first word. -/
theorem mem_firstWord {c : Char} {text : List Char} (h : line.toList = c :: text)
    (hc : isBlank c = false) : c ∈ firstWord line := by
  have hsp : c ≠ ' ' := by
    rintro rfl
    exact absurd hc (by decide)
  rw [firstWord, h, List.takeWhile_cons_of_pos (by simpa using hsp)]
  exact List.mem_cons_self

/-- What is left of a text after the first buffer is read, too. -/
theorem exists_mem_tail {text : List Char} (h : line.toList.filter (· ≠ '\r') = text)
    (hlength : LINE_SIZE - 1 < text.length) :
    ∃ sent ∈ (readLines line).tail, ∃ rest, text.drop (LINE_SIZE - 1) = rest ∧
      sent = String.ofList ((rest.take (LINE_SIZE - 1)).takeWhile (· ≠ Char.ofNat 0)) := by
  have hne : text ≠ [] := by
    rintro rfl
    cases hlength
  have hdrop : text.drop (LINE_SIZE - 1) ≠ [] := by
    rw [Ne, List.drop_eq_nil_iff]
    exact not_le.2 hlength
  obtain ⟨n, hn⟩ : ∃ n, text.length = n + 1 + 1 := by
    rw [LINE_SIZE] at hlength
    exact ⟨text.length - 2, by omega⟩
  refine ⟨_, ?_, _, rfl, rfl⟩
  rw [readLines, h, hn, fillLines, if_neg hne, List.map_cons, List.tail_cons, fillLines,
    if_neg hdrop]
  exact List.mem_cons_self

/-- The first word of a plain line is the start of what is read first, up to a space. -/
theorem readLines_of_plain {c : Char} {text : List Char} (h : line.toList = c :: text)
    (hc : isBlank c = false) (hlf : '\n' ∉ line.toList) (hplain : Plain line) :
    ∃ first more rest, readLines line = first :: more ∧ first.toList = firstWord line ++ rest ∧
      (∀ d ∈ rest.head?, d = ' ') ∧ firstWord line ≠ [] ∧
      ∀ d ∈ firstWord line, isBlank d = false := by
  have hsplit := List.takeWhile_append_dropWhile (p := (· ≠ ' ')) (l := line.toList)
  have hspace : ∀ d ∈ (line.toList.dropWhile (· ≠ ' ')).head?, d = ' ' := fun d hd => by
    simpa using head?_dropWhile (· ≠ ' ') line.toList d hd
  have hblank : ∀ d ∈ firstWord line, isBlank d = false := by
    intro d hd
    obtain ⟨htab, hcr, -⟩ := hplain.word d hd
    have hsp : d ≠ ' ' := by simpa using List.mem_takeWhile_imp hd
    have hlf' : d ≠ '\n' := fun heq => hlf (heq ▸ (List.takeWhile_sublist _).subset hd)
    simp [isBlank, htab, hcr, hsp, hlf']
  have hne : firstWord line ≠ [] := List.ne_nil_of_mem (mem_firstWord h hc)
  have hcr : c ≠ '\r' := by
    rintro rfl
    exact absurd hc (by decide)
  obtain ⟨more, hread⟩ := readLines_cons h hcr
  change firstWord line ++ _ = _ at hsplit
  generalize line.toList.dropWhile (· ≠ ' ') = rest at hsplit hspace
  have hfilter : line.toList.filter (· ≠ '\r') = firstWord line ++ rest.filter (· ≠ '\r') := by
    conv_lhs => rw [← hsplit]
    rw [List.filter_append, List.filter_eq_self.2 fun d hd => decide_eq_true (hplain.word d hd).2.1]
  have hrest : ∀ d ∈ (rest.filter (· ≠ '\r')).head?, d = ' ' := by
    cases rest with
    | nil => simp
    | cons d rest =>
      obtain rfl := hspace d rfl
      rw [List.filter_cons_of_pos (by decide)]
      exact fun e he => (Option.some.inj he).symm
  generalize rest.filter (· ≠ '\r') = rest at hfilter hrest
  -- The first word is not longer than the buffer, or what is left of it is no blank.
  have hlength : (firstWord line).length ≤ LINE_SIZE - 1 := by
    by_contra hlong
    rw [not_le] at hlong
    obtain ⟨sent, hsent, left, hleft, rfl⟩ := exists_mem_tail hfilter
      (hlong.trans_le (by rw [List.length_append]; exact Nat.le_add_right _ _))
    obtain ⟨d, hd, hhead⟩ : ∃ d ∈ firstWord line, left = d :: left.tail := by
      refine ⟨_, List.getElem_mem hlong, ?_⟩
      rw [← hleft, List.drop_append_of_le_length hlong.le, List.drop_eq_getElem_cons hlong]
      rfl
    have hblank' := hplain.more _ hsent d (by
      rw [String.toList_ofList, hhead, LINE_SIZE, List.take_succ_cons,
        List.takeWhile_cons_of_pos (by simpa using (hplain.word d hd).2.2)]
      exact List.mem_cons_self)
    rw [hblank d hd] at hblank'
    cases hblank'
  refine ⟨_, more, (rest.take (LINE_SIZE - 1 - (firstWord line).length)).takeWhile
    (· ≠ Char.ofNat 0), hread, ?_, ?_, hne, hblank⟩
  · rw [String.toList_ofList, hfilter, List.take_append, List.take_of_length_le hlength,
      List.takeWhile_append_of_pos fun d hd => decide_eq_true (hplain.word d hd).2.2]
  · intro d hd
    obtain ⟨more, hmore⟩ := (List.takeWhile_prefix _).trans (List.take_prefix _ rest)
    refine hrest d ?_
    rw [← hmore, List.head?_append, hd]
    rfl

theorem valid_eq_false_iff {sent : String} :
    (parse sent).valid = false ↔ ∀ c ∈ sent.toList, isBlank c = true := by
  have h := valid_iff sent
  rw [← not_iff_not, Bool.not_eq_false, h]
  simp

/-! ## The comparison -/

theorem serverNames_of_readLines {first : String} {more : List String}
    (h : readLines line = first :: more) (hvalid : (parse first).valid = true) :
    serverNames line = [toUpperFirstWord line] ↔
      (parse first).name = toUpperFirstWord line ∧
        ∀ sent ∈ more, ∀ c ∈ sent.toList, isBlank c = true := by
  have hmore : (((more.map parse).filter fun command => command.valid).map ParsedCommand.name) = [] ↔
      ∀ sent ∈ more, ∀ c ∈ sent.toList, isBlank c = true := by
    rw [List.map_eq_nil_iff, List.filter_eq_nil_iff, List.forall_mem_map]
    refine forall₂_congr fun sent _ => ?_
    rw [Bool.not_eq_true, valid_eq_false_iff]
  rw [serverNames, h, List.map_cons, List.filter_cons_of_pos hvalid, List.map_cons, List.cons.injEq,
    hmore]

/-- Every name that is in the table of the server is dispatched as there. -/
theorem ofWord_of_handler : ∀ e ∈ Verb.table, ∀ handler ∈ e.2.handler,
    PromptVerb.ofWord e.1 = handler := by
  decide

theorem handler_of_name (h : serverNames line = [toUpperFirstWord line]) :
    ∀ sent ∈ readLines line, ∀ handler ∈ (lineVerb sent).bind Verb.handler,
      PromptVerb.ofWord (toUpperFirstWord line) = handler := by
  intro sent hsent handler hhandler
  obtain ⟨verb, hverb, hhandler⟩ := Option.bind_eq_some_iff.1 hhandler
  rw [lineVerb, Option.ite_none_right_eq_some] at hverb
  obtain ⟨hvalid, hname⟩ := hverb
  have hmem : (parse sent).name ∈ serverNames line :=
    List.mem_map_of_mem (List.mem_filter.2 ⟨List.mem_map_of_mem hsent, hvalid⟩)
  rw [h, List.mem_singleton] at hmem
  rw [← hmem]
  exact ofWord_of_handler _ (mem_table_of_ofName? hname) handler hhandler

theorem plain_of_dispatched {c : Char} {text : List Char} (h : line.toList = c :: text)
    (hc : isBlank c = false) (hdispatched : Dispatched line) : Plain line := by
  have hword := word_of_name (by rw [hdispatched.name]; exact List.mem_singleton_self _)
  obtain ⟨-, hcr, hnul⟩ := hword c (mem_firstWord h hc)
  obtain ⟨more, hread⟩ := readLines_cons h hcr
  have hvalid : (parse (String.ofList (((line.toList.filter (· ≠ '\r')).take (LINE_SIZE - 1)).takeWhile
      (· ≠ Char.ofNat 0)))).valid = true := by
    refine (valid_iff _).2 ⟨c, ?_, hc⟩
    rw [String.toList_ofList, h, List.filter_cons_of_pos (by simpa using hcr), LINE_SIZE,
      List.take_succ_cons, List.takeWhile_cons_of_pos (by simpa using hnul)]
    exact List.mem_cons_self
  refine ⟨hword, ?_⟩
  rw [hread]
  exact ((serverNames_of_readLines hread hvalid).1 hdispatched.name).2

theorem dispatched_of_plain {c : Char} {text : List Char} (h : line.toList = c :: text)
    (hc : isBlank c = false) (hlf : '\n' ∉ line.toList) (hplain : Plain line) :
    Dispatched line := by
  obtain ⟨first, more, rest, hread, hfirst, hrest, hne, hblank⟩ :=
    readLines_of_plain h hc hlf hplain
  obtain ⟨hvalid, hname⟩ := parse_of_word hne hblank hrest hfirst
  have hmore := hplain.more
  rw [hread] at hmore
  have hnames := (serverNames_of_readLines hread hvalid).2 ⟨hname, hmore⟩
  exact ⟨hnames, handler_of_name hnames⟩

/-- A line at the prompt, which has no end of a line in it, is dispatched as the server
    parses it if it is plain, and only then. -/
theorem dispatched_iff (line : String) (hlf : '\n' ∉ line.toList) (hne : trim line ≠ "") :
    Dispatched (trim line) ↔ Plain (trim line) := by
  obtain ⟨before, after, hline, -, -, hhead⟩ := trim_spec line
  have hlf' : '\n' ∉ (trim line).toList := by
    rw [hline] at hlf
    exact fun h => hlf (List.mem_append_left _ (List.mem_append_right _ h))
  obtain ⟨c, text, htext⟩ := List.exists_cons_of_ne_nil (mt String.toList_eq_nil_iff.1 hne)
  have hc : isBlank c = false := hhead c (by rw [htext]; rfl)
  exact ⟨plain_of_dispatched htext hc, dispatched_of_plain htext hc hlf'⟩

/-- A command in small letters, with a blank before it. -/
theorem dispatched_retr : Dispatched (trim " retr a.txt") :=
  (dispatched_iff " retr a.txt" (by decide +kernel) (by decide +kernel)).2
    ⟨by decide +kernel, by decide +kernel⟩

/-- A tab ends the name for the server, but not for the client: a line that is sent as it is
    starts a download. -/
theorem not_dispatched_tab : trim "RETR\ta.txt" = "RETR\ta.txt" ∧
    PromptVerb.ofWord (toUpperFirstWord "RETR\ta.txt") = .other ∧
    (readLines "RETR\ta.txt").map lineVerb = [some .RETR] ∧ ¬Dispatched "RETR\ta.txt" := by
  refine ⟨by decide +kernel, by decide +kernel, by decide +kernel, fun h => ?_⟩
  exact absurd h.name (by decide +kernel)

end ClientCLI

end HybridFtp
