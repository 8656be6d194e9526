import HybridFtp.Server.ControlStream

/-!
# Command lines on the control stream

How a session takes its command lines off the control stream, by lines that an LF ends.

* `handleClientThread`: the loop of a session, with the handling of a line given;
* `commandLines`: the lines of a stream, and `LineByLine`: they are taken one by one;
* `Fits`: the streams whose lines the buffer of the server has room for;
* `of_readLine_some`: what one reading of a line takes off the stream;
* `lineByLine_iff_fits`: the streams that fit, and no others, are taken line by line.
-/

namespace HybridFtp

open CommandParser

/-! ## The loop of a session -/

/-- What handling a line comes to, from the states `σ` of a session. -/
structure Handling (σ : Type) where
  quit : Bool
  /-- How much of the stream has arrived when a transfer looks for `ABOR`: nothing, if
      there is no transfer. -/
  arrived : Nat
  /-- The state afterwards, if there was a line `ABOR` or not. -/
  next : Bool → σ

/-- What a session takes off the stream: a line for `handle_command`, or the `ABOR` that ends a
    transfer. -/
inductive Taken
  | command (line : String)
  | abort
  deriving DecidableEq, Repr

/-- `consume_pending_abor`, when the first `arrived` bytes have arrived. -/
def lookForAbor (arrived : Nat) (stream : List Char) : Bool × List Char :=
  let (aborted, queue) := consumePendingAbor (stream.take arrived)
  (aborted, queue ++ stream.drop arrived)

/-- A transfer takes a line `ABOR` off the stream, or nothing. -/
theorem lookForAbor_cases (arrived : Nat) (stream : List Char) :
    lookForAbor arrived stream = (false, stream) ∨
      ∃ l rest, stream = l ++ '\n' :: rest ∧ '\n' ∉ l ∧ lookForAbor arrived stream = (true, rest) ∧
        IsAbor (String.ofList (withoutCr l)) := by
  rw [lookForAbor]
  rcases consumePendingAbor_cases (stream.take arrived) with
    h | ⟨l, rest, hqueue, hl, h, _, _, habor⟩
  · left
    rw [h]
    exact congrArg (Prod.mk false) (List.take_append_drop arrived stream)
  · right
    refine ⟨l, rest ++ stream.drop arrived, ?_, hl, by rw [h], habor⟩
    rw [← List.cons_append, ← List.append_assoc, ← hqueue, List.take_append_drop]

theorem length_lookForAbor (arrived : Nat) (stream : List Char) :
    (lookForAbor arrived stream).2.length ≤ stream.length := by
  rcases lookForAbor_cases arrived stream with h | ⟨l, rest, hstream, _, h, _⟩
  · rw [h]
  · rw [h, hstream, List.length_append, List.length_cons]
    exact Nat.le_add_left_of_le (Nat.le_succ rest.length)

/-- The loop of `handle_client_thread`: what it takes off the stream, and whether it
    leaves the session. -/
def handleClientThread {σ : Type} (handleCommand : σ → String → Handling σ) (session : σ)
    (stream : List Char) : List Taken × Bool :=
  match _h : readLine (LINE_SIZE - 1) stream with
  | none => ([], false)
  | some (line, rest) =>
    if line = [] then handleClientThread handleCommand session rest
    else
      let handling := handleCommand session (cString line)
      if handling.quit then ([.command (cString line)], true)
      else
        let found := lookForAbor handling.arrived rest
        let (taken, quit) := handleClientThread handleCommand (handling.next found.1) found.2
        (.command (cString line) :: ((if found.1 then [.abort] else []) ++ taken), quit)
termination_by stream.length
decreasing_by
  · exact length_readLine (show 0 < LINE_SIZE - 1 by decide) ‹_›
  · exact (length_lookForAbor _ rest).trans_lt (length_readLine (show 0 < LINE_SIZE - 1 by decide) ‹_›)

/-! ## Lines of a stream -/

/-- The lines that an LF ends. -/
def lfLines (stream : List Char) : List (List Char) := (stream.splitOn '\n').dropLast

/-- What comes after the last LF. -/
def lfTail (stream : List Char) : List Char := (stream.splitOn '\n').getLastD []

/-- The lines without carriage returns, but for the empty ones. -/
def commandTexts (stream : List Char) : List (List Char) :=
  ((lfLines stream).map withoutCr).filter (· ≠ [])

/-- The command lines of a stream. -/
def commandLines (stream : List Char) : List String := (commandTexts stream).map String.ofList

/-- The buffer of the server has room for the lines of a stream, and is not full of what
    comes after them. -/
def HasRoom (stream : List Char) : Prop :=
  (∀ l ∈ lfLines stream, (withoutCr l).length ≤ LINE_SIZE - 1) ∧
    (withoutCr (lfTail stream)).length < LINE_SIZE - 1

/-- Nor is there a NUL, which would end a line for the server. -/
def Fits (stream : List Char) : Prop :=
  HasRoom stream ∧ ∀ text ∈ commandTexts stream, Char.ofNat 0 ∉ text

/-- The line is longer than the buffer. -/
def OverLong (line : String) : Prop := LINE_SIZE - 1 < line.toList.length

/-- What is taken are the lines, one by one; only an over-long one may be refused or
    shortened, as a whole. -/
inductive TakenFrom : List String → List Taken → Prop
  | nil : TakenFrom [] []
  | command {line lines taken} : TakenFrom lines taken →
      TakenFrom (line :: lines) (.command line :: taken)
  | abort {line lines taken} : IsAbor line → TakenFrom lines taken →
      TakenFrom (line :: lines) (.abort :: taken)
  | refuse {line lines taken} : OverLong line → TakenFrom lines taken →
      TakenFrom (line :: lines) taken
  | shorten {line short lines taken} : OverLong line → short.toList <+: line.toList →
      TakenFrom lines taken → TakenFrom (line :: lines) (.command short :: taken)

/-- The result of the loop: the command lines of the stream have been taken off it, all of
    them unless the session has been left. -/
def LineByLine (stream : List Char) (result : List Taken × Bool) : Prop :=
  ∃ read rest, commandLines stream = read ++ rest ∧ TakenFrom read result.1 ∧
    (result.2 = false → rest = [])

section Lines

variable {l : List Char} (hl : '\n' ∉ l)

include hl

theorem lfLines_end : lfLines l = [] := by
  rw [lfLines, List.splitOn_eq_singleton hl]
  rfl

theorem lfTail_end : lfTail l = l := by
  rw [lfTail, List.splitOn_eq_singleton hl]
  rfl

theorem lfLines_line (rest : List Char) : lfLines (l ++ '\n' :: rest) = l :: lfLines rest := by
  rw [lfLines, lfLines, List.splitOn_append_cons_self_of_not_mem hl,
    List.dropLast_cons_of_ne_nil (List.splitOn_ne_nil _ _)]

theorem lfTail_line (rest : List Char) : lfTail (l ++ '\n' :: rest) = lfTail rest := by
  rw [lfTail, lfTail, List.splitOn_append_cons_self_of_not_mem hl]
  obtain ⟨a, b, h⟩ := List.exists_cons_of_ne_nil (List.splitOn_ne_nil '\n' rest)
  rw [h]
  rfl

theorem hasRoom_line (rest : List Char) : HasRoom (l ++ '\n' :: rest) ↔
    (withoutCr l).length ≤ LINE_SIZE - 1 ∧ HasRoom rest := by
  rw [HasRoom, HasRoom, lfLines_line hl, lfTail_line hl, List.forall_mem_cons, and_assoc]

theorem commandTexts_line (rest : List Char) : commandTexts (l ++ '\n' :: rest) =
    if withoutCr l = [] then commandTexts rest else withoutCr l :: commandTexts rest := by
  rw [commandTexts, commandTexts, lfLines_line hl, List.map_cons]
  split_ifs with h
  · rw [h]
    rfl
  · exact List.filter_cons_of_pos (decide_eq_true h)

theorem commandTexts_end : commandTexts l = [] := by
  rw [commandTexts, lfLines_end hl]
  rfl

end Lines

/-- A stream is read to its end, or a line of it at a time. -/
theorem readLine_induction {P : List Char → Prop}
    (hnone : ∀ stream, readLine (LINE_SIZE - 1) stream = none → P stream)
    (hsome : ∀ stream line rest, readLine (LINE_SIZE - 1) stream = some (line, rest) → P rest →
      P stream) (stream : List Char) : P stream := by
  induction hn : stream.length using Nat.strong_induction_on generalizing stream with
  | _ n ih =>
    cases hread : readLine (LINE_SIZE - 1) stream with
    | none => exact hnone stream hread
    | some read =>
      obtain ⟨line, rest⟩ := read
      have hlt := length_readLine (show 0 < LINE_SIZE - 1 by decide) hread
      exact hsome stream line rest hread (ih rest.length (hn ▸ hlt) rest rfl)

/-- Where the stream ends before the line, there is no line, and the buffer is not full. -/
theorem of_readLine_none {stream : List Char} (hread : readLine (LINE_SIZE - 1) stream = none) :
    commandTexts stream = [] ∧ HasRoom stream := by
  rcases readLine_cases (LINE_SIZE - 1) stream with ⟨hl, hlength, _⟩ | ⟨l, rest, hl, rfl, _, hsome⟩ |
    ⟨a, b, ha, rfl, hlength, hsome⟩
  · refine ⟨commandTexts_end hl, ?_⟩
    rw [HasRoom, lfLines_end hl, lfTail_end hl]
    exact ⟨List.forall_mem_nil _, hlength⟩
  · rw [hsome] at hread
    cases hread
  · rw [hsome] at hread
    cases hread

/-- What is read is a line of the stream, unless the buffer is full before its end: then the
    stream ends with it, or something of the line is left or nothing but carriage returns. -/
theorem of_readLine_some {stream line rest : List Char}
    (hread : readLine (LINE_SIZE - 1) stream = some (line, rest)) :
    (HasRoom stream ↔ HasRoom rest) ∧ commandTexts stream =
        (if line = [] then commandTexts rest else line :: commandTexts rest) ∨
      line ≠ [] ∧ commandTexts stream = [] ∧ ¬HasRoom stream ∨
      line ≠ [] ∧ ¬HasRoom stream ∧ ∃ text more, commandTexts rest = text :: more ∧
        commandTexts stream = (line ++ text) :: more := by
  rcases readLine_cases (LINE_SIZE - 1) stream with ⟨_, _, hnone⟩ | ⟨l, rest', hl, rfl, hlength, hsome⟩ |
    ⟨a, b, ha, rfl, hlength, hsome⟩
  · rw [hnone] at hread
    cases hread
  · rw [hsome] at hread
    cases hread
    left
    rw [hasRoom_line hl, commandTexts_line hl]
    exact ⟨and_iff_right hlength.le, rfl⟩
  rw [hsome] at hread
  cases hread
  have hne : withoutCr a ≠ [] := by
    intro hnil
    rw [hnil] at hlength
    exact absurd hlength (by decide)
  rcases exists_line rest with hrest | ⟨c, more, hc, rfl⟩
  · have hl : '\n' ∉ a ++ rest := by
      rw [List.mem_append, not_or]
      exact ⟨ha, hrest⟩
    refine .inr (.inl ⟨hne, commandTexts_end hl, fun hroom => ?_⟩)
    have htail := hroom.2
    rw [lfTail_end hl, withoutCr_append, List.length_append, hlength] at htail
    omega
  · have hl : '\n' ∉ a ++ c := by
      rw [List.mem_append, not_or]
      exact ⟨ha, hc⟩
    have hne' : withoutCr (a ++ c) ≠ [] := by
      rw [withoutCr_append]
      exact List.append_ne_nil_of_left_ne_nil hne _
    rw [← List.append_assoc, hasRoom_line hl, hasRoom_line hc, commandTexts_line hl,
      commandTexts_line hc, if_neg hne', if_neg hne, withoutCr_append, List.length_append, hlength]
    by_cases hempty : withoutCr c = []
    · left
      rw [if_pos hempty, hempty, List.append_nil]
      exact ⟨and_congr_left' (by simp), rfl⟩
    · right
      right
      have hpos := List.length_pos_of_ne_nil hempty
      rw [if_neg hempty]
      exact ⟨hne, fun h => by omega, _, _, rfl, rfl⟩

/-- What is read of a stream that fits: a line of it, or nothing to handle. -/
theorem Fits.of_readLine {stream line rest : List Char} (h : Fits stream)
    (hread : readLine (LINE_SIZE - 1) stream = some (line, rest)) :
    Fits rest ∧ Char.ofNat 0 ∉ line ∧ commandLines stream =
      if line = [] then commandLines rest else String.ofList line :: commandLines rest := by
  obtain ⟨hroom, hnul⟩ := h
  rcases of_readLine_some hread with ⟨hrest, htexts⟩ | ⟨_, _, hnot⟩ | ⟨_, hnot, _⟩
  · rw [hrest] at hroom
    rw [htexts] at hnul
    rw [commandLines, commandLines, htexts]
    split_ifs at hnul ⊢ with hline
    · subst hline
      exact ⟨⟨hroom, hnul⟩, List.not_mem_nil, rfl⟩
    · rw [List.forall_mem_cons] at hnul
      exact ⟨⟨hroom, hnul.2⟩, hnul.1, rfl⟩
  · exact absurd hroom hnot
  · exact absurd hroom hnot

/-- A transfer takes the next command line off a stream that fits, if it is `ABOR`. -/
theorem Fits.of_lookForAbor {stream : List Char} (h : Fits stream) (arrived : Nat) :
    lookForAbor arrived stream = (false, stream) ∨
      ∃ line rest, IsAbor line ∧ lookForAbor arrived stream = (true, rest) ∧ Fits rest ∧
        commandLines stream = line :: commandLines rest := by
  rcases lookForAbor_cases arrived stream with hno | ⟨l, rest, rfl, hl, hyes, habor⟩
  · exact .inl hno
  right
  have hne : withoutCr l ≠ [] := by
    intro hnil
    rw [hnil] at habor
    exact absurd habor (by unfold IsAbor; decide)
  obtain ⟨hroom, hnul⟩ := h
  rw [commandTexts_line hl, if_neg hne, List.forall_mem_cons] at hnul
  refine ⟨_, rest, habor, hyes, ⟨((hasRoom_line hl rest).1 hroom).2, hnul.2⟩, ?_⟩
  rw [commandLines, commandTexts_line hl, if_neg hne]
  rfl

theorem LineByLine.cons {stream rest : List Char} {line : String} {entry : Taken}
    {taken : List Taken} {quit : Bool} (h : LineByLine rest (taken, quit))
    (hstream : commandLines stream = line :: commandLines rest)
    (hentry : ∀ {lines}, TakenFrom lines taken → TakenFrom (line :: lines) (entry :: taken)) :
    LineByLine stream (entry :: taken, quit) := by
  obtain ⟨read, later, hrest, htaken, hquit⟩ := h
  exact ⟨line :: read, later, by rw [hstream, hrest, List.cons_append], hentry htaken, hquit⟩

/-- A session takes its command lines off a stream that fits, one by one. -/
theorem Fits.lineByLine {σ : Type} {handleCommand : σ → String → Handling σ} {session : σ}
    {stream : List Char} (h : Fits stream) :
    LineByLine stream (handleClientThread handleCommand session stream) := by
  fun_induction handleClientThread handleCommand session stream with
  | case1 session stream hread =>
    exact ⟨[], [], by rw [commandLines, (of_readLine_none hread).1]; rfl, .nil, fun _ => rfl⟩
  | case2 session stream rest hread ih =>
    obtain ⟨hrest, _, hlines⟩ := h.of_readLine hread
    obtain ⟨read, later, heq, htaken⟩ := ih hrest
    exact ⟨read, later, by rw [hlines, if_pos rfl, heq], htaken⟩
  | case3 session stream line rest hread hline handling hquit =>
    obtain ⟨_, hnul, hlines⟩ := h.of_readLine hread
    rw [if_neg hline] at hlines
    rw [cString_of_not_mem hnul]
    exact ⟨[String.ofList line], commandLines rest, hlines, .command .nil, fun hquit => by cases hquit⟩
  | case4 session stream line rest hread hline handling hquit found taken quit hresult ih =>
    obtain ⟨hrest, hnul, hlines⟩ := h.of_readLine hread
    rw [if_neg hline] at hlines
    rw [cString_of_not_mem hnul]
    rw [hresult] at ih
    have hfound : found = lookForAbor handling.arrived rest := rfl
    clear_value found
    rcases hrest.of_lookForAbor handling.arrived with hno | ⟨abor, rest', habor, hyes, hrest', hlines'⟩
    · obtain rfl := hfound.trans hno
      exact (ih hrest).cons hlines .command
    · -- The line `ABOR` comes next.
      obtain rfl := hfound.trans hyes
      exact ((ih hrest').cons hlines' (.abort habor)).cons hlines .command

/-! ## Lines that do not fit -/

/-- A session that takes every line as it comes. -/
def idle (_ : Unit) (_ : String) : Handling Unit :=
  { quit := false, arrived := 0, next := fun _ => () }

theorem handleClientThread_idle (stream : List Char) :
    handleClientThread idle () stream =
      match readLine (LINE_SIZE - 1) stream with
      | none => ([], false)
      | some (line, rest) =>
        if line = [] then handleClientThread idle () rest
        else (.command (cString line) :: (handleClientThread idle () rest).1,
          (handleClientThread idle () rest).2) := by
  have hnone : ∀ rest, lookForAbor 0 rest = (false, rest) := fun rest => rfl
  rw [handleClientThread]
  split
  · rename_i hread
    rw [hread]
  · rename_i line rest hread
    rw [hread]
    simp only [idle, hnone, Bool.false_eq_true, if_false, List.nil_append]

/-- What such a session takes off the stream. -/
def pieces (stream : List Char) : List Taken := (handleClientThread idle () stream).1

theorem pieces_none {stream : List Char} (h : readLine (LINE_SIZE - 1) stream = none) :
    pieces stream = [] := by
  rw [pieces, handleClientThread_idle, h]

theorem pieces_some {stream line rest : List Char}
    (h : readLine (LINE_SIZE - 1) stream = some (line, rest)) :
    pieces stream = if line = [] then pieces rest else .command (cString line) :: pieces rest := by
  rw [pieces, handleClientThread_idle, h]
  split_ifs with hline <;> simp only [hline, if_true, if_false] <;> rfl

theorem idle_not_quit (stream : List Char) : (handleClientThread idle () stream).2 = false := by
  induction stream using readLine_induction with
  | hnone stream hread => rw [handleClientThread_idle, hread]
  | hsome stream line rest hread ih =>
    rw [handleClientThread_idle, hread]
    dsimp only
    split_ifs
    · exact ih
    · exact ih

/-- Every line is taken, an over-long one more than once; and so is what fills the buffer
    after the last. -/
theorem length_pieces (stream : List Char) :
    (commandTexts stream).length ≤ (pieces stream).length ∧
      ((pieces stream).length ≤ (commandTexts stream).length → HasRoom stream) := by
  induction stream using readLine_induction with
  | hnone stream hread =>
    obtain ⟨htexts, hroom⟩ := of_readLine_none hread
    rw [htexts]
    exact ⟨Nat.zero_le _, fun _ => hroom⟩
  | hsome stream line rest hread ih =>
    rw [pieces_some hread]
    rcases of_readLine_some hread with ⟨hroom, htexts⟩ | ⟨hline, htexts, _⟩ |
      ⟨hline, _, text, more, hrest, htexts⟩
    · rw [hroom, htexts]
      split_ifs
      · exact ih
      · simpa only [List.length_cons, Nat.add_le_add_iff_right] using ih
    · rw [if_neg hline, htexts]
      exact ⟨Nat.zero_le _, fun h => absurd h (Nat.not_succ_le_zero _)⟩
    · -- The rest of the line is taken as well.
      rw [if_neg hline, htexts]
      rw [hrest] at ih
      simp only [List.length_cons] at ih ⊢
      exact ⟨by omega, fun h => by omega⟩

/-- Where there is room for every line, each is taken as a string. -/
theorem pieces_of_hasRoom {stream : List Char} (h : HasRoom stream) :
    pieces stream = (commandTexts stream).map fun text => .command (cString text) := by
  induction stream using readLine_induction with
  | hnone stream hread =>
    rw [pieces_none hread, (of_readLine_none hread).1]
    rfl
  | hsome stream line rest hread ih =>
    rw [pieces_some hread]
    rcases of_readLine_some hread with ⟨hroom, htexts⟩ | ⟨_, _, hnot⟩ | ⟨_, hnot, _⟩
    · rw [htexts, ih (hroom.1 h)]
      split_ifs <;> rfl
    · exact absurd h hnot
    · exact absurd h hnot

theorem TakenFrom.length_le {lines : List String} {taken : List Taken} (h : TakenFrom lines taken) :
    taken.length ≤ lines.length := by
  induction h with
  | nil => exact le_rfl
  | command _ ih => exact Nat.succ_le_succ ih
  | abort _ _ ih => exact Nat.succ_le_succ ih
  | refuse _ _ ih => exact ih.trans (Nat.le_succ _)
  | shorten _ _ _ ih => exact Nat.succ_le_succ ih

/-- Lines that are not over-long are taken as they are, if they are not ended by a transfer. -/
theorem TakenFrom.eq_map {texts : List (List Char)} {f : List Char → String}
    (htexts : ∀ text ∈ texts, ¬OverLong (String.ofList text))
    (h : TakenFrom (texts.map String.ofList) (texts.map fun text => .command (f text))) :
    ∀ text ∈ texts, f text = String.ofList text := by
  induction texts with
  | nil => exact List.forall_mem_nil _
  | cons text texts ih =>
    rw [List.forall_mem_cons] at htexts ⊢
    rw [List.map_cons, List.map_cons] at h
    generalize String.ofList text = line at h htexts ⊢
    generalize f text = line' at h ⊢
    cases h with
    | command h => exact ⟨rfl, ih htexts.2 h⟩
    | refuse hlong => exact absurd hlong htexts.1
    | shorten hlong => exact absurd hlong htexts.1

/-- What an idle session takes off the stream, if it is taken one by one. -/
theorem LineByLine.pieces {stream : List Char}
    (h : LineByLine stream (handleClientThread idle () stream)) :
    TakenFrom (commandLines stream) (pieces stream) ∧ HasRoom stream := by
  obtain ⟨read, rest, hlines, htaken, hquit⟩ := h
  rw [hquit (idle_not_quit stream), List.append_nil] at hlines
  rw [← hlines] at htaken
  refine ⟨htaken, (length_pieces stream).2 (htaken.length_le.trans_eq ?_)⟩
  rw [commandLines, List.length_map]

/-- A session takes its command lines off a stream one by one, whatever they do, if and
    only if it fits: if there are no more than 511 characters without the carriage returns
    in any line, and no NUL, and fewer than 511 after the last line. -/
theorem lineByLine_iff_fits (stream : List Char) :
    (∀ (σ : Type) (handleCommand : σ → String → Handling σ) (session : σ),
      LineByLine stream (handleClientThread handleCommand session stream)) ↔ Fits stream := by
  refine ⟨fun h => ?_, fun h σ handleCommand session => h.lineByLine⟩
  obtain ⟨hpieces, hroom⟩ := (h Unit idle ()).pieces
  refine ⟨hroom, fun text htext hnul => ?_⟩
  have hshort : ∀ text ∈ commandTexts stream, ¬OverLong (String.ofList text) := by
    intro text htext
    obtain ⟨l, hl, rfl⟩ := List.mem_map.1 (List.mem_of_mem_filter htext)
    rw [OverLong, String.toList_ofList, not_lt]
    exact hroom.1 l hl
  -- Without over-long lines, the strings are the lines themselves.
  rw [pieces_of_hasRoom hroom, commandLines] at hpieces
  have heq := congrArg String.toList (hpieces.eq_map hshort text htext)
  rw [cString, String.toList_ofList, String.toList_ofList, List.takeWhile_eq_self_iff] at heq
  exact absurd (heq _ hnul) (by decide)

/-- What is read of a command that is sent as a line. -/
theorem pieces_command {fuel : Nat} {l : List Char} (hl : '\n' ∉ l)
    (hfuel : (withoutCr l).length ≤ fuel) :
    pieces (l ++ ['\n']) = (fillLines fuel (withoutCr l)).map fun line => .command (cString line) := by
  have hend : pieces [] = [] := pieces_none rfl
  induction fuel generalizing l with
  | zero =>
    have hempty : withoutCr l = [] := List.eq_nil_of_length_eq_zero (Nat.le_zero.1 hfuel)
    have hread := (readLine_line hl (by rw [hempty]; decide : _ < LINE_SIZE - 1)).2 []
    rw [pieces_some hread, if_pos hempty, hend]
    rfl
  | succ fuel ih =>
    rw [fillLines]
    rcases Nat.lt_or_ge (withoutCr l).length (LINE_SIZE - 1) with hlt | hge
    · rw [pieces_some ((readLine_line hl hlt).2 []), hend, List.take_of_length_le hlt.le,
        List.drop_eq_nil_of_le hlt.le]
      split_ifs
      · rfl
      · cases fuel <;> rfl
    · obtain ⟨a, b, rfl, hlength, hread⟩ := readLine_full hl hge
      have hne : withoutCr a ≠ [] := by
        intro hnil
        rw [hnil] at hlength
        exact absurd hlength (by decide)
      rw [withoutCr_append] at hfuel ⊢
      rw [List.length_append, hlength, LINE_SIZE] at hfuel
      have hrest := ih (fun h => hl (List.mem_append_right a h)) (by omega)
      rw [pieces_some (hread ['\n']), if_neg hne, hrest,
        if_neg (List.append_ne_nil_of_left_ne_nil hne _), List.take_left' hlength,
        List.drop_left' hlength, List.map_cons]

/-- A command that is sent with its line end is taken as the lines that are read of it. -/
theorem pieces_readLines {command : String} (h : '\n' ∉ command.toList) :
    pieces (command.toList ++ "\r\n".toList) = (readLines command).map .command := by
  have hcr : withoutCr (command.toList ++ ['\r']) = withoutCr command.toList := by
    rw [withoutCr_append]
    exact List.append_nil _
  have hl : '\n' ∉ command.toList ++ ['\r'] := by
    rw [List.mem_append, not_or]
    exact ⟨h, by decide⟩
  have hpieces := pieces_command hl le_rfl
  rw [hcr, List.append_assoc] at hpieces
  rw [readLines, List.map_map]
  exact hpieces

theorem readLine_replicate (n : Nat) (stream : List Char) :
    readLine n (List.replicate n 'A' ++ stream) = some (List.replicate n 'A', stream) := by
  induction n with
  | zero => rw [readLine.eq_def]; rfl
  | succ n ih =>
    rw [List.replicate_succ, List.cons_append, readLine_cons (by decide) (by decide), ih]
    rfl

/-- The end of a long line is handled as a command of its own. -/
theorem not_lineByLine_long :
    pieces (List.replicate 511 'A' ++ "DELE x\r\n".toList) =
        [.command (cString (List.replicate 511 'A')), .command "DELE x"] ∧
      ¬LineByLine (List.replicate 511 'A' ++ "DELE x\r\n".toList)
        (handleClientThread idle () (List.replicate 511 'A' ++ "DELE x\r\n".toList)) := by
  have hnot : ∀ c, c ≠ 'A' → c ∉ List.replicate 511 'A' := fun c hc h =>
    hc (List.eq_of_mem_replicate h)
  have hlf : '\n' ∉ List.replicate 511 'A' ++ "DELE x\r".toList := by
    rw [List.mem_append, not_or]
    exact ⟨hnot '\n' (by decide), by decide⟩
  have hstream : List.replicate 511 'A' ++ "DELE x\r\n".toList =
      (List.replicate 511 'A' ++ "DELE x\r".toList) ++ '\n' :: [] := by
    rw [List.append_assoc]
    rfl
  constructor
  · rw [pieces_some (readLine_replicate 511 _),
      if_neg (List.ne_nil_of_length_pos (by rw [List.length_replicate]; decide)),
      pieces_some (show readLine (LINE_SIZE - 1) "DELE x\r\n".toList = some ("DELE x".toList, []) by decide),
      if_neg (by decide), pieces_none (by decide)]
    rfl
  · intro h
    have hroom := h.pieces.2
    rw [hstream, hasRoom_line hlf, withoutCr_append, List.length_append,
      withoutCr_of_not_mem (hnot '\r' (by decide)), List.length_replicate] at hroom
    exact absurd hroom.1 (by decide)

end HybridFtp
