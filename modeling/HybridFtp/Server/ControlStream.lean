import HybridFtp.Common.CommandLine

/-!
# The control stream

How the server reads from the control connection.

* `readLine`, `consumePendingAbor`: the two functions that read from it, on what has
  arrived and has not been read;
* `readLine_cases`: a line is read, or as much of it as the buffer has room for;
* `isAbor_of_blank`, `exists_of_isAbor`: what is parsed as `ABOR` without an argument;
* `consumePendingAbor_spec`: a transfer takes such a line from what has arrived, or
  nothing.
-/

namespace HybridFtp

/-! ## Reading from the stream -/

/-- `read_line`, with room for so many characters: the line and what is left of the
    stream, unless it ends before. -/
def readLine : Nat → List Char → Option (List Char × List Char)
  | 0, stream => some ([], stream)
  | _ + 1, [] => none
  | room + 1, c :: stream =>
    if c = '\n' then some ([], stream)
    else if c = '\r' then readLine (room + 1) stream
    else (readLine room stream).map fun (line, rest) => (c :: line, rest)

/-- A buffer as a string: up to its first NUL. -/
def cString (buffer : List Char) : String :=
  String.ofList (buffer.takeWhile (· ≠ Char.ofNat 0))

/-- `consume_pending_abor`: whether there was a line `ABOR`, and what is left of what has
    arrived. -/
def consumePendingAbor (queue : List Char) : Bool × List Char :=
  let peekBuffer := queue.take (LINE_SIZE - 1)
  if '\n' ∉ peekBuffer then (false, queue)
  else
    let line := peekBuffer.takeWhile (· ≠ '\n')
    let line := if line.getLast? = some '\r' then line.dropLast else line
    let command := CommandParser.parse (String.ofList line)
    if ¬command.valid ∨ command.name ≠ "ABOR" ∨ command.argument ≠ "" then (false, queue)
    else
      match readLine (LINE_SIZE - 1) queue with
      | some (_, rest) => (true, rest)
      | none => (false, [])

/-- A line without its carriage returns. -/
def withoutCr (line : List Char) : List Char := line.filter (· ≠ '\r')

theorem withoutCr_cr (line : List Char) : withoutCr ('\r' :: line) = withoutCr line := rfl

theorem withoutCr_cons {c : Char} (hcr : c ≠ '\r') (line : List Char) :
    withoutCr (c :: line) = c :: withoutCr line :=
  List.filter_cons_of_pos (decide_eq_true hcr)

theorem readLine_lf (room : Nat) (stream : List Char) :
    readLine (room + 1) ('\n' :: stream) = some ([], stream) := by
  rw [readLine, if_pos rfl]

theorem readLine_cr (room : Nat) (stream : List Char) :
    readLine (room + 1) ('\r' :: stream) = readLine (room + 1) stream := by
  rw [readLine, if_neg (by decide), if_pos rfl]

theorem readLine_cons {c : Char} (hlf : c ≠ '\n') (hcr : c ≠ '\r') (room : Nat)
    (stream : List Char) : readLine (room + 1) (c :: stream) =
      (readLine room stream).map fun (line, rest) => (c :: line, rest) := by
  rw [readLine, if_neg hlf, if_neg hcr]

/-- A line that there is room for is read as a whole, if the stream does not end before. -/
theorem readLine_line {l : List Char} (hl : '\n' ∉ l) {room : Nat}
    (hroom : (withoutCr l).length < room) :
    readLine room l = none ∧
      ∀ rest, readLine room (l ++ '\n' :: rest) = some (withoutCr l, rest) := by
  induction l generalizing room with
  | nil =>
    obtain ⟨room, rfl⟩ := Nat.exists_eq_succ_of_ne_zero (Nat.ne_of_gt hroom)
    exact ⟨rfl, readLine_lf room⟩
  | cons c l ih =>
    rw [List.mem_cons, not_or] at hl
    obtain ⟨room, rfl⟩ := Nat.exists_eq_succ_of_ne_zero (Nat.ne_of_gt (Nat.zero_lt_of_lt hroom))
    by_cases hcr : c = '\r'
    · subst hcr
      simp only [List.cons_append, readLine_cr, withoutCr_cr]
      exact ih hl.2 hroom
    · rw [withoutCr_cons hcr, List.length_cons, Nat.succ_lt_succ_iff] at hroom
      obtain ⟨hend, hline⟩ := ih hl.2 hroom
      simp only [List.cons_append, readLine_cons (Ne.symm hl.1) hcr, hend, hline, withoutCr_cons hcr,
        Option.map_none, Option.map_some, implies_true, and_self]

/-- A line that fills the buffer is left where the buffer is full. -/
theorem readLine_full {l : List Char} (hl : '\n' ∉ l) {room : Nat}
    (hroom : room ≤ (withoutCr l).length) :
    ∃ a b, l = a ++ b ∧ (withoutCr a).length = room ∧
      ∀ tail, readLine room (l ++ tail) = some (withoutCr a, b ++ tail) := by
  induction l generalizing room with
  | nil =>
    obtain rfl : room = 0 := Nat.le_zero.1 hroom
    exact ⟨[], [], rfl, rfl, fun _ => by rw [readLine]; rfl⟩
  | cons c l ih =>
    rw [List.mem_cons, not_or] at hl
    cases room with
    | zero => exact ⟨[], c :: l, rfl, rfl, fun _ => by rw [readLine]; rfl⟩
    | succ room =>
      by_cases hcr : c = '\r'
      · subst hcr
        obtain ⟨a, b, rfl, hlength, hread⟩ := ih hl.2 hroom
        refine ⟨'\r' :: a, b, rfl, hlength, fun tail => ?_⟩
        rw [List.cons_append, readLine_cr, hread, withoutCr_cr]
      · rw [withoutCr_cons hcr, List.length_cons, Nat.succ_le_succ_iff] at hroom
        obtain ⟨a, b, rfl, hlength, hread⟩ := ih hl.2 hroom
        refine ⟨c :: a, b, rfl, by rw [withoutCr_cons hcr, List.length_cons, hlength], fun tail => ?_⟩
        rw [List.cons_append, readLine_cons (Ne.symm hl.1) hcr, hread, withoutCr_cons hcr,
          Option.map_some]

/-- A stream is a line after the other. -/
theorem exists_line (stream : List Char) :
    '\n' ∉ stream ∨ ∃ l rest, '\n' ∉ l ∧ stream = l ++ '\n' :: rest := by
  by_cases h : '\n' ∈ stream
  · obtain ⟨l, rest, hstream, hl⟩ := List.eq_append_cons_of_mem h
    exact .inr ⟨l, rest, hl, hstream⟩
  · exact .inl h

/-- What is read: the first line, or as much of it as the buffer has room for. -/
theorem readLine_cases (room : Nat) (stream : List Char) :
    ('\n' ∉ stream ∧ (withoutCr stream).length < room ∧ readLine room stream = none) ∨
      (∃ l rest, '\n' ∉ l ∧ stream = l ++ '\n' :: rest ∧ (withoutCr l).length < room ∧
        readLine room stream = some (withoutCr l, rest)) ∨
      ∃ a b, '\n' ∉ a ∧ stream = a ++ b ∧ (withoutCr a).length = room ∧
        readLine room stream = some (withoutCr a, b) := by
  rcases exists_line stream with hl | ⟨l, rest, hl, rfl⟩
  · rcases Nat.lt_or_ge (withoutCr stream).length room with hlt | hge
    · exact .inl ⟨hl, hlt, (readLine_line hl hlt).1⟩
    · obtain ⟨a, b, rfl, hlength, hread⟩ := readLine_full hl hge
      have hread := hread []
      rw [List.append_nil, List.append_nil] at hread
      exact .inr (.inr ⟨a, b, fun h => hl (List.mem_append_left b h), rfl, hlength, hread⟩)
  · rcases Nat.lt_or_ge (withoutCr l).length room with hlt | hge
    · exact .inr (.inl ⟨l, rest, hl, rfl, hlt, (readLine_line hl hlt).2 rest⟩)
    · obtain ⟨a, b, rfl, hlength, hread⟩ := readLine_full hl hge
      exact .inr (.inr ⟨a, b ++ '\n' :: rest, fun h => hl (List.mem_append_left b h),
        List.append_assoc _ _ _, hlength, hread _⟩)

theorem length_readLine {room : Nat} (hroom : 0 < room) {stream line rest : List Char}
    (h : readLine room stream = some (line, rest)) : rest.length < stream.length := by
  rcases readLine_cases room stream with ⟨_, _, hnone⟩ | ⟨l, rest', _, rfl, _, hsome⟩ |
    ⟨a, b, _, rfl, hlength, hsome⟩
  · rw [hnone] at h
    cases h
  · rw [hsome] at h
    cases h
    rw [List.length_append, List.length_cons]
    omega
  · rw [hsome] at h
    cases h
    have hle : (withoutCr a).length ≤ a.length := List.length_filter_le _ _
    rw [List.length_append]
    omega

/-! ## Looking for `ABOR` -/

namespace CommandParser

theorem toUpper_mem_of_eq {text : String} (h : toUpper text = "ABOR") :
    ∀ c ∈ text.toList, c.toUpper ∈ ['A', 'B', 'O', 'R'] := by
  intro c hc
  have hlist := congrArg String.toList h
  rw [toUpper, String.toList_ofList] at hlist
  have hmem : c.toUpper ∈ text.toList.map Char.toUpper := List.mem_map_of_mem hc
  rwa [hlist] at hmem

theorem isBlank_of_toUpper_eq {text : String} (h : toUpper text = "ABOR") :
    ∀ c ∈ text.toList, isBlank c = false := by
  intro c hc
  have hletter : ∀ d ∈ ['A', 'B', 'O', 'R'], isBlank d = false := by simp [isBlank]
  rw [← isBlank_toUpper]
  exact hletter _ (toUpper_mem_of_eq h c hc)

/-- A text that is parsed as `ABOR` without an argument. -/
def IsAbor (text : String) : Prop := parse text = ⟨"ABOR", "", true⟩

/-- A name with blanks around it, and nothing else, is a command without an argument. -/
theorem isAbor_of_blank {before w after : List Char} (hbefore : ∀ c ∈ before, isBlank c = true)
    (hw : toUpper (String.ofList w) = "ABOR") (hafter : ∀ c ∈ after, isBlank c = true) :
    IsAbor (String.ofList (before ++ w ++ after)) := by
  have hblank := isBlank_of_toUpper_eq hw
  rw [String.toList_ofList] at hblank
  have hsep : ∀ c ∈ w, isSeparator c = false := by
    intro c hc
    rw [← Bool.not_eq_true]
    intro hsep
    have hc' := hblank c hc
    rw [isBlank_of_isSeparator hsep] at hc'
    cases hc'
  have hne : w ≠ [] := by
    rintro rfl
    exact absurd hw (by decide)
  let p : CommandParts := {
    before, word := w, gap := [], argument := [], after
    before_blank := hbefore
    gap_blank := List.forall_mem_nil _
    after_blank := hafter
    word_ne_nil := hne
    word_name := hsep
    word_head := fun c hc => hblank c (List.mem_of_mem_head? hc)
    word_last := fun _ => ⟨rfl, fun c hc => hblank c (List.mem_of_mem_getLast? hc)⟩
    gap_head := fun h => absurd rfl h
    argument_head := by simp
    argument_last := by simp }
  have htext : p.text = before ++ w ++ after := by simp [p, CommandParts.text]
  rw [IsAbor, ← htext, p.parse_text, CommandParts.command, hw]

/-- Where a text is read as `ABOR`: there is nothing else than blanks around it. -/
theorem exists_of_isAbor {text : String} (h : IsAbor text) :
    ∃ before w after, text.toList = before ++ w ++ after ∧ (∀ c ∈ before, isBlank c = true) ∧
      toUpper (String.ofList w) = "ABOR" ∧ ∀ c ∈ after, isBlank c = true := by
  rcases parse_cases text with ⟨_, heq⟩ | ⟨p, rfl, heq⟩
  · rw [IsAbor, heq] at h
    exact absurd h (by decide)
  · rw [IsAbor, heq] at h
    obtain ⟨hname, hargument, -⟩ := ParsedCommand.mk.inj h
    have harg : p.argument = [] := by
      simpa using congrArg String.toList hargument
    refine ⟨p.before, p.word, p.after, ?_, p.before_blank, hname, p.after_blank⟩
    rw [String.toList_ofList, CommandParts.text, harg, (p.word_last harg).1]
    simp only [List.append_nil]

end CommandParser

open CommandParser

theorem mem_withoutCr {c : Char} {l : List Char} : c ∈ withoutCr l ↔ c ∈ l ∧ c ≠ '\r' := by
  rw [withoutCr, List.mem_filter, decide_eq_true_eq]

theorem withoutCr_append (l l' : List Char) : withoutCr (l ++ l') = withoutCr l ++ withoutCr l' :=
  List.filter_append _ _

theorem withoutCr_of_not_mem {l : List Char} (h : '\r' ∉ l) : withoutCr l = l := by
  refine List.filter_eq_self.2 fun c hc => decide_eq_true ?_
  rintro rfl
  exact h hc

/-- A line read as `ABOR` is still read so without its carriage returns, and there is no
    NUL in it. -/
theorem isAbor_withoutCr {l : List Char} (h : IsAbor (String.ofList l)) :
    IsAbor (String.ofList (withoutCr l)) ∧ Char.ofNat 0 ∉ l := by
  obtain ⟨before, w, after, heq, hbefore, hw, hafter⟩ := exists_of_isAbor h
  rw [String.toList_ofList] at heq
  subst heq
  have hmem := toUpper_mem_of_eq hw
  have hblank := isBlank_of_toUpper_eq hw
  rw [String.toList_ofList] at hmem hblank
  have hcr : '\r' ∉ w := fun hc => absurd (hblank _ hc) (by decide)
  constructor
  · rw [withoutCr_append, withoutCr_append, withoutCr_of_not_mem hcr]
    exact isAbor_of_blank (fun c hc => hbefore c (mem_withoutCr.1 hc).1) hw
      fun c hc => hafter c (mem_withoutCr.1 hc).1
  · rw [List.mem_append, List.mem_append, not_or, not_or]
    exact ⟨⟨fun hc => absurd (hbefore _ hc) (by decide), fun hc => absurd (hmem _ hc) (by decide)⟩,
      fun hc => absurd (hafter _ hc) (by decide)⟩

/-- The last carriage return of a line. -/
theorem withoutCr_dropLast (l : List Char) :
    withoutCr (if l.getLast? = some '\r' then l.dropLast else l) = withoutCr l := by
  split_ifs with h
  · obtain ⟨l, rfl⟩ := List.getLast?_eq_some_iff.1 h
    rw [List.dropLast_concat, withoutCr_append]
    exact (List.append_nil _).symm
  · rfl

theorem cString_of_not_mem {l : List Char} (h : Char.ofNat 0 ∉ l) : cString l = String.ofList l := by
  rw [cString, List.takeWhile_eq_self_iff.2]
  intro c hc
  refine decide_eq_true ?_
  rintro rfl
  exact h hc

/-- A transfer leaves what has arrived as it is, or takes its first line, with its LF: a
    line that the session reads as `ABOR` without an argument, and nothing else of it. -/
theorem consumePendingAbor_cases (queue : List Char) :
    consumePendingAbor queue = (false, queue) ∨
      ∃ l rest, queue = l ++ '\n' :: rest ∧ '\n' ∉ l ∧ consumePendingAbor queue = (true, rest) ∧
        readLine (LINE_SIZE - 1) queue = some (withoutCr l, rest) ∧
        Char.ofNat 0 ∉ withoutCr l ∧ IsAbor (String.ofList (withoutCr l)) := by
  rw [consumePendingAbor]
  by_cases hlf : '\n' ∈ queue.take (LINE_SIZE - 1)
  · obtain ⟨l, more, hpeek, hl⟩ := List.eq_append_cons_of_mem hlf
    have hqueue : queue = l ++ '\n' :: (more ++ queue.drop (LINE_SIZE - 1)) := by
      rw [← List.cons_append, ← List.append_assoc, ← hpeek, List.take_append_drop]
    have hline : (queue.take (LINE_SIZE - 1)).takeWhile (· ≠ '\n') = l := by
      rw [hpeek]
      exact (span_append (fun c hc => decide_eq_true (ne_of_mem_of_not_mem hc hl)) fun c hc => by
        cases hc
        rfl).1
    have hshort : l.length < LINE_SIZE - 1 := by
      have hlength := congrArg List.length hpeek
      rw [List.length_take, List.length_append, List.length_cons] at hlength
      omega
    have hread := (readLine_line hl ((List.length_filter_le _ _).trans_lt hshort)).2
      (more ++ queue.drop (LINE_SIZE - 1))
    rw [← hqueue] at hread
    have hpop := withoutCr_dropLast l
    rw [if_neg (not_not.2 hlf), hline]
    dsimp only
    rw [hread]
    generalize (if l.getLast? = some '\r' then l.dropLast else l) = line at hpop ⊢
    by_cases habor : IsAbor (String.ofList line)
    · -- A line that is parsed as `ABOR` is read as a whole.
      obtain ⟨hisAbor, hnul⟩ := isAbor_withoutCr habor
      rw [hpop] at hisAbor
      have hnul' : Char.ofNat 0 ∉ withoutCr l := by
        rw [← hpop, mem_withoutCr]
        exact fun h => hnul h.1
      rw [IsAbor] at habor
      rw [habor, if_neg (by decide)]
      exact .inr ⟨l, more ++ queue.drop (LINE_SIZE - 1), hqueue, hl, rfl, rfl, hnul', hisAbor⟩
    · rw [if_pos]
      · exact .inl rfl
      · by_contra hparsed
        rw [not_or, not_or, not_not, not_not, not_not] at hparsed
        exact habor (by rw [IsAbor, ← hparsed.1, ← hparsed.2.1, ← hparsed.2.2])
  · left
    exact if_pos hlf

/-- A transfer takes a line `ABOR` from what has arrived, or nothing: the line is the one
    that the session would have read and parsed as `ABOR` without an argument, and what
    comes after it stays. -/
theorem consumePendingAbor_spec (queue : List Char) :
    consumePendingAbor queue = (false, queue) ∨
      ∃ line rest, queue = line ++ '\n' :: rest ∧ '\n' ∉ line ∧
        consumePendingAbor queue = (true, rest) ∧
        ∃ buffer, readLine (LINE_SIZE - 1) queue = some (buffer, rest) ∧
          parse (cString buffer) = { name := "ABOR", argument := "", valid := true } := by
  refine (consumePendingAbor_cases queue).imp id ?_
  rintro ⟨line, rest, hqueue, hline, hconsume, hread, hnul, habor⟩
  refine ⟨line, rest, hqueue, hline, hconsume, withoutCr line, hread, ?_⟩
  rw [cString_of_not_mem hnul]
  exact habor

end HybridFtp
