import HybridFtp.Lib.Scan

/-!
# The control channel

How the client reads replies from the stream of the control connection. Where the
connection ends, so does the stream.

* `recvReply`: a reply of one or more lines; `recvControlReply`: a line, as it comes;
* `Reply`: what a server sends as one reply;
* `recvReply_wire`, `recvControlReply_wire`: a reply is read as a whole, or its first
  line, and what follows it is left.
-/

namespace HybridFtp

/-- A line without its end, and what follows. -/
def recvLine (stream : List Char) : List Char × List Char :=
  let line := stream.takeWhile (· ≠ '\n')
  match stream.dropWhile (· ≠ '\n') with
  | [] => (line, [])
  | _ :: rest => (if line.getLast? = some '\r' then line.dropLast else line, rest)

/-- The lines up to the one that ends the reply, each after a separator: at most `fuel`
    ones. -/
def recvLines (replyCode : List Char) : Nat → List Char → List Char × List Char
  | 0, stream => ([], stream)
  | fuel + 1, stream =>
    let (nextLine, rest) := recvLine stream
    -- An empty line, or no more lines.
    if nextLine = [] then ([], rest)
    else if replyCode ++ [' '] <+: nextLine then ('\n' :: nextLine, rest)
    else
      let (more, rest) := recvLines replyCode fuel rest
      ('\n' :: nextLine ++ more, rest)

/-- A line takes one character at least, which bounds the number of lines. -/
def recvReply (stream : List Char) : String × List Char :=
  let (firstLine, rest) := recvLine stream
  if firstLine = [] then ("", rest)
  -- A reply of several lines starts with "XYZ-".
  else if firstLine[3]? ≠ some '-' then (String.ofList firstLine, rest)
  else
    let (more, rest) := recvLines (firstLine.take 3) rest.length rest
    (String.ofList (firstLine ++ more), rest)

/-- A line with its end, and what follows. -/
def recvControlReply (stream : List Char) : String × List Char :=
  let line := stream.takeWhile (· ≠ '\n')
  let rest := stream.dropWhile (· ≠ '\n')
  (String.ofList (line ++ rest.take 1), rest.drop 1)

/-! ## Replies -/

/-- The last of the lines, and no other, starts with the code and a space. -/
def Terminated (replyCode : List Char) : List (List Char) → Prop
  | [] => False
  | [last] => replyCode ++ [' '] <+: last
  | line :: more => ¬replyCode ++ [' '] <+: line ∧ Terminated replyCode more

/-- A reply: its first line, and the others if there is a hyphen after the code. -/
structure Reply where
  first : List Char
  more : List (List Char) := []
  isLine : ∀ line ∈ first :: more, line ≠ [] ∧ '\n' ∉ line
  complete : if first[3]? = some '-' then Terminated (first.take 3) more else more = []

namespace Reply

/-- Lines, with their ends. -/
def wireLines (lines : List (List Char)) : List Char := lines.flatMap (· ++ ['\r', '\n'])

/-- What is sent. -/
def wire (r : Reply) : List Char := wireLines (r.first :: r.more)

/-- What is read. -/
def text (r : Reply) : String := String.ofList (r.first ++ r.more.flatMap ('\n' :: ·))

/-- A 1xx reply. -/
def Preliminary (r : Reply) : Prop := r.first.head? = some '1'

instance (r : Reply) : Decidable r.Preliminary :=
  inferInstanceAs (Decidable (r.first.head? = some '1'))

/-- A reply of one line. -/
def ofLine (line : String)
    (h : line.toList ≠ [] ∧ '\n' ∉ line.toList ∧ line.toList[3]? ≠ some '-') : Reply where
  first := line.toList
  isLine := by
    intro l hl
    rw [List.mem_singleton.1 hl]
    exact ⟨h.1, h.2.1⟩
  complete := by rw [if_neg h.2.2]

@[simp] theorem wireLines_nil : wireLines [] = [] := rfl

@[simp] theorem wireLines_cons (line : List Char) (lines : List (List Char)) :
    wireLines (line :: lines) = line ++ '\r' :: '\n' :: wireLines lines := by
  simp [wireLines]

theorem wireLines_eq_nil_iff {lines : List (List Char)} : wireLines lines = [] ↔ lines = [] := by
  cases lines <;> simp

theorem wire_ne_nil (r : Reply) : r.wire ≠ [] := by simp [wire]

theorem length_le_wireLines (lines : List (List Char)) :
    lines.length ≤ (wireLines lines).length := by
  induction lines with
  | nil => exact Nat.le_refl _
  | cons line lines ih =>
    rw [wireLines_cons]
    simp only [List.length_append, List.length_cons]
    omega

end Reply

/-! ## Reading replies -/

section

variable {line rest : List Char}

theorem span_line (h : '\n' ∉ line) (rest : List Char) :
    (line ++ '\n' :: rest).takeWhile (· ≠ '\n') = line ∧
      (line ++ '\n' :: rest).dropWhile (· ≠ '\n') = '\n' :: rest := by
  refine span_append (fun c hc => decide_eq_true (ne_of_mem_of_not_mem hc h)) fun c hc => ?_
  cases hc
  rfl

theorem append_crlf (line rest : List Char) :
    line ++ '\r' :: '\n' :: rest = (line ++ ['\r']) ++ '\n' :: rest := by simp

theorem recvLine_line (h : '\n' ∉ line) (rest : List Char) :
    recvLine (line ++ '\r' :: '\n' :: rest) = (line, rest) := by
  have hcr : '\n' ∉ line ++ ['\r'] := by simp [h]
  obtain ⟨htake, hdrop⟩ := span_line hcr rest
  rw [append_crlf, recvLine, htake, hdrop]
  simp

theorem recvControlReply_line (h : '\n' ∉ line) (rest : List Char) :
    recvControlReply (line ++ '\r' :: '\n' :: rest) =
      (String.ofList (line ++ ['\r', '\n']), rest) := by
  have hcr : '\n' ∉ line ++ ['\r'] := by simp [h]
  obtain ⟨htake, hdrop⟩ := span_line hcr rest
  rw [append_crlf, recvControlReply, htake, hdrop]
  simp

/-- The lines of a reply are read up to its last one. -/
theorem recvLines_wireLines {replyCode : List Char} {lines : List (List Char)}
    (hline : ∀ line ∈ lines, line ≠ [] ∧ '\n' ∉ line) (h : Terminated replyCode lines)
    {fuel : Nat} (hfuel : lines.length ≤ fuel) (rest : List Char) :
    recvLines replyCode fuel (Reply.wireLines lines ++ rest) =
      (lines.flatMap ('\n' :: ·), rest) := by
  induction fuel generalizing lines with
  | zero =>
    obtain rfl := List.eq_nil_of_length_eq_zero (Nat.le_zero.1 hfuel)
    exact h.elim
  | succ fuel ih =>
    match lines, h with
    | [last], h =>
      obtain ⟨hne, hbreak⟩ := hline last (List.mem_singleton_self _)
      rw [recvLines, Reply.wireLines_cons, Reply.wireLines_nil, List.append_assoc,
        List.cons_append, List.cons_append, List.nil_append, recvLine_line hbreak]
      have hlast : replyCode ++ [' '] <+: last := h
      simp only [if_neg hne, if_pos hlast]
      simp
    | line :: next :: more, h =>
      obtain ⟨hne, hbreak⟩ := hline line List.mem_cons_self
      have hmore := ih (fun l hl => hline l (List.mem_cons_of_mem _ hl)) h.2
        (Nat.le_of_succ_le_succ hfuel)
      rw [recvLines, Reply.wireLines_cons, List.append_assoc, List.cons_append, List.cons_append,
        recvLine_line hbreak]
      simp only [if_neg hne, if_neg h.1, hmore]
      simp

end

/-- A reply is read as a whole. -/
theorem recvReply_wire (r : Reply) (rest : List Char) :
    recvReply (r.wire ++ rest) = (r.text, rest) := by
  obtain ⟨hne, hbreak⟩ := r.isLine r.first List.mem_cons_self
  rw [recvReply, Reply.wire, Reply.wireLines_cons, List.append_assoc, List.cons_append,
    List.cons_append, recvLine_line hbreak]
  simp only [if_neg hne]
  have hcomplete := r.complete
  split at hcomplete
  · rename_i hhyphen
    rw [if_neg (not_not.2 hhyphen)]
    have hfuel : r.more.length ≤ (Reply.wireLines r.more ++ rest).length := by
      rw [List.length_append]
      exact Nat.le_trans (Reply.length_le_wireLines _) (Nat.le_add_right _ _)
    rw [recvLines_wireLines (fun l hl => r.isLine l (List.mem_cons_of_mem _ hl)) hcomplete hfuel]
    rfl
  · rename_i hhyphen
    rw [if_pos hhyphen, Reply.text, hcomplete]
    simp

/-- Only the first line of a reply is read. -/
theorem recvControlReply_wire (r : Reply) (rest : List Char) :
    recvControlReply (r.wire ++ rest) =
      (String.ofList (r.first ++ ['\r', '\n']), Reply.wireLines r.more ++ rest) := by
  obtain ⟨_, hbreak⟩ := r.isLine r.first List.mem_cons_self
  rw [Reply.wire, Reply.wireLines_cons, List.append_assoc, List.cons_append, List.cons_append,
    recvControlReply_line hbreak]

/-- The code in front of a space is read. -/
theorem exists_recvReply {code : List Char} (hlength : code.length = 3) (hbreak : '\n' ∉ code)
    (rest : List Char) :
    ∃ u, (recvReply (code ++ ' ' :: rest)).1 = String.ofList (code ++ u) := by
  -- The code and the blank are within the first line.
  have hline : ∃ u, (recvLine (code ++ ' ' :: rest)).1 = code ++ u ∧ ∀ c ∈ u.head?, c = ' ' := by
    have hpos : ∀ c ∈ code ++ [' '], decide (c ≠ '\n') = true := by
      intro c hc
      refine decide_eq_true ?_
      rintro rfl
      exact hbreak (by simpa using hc)
    have happend : code ++ ' ' :: rest = (code ++ [' ']) ++ rest := by simp
    rw [happend, recvLine, List.takeWhile_append_of_pos hpos, List.dropWhile_append_of_pos hpos]
    generalize rest.takeWhile (· ≠ '\n') = line
    have hline : code ++ [' '] ++ line = code ++ ' ' :: line := by simp
    rw [hline]
    cases rest.dropWhile (· ≠ '\n') with
    | nil => exact ⟨' ' :: line, rfl, by simp⟩
    | cons c rest =>
      dsimp only
      split
      · refine ⟨(' ' :: line).dropLast, List.dropLast_append_of_ne_nil (by simp), ?_⟩
        cases line <;> simp
      · exact ⟨' ' :: line, rfl, by simp⟩
  obtain ⟨u, hu, hhead⟩ := hline
  have hne : code ++ u ≠ [] := by
    intro hnil
    rw [(List.append_eq_nil_iff.1 hnil).1] at hlength
    cases hlength
  -- So it is a reply of one line.
  have hhyphen : (code ++ u)[3]? ≠ some '-' := by
    rw [← hlength, List.getElem?_append_right (Nat.le_refl _), Nat.sub_self, ← List.head?_eq_getElem?]
    intro h
    exact absurd (hhead _ h) (by decide)
  refine ⟨u, ?_⟩
  rw [recvReply]
  generalize recvLine (code ++ ' ' :: rest) = line at hu
  obtain ⟨line, rest⟩ := line
  obtain rfl : line = code ++ u := hu
  simp only [if_neg hne, if_pos hhyphen]

end HybridFtp
