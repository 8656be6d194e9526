import HybridFtp.Lib.PrefixCode
import HybridFtp.Common.TransferModeCodec

/-!
# Coded streams

What the decoder of the transmission modes accepts.

* `decodeAt`: the decoder on the indices of its input, where it stops with `none` as
  soon as it would read outside of it; it never does (`decodeAt_eq`);
* `BlockStream`, `CompressedStream`: the streams of MODE B and MODE C;
* `decode_blockStream`: MODE B accepts its streams, and nothing else;
* `Piece`: what MODE C makes of a control byte, among which there are some that begin
  no string (`Piece.stray`);
* `decode_compressedStream_iff`: what MODE C accepts besides its streams is those that
  have such a byte where a string would begin.
-/

namespace HybridFtp

namespace TransferModeCodec

/-! ## Indices -/

section Indices

variable (input : Bytes)

/-- `input.size() - pos`: `none` where the subtraction would wrap around. -/
def bytesLeft (pos : Nat) : Option Nat :=
  if pos ≤ input.length then some (input.length - pos) else none

/-- The bytes from `input.begin() + pos` to `input.begin() + pos + count`: `none` where
    one of the two is past the end. -/
def bytesAt (pos count : Nat) : Option Bytes :=
  if pos + count ≤ input.length then some ((input.drop pos).take count) else none

/-- The loop of MODE B, and what follows it. -/
def decodeBlocksAt (pos : Nat) (output : Bytes) : Option Decoded :=
  if pos < input.length then do
    let left ← bytesLeft input pos
    if left < 3 then some (fail output "truncated MODE B header")
    else
      let descriptor ← input[pos]?
      let hi ← input[pos + 1]?
      let lo ← input[pos + 2]?
      let count := hi.toNat <<< 8 ||| lo.toNat
      let left ← bytesLeft input (pos + 3)
      if count > left then some (fail output "truncated MODE B payload")
      else
        let payload ← bytesAt input (pos + 3) count
        if descriptor &&& kEof ≠ 0 then
          if pos + 3 + count ≠ input.length then
            some (fail (output ++ payload) "data found after MODE B EOF block")
          else some { output := output ++ payload }
        else decodeBlocksAt (pos + 3 + count) (output ++ payload)
  else some (fail output "MODE B stream has no EOF block")
termination_by input.length - pos

/-- The loop of MODE C, and what follows it. -/
def decodeStringsAt (filler : UInt8) (pos : Nat) (output : Bytes) : Option Decoded :=
  if pos < input.length then do
    let control ← input[pos]?
    let count := (control &&& 0x3f).toNat
    if control = kEscape then
      if pos + 1 ≥ input.length then some (fail output "truncated MODE C escape")
      else
        let descriptor ← input[pos + 1]?
        if descriptor &&& kEof ≠ 0 then
          if pos + 2 ≠ input.length then some (fail output "data found after MODE C EOF descriptor")
          else some { output }
        else decodeStringsAt filler (pos + 2) output
    else if control &&& 0xc0 = 0 then
      let left ← bytesLeft input (pos + 1)
      if count = 0 ∨ count > left then some (fail output "invalid MODE C literal string")
      else
        let payload ← bytesAt input (pos + 1) count
        decodeStringsAt filler (pos + 1 + count) (output ++ payload)
    else if control &&& 0xc0 = 0x80 then
      if count = 0 ∨ pos + 1 ≥ input.length then
        some (fail output "invalid MODE C repeated string")
      else
        let b ← input[pos + 1]?
        decodeStringsAt filler (pos + 2) (output ++ List.replicate count b)
    else if count = 0 then some (fail output "invalid MODE C filler string")
    else decodeStringsAt filler (pos + 1) (output ++ List.replicate count filler)
  else some (fail output "MODE C stream has no EOF descriptor")
termination_by input.length - pos

/-- `decode`, with the indices it reads its input at. -/
def decodeAt (mode : TransferMode) (type : TransferType) : Option Decoded :=
  match mode with
  | .Stream => some { output := input }
  | .Block => decodeBlocksAt input 0 []
  | .Compressed => decodeStringsAt input (fillerByte type) 0 []

end Indices

theorem getElem?_of_drop {input rest : Bytes} {pos : Nat} {b : UInt8}
    (h : input.drop pos = b :: rest) : input[pos]? = some b ∧ input.drop (pos + 1) = rest := by
  constructor
  · rw [← List.head?_drop, h, List.head?_cons]
  · rw [← List.tail_drop, h, List.tail_cons]

theorem lt_of_drop {input rest : Bytes} {pos : Nat} {b : UInt8} (h : input.drop pos = b :: rest) :
    pos < input.length := by
  by_contra hle
  rw [List.drop_eq_nil_of_le (not_lt.1 hle)] at h
  cases h

section Drop

variable {input rest : Bytes} {pos : Nat} (h : input.drop pos = rest) (hpos : pos ≤ input.length)

include h hpos

theorem bytesLeft_of_drop : bytesLeft input pos = some rest.length := by
  rw [bytesLeft, if_pos hpos, ← h, List.length_drop]

theorem bytesAt_of_drop {count : Nat} (hcount : count ≤ rest.length) :
    bytesAt input pos count = some (rest.take count) := by
  rw [← h, List.length_drop] at hcount
  rw [bytesAt, if_pos (by omega), h]

/-- The check for data after the EOF descriptor. -/
theorem atEof_of_drop (message : String) (output : Bytes) :
    (if pos ≠ input.length then some (fail output message) else some { output }) =
      some (atEof message output rest) := by
  cases rest with
  | nil =>
    rw [List.drop_eq_nil_iff] at h
    rw [if_neg (by omega), atEof]
  | cons b rest =>
    have := lt_of_drop h
    rw [if_pos (by omega), atEof]

end Drop

/-- The loop of MODE B reads a header, and the payload it announces. -/
theorem decodeBlocksAt_header {input rest : Bytes} {pos : Nat} {descriptor hi lo : UInt8}
    (h : input.drop pos = descriptor :: hi :: lo :: rest) (output : Bytes) :
    decodeBlocksAt input pos output =
      let count := hi.toNat <<< 8 ||| lo.toNat
      if count > rest.length then some (fail output "truncated MODE B payload")
      else if descriptor &&& kEof ≠ 0 then
        some (atEof "data found after MODE B EOF block" (output ++ rest.take count)
          (rest.drop count))
      else decodeBlocksAt input (pos + 3 + count) (output ++ rest.take count) := by
  obtain ⟨hdescriptor, h₁⟩ := getElem?_of_drop h
  obtain ⟨hhi, h₂⟩ := getElem?_of_drop h₁
  obtain ⟨hlo, h₃⟩ := getElem?_of_drop h₂
  have hpos : pos + 3 ≤ input.length := lt_of_drop h₂
  have hleft := bytesLeft_of_drop h (by omega)
  have hleft₃ := bytesLeft_of_drop h₃ hpos
  rw [decodeBlocksAt, if_pos (by omega)]
  simp only [hleft, hdescriptor, hhi, hlo, hleft₃, Option.bind_eq_bind, Option.bind_some]
  rw [if_neg (by simp)]
  by_cases hcount : hi.toNat <<< 8 ||| lo.toNat > rest.length
  · rw [if_pos hcount, if_pos hcount]
  · have hdrop : input.drop (pos + 3 + (hi.toNat <<< 8 ||| lo.toNat)) =
        rest.drop (hi.toNat <<< 8 ||| lo.toNat) := by
      rw [← List.drop_drop, ← h₃]
    have hle : pos + 3 + (hi.toNat <<< 8 ||| lo.toNat) ≤ input.length := by
      have := congrArg List.length h₃
      rw [List.length_drop] at this
      omega
    rw [if_neg hcount, if_neg hcount, bytesAt_of_drop h₃ hpos (not_lt.1 hcount), Option.bind_some,
      ← atEof_of_drop hdrop hle]

/-- The indices of MODE B stay within the input. -/
theorem decodeBlocksAt_eq (input : Bytes) {pos : Nat} (hpos : pos ≤ input.length)
    (output : Bytes) :
    decodeBlocksAt input pos output = some (decodeBlocks output (input.drop pos)) := by
  generalize hrest : input.drop pos = rest
  fun_induction decodeBlocks output rest generalizing pos with
  | case1 output =>
    rw [List.drop_eq_nil_iff] at hrest
    rw [decodeBlocksAt, if_neg (by omega)]
  | case2 output descriptor hi lo rest count =>
    rename_i hcount
    rw [decodeBlocksAt_header hrest]
    exact if_pos hcount
  | case3 output descriptor hi lo rest count hcount =>
    rename_i heof
    rw [decodeBlocksAt_header hrest]
    exact (if_neg hcount).trans (if_pos heof)
  | case4 output descriptor hi lo rest count hcount heof =>
    rename_i ih
    rw [decodeBlocksAt_header hrest]
    have hlength := congrArg List.length hrest
    simp only [List.length_drop, List.length_cons] at hlength
    refine (if_neg hcount).trans ((if_neg heof).trans (ih (by omega) ?_))
    rw [← List.drop_drop, ← List.drop_drop, hrest]
    rfl
  | case5 output rest hnil hheader =>
    -- One or two bytes are left.
    have hlt : rest.length < 3 := by
      rcases rest with _ | ⟨descriptor, _ | ⟨hi, _ | ⟨lo, rest⟩⟩⟩
      · decide
      · exact Nat.lt_succ_of_lt (Nat.lt_succ_self 1)
      · exact Nat.lt_succ_self 2
      · exact (hheader descriptor hi lo rest rfl).elim
    have hpos' : pos < input.length := by
      by_contra hge
      exact hnil (by rw [← hrest, List.drop_eq_nil_of_le (not_lt.1 hge)])
    rw [decodeBlocksAt, if_pos hpos', bytesLeft_of_drop hrest hpos, Option.bind_eq_bind,
      Option.bind_some, if_pos hlt]

/-- The loop of MODE C reads a control byte, and what it announces. -/
theorem decodeStringsAt_control {input rest : Bytes} {pos : Nat} {control : UInt8}
    (filler : UInt8) (output : Bytes) : input.drop pos = control :: rest →
    decodeStringsAt input filler pos output =
      let count := (control &&& 0x3f).toNat
      if control = kEscape then
        match rest with
        | [] => some (fail output "truncated MODE C escape")
        | descriptor :: rest =>
          if descriptor &&& kEof ≠ 0 then
            some (atEof "data found after MODE C EOF descriptor" output rest)
          else decodeStringsAt input filler (pos + 2) output
      else if control &&& 0xc0 = 0 then
        if count = 0 ∨ count > rest.length then
          some (fail output "invalid MODE C literal string")
        else decodeStringsAt input filler (pos + 1 + count) (output ++ rest.take count)
      else if control &&& 0xc0 = 0x80 then
        match rest with
        | [] => some (fail output "invalid MODE C repeated string")
        | b :: _ =>
          if count = 0 then some (fail output "invalid MODE C repeated string")
          else decodeStringsAt input filler (pos + 2) (output ++ List.replicate count b)
      else if count = 0 then some (fail output "invalid MODE C filler string")
      else decodeStringsAt input filler (pos + 1) (output ++ List.replicate count filler) := by
  intro h
  obtain ⟨hcontrol, h₁⟩ := getElem?_of_drop h
  have hlt := lt_of_drop h
  have hleft := bytesLeft_of_drop h₁ hlt
  rw [decodeStringsAt, if_pos hlt, hcontrol, Option.bind_eq_bind, Option.bind_some]
  dsimp only
  by_cases hesc : control = kEscape
  · rw [if_pos hesc, if_pos hesc]
    cases rest with
    | nil =>
      rw [List.drop_eq_nil_iff] at h₁
      rw [if_pos h₁]
    | cons descriptor rest =>
      obtain ⟨hdescriptor, h₂⟩ := getElem?_of_drop h₁
      have hlt₁ := lt_of_drop h₁
      rw [if_neg (by omega), hdescriptor, Option.bind_some, atEof_of_drop h₂ (by omega)]
  rw [if_neg hesc, if_neg hesc]
  by_cases hliteral : control &&& 0xc0 = 0
  · rw [if_pos hliteral, if_pos hliteral, hleft, Option.bind_eq_bind, Option.bind_some]
    split_ifs with hcount
    · rfl
    · push Not at hcount
      rw [bytesAt_of_drop h₁ hlt hcount.2, Option.bind_eq_bind, Option.bind_some]
  rw [if_neg hliteral, if_neg hliteral]
  by_cases hrepeated : control &&& 0xc0 = 0x80
  · rw [if_pos hrepeated, if_pos hrepeated]
    cases rest with
    | nil =>
      rw [List.drop_eq_nil_iff] at h₁
      rw [if_pos (Or.inr h₁)]
    | cons b rest =>
      have hb := (getElem?_of_drop h₁).1
      have hlt₁ := lt_of_drop h₁
      simp only [hb, Option.bind_some, ge_iff_le, not_le.2 hlt₁, or_false]
  · rw [if_neg hrepeated, if_neg hrepeated]

/-- The indices of MODE C stay within the input. -/
theorem decodeStringsAt_eq (input : Bytes) (filler : UInt8) {pos : Nat}
    (hpos : pos ≤ input.length) (output : Bytes) :
    decodeStringsAt input filler pos output =
      some (decodeStrings filler output (input.drop pos)) := by
  generalize hrest : input.drop pos = rest
  have hlength := congrArg List.length hrest
  rw [List.length_drop] at hlength
  fun_induction decodeStrings filler output rest generalizing pos with
  | case1 output =>
    rw [List.drop_eq_nil_iff] at hrest
    rw [decodeStringsAt, if_neg (by omega)]
  | case2 output =>
    rw [decodeStringsAt_control filler output hrest]
    exact if_pos rfl
  | case3 output descriptor rest heof =>
    rw [decodeStringsAt_control filler output hrest]
    exact (if_pos rfl).trans (if_pos heof)
  | case4 output descriptor rest heof ih =>
    rw [decodeStringsAt_control filler output hrest]
    rw [List.length_cons, List.length_cons] at hlength
    have hdrop := (getElem?_of_drop (getElem?_of_drop hrest).2).2
    exact (if_pos rfl).trans ((if_neg heof).trans (ih (by omega) hdrop (by omega)))
  | case5 output control rest count hesc hliteral =>
    rename_i hcount
    rw [decodeStringsAt_control filler output hrest]
    exact (if_neg hesc).trans ((if_pos hliteral).trans (if_pos hcount))
  | case6 output control rest count hesc hliteral hcount =>
    rename_i ih
    rw [decodeStringsAt_control filler output hrest]
    refine (if_neg hesc).trans ((if_pos hliteral).trans ((if_neg hcount).trans (ih ?_ ?_ ?_)))
    · push Not at hcount
      rw [List.length_cons] at hlength
      omega
    · rw [← List.drop_drop, (getElem?_of_drop hrest).2]
    · rw [List.length_cons] at hlength
      rw [List.length_drop]
      omega
  | case7 output control hesc hliteral hrepeated =>
    rw [decodeStringsAt_control filler output hrest]
    exact (if_neg hesc).trans ((if_neg hliteral).trans (if_pos hrepeated))
  | case8 output control count hesc hliteral hrepeated b rest =>
    rename_i hcount
    rw [decodeStringsAt_control filler output hrest]
    exact (if_neg hesc).trans ((if_neg hliteral).trans ((if_pos hrepeated).trans (if_pos hcount)))
  | case9 output control count hesc hliteral hrepeated b rest hcount =>
    rename_i ih
    rw [decodeStringsAt_control filler output hrest]
    rw [List.length_cons, List.length_cons] at hlength
    have hdrop := (getElem?_of_drop (getElem?_of_drop hrest).2).2
    exact (if_neg hesc).trans ((if_neg hliteral).trans ((if_pos hrepeated).trans
      ((if_neg hcount).trans (ih (by omega) hdrop (by omega)))))
  | case10 output control rest count hesc hliteral hrepeated =>
    rename_i hcount
    rw [decodeStringsAt_control filler output hrest]
    exact (if_neg hesc).trans ((if_neg hliteral).trans ((if_neg hrepeated).trans (if_pos hcount)))
  | case11 output control rest count hesc hliteral hrepeated hcount =>
    rename_i ih
    rw [decodeStringsAt_control filler output hrest]
    rw [List.length_cons] at hlength
    have hdrop := (getElem?_of_drop hrest).2
    exact (if_neg hesc).trans ((if_neg hliteral).trans ((if_neg hrepeated).trans
      ((if_neg hcount).trans (ih (by omega) hdrop (by omega)))))

theorem decodeAt_eq (input : Bytes) (mode : TransferMode) (type : TransferType) :
    decodeAt input mode type = some (decode input mode type) := by
  cases mode with
  | Stream => rfl
  | Block => exact decodeBlocksAt_eq input (Nat.zero_le _) []
  | Compressed => exact decodeStringsAt_eq input _ (Nat.zero_le _) []

/-! ## MODE B -/

/-- The descriptor of a block says that it is the last. -/
def Blk.IsEof (blk : Blk) : Prop := blk.descriptor &&& kEof ≠ 0

/-- A stream of MODE B: the last block, and no other, has the EOF descriptor. -/
abbrev BlockStream := Framed Blk.IsEof

/-- What is in the blocks. -/
def BlockStream.payload (m : BlockStream) : Bytes := m.body.flatMap Blk.payload ++ m.last.payload

/-- The length of a block with that header. -/
def blkSize : Bytes → Nat
  | [_, hi, lo] => 3 + (hi.toNat <<< 8 ||| lo.toNat)
  | _ => 0

theorem Blk.bytes_injective : Function.Injective Blk.bytes := by
  intro blk blk' h
  obtain ⟨descriptor, payload, hle⟩ := blk
  obtain ⟨descriptor', payload', hle'⟩ := blk'
  obtain ⟨rfl, -, -, rfl⟩ : descriptor = descriptor' ∧ _ ∧ _ ∧ payload = payload' := by
    simpa only [Blk.bytes, List.cons.injEq] using h
  rfl

theorem Blk.instantaneous : Instantaneous Blk.bytes := by
  refine Instantaneous.of_header Blk.bytes_injective 3 blkSize (fun blk => ?_) fun blk => ?_
  · exact Nat.le_add_left 3 blk.payload.length
  · show blk.payload.length + 3 = 3 + _
    rw [count_eq blk.length_le, Nat.add_comm]

/-- The blocks before the last one give their payloads. -/
theorem decodeBlocks_flatMap (output : Bytes) {blks : List Blk} (h : ∀ blk ∈ blks, ¬blk.IsEof)
    (rest : Bytes) :
    decodeBlocks output (blks.flatMap Blk.bytes ++ rest) =
      decodeBlocks (output ++ blks.flatMap Blk.payload) rest := by
  induction blks generalizing output with
  | nil => simp
  | cons blk blks ih =>
    rw [List.forall_mem_cons] at h
    have hblk : ¬(blk.descriptor &&& kEof ≠ 0) := h.1
    rw [List.flatMap_cons, List.append_assoc, decodeBlocks_bytes, if_neg hblk, ih _ h.2,
      List.flatMap_cons, List.append_assoc]

theorem decodeBlocks_word (output : Bytes) (m : BlockStream) :
    decodeBlocks output (m.word Blk.bytes) = { output := output ++ m.payload } := by
  have hlast : m.last.descriptor &&& kEof ≠ 0 := m.final
  rw [Framed.word, decodeBlocks_flatMap output m.not_final, ← List.append_nil m.last.bytes,
    decodeBlocks_bytes, if_pos hlast, BlockStream.payload, List.append_assoc]
  rfl

/-- A header and the bytes it announces are a block. -/
theorem exists_blk (descriptor hi lo : UInt8) (rest : Bytes)
    (h : hi.toNat <<< 8 ||| lo.toNat ≤ rest.length) :
    ∃ blk : Blk, blk.descriptor = descriptor ∧
      descriptor :: hi :: lo :: rest =
        blk.bytes ++ rest.drop (hi.toNat <<< 8 ||| lo.toNat) := by
  have hcount : hi.toNat <<< 8 ||| lo.toNat = hi.toNat * 256 + lo.toNat := by
    rw [← Nat.shiftLeft_add_eq_or_of_lt (UInt8.toNat_lt lo), Nat.shiftLeft_eq]
  rw [hcount] at h ⊢
  have hhi := UInt8.toNat_lt hi
  have hlo := UInt8.toNat_lt lo
  have hlength : (rest.take (hi.toNat * 256 + lo.toNat)).length = hi.toNat * 256 + lo.toNat :=
    List.length_take_of_le h
  refine ⟨⟨descriptor, rest.take (hi.toNat * 256 + lo.toNat), by omega⟩, rfl, ?_⟩
  have hhi' : UInt8.ofNat ((hi.toNat * 256 + lo.toNat) >>> 8) = hi := by
    rw [Nat.shiftRight_eq_div_pow, show (hi.toNat * 256 + lo.toNat) / 2 ^ 8 = hi.toNat by omega,
      UInt8.ofNat_toNat]
  have hlo' : UInt8.ofNat (hi.toNat * 256 + lo.toNat) = lo := by
    rw [← UInt8.toNat_inj, UInt8.toNat_ofNat']
    omega
  rw [Blk.bytes]
  simp only [hlength, hhi', hlo', List.cons_append, List.take_append_drop]

theorem atEof_ok {message : String} {output rest : Bytes} (h : (atEof message output rest).ok = true) :
    rest = [] := by
  cases rest with
  | nil => rfl
  | cons b rest => cases h

/-- What MODE B accepts is a stream. -/
theorem exists_blockStream {output input : Bytes} (h : (decodeBlocks output input).ok = true) :
    ∃ m : BlockStream, input = m.word Blk.bytes := by
  fun_induction decodeBlocks output input with
  | case1 => cases h
  | case2 => cases h
  | case3 output descriptor hi lo rest count hcount =>
    rename_i heof
    obtain ⟨blk, hdescriptor, hbytes⟩ := exists_blk descriptor hi lo rest (not_lt.1 hcount)
    refine ⟨⟨[], blk, by simp, by rwa [Blk.IsEof, hdescriptor]⟩, ?_⟩
    rw [hbytes, atEof_ok h, List.append_nil]
    rfl
  | case4 output descriptor hi lo rest count hcount heof =>
    rename_i ih
    obtain ⟨m, hm⟩ := ih h
    obtain ⟨blk, hdescriptor, hbytes⟩ := exists_blk descriptor hi lo rest (not_lt.1 hcount)
    have hblk : ¬blk.IsEof := by rwa [Blk.IsEof, hdescriptor]
    refine ⟨⟨blk :: m.body, m.last, List.forall_mem_cons.2 ⟨hblk, m.not_final⟩, m.final⟩, ?_⟩
    rw [hbytes, hm, Framed.word, Framed.word, List.flatMap_cons, List.append_assoc]
  | case5 => cases h

theorem decodeBlocks_ok_iff (output input : Bytes) :
    (decodeBlocks output input).ok = true ↔ ∃ m : BlockStream, input = m.word Blk.bytes := by
  constructor
  · exact exists_blockStream
  · rintro ⟨m, rfl⟩
    rw [decodeBlocks_word]
    rfl

/-- MODE B accepts its streams and nothing else, gives their payloads, and does not
    read outside of its input. -/
theorem decode_blockStream (input : Bytes) (type : TransferType) :
    ((decode input .Block type).ok = true ↔ ∃ m : BlockStream, input = m.word Blk.bytes) ∧
      (∀ m : BlockStream, input = m.word Blk.bytes →
        (decode input .Block type).output = m.payload) ∧
      decodeAt input .Block type = some (decode input .Block type) := by
  refine ⟨decodeBlocks_ok_iff [] input, ?_, decodeAt_eq input .Block type⟩
  rintro m rfl
  rw [decode, decodeBlocks_word, List.nil_append]

/-! ## MODE C -/

/-- A stream of MODE C: strings, and an EOF descriptor. -/
structure CompressedStream where
  items : List Item
  descriptor : UInt8
  eof : descriptor &&& kEof ≠ 0

namespace CompressedStream

/-- The strings, and the EOF descriptor after its escape. -/
def bytes (m : CompressedStream) : Bytes := m.items.flatMap Item.bytes ++ [kEscape, m.descriptor]

/-- What the strings stand for. -/
def expand (type : TransferType) (m : CompressedStream) : Bytes :=
  m.items.flatMap (Item.expand (fillerByte type))

end CompressedStream

/-- What the decoder of MODE C makes of the bytes from a control byte on. -/
inductive Piece
  | item (item : Item)
  /-- A control byte from `0x41` to `0x7f`, which begins no string. -/
  | stray (count : Nat) (pos : 0 < count) (le : count ≤ 63)
  | eof (descriptor : UInt8) (h : descriptor &&& kEof ≠ 0)

namespace Piece

/-- A piece, as it is sent. -/
def bytes : Piece → Bytes
  | item i => i.bytes
  | stray count .. => [0x40 ||| UInt8.ofNat count]
  | eof descriptor _ => [kEscape, descriptor]

/-- The decoder takes a stray control byte for that of a filler string. -/
def expand (fillerByte : UInt8) : Piece → Bytes
  | item i => i.expand fillerByte
  | stray count .. => List.replicate count fillerByte
  | eof .. => []

/-- A piece that no encoder sends. -/
def IsStray : Piece → Prop
  | stray .. => True
  | _ => False

/-- The piece that ends the stream. -/
def IsEof : Piece → Prop
  | eof .. => True
  | _ => False

/-- The control byte, as a number: those of the kinds of pieces do not overlap. -/
def control : Piece → Nat
  | item (.literal payload ..) => payload.length
  | stray count .. => 64 + count
  | item (.repeated count ..) => 128 + count
  | item (.filler count ..) => 192 + count
  | item (.descriptor ..) => 255
  | eof .. => 255

/-- What comes after the control byte. -/
def tail : Piece → Bytes
  | item (.literal payload ..) => payload
  | item (.repeated _ _ _ b) => [b]
  | item (.descriptor d _) => [d]
  | eof descriptor _ => [descriptor]
  | item (.filler ..) => []
  | stray .. => []

theorem control_lt (p : Piece) : p.control < 256 := by
  rcases p with (⟨payload, pos, le⟩ | ⟨count, pos, le, b⟩ | ⟨count, pos, le⟩ | ⟨d, h⟩) |
    ⟨count, pos, le⟩ | ⟨d, h⟩ <;> simp only [control] <;> omega

theorem or_ofNat : ∀ n < 64, 0x40 ||| UInt8.ofNat n = UInt8.ofNat (64 + n) ∧
    0x80 ||| UInt8.ofNat n = UInt8.ofNat (128 + n) ∧
    0xc0 ||| UInt8.ofNat n = UInt8.ofNat (192 + n) := by
  decide

theorem bytes_eq (p : Piece) : p.bytes = UInt8.ofNat p.control :: p.tail := by
  rcases p with (⟨payload, pos, le⟩ | ⟨count, pos, le, b⟩ | ⟨count, pos, le⟩ | ⟨d, h⟩) |
    ⟨count, pos, le⟩ | ⟨d, h⟩
  · rfl
  · exact congrArg (fun c => [c, b]) (or_ofNat count (by omega)).2.1
  · exact congrArg (fun c => [c]) (or_ofNat count (by omega)).2.2
  · rfl
  · exact congrArg (fun c => [c]) (or_ofNat count (by omega)).1
  · rfl

theorem bytes_injective : Function.Injective bytes := by
  intro p q h
  rw [bytes_eq, bytes_eq, List.cons.injEq] at h
  obtain ⟨hcontrol, htail⟩ := h
  replace hcontrol := congrArg UInt8.toNat hcontrol
  rw [UInt8.toNat_ofNat_of_lt' p.control_lt, UInt8.toNat_ofNat_of_lt' q.control_lt] at hcontrol
  rcases p with (⟨payload, pos, le⟩ | ⟨count, pos, le, b⟩ | ⟨count, pos, le⟩ | ⟨d, h⟩) |
    ⟨count, pos, le⟩ | ⟨d, h⟩ <;>
  rcases q with (⟨payload', pos', le'⟩ | ⟨count', pos', le', b'⟩ | ⟨count', pos', le'⟩ | ⟨d', h'⟩) |
    ⟨count', pos', le'⟩ | ⟨d', h'⟩ <;>
  simp only [control] at hcontrol
  -- Pieces of two kinds differ in their control bytes, but for the two after an escape.
  any_goals omega
  · cases htail
    rfl
  · obtain rfl : count = count' := by omega
    cases htail
    rfl
  · obtain rfl : count = count' := by omega
    rfl
  · cases htail
    rfl
  · cases htail
    exact absurd h h'
  · obtain rfl : count = count' := by omega
    rfl
  · cases htail
    exact absurd h' h
  · cases htail
    rfl

/-- The length of a piece with that control byte. -/
def lengthOf (control : Nat) : Nat :=
  if control < 64 then control + 1
  else if control < 128 then 1
  else if control < 192 then 2
  else if control < 255 then 1
  else 2

theorem length_bytes (p : Piece) : p.bytes.length = lengthOf p.control := by
  rw [bytes_eq, List.length_cons]
  rcases p with (⟨payload, pos, le⟩ | ⟨count, pos, le, b⟩ | ⟨count, pos, le⟩ | ⟨d, h⟩) |
    ⟨count, pos, le⟩ | ⟨d, h⟩ <;>
  simp only [control, tail, List.length_cons, List.length_nil]
  · rw [lengthOf, if_pos (by omega)]
  · rw [lengthOf, if_neg (by omega), if_neg (by omega), if_pos (by omega)]
  · rw [lengthOf, if_neg (by omega), if_neg (by omega), if_neg (by omega), if_pos (by omega)]
  · rfl
  · rw [lengthOf, if_neg (by omega), if_pos (by omega)]
  · rfl

theorem instantaneous : Instantaneous bytes := by
  refine Instantaneous.of_header bytes_injective 1
    (fun header => (header.head?.elim 0 fun c => lengthOf c.toNat)) (fun p => ?_) fun p => ?_
  · rw [bytes_eq, List.length_cons]
    omega
  · rw [length_bytes, bytes_eq, List.take_succ_cons, List.head?_cons, Option.elim_some,
      UInt8.toNat_ofNat_of_lt' p.control_lt]

end Piece

/-- What the control byte of a stray piece reads as. -/
theorem control_stray : ∀ n < 64, 0 < n → (0x40 ||| UInt8.ofNat n) ≠ kEscape ∧
    ((0x40 ||| UInt8.ofNat n) &&& 0x3f).toNat = n ∧ (0x40 ||| UInt8.ofNat n) &&& 0xc0 = 0x40 := by
  decide

/-- The decoder expands a piece, and goes on. -/
theorem decodeStrings_piece (fillerByte : UInt8) (output : Bytes) {p : Piece} (h : ¬p.IsEof)
    (rest : Bytes) :
    decodeStrings fillerByte output (p.bytes ++ rest) =
      decodeStrings fillerByte (output ++ p.expand fillerByte) rest := by
  cases p with
  | item i => exact decodeStrings_bytes fillerByte output i rest
  | stray count pos le =>
    obtain ⟨hesc, hcount, htag⟩ := control_stray count (by omega) pos
    rw [Piece.bytes, List.cons_append, decodeStrings.eq_def]
    simp only [hesc, hcount, htag, if_false]
    rw [if_neg (by decide), if_neg (by decide), if_neg (by omega), Piece.expand, List.nil_append]
  | eof => exact absurd trivial h

theorem decodeStrings_pieces (fillerByte : UInt8) (output : Bytes) {ps : List Piece}
    (h : ∀ p ∈ ps, ¬p.IsEof) (rest : Bytes) :
    decodeStrings fillerByte output (ps.flatMap Piece.bytes ++ rest) =
      decodeStrings fillerByte (output ++ ps.flatMap (Piece.expand fillerByte)) rest := by
  induction ps generalizing output with
  | nil => simp
  | cons p ps ih =>
    rw [List.forall_mem_cons] at h
    rw [List.flatMap_cons, List.append_assoc, decodeStrings_piece _ _ h.1, ih _ h.2,
      List.flatMap_cons, List.append_assoc]

theorem decodeStrings_word (fillerByte : UInt8) (output : Bytes) (m : Framed Piece.IsEof) :
    decodeStrings fillerByte output (m.word Piece.bytes) =
      { output := output ++ m.body.flatMap (Piece.expand fillerByte) } := by
  obtain ⟨body, last, hbody, hlast⟩ := m
  rw [Framed.word, decodeStrings_pieces _ _ hbody]
  cases last with
  | item => exact hlast.elim
  | stray => exact hlast.elim
  | eof descriptor h =>
    rw [Piece.bytes, decodeStrings, if_pos rfl]
    exact if_pos h

/-- A control byte is its two upper bits, and a count. -/
theorem control_split (control : UInt8) :
    control = (control &&& 0xc0) ||| UInt8.ofNat (control &&& 0x3f).toNat ∧
      (control &&& 0x3f).toNat ≤ 63 ∧
      (control &&& 0xc0 = 0 ∨ control &&& 0xc0 = 0x40 ∨ control &&& 0xc0 = 0x80 ∨
        control &&& 0xc0 = 0xc0) := by
  have h : ∀ n < 256, UInt8.ofNat n =
      (UInt8.ofNat n &&& 0xc0) ||| UInt8.ofNat (UInt8.ofNat n &&& 0x3f).toNat ∧
        (UInt8.ofNat n &&& 0x3f).toNat ≤ 63 ∧
        (UInt8.ofNat n &&& 0xc0 = 0 ∨ UInt8.ofNat n &&& 0xc0 = 0x40 ∨
          UInt8.ofNat n &&& 0xc0 = 0x80 ∨ UInt8.ofNat n &&& 0xc0 = 0xc0) := by
    decide +kernel
  have hcontrol := h control.toNat (UInt8.toNat_lt control)
  rwa [UInt8.ofNat_toNat] at hcontrol


section ExistsPiece

variable {control : UInt8} (hcount : (control &&& 0x3f).toNat ≠ 0)

include hcount

/-- A control byte and the bytes of the literal string it announces are a piece. -/
theorem exists_literal (hliteral : control &&& 0xc0 = 0) (rest : Bytes)
    (hlen : (control &&& 0x3f).toNat ≤ rest.length) :
    ∃ p : Piece, ¬p.IsEof ∧ control :: rest = p.bytes ++ rest.drop (control &&& 0x3f).toNat := by
  obtain ⟨heq, hle, _⟩ := control_split control
  rw [hliteral, UInt8.zero_or] at heq
  have hlength : (rest.take (control &&& 0x3f).toNat).length = (control &&& 0x3f).toNat :=
    List.length_take_of_le hlen
  refine ⟨.item (.literal (rest.take (control &&& 0x3f).toNat) (by omega) (by omega)), id, ?_⟩
  rw [Piece.bytes, Item.bytes, hlength, ← heq, List.cons_append, List.take_append_drop]

theorem exists_repeated (hrepeated : control &&& 0xc0 = 0x80) (b : UInt8) (rest : Bytes) :
    ∃ p : Piece, ¬p.IsEof ∧ control :: b :: rest = p.bytes ++ rest := by
  obtain ⟨heq, hle, _⟩ := control_split control
  rw [hrepeated] at heq
  refine ⟨.item (.repeated (control &&& 0x3f).toNat (Nat.pos_of_ne_zero hcount) hle b), id, ?_⟩
  rw [Piece.bytes, Item.bytes, ← heq]
  rfl

/-- What is neither the escape nor the beginning of one of these strings is taken for a
    filler string. -/
theorem exists_filler (hesc : control ≠ kEscape) (hliteral : ¬control &&& 0xc0 = 0)
    (hrepeated : ¬control &&& 0xc0 = 0x80) (rest : Bytes) :
    ∃ p : Piece, ¬p.IsEof ∧ control :: rest = p.bytes ++ rest := by
  obtain ⟨heq, hle, htag⟩ := control_split control
  have hpos := Nat.pos_of_ne_zero hcount
  rcases htag with h | h | h | h
  · exact absurd h hliteral
  · rw [h] at heq
    refine ⟨.stray (control &&& 0x3f).toNat hpos hle, id, ?_⟩
    rw [Piece.bytes, ← heq]
    rfl
  · exact absurd h hrepeated
  · rw [h] at heq
    -- With a count of 63 it would be the escape.
    have hne : (control &&& 0x3f).toNat ≠ 63 := by
      intro h63
      rw [h63] at heq
      exact hesc heq
    refine ⟨.item (.filler (control &&& 0x3f).toNat hpos (by omega)), id, ?_⟩
    rw [Piece.bytes, Item.bytes, ← heq]
    rfl

end ExistsPiece

/-- A piece before those of a stream. -/
theorem exists_framed_cons {input rest : Bytes} (hp : ∃ p : Piece, ¬p.IsEof ∧ input = p.bytes ++ rest)
    (hrest : ∃ m : Framed Piece.IsEof, rest = m.word Piece.bytes) :
    ∃ m : Framed Piece.IsEof, input = m.word Piece.bytes := by
  obtain ⟨p, hp, rfl⟩ := hp
  obtain ⟨m, rfl⟩ := hrest
  refine ⟨⟨p :: m.body, m.last, List.forall_mem_cons.2 ⟨hp, m.not_final⟩, m.final⟩, ?_⟩
  rw [Framed.word, Framed.word, List.flatMap_cons, List.append_assoc]

/-- What MODE C accepts is made of pieces. -/
theorem exists_framed {filler : UInt8} {output input : Bytes}
    (h : (decodeStrings filler output input).ok = true) :
    ∃ m : Framed Piece.IsEof, input = m.word Piece.bytes := by
  fun_induction decodeStrings filler output input with
  | case1 => cases h
  | case2 => cases h
  | case3 output descriptor rest heof =>
    refine ⟨⟨[], .eof descriptor heof, by simp, trivial⟩, ?_⟩
    rw [atEof_ok h]
    rfl
  | case4 output descriptor rest heof ih =>
    refine exists_framed_cons ⟨.item (.descriptor descriptor (not_not.1 heof)), id, ?_⟩ (ih h)
    rfl
  | case5 => cases h
  | case6 output control rest count hesc hliteral hcount =>
    rename_i ih
    push Not at hcount
    exact exists_framed_cons (exists_literal hcount.1 hliteral rest hcount.2) (ih h)
  | case7 => cases h
  | case8 => cases h
  | case9 output control count hesc hliteral hrepeated b rest hcount =>
    rename_i ih
    exact exists_framed_cons (exists_repeated hcount hrepeated b rest) (ih h)
  | case10 => cases h
  | case11 output control rest count hesc hliteral hrepeated hcount =>
    rename_i ih
    exact exists_framed_cons (exists_filler hcount hesc hliteral hrepeated rest) (ih h)

theorem decodeStrings_ok_iff (filler : UInt8) (output input : Bytes) :
    (decodeStrings filler output input).ok = true ↔
      ∃ m : Framed Piece.IsEof, input = m.word Piece.bytes := by
  constructor
  · exact exists_framed
  · rintro ⟨m, rfl⟩
    rw [decodeStrings_word]
    rfl

namespace CompressedStream

/-- The pieces of a stream of MODE C: none is stray. -/
def framed (m : CompressedStream) : Framed Piece.IsEof where
  body := m.items.map Piece.item
  last := .eof m.descriptor m.eof
  not_final := by simp [Piece.IsEof]
  final := trivial

theorem bytes_framed (m : CompressedStream) : m.framed.word Piece.bytes = m.bytes := by
  rw [Framed.word, framed, List.flatMap_map]
  rfl

theorem expand_framed (m : CompressedStream) (type : TransferType) :
    m.framed.body.flatMap (Piece.expand (fillerByte type)) = m.expand type := by
  rw [framed, List.flatMap_map]
  rfl

theorem not_isStray (m : CompressedStream) {p : Piece} (hp : p ∈ m.framed.body) : ¬p.IsStray := by
  obtain ⟨i, _, rfl⟩ := List.mem_map.1 hp
  exact id

/-- Pieces without a stray one are a stream of MODE C. -/
theorem exists_of_not_isStray {m : Framed Piece.IsEof} (h : ∀ p ∈ m.body, ¬p.IsStray) :
    ∃ c : CompressedStream, m = c.framed := by
  obtain ⟨body, last, hbody, hlast⟩ := m
  obtain ⟨items, rfl⟩ : ∃ items : List Item, body = items.map Piece.item := by
    induction body with
    | nil => exact ⟨[], rfl⟩
    | cons p body ih =>
      rw [List.forall_mem_cons] at hbody h
      obtain ⟨items, rfl⟩ := ih hbody.2 h.2
      cases p with
      | item i => exact ⟨i :: items, rfl⟩
      | stray => exact absurd trivial h.1
      | eof => exact absurd trivial hbody.1
  cases last with
  | item => exact hlast.elim
  | stray => exact hlast.elim
  | eof descriptor heof => exact ⟨⟨items, descriptor, heof⟩, rfl⟩

end CompressedStream

/-- A control byte from `0x41` to `0x7f` stands where a string should begin, in what
    otherwise is a stream of MODE C. -/
def HasStray (input : Bytes) : Prop :=
  ∃ m : Framed Piece.IsEof, (∃ p ∈ m.body, p.IsStray) ∧ input = m.word Piece.bytes

theorem not_hasStray_bytes (c : CompressedStream) : ¬HasStray c.bytes := by
  rintro ⟨m, ⟨p, hp, hstray⟩, hm⟩
  rw [← c.bytes_framed] at hm
  obtain rfl := Framed.word_injective Piece.instantaneous hm
  exact c.not_isStray hp hstray

/-- MODE C accepts its streams and nothing else, gives what their strings stand for, and
    does not read outside of its input, unless there is a stray control byte: the
    decoder takes it for that of a filler string. -/
theorem decode_compressedStream_iff (input : Bytes) (type : TransferType) :
    (((decode input .Compressed type).ok = true ↔ ∃ c : CompressedStream, input = c.bytes) ∧
      (∀ c : CompressedStream, input = c.bytes →
        (decode input .Compressed type).output = c.expand type) ∧
      decodeAt input .Compressed type = some (decode input .Compressed type)) ↔
    ¬HasStray input := by
  have hok := decodeStrings_ok_iff (fillerByte type) [] input
  constructor
  · rintro ⟨haccept, -, -⟩ hstray
    obtain ⟨m, -, hm⟩ := id hstray
    obtain ⟨c, rfl⟩ := haccept.1 (hok.2 ⟨m, hm⟩)
    exact not_hasStray_bytes c hstray
  · intro hstray
    refine ⟨hok.trans ⟨?_, ?_⟩, ?_, decodeAt_eq input .Compressed type⟩
    · rintro ⟨m, rfl⟩
      obtain ⟨c, rfl⟩ := CompressedStream.exists_of_not_isStray (m := m) fun p hp h =>
        hstray ⟨m, ⟨p, hp, h⟩, rfl⟩
      exact ⟨c, c.bytes_framed⟩
    · rintro ⟨c, rfl⟩
      exact ⟨c.framed, c.bytes_framed.symm⟩
    · rintro c rfl
      rw [decode, ← c.bytes_framed, decodeStrings_word, List.nil_append, c.expand_framed]

/-- The byte `0x41` begins no string, but is decoded to a zero. -/
theorem decode_stray : (decode [0x41, 0xff, 0x40] .Compressed .Binary).ok = true ∧
    ¬∃ c : CompressedStream, [0x41, 0xff, 0x40] = c.bytes := by
  let m : Framed Piece.IsEof :=
    ⟨[.stray 1 (by decide) (by decide)], .eof 0x40 (by decide), by simp [Piece.IsEof], trivial⟩
  constructor
  · exact (decodeStrings_ok_iff 0 [] _).2 ⟨m, rfl⟩
  · rintro ⟨c, hc⟩
    refine not_hasStray_bytes c ?_
    rw [← hc]
    exact ⟨m, ⟨_, List.mem_singleton_self _, trivial⟩, rfl⟩

end TransferModeCodec

end HybridFtp
