import HybridFtp.Common.StreamGrammar
import HybridFtp.Rdt.Segmentation
import Mathlib.GroupTheory.GroupAction.Ring

/-!
# The size of coded streams

How much the encoder of the transmission modes adds to its input.

* `literalLength_stops`: why the encoder ends a literal string;
* `length_encodeStrings`: a run at the start of what is left saves a byte, and pays for
  the literal string before it;
* `exists_encode_block`: the blocks of MODE B;
* `encode_shape`: the shape and the size of both streams.
-/

namespace HybridFtp

namespace TransferModeCodec

/-! ## Strings -/

/-- A literal string is full, or it ends with the input or where a run starts. -/
theorem literalLength_stops (literalCount : Nat) (h : literalCount ≤ 63) (input : Bytes) :
    literalLength literalCount input = 63 ∨
      input.drop (literalLength literalCount input - literalCount) = [] ∨
      3 ≤ runLength (input.drop (literalLength literalCount input - literalCount)) := by
  fun_induction literalLength literalCount input with
  | case1 literalCount input hloop run hrun =>
    rw [Nat.sub_self, List.drop_zero]
    exact .inr (.inr hrun)
  | case2 literalCount input hloop run hrun take ih =>
    have hle := le_literalLength (literalCount + take) (input.drop take)
    rw [show literalLength (literalCount + take) (input.drop take) - literalCount =
      take + (literalLength (literalCount + take) (input.drop take) - (literalCount + take))
      by omega, ← List.drop_drop]
    exact ih (by omega)
  | case3 literalCount input hloop =>
    rw [Nat.sub_self, List.drop_zero]
    rw [not_and_or, not_not] at hloop
    rcases hloop with hnil | hfull
    · exact .inr (.inl hnil)
    · exact .inl (by omega)

/-- A run at the start of the input saves a byte, which pays for the header of a literal
    string before it: so only those that are full, and the last, cost one. -/
theorem length_encodeStrings (input : Bytes) :
    (encodeStrings input).length + (if 3 ≤ runLength input then 1 else 0) ≤
      input.length + input.length ⌈/⌉ 63 := by
  fun_induction encodeStrings input with
  | case1 => decide
  | case2 b rest input run hrun ih =>
    have hlen : run ≤ input.length := runLength_le input
    rw [if_pos hrun, List.length_cons, List.length_cons]
    rw [List.length_drop, Nat.ceilDiv_eq_add_pred_div] at ih
    show (encodeStrings (input.drop run)).length + 1 + 1 + 1 ≤ input.length + input.length ⌈/⌉ 63
    rw [Nat.ceilDiv_eq_add_pred_div]
    omega
  | case3 b rest input run hrun literalCount ih =>
    obtain ⟨h63, hlen⟩ := literalLength_le 0 (by decide) input
    rw [Nat.zero_add] at hlen
    have hstops := literalLength_stops 0 (by decide) input
    rw [Nat.sub_zero] at hstops
    have hpos : 0 < input.length := Nat.succ_pos _
    rw [if_neg hrun, List.length_cons, List.length_append, List.length_take_of_le hlen]
    rw [List.length_drop, Nat.ceilDiv_eq_add_pred_div] at ih
    show literalCount + (encodeStrings (input.drop literalCount)).length + 1 + 0 ≤
      input.length + input.length ⌈/⌉ 63
    rw [Nat.ceilDiv_eq_add_pred_div]
    rcases hstops with hfull | hnil | hrun
    · omega
    · rw [hnil, encodeStrings, List.length_nil]
      omega
    · rw [if_pos hrun] at ih
      omega

/-! ## Blocks -/

theorem length_encodeBlocks (input : Bytes) :
    (encodeBlocks input).length = input.length + 3 * (input.length ⌈/⌉ 65535) := by
  fun_induction encodeBlocks input with
  | case1 => rfl
  | case2 b rest input count last ih =>
    have hcount : count ≤ input.length := min_le_right _ _
    have hceil := ceilDiv_eq_succ (show 0 < 65535 by decide)
      (show 0 < input.length from Nat.succ_pos _)
    rw [List.length_drop, show input.length - count = input.length - 65535 by omega] at ih
    rw [List.length_cons, List.length_cons, List.length_cons, List.length_append, ih,
      List.length_take_of_le hcount]
    show _ = input.length + 3 * (input.length ⌈/⌉ 65535)
    rw [hceil]
    omega

theorem length_encode_block (input : Bytes) :
    (encode input .Block).length = input.length + 3 * max 1 (input.length ⌈/⌉ 65535) := by
  rw [encode]
  split_ifs with h
  · subst h
    rfl
  · rw [length_encodeBlocks]
    have hpos := List.length_pos_of_ne_nil h
    have hceil := ceilDiv_eq_succ (show 0 < 65535 by decide) hpos
    omega

theorem length_flatMap_blks (blks : List Blk) :
    (blks.flatMap Blk.bytes).length = (blks.flatMap Blk.payload).length + 3 * blks.length := by
  induction blks with
  | nil => rfl
  | cons blk blks ih =>
    rw [List.flatMap_cons, List.flatMap_cons, List.length_append, List.length_append, ih,
      List.length_cons]
    show blk.payload.length + 3 + _ = _
    omega

theorem BlockStream.length_word (m : BlockStream) :
    (m.word Blk.bytes).length = m.payload.length + 3 * (m.body.length + 1) := by
  rw [Framed.word, BlockStream.payload, List.length_append, List.length_append, length_flatMap_blks]
  show _ + (m.last.payload.length + 3) = _
  omega

/-- What the encoder of MODE B gives is a stream, as the decoder takes it; and each block
    adds three bytes. -/
theorem exists_encode_block (input : Bytes) :
    ∃ m : BlockStream, encode input .Block = m.word Blk.bytes ∧ m.payload = input ∧
      m.body.length + 1 = max 1 (input.length ⌈/⌉ 65535) := by
  have hdecode := decode_of_encode input .Block .Binary
  obtain ⟨m, hm⟩ := (decodeBlocks_ok_iff [] (encode input .Block)).1 (congrArg Decoded.ok hdecode)
  have hpayload : m.payload = input := by
    rw [hm, decode, decodeBlocks_word] at hdecode
    exact congrArg Decoded.output hdecode
  have hlength := m.length_word
  rw [← hm, length_encode_block, hpayload] at hlength
  exact ⟨m, hm, hpayload, by omega⟩

/-- What the encoder emits, and how much: of MODE C no more than a byte for every 63, and
    the EOF descriptor; of MODE B three bytes for every block. -/
theorem encode_shape (input : Bytes) :
    (∃ items : List Item, encode input .Compressed = items.flatMap Item.bytes ++ [kEscape, kEof] ∧
        ∀ item ∈ items, item.IsEncoded) ∧
      (encode input .Compressed).length ≤ input.length + input.length ⌈/⌉ 63 + 2 ∧
      (∃ m : BlockStream, encode input .Block = m.word Blk.bytes ∧
        m.body.length + 1 = max 1 (input.length ⌈/⌉ 65535)) ∧
      (encode input .Block).length = input.length + 3 * max 1 (input.length ⌈/⌉ 65535) := by
  obtain ⟨items, hbytes, hencoded, _⟩ := exists_items input
  obtain ⟨m, hm, _, hcount⟩ := exists_encode_block input
  refine ⟨⟨items, by rw [encode, hbytes], hencoded⟩, ?_, ⟨m, hm, hcount⟩, length_encode_block input⟩
  have hlength := length_encodeStrings input
  rw [encode, List.length_append]
  show _ + 2 ≤ _
  omega

end TransferModeCodec
end HybridFtp
