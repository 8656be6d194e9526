import HybridFtp.Rdt.Header

/-!
# Transmission modes

The codec of the FTP transmission modes: STREAM carries the file as it is, BLOCK
cuts it into blocks with a header, and COMPRESSED replaces runs of equal bytes by
repeated strings. Both coded streams end with an EOF descriptor.

* `encode`, `decode`: the functions of `TransferModeCodec`, the loops on what is
  left of the input;
* `Blk`, `Item`: what the two coded streams are made of, and what the decoder
  makes of each (`decodeBlocks_bytes`, `decodeStrings_bytes`);
* `exists_items`: the strings that the encoder makes of its input;
* `decode_encode`: the round trip.
-/

namespace HybridFtp

/-- The types of `TYPE`: `A` and `I`. -/
inductive TransferType
  | ASCII
  | Binary
  deriving DecidableEq, Repr

/-- The modes of `MODE`: `S`, `B` and `C`. -/
inductive TransferMode
  | Stream
  | Block
  | Compressed
  deriving DecidableEq, Repr

namespace TransferModeCodec

/-- The bit of a descriptor that ends the stream. -/
def kEof : UInt8 := 0x40

/-- The control byte of MODE C before a descriptor. -/
def kEscape : UInt8 := 0xff

/-! ## Encoding -/

/-- The blocks of the input that is left. -/
def encodeBlocks : Bytes → Bytes
  | [] => []
  | b :: rest =>
    let input := b :: rest
    let count := min 65535 input.length
    let last := count = input.length
    (if last then kEof else 0) :: UInt8.ofNat (count >>> 8) :: UInt8.ofNat count ::
      (input.take count ++ encodeBlocks (input.drop count))
termination_by input => input.length
decreasing_by simp

/-- The look-ahead of a run of `first`, of which `run` bytes are known. -/
def lookAhead (first : UInt8) (run : Nat) : Bytes → Nat
  | [] => run
  | b :: rest => if b = first ∧ run < 63 then lookAhead first (run + 1) rest else run

/-- The length of the run the input starts with, as far as the encoder looks. -/
def runLength : Bytes → Nat
  | [] => 0
  | b :: rest => lookAhead b 1 rest

theorem le_lookAhead (first : UInt8) (run : Nat) (input : Bytes) :
    run ≤ lookAhead first run input := by
  induction input generalizing run with
  | nil => exact le_rfl
  | cons b rest ih =>
    rw [lookAhead]
    split_ifs
    · exact (Nat.le_succ run).trans (ih _)
    · exact le_rfl

theorem runLength_pos {input : Bytes} (h : input ≠ []) : 0 < runLength input := by
  cases input with
  | nil => exact absurd rfl h
  | cons b rest => exact le_lookAhead b 1 rest

/-- The length of the literal string the input starts with, of which
    `literalCount` bytes have already been taken. -/
def literalLength (literalCount : Nat) (input : Bytes) : Nat :=
  if input ≠ [] ∧ literalCount < 63 then
    let run := runLength input
    -- A run of three is worth a repeated string.
    if run ≥ 3 then literalCount
    else
      let take := min run (63 - literalCount)
      literalLength (literalCount + take) (input.drop take)
  else literalCount
termination_by 63 - literalCount
decreasing_by
  rename_i h _
  have := runLength_pos h.1
  omega

theorem le_literalLength (literalCount : Nat) (input : Bytes) :
    literalCount ≤ literalLength literalCount input := by
  fun_induction literalLength literalCount input with
  | case1 => exact le_rfl
  | case2 _ _ _ _ _ _ ih => exact (Nat.le_add_right _ _).trans ih
  | case3 => exact le_rfl

/-- A literal string takes at least a byte, if it starts where there is no run. -/
theorem literalLength_pos {input : Bytes} (h : input ≠ []) (hrun : ¬runLength input ≥ 3) :
    0 < literalLength 0 input := by
  rw [literalLength, if_pos ⟨h, by decide⟩]
  simp only [hrun, if_false]
  have := runLength_pos h
  exact lt_of_lt_of_le (by omega) (le_literalLength _ _)

/-- The repeated and literal strings of the input that is left. -/
def encodeStrings : Bytes → Bytes
  | [] => []
  | b :: rest =>
    let input := b :: rest
    let run := runLength input
    if run ≥ 3 then (0x80 ||| UInt8.ofNat run) :: b :: encodeStrings (input.drop run)
    else
      let literalCount := literalLength 0 input
      UInt8.ofNat literalCount :: (input.take literalCount ++ encodeStrings (input.drop literalCount))
termination_by input => input.length
decreasing_by
  · have := runLength_pos (List.cons_ne_nil b rest)
    rw [List.length_drop, List.length_cons]
    omega
  · rename_i hrun
    have := literalLength_pos (List.cons_ne_nil b rest) hrun
    rw [List.length_drop, List.length_cons]
    omega

/-- Data, as it is sent in a mode. The encoder does not look at the type. -/
def encode (input : Bytes) : TransferMode → Bytes
  | .Stream => input
  | .Block => if input = [] then [kEof, 0, 0] else encodeBlocks input
  | .Compressed => encodeStrings input ++ [kEscape, kEof]

/-! ## Decoding -/

/-- The outcome of `decode`: the output, and the message if it returns `false`. -/
structure Decoded where
  output : Bytes
  error : Option String := none
  deriving DecidableEq, Repr

/-- `decode` returns `true`. -/
def Decoded.ok (r : Decoded) : Bool := r.error.isNone

/-- `decode` returns `false`, with what it has decoded so far. -/
def fail (output : Bytes) (message : String) : Decoded := { output, error := message }

/-- After the EOF descriptor, with what is left of the input. -/
def atEof (message : String) (output : Bytes) : Bytes → Decoded
  | [] => { output }
  | _ :: _ => fail output message

theorem length_drop_lt (rest : Bytes) (count more : Nat) :
    (rest.drop count).length < rest.length + more + 1 := by
  rw [List.length_drop]
  omega

/-- The loop of MODE B. -/
def decodeBlocks (output : Bytes) : Bytes → Decoded
  | [] => fail output "MODE B stream has no EOF block"
  | descriptor :: hi :: lo :: rest =>
    let count := hi.toNat <<< 8 ||| lo.toNat
    if count > rest.length then fail output "truncated MODE B payload"
    else if descriptor &&& kEof ≠ 0 then
      atEof "data found after MODE B EOF block" (output ++ rest.take count) (rest.drop count)
    else decodeBlocks (output ++ rest.take count) (rest.drop count)
  -- One or two bytes are left.
  | _ => fail output "truncated MODE B header"
termination_by input => input.length
decreasing_by exact length_drop_lt rest count 2

/-- The loop of MODE C. -/
def decodeStrings (filler : UInt8) (output : Bytes) : Bytes → Decoded
  | [] => fail output "MODE C stream has no EOF descriptor"
  | control :: rest =>
    let count := (control &&& 0x3f).toNat
    if control = kEscape then
      match rest with
      | [] => fail output "truncated MODE C escape"
      | descriptor :: rest =>
        if descriptor &&& kEof ≠ 0 then
          atEof "data found after MODE C EOF descriptor" output rest
        -- EOR and other record descriptors carry no file bytes.
        else decodeStrings filler output rest
    else if control &&& 0xc0 = 0 then
      if count = 0 ∨ count > rest.length then fail output "invalid MODE C literal string"
      else decodeStrings filler (output ++ rest.take count) (rest.drop count)
    else if control &&& 0xc0 = 0x80 then
      match rest with
      | [] => fail output "invalid MODE C repeated string"
      | b :: rest =>
        if count = 0 then fail output "invalid MODE C repeated string"
        else decodeStrings filler (output ++ List.replicate count b) rest
    else if count = 0 then fail output "invalid MODE C filler string"
    else decodeStrings filler (output ++ List.replicate count filler) rest
termination_by input => input.length
decreasing_by
  · exact length_drop_lt rest 0 1
  · exact length_drop_lt rest count 0
  · exact length_drop_lt rest 0 1
  · exact length_drop_lt rest 0 0

/-- The byte a filler string of MODE C stands for. -/
def fillerByte : TransferType → UInt8
  | .ASCII => 32
  | .Binary => 0

/-- What is received, as it is stored. -/
def decode (input : Bytes) (mode : TransferMode) (type : TransferType) : Decoded :=
  match mode with
  | .Stream => { output := input }
  | .Block => decodeBlocks [] input
  | .Compressed => decodeStrings (fillerByte type) [] input

/-! ## What the coded streams are made of -/

/-- A block of MODE B. -/
structure Blk where
  descriptor : UInt8
  payload : Bytes
  length_le : payload.length ≤ 65535

/-- The header and the payload of a block. -/
def Blk.bytes (blk : Blk) : Bytes :=
  blk.descriptor :: UInt8.ofNat (blk.payload.length >>> 8) :: UInt8.ofNat blk.payload.length ::
    blk.payload

/-- A string of MODE C, with the bounds its control byte leaves room for. -/
inductive Item
  | literal (payload : Bytes) (pos : 0 < payload.length) (le : payload.length ≤ 63)
  | repeated (count : Nat) (pos : 0 < count) (le : count ≤ 63) (b : UInt8)
  /-- The control byte of a filler string is not the escape. -/
  | filler (count : Nat) (pos : 0 < count) (le : count ≤ 62)
  /-- A descriptor other than EOF. -/
  | descriptor (d : UInt8) (h : d &&& kEof = 0)

namespace Item

/-- A string, as it is sent. -/
def bytes : Item → Bytes
  | literal payload .. => UInt8.ofNat payload.length :: payload
  | repeated count _ _ b => [0x80 ||| UInt8.ofNat count, b]
  | filler count .. => [0xc0 ||| UInt8.ofNat count]
  | descriptor d _ => [kEscape, d]

/-- The bytes of the file an item stands for. -/
def expand (fillerByte : UInt8) : Item → Bytes
  | literal payload .. => payload
  | repeated count _ _ b => List.replicate count b
  | filler count .. => List.replicate count fillerByte
  | descriptor .. => []

end Item

/-- There are no three equal bytes in a row. -/
def NoTriple (payload : Bytes) : Prop := ∀ b, ¬[b, b, b] <:+: payload

/-- What the encoder makes of its input: runs of three bytes and more, and literal strings
    without any. -/
def Item.IsEncoded : Item → Prop
  | .literal payload .. => NoTriple payload
  | .repeated count .. => 3 ≤ count
  | .filler .. => False
  | .descriptor .. => False

theorem count_eq {n : Nat} (h : n ≤ 65535) :
    (UInt8.ofNat (n >>> 8)).toNat <<< 8 ||| (UInt8.ofNat n).toNat = n := by
  rw [← Nat.shiftLeft_add_eq_or_of_lt (UInt8.toNat_lt _), Nat.shiftLeft_eq, Nat.shiftRight_eq_div_pow,
    UInt8.toNat_ofNat', UInt8.toNat_ofNat']
  omega

/-- The decoder takes the payload of a block, and goes on unless it was the last. -/
theorem decodeBlocks_bytes (output : Bytes) (blk : Blk) (rest : Bytes) :
    decodeBlocks output (blk.bytes ++ rest) =
      if blk.descriptor &&& kEof ≠ 0 then
        atEof "data found after MODE B EOF block" (output ++ blk.payload) rest
      else decodeBlocks (output ++ blk.payload) rest := by
  rw [Blk.bytes, List.cons_append, List.cons_append, List.cons_append, decodeBlocks]
  simp only [count_eq blk.length_le, List.take_left, List.drop_left, List.length_append]
  rw [if_neg (by omega)]

/-- What the control byte of each string reads as. -/
theorem control_literal : ∀ n < 64, 0 < n → UInt8.ofNat n ≠ kEscape ∧
    (UInt8.ofNat n &&& 0x3f).toNat = n ∧ UInt8.ofNat n &&& 0xc0 = 0 := by
  decide

theorem control_repeated : ∀ n < 64, 0 < n → (0x80 ||| UInt8.ofNat n) ≠ kEscape ∧
    ((0x80 ||| UInt8.ofNat n) &&& 0x3f).toNat = n ∧ (0x80 ||| UInt8.ofNat n) &&& 0xc0 = 0x80 := by
  decide

theorem control_filler : ∀ n < 63, 0 < n → (0xc0 ||| UInt8.ofNat n) ≠ kEscape ∧
    ((0xc0 ||| UInt8.ofNat n) &&& 0x3f).toNat = n ∧ (0xc0 ||| UInt8.ofNat n) &&& 0xc0 = 0xc0 := by
  decide

/-- The decoder expands an item, and goes on. -/
theorem decodeStrings_bytes (fillerByte : UInt8) (output : Bytes) (item : Item) (rest : Bytes) :
    decodeStrings fillerByte output (item.bytes ++ rest) =
      decodeStrings fillerByte (output ++ item.expand fillerByte) rest := by
  cases item with
  | literal payload pos le =>
    obtain ⟨hesc, hcount, htag⟩ := control_literal payload.length (by omega) pos
    rw [Item.bytes, List.cons_append, decodeStrings.eq_def]
    simp only [hesc, hcount, htag, if_false, if_true, List.length_append, List.take_left,
      List.drop_left]
    rw [if_neg (by omega), Item.expand]
  | repeated count pos le b =>
    obtain ⟨hesc, hcount, htag⟩ := control_repeated count (by omega) pos
    rw [Item.bytes, List.cons_append, decodeStrings.eq_def]
    simp only [hesc, hcount, htag, if_false, if_true, List.cons_append, List.nil_append]
    rw [if_neg (by decide), if_neg (by omega), Item.expand]
  | filler count pos le =>
    obtain ⟨hesc, hcount, htag⟩ := control_filler count (by omega) pos
    rw [Item.bytes, List.cons_append, decodeStrings.eq_def]
    simp only [hesc, hcount, htag, if_false]
    rw [if_neg (by decide), if_neg (by decide), if_neg (by omega), Item.expand, List.nil_append]
  | descriptor d h =>
    rw [Item.bytes, List.cons_append, decodeStrings.eq_def]
    simp [h, Item.expand]

/-- The decoder expands the items of a stream, one after the other. -/
theorem decodeStrings_flatMap (fillerByte : UInt8) (output : Bytes) (items : List Item)
    (rest : Bytes) :
    decodeStrings fillerByte output (items.flatMap Item.bytes ++ rest) =
      decodeStrings fillerByte (output ++ items.flatMap (Item.expand fillerByte)) rest := by
  induction items generalizing output with
  | nil => simp
  | cons item items ih =>
    rw [List.flatMap_cons, List.append_assoc, decodeStrings_bytes, ih, List.flatMap_cons,
      List.append_assoc]

/-! ## Round trip -/

/-- The blocks of the encoder give back the input. -/
theorem decodeBlocks_encodeBlocks (output : Bytes) {input : Bytes} (h : input ≠ []) :
    decodeBlocks output (encodeBlocks input) = { output := output ++ input } := by
  fun_induction encodeBlocks input generalizing output with
  | case1 => exact absurd rfl h
  | case2 b rest input count last ih =>
    have hle : count ≤ input.length := min_le_right _ _
    have hcount : (input.take count).length = count := List.length_take_of_le hle
    let blk : Blk := ⟨if last then kEof else 0, input.take count, hcount.trans_le (min_le_left _ _)⟩
    have hblk : (if last then kEof else 0) :: UInt8.ofNat (count >>> 8) :: UInt8.ofNat count ::
        (input.take count ++ encodeBlocks (input.drop count)) =
          blk.bytes ++ encodeBlocks (input.drop count) := by
      simp only [Blk.bytes, blk, hcount, List.cons_append]
    rw [hblk, decodeBlocks_bytes]
    have hpayload : blk.payload = input.take count := rfl
    show (if (if last then kEof else 0) &&& kEof ≠ 0 then _ else _) = _
    rw [hpayload]
    by_cases hlast : last
    · -- The last block: nothing is left of the input.
      have hdrop : input.drop count = [] := by
        rw [show count = input.length from hlast, List.drop_length]
      rw [if_pos hlast, if_pos (by decide), hdrop, encodeBlocks, atEof,
        List.take_of_length_le (Nat.le_of_eq (show count = input.length from hlast).symm)]
    · have hdrop : input.drop count ≠ [] := by
        rw [Ne, List.drop_eq_nil_iff]
        intro hge
        exact hlast (hle.antisymm hge)
      rw [if_neg hlast, if_neg (by decide), ih _ hdrop, List.append_assoc, List.take_append_drop]

/-- The bytes the encoder looks ahead at are those of a run. -/
theorem exists_lookAhead (first : UInt8) (run : Nat) (hrun : run ≤ 63) (input : Bytes) :
    ∃ k ≤ input.length, lookAhead first run input = run + k ∧ run + k ≤ 63 ∧
      input.take k = List.replicate k first := by
  induction input generalizing run with
  | nil => exact ⟨0, le_rfl, rfl, hrun, rfl⟩
  | cons b rest ih =>
    rw [lookAhead]
    split_ifs with h
    · obtain ⟨k, hk, heq, hle, htake⟩ := ih (run + 1) h.2
      refine ⟨k + 1, Nat.succ_le_succ hk, by omega, by omega, ?_⟩
      rw [List.take_succ_cons, htake, h.1, List.replicate_succ]
    · exact ⟨0, Nat.zero_le _, rfl, hrun, rfl⟩

/-- The run the encoder has found. -/
theorem take_runLength (b : UInt8) (rest : Bytes) :
    runLength (b :: rest) ≤ 63 ∧ runLength (b :: rest) ≤ (b :: rest).length ∧
      (b :: rest).take (runLength (b :: rest)) = List.replicate (runLength (b :: rest)) b := by
  obtain ⟨k, hk, heq, hle, htake⟩ := exists_lookAhead b 1 (by decide) rest
  rw [runLength, heq]
  refine ⟨hle, by rw [List.length_cons]; omega, ?_⟩
  rw [Nat.add_comm, List.take_succ_cons, htake, List.replicate_succ]

theorem runLength_le (input : Bytes) : runLength input ≤ input.length := by
  cases input with
  | nil => exact le_rfl
  | cons b rest => exact (take_runLength b rest).2.1

theorem literalLength_le (literalCount : Nat) (h : literalCount ≤ 63) (input : Bytes) :
    literalLength literalCount input ≤ 63 ∧
      literalLength literalCount input ≤ literalCount + input.length := by
  fun_induction literalLength literalCount input with
  | case1 => exact ⟨h, Nat.le_add_right _ _⟩
  | case2 literalCount input hloop run hrun take ih =>
    obtain ⟨h63, hlen⟩ := ih (by omega)
    have := runLength_le input
    rw [List.length_drop] at hlen
    exact ⟨h63, by omega⟩
  | case3 => exact ⟨h, Nat.le_add_right _ _⟩

/-- Where the look-ahead stops before it is full, the run ends. -/
theorem head?_drop_lookAhead (first : UInt8) (run : Nat) (input : Bytes)
    (h : lookAhead first run input < 63) :
    (input.drop (lookAhead first run input - run)).head? ≠ some first := by
  induction input generalizing run with
  | nil => simp
  | cons b rest ih =>
    rw [lookAhead] at h ⊢
    split_ifs at h ⊢ with hb
    · have hle := le_lookAhead first (run + 1) rest
      rw [show lookAhead first (run + 1) rest - run = lookAhead first (run + 1) rest - (run + 1) + 1
        by omega, List.drop_succ_cons]
      exact ih (run + 1) h
    · rw [Nat.sub_self, List.drop_zero, List.head?_cons, Ne, Option.some.injEq]
      exact fun heq => hb ⟨heq, h⟩

theorem head?_drop_runLength (b : UInt8) (rest : Bytes) (h : runLength (b :: rest) < 63) :
    ((b :: rest).drop (runLength (b :: rest))).head? ≠ some b := by
  have hle := le_lookAhead b 1 rest
  have hdrop := head?_drop_lookAhead b 1 rest h
  rw [runLength]
  rwa [show lookAhead b 1 rest = lookAhead b 1 rest - 1 + 1 by omega, List.drop_succ_cons]

theorem noTriple_nil : NoTriple [] := by
  intro b h
  exact absurd (List.infix_nil.1 h) (List.cons_ne_nil _ _)

theorem NoTriple.cons {b : UInt8} {rest : Bytes} (hrest : NoTriple rest)
    (hb : rest.head? ≠ some b ∨ (rest.drop 1).head? ≠ some b) : NoTriple (b :: rest) := by
  intro a h
  rcases List.infix_cons_iff.1 h with h | h
  · obtain ⟨t, ht⟩ := h
    rw [List.cons_append, List.cons.injEq] at ht
    obtain ⟨rfl, rfl⟩ := ht
    rcases hb with hb | hb <;> exact hb rfl
  · exact hrest a h

/-- A short run before something else makes no three equal bytes in a row. -/
theorem NoTriple.replicate_append {run : Nat} (hrun : run < 3) {b : UInt8} {rest : Bytes}
    (hrest : NoTriple rest) (hb : rest.head? ≠ some b) :
    NoTriple (List.replicate run b ++ rest) := by
  obtain rfl | rfl | rfl : run = 0 ∨ run = 1 ∨ run = 2 := by omega
  · exact hrest
  · exact hrest.cons (.inl hb)
  · exact (hrest.cons (.inl hb)).cons (.inr hb)

/-- A literal string stops where a run starts, so it has none. -/
theorem noTriple_take_literalLength (literalCount : Nat) (input : Bytes) :
    NoTriple (input.take (literalLength literalCount input - literalCount)) := by
  fun_induction literalLength literalCount input with
  | case1 literalCount =>
    rw [Nat.sub_self, List.take_zero]
    exact noTriple_nil
  | case2 literalCount input hloop run hrun take ih =>
    obtain ⟨b, rest, rfl⟩ := List.exists_cons_of_ne_nil hloop.1
    obtain ⟨_, hrunLength, hreplicate⟩ := take_runLength b rest
    have htake : (b :: rest).take take = List.replicate take b := by
      rw [show take = min take run by omega, ← List.take_take]
      exact (congrArg (List.take take) hreplicate).trans List.take_replicate
    have hle := le_literalLength (literalCount + take) ((b :: rest).drop take)
    rw [show literalLength (literalCount + take) ((b :: rest).drop take) - literalCount =
      take + (literalLength (literalCount + take) ((b :: rest).drop take) - (literalCount + take))
      by omega, List.take_add, htake]
    refine ih.replicate_append (by omega) ?_
    by_cases hwhole : take = run
    · -- The run has been taken whole, and something else follows.
      have hhead := head?_drop_runLength b rest (by omega)
      rw [List.head?_take]
      split_ifs
      · exact Option.some_ne_none b ∘ Eq.symm
      · rwa [hwhole]
    · -- The string is full.
      rw [literalLength, if_neg (by omega), Nat.sub_self, List.take_zero]
      exact Option.some_ne_none b ∘ Eq.symm
  | case3 literalCount =>
    rw [Nat.sub_self, List.take_zero]
    exact noTriple_nil

/-- The encoder gives items that stand for its input, whatever the filler byte:
    it uses no filler. -/
theorem exists_items (input : Bytes) :
    ∃ items : List Item, encodeStrings input = items.flatMap Item.bytes ∧
      (∀ item ∈ items, item.IsEncoded) ∧
      ∀ fillerByte, items.flatMap (Item.expand fillerByte) = input := by
  fun_induction encodeStrings input with
  | case1 => exact ⟨[], rfl, by simp, fun _ => rfl⟩
  | case2 b rest input run hrun ih =>
    obtain ⟨items, hbytes, hencoded, hexpand⟩ := ih
    obtain ⟨hle, _, htake⟩ := take_runLength b rest
    refine ⟨.repeated run (by omega) hle b :: items, ?_, List.forall_mem_cons.2 ⟨hrun, hencoded⟩,
      fun fillerByte => ?_⟩
    · rw [hbytes]
      rfl
    · rw [List.flatMap_cons, hexpand, Item.expand, ← htake]
      exact List.take_append_drop run input
  | case3 b rest input run hrun literalCount ih =>
    obtain ⟨items, hbytes, hencoded, hexpand⟩ := ih
    obtain ⟨h63, hlen⟩ := literalLength_le 0 (by decide) input
    have hliteral : NoTriple (input.take literalCount) := noTriple_take_literalLength 0 input
    have hpos := literalLength_pos (List.cons_ne_nil b rest) hrun
    have hcount : (input.take literalCount).length = literalCount :=
      List.length_take_of_le (by omega)
    refine ⟨.literal (input.take literalCount) (hcount.symm ▸ hpos) (hcount.trans_le h63) :: items, ?_,
      List.forall_mem_cons.2 ⟨hliteral, hencoded⟩, fun fillerByte => ?_⟩
    · rw [List.flatMap_cons, hbytes, Item.bytes, hcount]
      rfl
    · rw [List.flatMap_cons, hexpand, Item.expand]
      exact List.take_append_drop literalCount input

theorem decode_of_encode (x : Bytes) (m : TransferMode) (t : TransferType) :
    decode (encode x m) m t = { output := x } := by
  cases m with
  | Stream => rfl
  | Block =>
    rw [encode, decode]
    split_ifs with hx
    · subst hx
      simp [decodeBlocks, atEof, kEof]
    · exact decodeBlocks_encodeBlocks [] hx
  | Compressed =>
    obtain ⟨items, hbytes, _, hexpand⟩ := exists_items x
    rw [encode, decode, hbytes, decodeStrings_flatMap, hexpand, decodeStrings, if_pos rfl]
    rfl

/-- What is encoded in any mode is decoded, in that mode and with any type, to
    what it was. -/
theorem decode_encode (x : Bytes) (m : TransferMode) (t : TransferType) :
    (decode (encode x m) m t).ok = true ∧ (decode (encode x m) m t).output = x := by
  rw [decode_of_encode]
  exact ⟨rfl, rfl⟩

end TransferModeCodec

end HybridFtp
