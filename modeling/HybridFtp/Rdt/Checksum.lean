import HybridFtp.Lib.OnesComplement
import HybridFtp.Rdt.Header
import Mathlib.Data.List.GetD

/-!
# What the checksum detects

The Internet checksum is a one's complement sum modulo `65535`, and says that much of
the *number* of a datagram, whose digits are its bytes.

* `serializeHeader_deserializeHeader`: the header of a datagram is its first bytes;
* `internetChecksum_toNat`: the checksum of a byte string, as a sum of words;
* `dvd_number_of_verifies`: `65535` divides the number of a datagram that verifies;
* `verifyChecksum_stamp_iff`: what other payloads a stamped header verifies with;
* `burst_detected`: no burst of up to 15 bits goes unnoticed.
-/

namespace HybridFtp

open OnesComplement

/-! ## Headers from their bytes -/

theorem putU16_getU16 (a b : UInt8) :
    putU16 (UInt16.ofNat (a.toNat * 2 ^ 8 + b.toNat)) = [a, b] := by
  have ha := a.toNat_lt
  have hb := b.toNat_lt
  simp only [putU16, UInt16.toNat_ofNat', List.cons.injEq, ← UInt8.toNat_inj, UInt8.toNat_ofNat']
  exact ⟨by omega, by omega, trivial⟩

theorem putU32_getU32 (a b c d : UInt8) :
    putU32 (UInt32.ofNat (a.toNat * 2 ^ 24 + b.toNat * 2 ^ 16 + c.toNat * 2 ^ 8 + d.toNat)) =
      [a, b, c, d] := by
  have ha := a.toNat_lt
  have hb := b.toNat_lt
  have hc := c.toNat_lt
  have hd := d.toNat_lt
  simp only [putU32, UInt32.toNat_ofNat', List.cons.injEq, ← UInt8.toNat_inj, UInt8.toNat_ofNat']
  exact ⟨by omega, by omega, by omega, by omega, trivial⟩

/-- The bytes of the header that is read are those that were read. -/
theorem serializeHeader_deserializeHeader {buffer : Bytes}
    (h : CUSTOM_UDP_HEADER_SIZE ≤ buffer.length) :
    serializeHeader (deserializeHeader buffer) = buffer.take CUSTOM_UDP_HEADER_SIZE := by
  obtain ⟨header, payload, rfl, hheader⟩ : ∃ header payload, buffer = header ++ payload ∧
      header.length = CUSTOM_UDP_HEADER_SIZE :=
    ⟨_, _, (List.take_append_drop CUSTOM_UDP_HEADER_SIZE buffer).symm, by simpa using h⟩
  rw [← hheader, List.take_left]
  match header, hheader with
  | [a0, a1, a2, a3, b0, b1, b2, b3, c0, c1, d0, d1, e0, e1, f], _ =>
    rw [serializeHeader]
    show putU32 (UInt32.ofNat _) ++ putU32 (UInt32.ofNat _) ++ putU16 (UInt16.ofNat _) ++
      putU16 (UInt16.ofNat _) ++ putU16 (UInt16.ofNat _) ++ [f] = _
    rw [putU32_getU32, putU32_getU32, putU16_getU16, putU16_getU16, putU16_getU16]
    rfl

/-! ## The sum of the words -/

/-- The bytes as numbers. -/
def digits (data : Bytes) : List Nat := data.map UInt8.toNat

theorem digits_lt {data : Bytes} : ∀ x ∈ digits data, x < 2 ^ 8 := by
  intro x hx
  obtain ⟨b, _, rfl⟩ := List.mem_map.1 hx
  exact b.toNat_lt

/-- The number with the bytes as digits, the lowest one first. -/
def number (data : Bytes) : Nat := Nat.ofDigits 256 (digits data)

theorem number_append (a b : Bytes) : number (a ++ b) = number a + 256 ^ a.length * number b := by
  rw [number, digits, List.map_append, Nat.ofDigits_append, List.length_map]
  rfl

/-- Byte strings of one length have numbers of their own. -/
theorem eq_of_number_eq {a b : Bytes} (hlen : a.length = b.length) (h : number a = number b) :
    a = b := by
  have hdigits := Nat.ofDigits_inj_of_len_eq (by decide) (by simpa [digits] using hlen)
    (fun x hx => digits_lt x hx) (fun x hx => digits_lt x hx) h
  exact (List.map_inj_right fun x y => UInt8.toNat_inj.1).1 hdigits

/-- The high half of a double word, by its mask. -/
theorem and_high_half (t : Nat) : t &&& 0xFFFF0000 = (t >>> 16 &&& 0xFFFF) <<< 16 := by
  refine Nat.eq_of_testBit_eq fun i => ?_
  rw [show 0xFFFF0000 = 0xFFFF <<< 16 from rfl, Nat.testBit_and, Nat.testBit_shiftLeft,
    Nat.testBit_shiftLeft, Nat.testBit_and, Nat.testBit_shiftRight]
  by_cases hi : 16 ≤ i
  · simp [hi]
  · simp [hi]

theorem addWord_toNat {sum : UInt32} (h : sum.toNat ≤ 65535) (word : UInt16) :
    (addWord sum word).toNat = residue 65535 (sum.toNat + word.toNat) := by
  have hword := word.toNat_lt
  have hsum : (sum + word.toUInt32).toNat = sum.toNat + word.toNat := by
    rw [UInt32.toNat_add, UInt16.toNat_toUInt32, Nat.mod_eq_of_lt (by omega)]
  have hhigh : (sum.toNat + word.toNat) >>> 16 &&& 0xFFFF = (sum.toNat + word.toNat) / 2 ^ 16 := by
    rw [Nat.shiftRight_eq_div_pow, show 0xFFFF = 2 ^ 16 - 1 from rfl,
      Nat.and_two_pow_sub_one_eq_mod, Nat.mod_eq_of_lt (by omega)]
  have hmask : sum + word.toUInt32 &&& (0xFFFF0000 : UInt32) ≠ 0 ↔
      65535 < sum.toNat + word.toNat := by
    rw [Ne, ← UInt32.toNat_inj, UInt32.toNat_and, hsum]
    show ¬(sum.toNat + word.toNat) &&& 0xFFFF0000 = 0 ↔ _
    rw [and_high_half, hhigh, Nat.shiftLeft_eq]
    omega
  rw [addWord]
  split_ifs with hcarry
  · have hlt := hmask.1 hcarry
    rw [residue_of_lt hlt (by omega), UInt32.toNat_add, UInt32.toNat_and, UInt32.toNat_shiftRight,
      hsum]
    show ((sum.toNat + word.toNat &&& 0xFFFF) + (sum.toNat + word.toNat) >>> 16) % 2 ^ 32 = _
    rw [show 0xFFFF = 2 ^ 16 - 1 from rfl, Nat.and_two_pow_sub_one_eq_mod,
      Nat.shiftRight_eq_div_pow]
    omega
  · rw [hsum, residue_of_le (not_lt.1 (mt hmask.2 hcarry))]

theorem toNat_word (hi lo : UInt8) :
    (hi.toUInt16 <<< 8 ||| lo.toUInt16).toNat = hi.toNat * 256 + lo.toNat := by
  have hhi := hi.toNat_lt
  have hlo := lo.toNat_lt
  rw [UInt16.toNat_or, UInt16.toNat_shiftLeft, UInt8.toNat_toUInt16, UInt8.toNat_toUInt16]
  show hi.toNat <<< 8 % 2 ^ 16 ||| lo.toNat = _
  rw [Nat.shiftLeft_eq, Nat.mod_eq_of_lt (by omega), Nat.mul_comm,
    ← Nat.two_pow_add_eq_or_of_lt hlo, Nat.mul_comm]

theorem toNat_last (last : UInt8) : (last.toUInt16 <<< 8).toNat = last.toNat * 256 := by
  simpa using toNat_word last 0

theorem sumWords_toNat {sum : UInt32} (h : sum.toNat ≤ 65535) (data : Bytes) :
    (sumWords sum data).toNat = residue 65535 (sum.toNat + wordSum 256 (digits data)) := by
  induction sum, data using sumWords.induct with
  | case1 sum hi lo rest ih =>
    have hword := addWord_toNat h (hi.toUInt16 <<< 8 ||| lo.toUInt16)
    rw [sumWords, ih (hword ▸ residue_le (by decide) _), hword, toNat_word, residue_residue_add,
      Nat.add_assoc]
    rfl
  | case2 sum last => rw [sumWords, addWord_toNat h, toNat_last]; rfl
  | case3 sum => exact (residue_of_le h).symm

theorem internetChecksum_toNat (data : Bytes) :
    (internetChecksum data).toNat = 65535 - residue 65535 (wordSum 256 (digits data)) := by
  have hsum := @sumWords_toNat 0 (by decide) data
  rw [show (0 : UInt32).toNat = 0 from rfl, Nat.zero_add] at hsum
  have hle := residue_le (by decide : 0 < 65535) (wordSum 256 (digits data))
  rw [← hsum] at hle ⊢
  rw [internetChecksum]
  simp only [UInt32.toNat_toUInt16, UInt32.toNat_and, UInt32.toNat_not]
  show (2 ^ 32 - 1 - (sumWords 0 data).toNat &&& 2 ^ 16 - 1) % 2 ^ 16 = _
  rw [Nat.and_two_pow_sub_one_eq_mod]
  omega

/-! ## Datagrams that verify -/

/-- The bytes the checksum is computed over: the checksum field is cleared. -/
def cleared (hdr : CustomUDPHeader) (payload : Bytes) : Bytes :=
  serializeHeader { hdr with checksum := 0 } ++ payload

theorem wordSum_putU16 (x : UInt16) (rest : Bytes) :
    wordSum 256 (digits (putU16 x ++ rest)) = x.toNat + wordSum 256 (digits rest) := by
  have hx := x.toNat_lt
  show (UInt8.ofNat (x.toNat / 2 ^ 8)).toNat * 256 + (UInt8.ofNat x.toNat).toNat + _ = _
  rw [UInt8.toNat_ofNat', UInt8.toNat_ofNat']
  congr 1
  omega

/-- The checksum field is a word of the datagram. -/
theorem wordSum_serializeHeader (hdr : CustomUDPHeader) (payload : Bytes) :
    wordSum 256 (digits (serializeHeader hdr ++ payload)) =
      wordSum 256 (digits (cleared hdr payload)) + hdr.checksum.toNat := by
  have hsplit : ∀ c : UInt16, wordSum 256 (digits (serializeHeader { hdr with checksum := c } ++
      payload)) = wordSum 256 (digits (putU32 hdr.seqNum ++ putU32 hdr.ackNum ++
        putU16 hdr.payloadLen ++ putU16 hdr.windowSize)) +
          (c.toNat + wordSum 256 (digits (hdr.flags :: payload))) := by
    intro c
    rw [← wordSum_putU16, ← wordSum_append 256 (by exact ⟨6, rfl⟩), serializeHeader]
    simp [digits]
  rw [cleared, hsplit 0, show (0 : UInt16).toNat = 0 from rfl, hsplit hdr.checksum]
  omega

/-- A header verifies if its checksum fills up the sum of the other words. -/
theorem verifyChecksum_iff (hdr : CustomUDPHeader) (payload : Bytes) :
    verifyChecksum hdr payload = true ↔
      hdr.checksum.toNat + residue 65535 (wordSum 256 (digits (cleared hdr payload))) = 65535 := by
  have hle := residue_le (by decide : 0 < 65535) (wordSum 256 (digits (cleared hdr payload)))
  rw [verifyChecksum, beq_iff_eq, ← UInt16.toNat_inj, calculateChecksum, ← cleared,
    internetChecksum_toNat]
  omega

theorem coprime_256 (k : Nat) : Nat.Coprime 65535 (256 ^ k) :=
  Nat.Coprime.pow_right k (by decide)

theorem dvd_wordSum_iff (data : Bytes) :
    65535 ∣ wordSum 256 (digits data) ↔ 65535 ∣ number data := by
  have hcop : Nat.Coprime 65535 256 := by decide
  rw [(wordSum_modEq (by decide : 0 < 256) (digits data)).dvd_iff dvd_rfl]
  exact ⟨hcop.dvd_of_dvd_mul_left, fun h => h.mul_left 256⟩

/-- `65535` divides the number of what verifies. -/
theorem dvd_number_of_verifies {buffer : Bytes} (h : Verifies buffer) : 65535 ∣ number buffer := by
  obtain ⟨hlen, hverify⟩ := h
  have hbuffer := List.take_append_drop CUSTOM_UDP_HEADER_SIZE buffer
  rw [← serializeHeader_deserializeHeader hlen] at hbuffer
  rw [← dvd_wordSum_iff, ← hbuffer, wordSum_serializeHeader]
  rw [verifyChecksum_iff] at hverify
  have hmod := (residue_modEq 65535 (wordSum 256 (digits (cleared (deserializeHeader buffer)
    (buffer.drop CUSTOM_UDP_HEADER_SIZE))))).add_right (deserializeHeader buffer).checksum.toNat
  rw [Nat.add_comm, hverify] at hmod
  exact (hmod.dvd_iff dvd_rfl).1 dvd_rfl

theorem wordSum_cleared_pos {hdr : CustomUDPHeader} (hflags : hdr.flags ≠ 0) (payload : Bytes) :
    0 < wordSum 256 (digits (cleared hdr payload)) := by
  have hpos : 0 < hdr.flags.toNat := Nat.pos_of_ne_zero fun h => hflags (UInt8.toNat_inj.1 h)
  have hlast : hdr.flags.toNat * 256 ≤ wordSum 256 (digits (hdr.flags :: payload)) := by
    cases payload with
    | nil => exact le_rfl
    | cons b payload =>
      show _ ≤ hdr.flags.toNat * 256 + b.toNat + wordSum 256 (digits payload)
      omega
  have hsplit : cleared hdr payload = (putU32 hdr.seqNum ++ putU32 hdr.ackNum ++
      putU16 hdr.payloadLen ++ putU16 hdr.windowSize ++ putU16 0) ++ (hdr.flags :: payload) := by
    simp [cleared, serializeHeader]
  rw [hsplit, digits, List.map_append, wordSum_append 256 (by exact ⟨7, rfl⟩)]
  exact Nat.add_pos_right _ (lt_of_lt_of_le (by omega) hlast)

/-- What is appended does not change the class of a number if it is a multiple itself. -/
theorem number_modEq_append_iff (a b : Bytes) :
    number a ≡ number (a ++ b) [MOD 65535] ↔ 65535 ∣ number b := by
  rw [number_append, Nat.modEq_iff_dvd' (Nat.le_add_right _ _), Nat.add_sub_cancel_left]
  exact ⟨(coprime_256 _).dvd_of_dvd_mul_left, fun h => h.mul_left _⟩

/-- A header with a flag, stamped for one payload, verifies with those that have a
    number congruent to it. -/
theorem verifyChecksum_stamp_iff {hdr : CustomUDPHeader} (hflags : hdr.flags ≠ 0)
    (payload payload' : Bytes) :
    verifyChecksum { hdr with checksum := calculateChecksum hdr payload } payload' = true ↔
      number payload ≡ number payload' [MOD 65535] := by
  have hle := residue_le (by decide : 0 < 65535) (wordSum 256 (digits (cleared hdr payload)))
  have hsum : verifyChecksum { hdr with checksum := calculateChecksum hdr payload } payload' = true ↔
      residue 65535 (wordSum 256 (digits (cleared hdr payload))) =
        residue 65535 (wordSum 256 (digits (cleared hdr payload'))) := by
    rw [verifyChecksum_iff]
    show (internetChecksum (cleared hdr payload)).toNat +
      residue 65535 (wordSum 256 (digits (cleared hdr payload'))) = 65535 ↔ _
    rw [internetChecksum_toNat]
    omega
  rw [hsum, residue_eq_residue_iff (wordSum_cleared_pos hflags _) (wordSum_cleared_pos hflags _)]
  -- The words weigh like the digits, and the header is the same.
  have hnumber : ∀ p, wordSum 256 (digits (cleared hdr p)) ≡
      256 * number (serializeHeader { hdr with checksum := 0 }) + 256 ^ 16 * number p
        [MOD 65535] := by
    intro p
    refine (wordSum_modEq (by decide : 0 < 256) _).trans ?_
    show 256 * number (cleared hdr p) ≡ _ [MOD 65535]
    rw [cleared, number_append, length_serializeHeader, Nat.mul_add, ← Nat.mul_assoc]
    rfl
  constructor
  · intro h
    have h' := ((hnumber payload).symm.trans h).trans (hnumber payload')
    exact Nat.ModEq.cancel_left_of_coprime (coprime_256 16) h'.add_left_cancel'
  · intro h
    exact ((hnumber payload).trans ((h.mul_left _).add_left _)).trans (hnumber payload').symm

/-! ## Bursts -/

/-- The order in which the bits of a byte are counted. -/
inductive BitOrder
  | highFirst
  | lowFirst
  deriving DecidableEq, Repr

/-- The bit of a datagram at a position, counted through its bytes. -/
def bitAt (order : BitOrder) (datagram : Bytes) (i : Nat) : Bool :=
  (datagram.getD (i / 8) 0).toNat.testBit
    (match order with
      | .highFirst => 7 - i % 8
      | .lowFirst => i % 8)

theorem digits_getD (data : Bytes) (i : Nat) : (digits data).getD i 0 = (data.getD i 0).toNat := by
  rw [digits, List.getD_eq_getElem?_getD, List.getElem?_map, List.getD_eq_getElem?_getD]
  cases data[i]? <;> rfl

theorem testBit_number (data : Bytes) (i : Nat) :
    (number data).testBit i = bitAt .lowFirst data i := by
  rw [number, show 256 = 2 ^ 8 from rfl, testBit_ofDigits (by decide) digits_lt, digits_getD]
  rfl

/-- Read from its end, a datagram has its bits in the other order. -/
theorem testBit_number_reverse (data : Bytes) {i : Nat} (hi : i < 8 * data.length) :
    (number data.reverse).testBit i = bitAt .highFirst data (8 * data.length - 1 - i) := by
  have hbyte : data.reverse.getD (i / 8) 0 = data.getD ((8 * data.length - 1 - i) / 8) 0 := by
    rw [List.getD_eq_getElem?_getD, List.getD_eq_getElem?_getD, List.getElem?_reverse (by omega)]
    congr 2
    omega
  rw [testBit_number, bitAt, bitAt, hbyte]
  congr 1
  omega

theorem dvd_number_reverse {data : Bytes} (h : 65535 ∣ number data) :
    65535 ∣ number data.reverse := by
  have hmod := ofDigits_reverse_modEq (by decide : 0 < 256) (digits data)
  rw [digits, ← List.map_reverse] at hmod
  refine (coprime_256 1).dvd_of_dvd_mul_left ((hmod.dvd_iff dvd_rfl).2 ?_)
  exact h.mul_left _

theorem testBit_number_of_le {data : Bytes} {i : Nat} (hi : 8 * data.length ≤ i) :
    (number data).testBit i = false := by
  have hlt : number data < 256 ^ data.length := by
    simpa [number, digits] using Nat.ofDigits_lt_base_pow_length (by decide) digits_lt
  rw [show 256 = 2 ^ 8 from rfl, ← Nat.pow_mul] at hlt
  exact Nat.testBit_lt_two_pow (hlt.trans_le (Nat.pow_le_pow_right (by decide) hi))

/-- What has another bit somewhere among 15 of them, and no other one, does not verify. -/
theorem burst_detected (order : BitOrder) {datagram altered : Bytes} (p : Nat)
    (h : Verifies datagram) (hlen : altered.length = datagram.length) (hne : altered ≠ datagram)
    (hburst : ∀ i, bitAt order altered i ≠ bitAt order datagram i → p ≤ i ∧ i < p + 15) :
    ¬Verifies altered := by
  intro h'
  have hdvd := dvd_number_of_verifies h
  have hdvd' := dvd_number_of_verifies h'
  cases order with
  | lowFirst =>
    refine hne (eq_of_number_eq hlen (eq_of_burst (m := 65535) (k := p) (w := 15) (by decide)
      (by decide) (hdvd'.modEq_zero_nat.trans hdvd.modEq_zero_nat.symm) fun i hi => ?_))
    rw [testBit_number, testBit_number] at hi
    exact hburst i hi
  | highFirst =>
    -- The same from the end of the datagram, where the window may be cut off.
    have hmod := (dvd_number_reverse hdvd').modEq_zero_nat.trans
      (dvd_number_reverse hdvd).modEq_zero_nat.symm
    refine hne (List.reverse_injective (eq_of_number_eq (by simp [hlen]) (eq_of_burst (m := 65535)
      (k := 8 * datagram.length - (p + 15)) (w := 15) (by decide) (by decide) hmod
        fun i hi => ?_)))
    by_cases hle : i < 8 * datagram.length
    · rw [testBit_number_reverse _ (hlen ▸ hle), testBit_number_reverse _ hle, hlen] at hi
      have hp := hburst _ hi
      omega
    · refine absurd ?_ hi
      rw [testBit_number_of_le (by simpa [hlen] using hle), testBit_number_of_le (by simpa using hle)]

/-- The FIN flag and the low bit of the checksum field. -/
theorem burst_detected_flags :
    ¬Verifies ((packet { seqNum := 3, flags := FLAG_FIN } []).set 13 0xFD |>.set 14 0) := by
  refine burst_detected .highFirst 105 (verifies_packet { seqNum := 3, flags := FLAG_FIN } [])
    (by decide +kernel) (by decide +kernel) fun i hi => ?_
  by_cases hle : i < 120
  · have hbits : ∀ i < 120, bitAt .highFirst
        ((packet { seqNum := 3, flags := FLAG_FIN } []).set 13 0xFD |>.set 14 0) i ≠
          bitAt .highFirst (packet { seqNum := 3, flags := FLAG_FIN } []) i →
            105 ≤ i ∧ i < 120 := by decide +kernel
    exact hbits i hle hi
  · refine absurd ?_ hi
    have hend : 15 ≤ i / 8 := by omega
    rw [bitAt, bitAt, List.getD_eq_default _ _ (by simpa [length_packet, CUSTOM_UDP_HEADER_SIZE] using hend),
      List.getD_eq_default _ _ hend]

end HybridFtp
