import HybridFtp.Rdt.Checksum

/-!
# The checksum and its reference

`internetChecksum` adds a word at a time to an accumulator of 32 bits, and folds it once
after each addition. The reference is the one's complement sum of the words.

* `accumulators`: the values of the accumulator;
* `accumulators_le`: there is room for the carry, and it is gone after the fold;
* `internetChecksum_reference`: the checksum is the complement of the reference.
-/

namespace HybridFtp

open OnesComplement

/-- The big-endian 16-bit words of a byte string; a last odd byte is padded with a zero
    byte. -/
def bigEndianWords : Bytes → List Nat
  | hi :: lo :: rest => (hi.toNat * 256 + lo.toNat) :: bigEndianWords rest
  | [last] => [last.toNat * 256 + 0]
  | [] => []

/-- The values of `sum` in `internetChecksum`, word by word: after the addition, and after
    the fold. -/
def accumulators (sum : UInt32) : Bytes → List (UInt32 × UInt32)
  | hi :: lo :: rest =>
    let word := hi.toUInt16 <<< 8 ||| lo.toUInt16
    (sum + word.toUInt32, addWord sum word) :: accumulators (addWord sum word) rest
  | [last] =>
    let word := last.toUInt16 <<< 8
    [(sum + word.toUInt32, addWord sum word)]
  | [] => []

/-! ## The accumulator -/

/-- The last value of the accumulator is the one that is complemented. -/
theorem getLast?_accumulators (sum : UInt32) (data : Bytes) :
    ((accumulators sum data).getLast?.map Prod.snd).getD sum = sumWords sum data := by
  induction sum, data using sumWords.induct with
  | case1 sum hi lo rest ih =>
    rw [accumulators, sumWords, ← ih, List.getLast?_cons]
    cases (accumulators _ rest).getLast? <;> rfl
  | case2 sum last => rfl
  | case3 sum => rfl

/-- One addition to what is folded, and the fold after it. -/
theorem addWord_le {sum : UInt32} (h : sum.toNat ≤ 0xFFFF) (word : UInt16) :
    (sum + word.toUInt32).toNat ≤ 0x1FFFF ∧ (addWord sum word).toNat ≤ 0xFFFF := by
  have hword := word.toNat_lt
  constructor
  · rw [UInt32.toNat_add, UInt16.toNat_toUInt32]
    omega
  · rw [addWord_toNat h]
    exact residue_le (by decide) _

theorem accumulators_le {sum : UInt32} (h : sum.toNat ≤ 0xFFFF) (data : Bytes) :
    ∀ acc ∈ accumulators sum data, acc.1.toNat ≤ 0x1FFFF ∧ acc.2.toNat ≤ 0xFFFF := by
  induction sum, data using sumWords.induct with
  | case1 sum hi lo rest ih =>
    have hword := addWord_le h (hi.toUInt16 <<< 8 ||| lo.toUInt16)
    rw [accumulators]
    exact List.forall_mem_cons.2 ⟨hword, ih hword.2⟩
  | case2 sum last =>
    rw [accumulators]
    exact List.forall_mem_singleton.2 (addWord_le h _)
  | case3 sum => exact List.forall_mem_nil _

/-! ## The reference -/

theorem bigEndianWords_lt (data : Bytes) : ∀ word ∈ bigEndianWords data, word < 0x10000 := by
  induction data using bigEndianWords.induct with
  | case1 hi lo rest ih =>
    have hhi := hi.toNat_lt
    have hlo := lo.toNat_lt
    rw [bigEndianWords]
    exact List.forall_mem_cons.2 ⟨by omega, ih⟩
  | case2 last =>
    have hlast := last.toNat_lt
    rw [bigEndianWords]
    exact List.forall_mem_singleton.2 (by omega)
  | case3 => exact List.forall_mem_nil _

theorem sum_bigEndianWords (data : Bytes) :
    (bigEndianWords data).sum = wordSum 256 (digits data) := by
  induction data using bigEndianWords.induct with
  | case1 hi lo rest ih =>
    rw [bigEndianWords, List.sum_cons, ih]
    rfl
  | case2 last =>
    rw [bigEndianWords, List.sum_singleton, Nat.add_zero]
    rfl
  | case3 => rfl

theorem onesSum_bigEndianWords (data : Bytes) :
    onesSum 0x10000 (bigEndianWords data) = residue 0xFFFF (bigEndianWords data).sum :=
  onesSum_eq_residue (by decide) (bigEndianWords_lt data)

/-- The checksum is the complement of the one's complement sum of the words: `0` if they
    are all zero, and otherwise the representative of their sum among `1, …, 0xFFFF`. -/
theorem internetChecksum_reference (data : Bytes) :
    (∀ acc ∈ accumulators 0 data, acc.1.toNat ≤ 0x1FFFF ∧ acc.2.toNat ≤ 0xFFFF) ∧
      sumWords 0 data = ((accumulators 0 data).getLast?.map Prod.snd).getD 0 ∧
      internetChecksum data = ~~~UInt16.ofNat (onesSum 0x10000 (bigEndianWords data)) ∧
      (onesSum 0x10000 (bigEndianWords data) = 0 ↔ ∀ word ∈ bigEndianWords data, word = 0) ∧
      (onesSum 0x10000 (bigEndianWords data) ≠ 0 →
        1 ≤ onesSum 0x10000 (bigEndianWords data) ∧
        onesSum 0x10000 (bigEndianWords data) ≤ 0xFFFF ∧
        onesSum 0x10000 (bigEndianWords data) ≡ (bigEndianWords data).sum [MOD 0xFFFF]) := by
  have hle : onesSum 0x10000 (bigEndianWords data) ≤ 0xFFFF := by
    rw [onesSum_bigEndianWords]
    exact residue_le (by decide) _
  refine ⟨accumulators_le (by decide) data, (getLast?_accumulators 0 data).symm, ?_, ?_,
    fun h => ⟨Nat.pos_of_ne_zero h, hle, ?_⟩⟩
  · rw [← UInt16.toNat_inj, internetChecksum_toNat, ← sum_bigEndianWords, ← onesSum_bigEndianWords,
      UInt16.toNat_not, UInt16.toNat_ofNat', Nat.mod_eq_of_lt (by omega)]
    rfl
  · rw [onesSum_bigEndianWords, residue_eq_zero_iff, List.sum_eq_zero_iff_forall_eq_nat]
  · rw [onesSum_bigEndianWords]
    exact residue_modEq _ _

end HybridFtp
