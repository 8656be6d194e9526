import Mathlib.Data.Nat.Digits.Lemmas
import Mathlib.Tactic.Ring

/-!
# One's complement sums

A sum of words with end-around carry is a sum modulo `m`, the largest word, with
the representatives `1, …, m`; only a sum of zeros is `0`.

* `residue`: these representatives, and `residue_residue_add`, `residue_of_lt` for
  the carry;
* `onesSum`: the sum with the carry itself, which is a `residue` (`onesSum_eq_residue`);
* `wordSum`: the plain sum of the words of two digits each. With digits below
  `B` and `m = B * B - 1`, it is a unit times the number the digits stand for
  (`wordSum_modEq`);
* `eq_of_burst`: numbers that are congruent modulo an odd `m`, and differ in a window
  of less bits than `m` has, are equal.
-/

namespace HybridFtp

namespace OnesComplement

variable {m n a b : Nat}

/-! ## End-around carry -/

/-- The representative of `n` modulo `m` among `1, …, m`, except for `0` itself. -/
def residue (m n : Nat) : Nat := if n = 0 then 0 else (n - 1) % m + 1

theorem residue_pos (m : Nat) (h : 0 < n) : 0 < residue m n := by
  rw [residue, if_neg h.ne']
  exact Nat.succ_pos _

theorem residue_le (h : 0 < m) (n : Nat) : residue m n ≤ m := by
  rw [residue]
  split_ifs
  · exact Nat.zero_le m
  · exact Nat.mod_lt _ h

theorem residue_of_le (h : n ≤ m) : residue m n = n := by
  rw [residue]
  split_ifs with hn
  · exact hn.symm
  · rw [Nat.mod_eq_of_lt (by omega)]
    omega

theorem residue_modEq (m n : Nat) : residue m n ≡ n [MOD m] := by
  rw [residue]
  split_ifs with hn
  · rw [hn]
  · have h := (Nat.mod_modEq (n - 1) m).add_right 1
    rwa [Nat.sub_add_cancel (Nat.pos_of_ne_zero hn)] at h

/-- Short of `0`, there is one representative of each class. -/
theorem residue_eq_residue_iff (ha : 0 < a) (hb : 0 < b) :
    residue m a = residue m b ↔ a ≡ b [MOD m] := by
  refine ⟨fun h => ?_, fun h => ?_⟩
  · exact (residue_modEq m a).symm.trans (h ▸ residue_modEq m b)
  · rw [residue, residue, if_neg ha.ne', if_neg hb.ne']
    have h' : a - 1 + 1 ≡ b - 1 + 1 [MOD m] := by
      rwa [Nat.sub_add_cancel ha, Nat.sub_add_cancel hb]
    exact congrArg (· + 1) (h'.add_right_cancel' 1)

/-- The carry goes around the end. -/
theorem residue_of_lt (h : m < n) (h' : n ≤ m + m) : residue m n = n - m := by
  have hmod : residue m n = residue m (n - m) := by
    rw [residue_eq_residue_iff (by omega) (by omega)]
    refine ((Nat.modEq_iff_dvd' (Nat.sub_le n m)).2 ?_).symm
    rw [Nat.sub_sub_self h.le]
  rw [hmod, residue_of_le (by omega)]

theorem residue_residue_add (m a b : Nat) : residue m (residue m a + b) = residue m (a + b) := by
  rcases Nat.eq_zero_or_pos a with rfl | ha
  · rfl
  · rw [residue_eq_residue_iff (Nat.add_pos_left (residue_pos m ha) b) (Nat.add_pos_left ha b)]
    exact (residue_modEq m a).add_right b

theorem residue_eq_zero_iff : residue m n = 0 ↔ n = 0 := by
  refine ⟨fun h => ?_, fun h => by rw [h]; rfl⟩
  by_contra hn
  exact (residue_pos m (Nat.pos_of_ne_zero hn)).ne' h

/-- The sum of two words below `B`: the carry is added at the other end. -/
def endAround (B a b : Nat) : Nat := (a + b) % B + (a + b) / B

/-- The one's complement sum of words below `B`. -/
def onesSum (B : Nat) (words : List Nat) : Nat := words.foldl (endAround B) 0

theorem endAround_eq_residue {B : Nat} (ha : a < B) (hb : b < B) :
    endAround B a b = residue (B - 1) (a + b) := by
  rw [endAround]
  by_cases hcarry : a + b < B
  · rw [Nat.mod_eq_of_lt hcarry, Nat.div_eq_of_lt hcarry, residue_of_le (by omega), Nat.add_zero]
  · have hdiv : (a + b) / B = 1 := Nat.div_eq_of_lt_le (by omega) (by omega)
    rw [residue_of_lt (by omega) (by omega), Nat.mod_eq_sub_mod (by omega),
      Nat.mod_eq_of_lt (by omega), hdiv]
    omega

theorem foldl_endAround {B : Nat} (ha : a < B) {words : List Nat} (hwords : ∀ w ∈ words, w < B) :
    words.foldl (endAround B) a = residue (B - 1) (a + words.sum) := by
  induction words generalizing a with
  | nil => rw [List.foldl_nil, List.sum_nil, Nat.add_zero, residue_of_le (by omega)]
  | cons w words ih =>
    obtain ⟨hw, hwords⟩ := List.forall_mem_cons.1 hwords
    have hsum := endAround_eq_residue ha hw
    have hlt : endAround B a w < B := by
      rcases Nat.eq_zero_or_pos (B - 1) with hB | hB
      · obtain rfl : B = 1 := by omega
        rw [endAround]
        omega
      · have hle := residue_le hB (a + w)
        omega
    rw [List.foldl_cons, ih hlt hwords, hsum, residue_residue_add, List.sum_cons, Nat.add_assoc]

/-- The carry around the end does what the sum modulo `B - 1` does. -/
theorem onesSum_eq_residue {B : Nat} (hB : 0 < B) {words : List Nat} (hwords : ∀ w ∈ words, w < B) :
    onesSum B words = residue (B - 1) words.sum := by
  rw [onesSum, foldl_endAround hB hwords, Nat.zero_add]

/-! ## Words of two digits -/

/-- The sum of the words, the high digit first; a last odd digit is a high one. -/
def wordSum (B : Nat) : List Nat → Nat
  | hi :: lo :: rest => hi * B + lo + wordSum B rest
  | [last] => last * B
  | [] => 0

theorem wordSum_append (B : Nat) {l : List Nat} (h : Even l.length) (l' : List Nat) :
    wordSum B (l ++ l') = wordSum B l + wordSum B l' := by
  induction l using wordSum.induct with
  | case1 hi lo rest ih =>
    have hrest : Even rest.length := by
      simp only [List.length_cons] at h
      grind
    rw [List.cons_append, List.cons_append, wordSum, wordSum, ih hrest,
      Nat.add_assoc (hi * B + lo)]
  | case2 last => exact absurd h (by simp)
  | case3 => rw [List.nil_append, wordSum, Nat.zero_add]

theorem mul_self_modEq_one {B : Nat} (hB : 0 < B) : B * B ≡ 1 [MOD B * B - 1] := by
  have h : 1 ≤ B * B := Nat.mul_pos hB hB
  exact ((Nat.modEq_iff_dvd' h).2 dvd_rfl).symm

/-- As `B * B` is `1` modulo `B * B - 1`, so are the weights of the digits of `wordSum`
    those of a number that starts with its lowest digit, times `B`. -/
theorem wordSum_modEq {B : Nat} (hB : 0 < B) (digits : List Nat) :
    wordSum B digits ≡ B * Nat.ofDigits B digits [MOD B * B - 1] := by
  have hone := mul_self_modEq_one hB
  -- The induction takes off a word at a time.
  induction digits using wordSum.induct with
  | case1 hi lo rest ih =>
    rw [wordSum, Nat.ofDigits_cons, Nat.ofDigits_cons]
    have hlo : lo ≡ B * B * lo [MOD B * B - 1] := by
      simpa using (hone.mul_right lo).symm
    have hrest : wordSum B rest ≡ B * B * (B * Nat.ofDigits B rest) [MOD B * B - 1] := by
      simpa using ih.trans (by simpa using (hone.mul_right (B * Nat.ofDigits B rest)).symm)
    calc hi * B + lo + wordSum B rest
        ≡ hi * B + B * B * lo + B * B * (B * Nat.ofDigits B rest) [MOD B * B - 1] :=
          (hlo.add_left _).add hrest
      _ = B * (hi + B * (lo + B * Nat.ofDigits B rest)) := by ring
  | case2 last =>
    rw [wordSum, Nat.ofDigits_singleton, Nat.mul_comm B last]
  | case3 => rfl

/-- The number that starts with the highest digit is the other one, up to a unit. -/
theorem ofDigits_reverse_modEq {B : Nat} (hB : 0 < B) (digits : List Nat) :
    B * Nat.ofDigits B digits.reverse ≡ B ^ digits.length * Nat.ofDigits B digits
      [MOD B * B - 1] := by
  induction digits with
  | nil => simp [Nat.ModEq]
  | cons x digits ih =>
    rw [List.reverse_cons, Nat.ofDigits_append, Nat.ofDigits_singleton, List.length_reverse,
      Nat.ofDigits_cons, List.length_cons]
    have hone : B ^ digits.length * Nat.ofDigits B digits ≡
        B * B * (B ^ digits.length * Nat.ofDigits B digits) [MOD B * B - 1] := by
      simpa using ((mul_self_modEq_one hB).mul_right (B ^ digits.length * _)).symm
    calc B * (Nat.ofDigits B digits.reverse + B ^ digits.length * x)
        = B * Nat.ofDigits B digits.reverse + B * (B ^ digits.length * x) := Nat.mul_add _ _ _
      _ ≡ B * B * (B ^ digits.length * Nat.ofDigits B digits) + B * (B ^ digits.length * x)
          [MOD B * B - 1] := (ih.trans hone).add_right _
      _ = B ^ (digits.length + 1) * (x + B * Nat.ofDigits B digits) := by ring

/-! ## Bursts -/

/-- The bits of a number are those of its digits. -/
theorem testBit_ofDigits {w : Nat} (hw : 0 < w) {digits : List Nat}
    (hdigits : ∀ x ∈ digits, x < 2 ^ w) (i : Nat) :
    (Nat.ofDigits (2 ^ w) digits).testBit i = (digits.getD (i / w) 0).testBit (i % w) := by
  induction digits generalizing i with
  | nil => simp
  | cons x digits ih =>
    have hx : x < 2 ^ w := hdigits x List.mem_cons_self
    rw [Nat.ofDigits_cons, Nat.add_comm, Nat.testBit_two_pow_mul_add _ hx]
    split_ifs with hi
    · rw [Nat.div_eq_of_lt hi, Nat.mod_eq_of_lt hi]
      rfl
    · have hle : w ≤ i := not_lt.1 hi
      rw [ih (fun y hy => hdigits y (List.mem_cons_of_mem x hy)), Nat.mod_eq_sub_mod hle,
        Nat.div_eq_sub_div hw hle]
      rfl

theorem eq_of_burst {k w : Nat} (hodd : Nat.Coprime 2 m) (hw : 2 ^ w ≤ m) (hmod : a ≡ b [MOD m])
    (hbits : ∀ i, a.testBit i ≠ b.testBit i → k ≤ i ∧ i < k + w) : a = b := by
  have hbit : ∀ i, ¬(k ≤ i ∧ i < k + w) → a.testBit i = b.testBit i := fun i hi =>
    not_not.1 (mt (hbits i) hi)
  have hlow : a % 2 ^ k = b % 2 ^ k := by
    refine Nat.eq_of_testBit_eq fun i => ?_
    rw [Nat.testBit_mod_two_pow, Nat.testBit_mod_two_pow]
    by_cases hi : i < k
    · rw [hbit i (by omega)]
    · simp [hi]
  have hhigh : a / 2 ^ k / 2 ^ w = b / 2 ^ k / 2 ^ w := by
    refine Nat.eq_of_testBit_eq fun i => ?_
    rw [Nat.testBit_div_two_pow, Nat.testBit_div_two_pow, Nat.testBit_div_two_pow,
      Nat.testBit_div_two_pow]
    exact hbit _ (by omega)
  -- Apart from the window, the numbers agree; in it, they are congruent and small.
  have hquot : a / 2 ^ k ≡ b / 2 ^ k [MOD m] := by
    have hcop : m.gcd (2 ^ k) = 1 := (Nat.Coprime.pow_left k hodd).symm
    refine Nat.ModEq.cancel_left_of_coprime hcop (c := 2 ^ k) ?_
    refine Nat.ModEq.add_right_cancel' (a % 2 ^ k) ?_
    rw [Nat.div_add_mod]
    rwa [hlow, Nat.div_add_mod]
  have hwindow : a / 2 ^ k % 2 ^ w = b / 2 ^ k % 2 ^ w := by
    refine Nat.ModEq.eq_of_lt_of_lt (m := m) ?_ ((Nat.mod_lt _ (Nat.two_pow_pos w)).trans_le hw)
      ((Nat.mod_lt _ (Nat.two_pow_pos w)).trans_le hw)
    refine Nat.ModEq.add_left_cancel' (2 ^ w * (a / 2 ^ k / 2 ^ w)) ?_
    rw [Nat.div_add_mod]
    rwa [hhigh, Nat.div_add_mod]
  have hdiv : a / 2 ^ k = b / 2 ^ k := by
    rw [← Nat.div_add_mod (a / 2 ^ k) (2 ^ w), hhigh, hwindow, Nat.div_add_mod]
  rw [← Nat.div_add_mod a (2 ^ k), hdiv, hlow, Nat.div_add_mod]

end OnesComplement

end HybridFtp
