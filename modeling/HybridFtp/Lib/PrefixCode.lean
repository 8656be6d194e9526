import Mathlib.Data.List.Basic

/-!
# Prefix codes

Streams of words, each of which can be told from the others before the next one is
read.

* `Instantaneous`: no word of a code starts another, whatever follows;
* `Instantaneous.of_header`: the words of a code begin with a header, which tells how
  long they are;
* `Framed`: symbols, of which the last one, and no other, ends a stream;
* `Framed.append_inj`: a stream is the start of one stream at most, and then nothing
  follows it.
-/

namespace HybridFtp

variable {ι α : Type*} {code : ι → List α}

/-- The word that a stream starts with is known, whatever follows it. -/
def Instantaneous (code : ι → List α) : Prop :=
  ∀ ⦃i j : ι⦄ ⦃r s : List α⦄, code i ++ r = code j ++ s → i = j

/-- Words that begin with a header of `n` symbols, which tells the length of the word. -/
theorem Instantaneous.of_header (hcode : Function.Injective code) (n : ℕ) (size : List α → ℕ)
    (hn : ∀ i, n ≤ (code i).length) (hsize : ∀ i, (code i).length = size ((code i).take n)) :
    Instantaneous code := by
  intro i j r s h
  have hhead : (code i).take n = (code j).take n := by
    rw [← List.take_append_of_le_length (hn i), h, List.take_append_of_le_length (hn j)]
  refine hcode (List.append_inj h ?_).1
  rw [hsize, hhead, ← hsize]

/-- Symbols up to the first one that ends a stream. -/
structure Framed (final : ι → Prop) where
  body : List ι
  last : ι
  not_final : ∀ i ∈ body, ¬final i
  final : final last

namespace Framed

variable {final : ι → Prop}

/-- The code words, one after the other. -/
def word (code : ι → List α) (m : Framed final) : List α := m.body.flatMap code ++ code m.last

@[ext] theorem ext {m m' : Framed final} (hbody : m.body = m'.body) (hlast : m.last = m'.last) :
    m = m' := by
  cases m
  cases m'
  cases hbody
  cases hlast
  rfl

/-- The words of two streams that agree up to the end of the shorter one are the same. -/
theorem flatMap_append_inj (h : Instantaneous code) {l l' : List ι} {k k' : ι} {r s : List α}
    (hl : ∀ i ∈ l, ¬final i) (hk : final k) (hl' : ∀ i ∈ l', ¬final i) (hk' : final k')
    (heq : l.flatMap code ++ (code k ++ r) = l'.flatMap code ++ (code k' ++ s)) :
    l = l' ∧ k = k' ∧ r = s := by
  induction l generalizing l' with
  | nil =>
    cases l' with
    | nil =>
      have hkk : k = k' := h heq
      subst hkk
      exact ⟨rfl, rfl, List.append_cancel_left heq⟩
    | cons j l' =>
      -- The stream of `l'` goes on where the other one has ended.
      rw [List.flatMap_cons, List.append_assoc] at heq
      have hkj : k = j := h heq
      exact absurd (hkj ▸ hk) (hl' j List.mem_cons_self)
  | cons i l ih =>
    rw [List.forall_mem_cons] at hl
    rw [List.flatMap_cons, List.append_assoc] at heq
    cases l' with
    | nil =>
      have hik : i = k' := h heq
      exact absurd (hik ▸ hk') hl.1
    | cons j l' =>
      rw [List.forall_mem_cons] at hl'
      rw [List.flatMap_cons, List.append_assoc] at heq
      have hij : i = j := h heq
      subst hij
      obtain ⟨hll, hrest⟩ := ih hl.2 hl'.2 (List.append_cancel_left heq)
      exact ⟨by rw [hll], hrest⟩

/-- A stream is read in one way, and its end is known. -/
theorem append_inj (h : Instantaneous code) {m m' : Framed final} {r s : List α}
    (heq : m.word code ++ r = m'.word code ++ s) : m = m' ∧ r = s := by
  rw [word, word, List.append_assoc, List.append_assoc] at heq
  obtain ⟨hbody, hlast, hrest⟩ :=
    flatMap_append_inj h m.not_final m.final m'.not_final m'.final heq
  exact ⟨Framed.ext hbody hlast, hrest⟩

theorem word_injective (h : Instantaneous code) :
    Function.Injective (word code : Framed final → List α) := by
  intro m m' heq
  exact (append_inj h (r := []) (s := []) (by rw [heq])).1

/-- A decoder that accepts the streams of such a code, and nothing else, accepts
    nothing that goes on after one of them. -/
theorem not_accepts_append (h : Instantaneous code) (accepts : List α → Prop)
    (haccepts : ∀ s, accepts s ↔ ∃ m : Framed final, s = m.word code) {s t : List α}
    (hs : accepts s) (ht : t ≠ []) : ¬accepts (s ++ t) := by
  intro hst
  obtain ⟨m, rfl⟩ := (haccepts s).1 hs
  obtain ⟨m', heq⟩ := (haccepts _).1 hst
  rw [← List.append_nil (m'.word code)] at heq
  exact ht (append_inj h heq).2

end Framed

end HybridFtp
