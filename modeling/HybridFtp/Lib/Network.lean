import Mathlib.Data.List.Basic

/-!
# Unreliable networks

The messages on their way to one party, in the order in which they would arrive
if the network left them alone. A *fault* loses one, duplicates one, holds one
back behind all the others (which, repeated, reorders them at will), or damages
one.
-/

namespace HybridFtp

/-- A fault of the network. -/
inductive Fault (μ : Type*)
  | lose (i : Nat)
  | duplicate (i : Nat)
  | holdBack (i : Nat)
  | damage (i : Nat) (m : μ)
  deriving DecidableEq, Repr

namespace Fault

variable {μ : Type*} (Damaged : μ → Prop) [DecidablePred Damaged]

/-- The messages on their way after a fault; `none` if the message it is about is
    not there, or if the damage would go unnoticed. -/
def apply : Fault μ → List μ → Option (List μ)
  | lose i, l => if i < l.length then some (l.eraseIdx i) else none
  | duplicate i, l => l[i]?.map fun m => l ++ [m]
  | holdBack i, l => l[i]?.map fun m => l.eraseIdx i ++ [m]
  | damage i m, l => if i < l.length ∧ Damaged m then some (l.set i m) else none

variable {Damaged}

/-- A fault only leaves messages that were on their way, or damaged ones. -/
theorem mem_of_apply {f : Fault μ} {l l' : List μ} (h : f.apply Damaged l = some l') {m : μ}
    (hm : m ∈ l') : m ∈ l ∨ Damaged m := by
  cases f with
  | lose i =>
    simp only [apply, Option.ite_none_right_eq_some, Option.some.injEq] at h
    obtain ⟨_, rfl⟩ := h
    exact .inl (List.mem_of_mem_eraseIdx hm)
  | duplicate i =>
    simp only [apply, Option.map_eq_some_iff] at h
    obtain ⟨m', hm', rfl⟩ := h
    rcases List.mem_append.1 hm with hm | hm
    · exact .inl hm
    · exact .inl (List.mem_singleton.1 hm ▸ List.mem_of_getElem? hm')
  | holdBack i =>
    simp only [apply, Option.map_eq_some_iff] at h
    obtain ⟨m', hm', rfl⟩ := h
    rcases List.mem_append.1 hm with hm | hm
    · exact .inl (List.mem_of_mem_eraseIdx hm)
    · exact .inl (List.mem_singleton.1 hm ▸ List.mem_of_getElem? hm')
  | damage i m' =>
    simp only [apply, Option.ite_none_right_eq_some, Option.some.injEq] at h
    obtain ⟨⟨_, hd⟩, rfl⟩ := h
    rcases List.mem_or_eq_of_mem_set hm with hm | rfl
    · exact .inl hm
    · exact .inr hd

end Fault

end HybridFtp
