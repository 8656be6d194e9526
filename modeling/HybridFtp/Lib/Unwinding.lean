import HybridFtp.Lib.Machine
import Mathlib.Data.List.Basic

/-!
# Events that are not noticed

The events of a run that may be left out of it, as far as a relation between states can
tell.

* `Machine.Unwinds`: the hidden events keep the relation on their own, and the others do
  if they happen on both sides;
* `Unwinds.run`: then a run is related to the run of its other events.
-/

namespace HybridFtp

namespace Machine

variable {σ ε : Type*} {M : Machine σ ε}

variable (M) in
/-- The hidden events are not noticed by the relation, and the others can be followed. -/
structure Unwinds (hidden : ε → Prop) (allowed : σ → ε → Prop) (R : σ → σ → Prop) : Prop where
  skip {s s' t : σ} {e : ε} :
    hidden e → allowed s e → M.step e s = some s' → R s t → R s' t
  follow {s s' t : σ} {e : ε} :
    ¬hidden e → allowed s e → M.step e s = some s' → R s t →
      ∃ t', M.step e t = some t' ∧ R s' t'

variable {hidden : ε → Prop} [DecidablePred hidden] {allowed : σ → ε → Prop}
  [∀ s e, Decidable (allowed s e)] {R : σ → σ → Prop} {s s' t : σ}

/-- What is left of a run without its hidden events ends in a related state. -/
theorem Unwinds.run (h : M.Unwinds hidden allowed R) {es : List ε} (hst : R s t)
    (hrun : M.run allowed es s = some s') :
    ∃ t', M.run (fun _ _ => True) (es.filter fun e => ¬hidden e) t = some t' ∧ R s' t' := by
  induction es generalizing s t with
  | nil =>
    obtain rfl := Option.some.inj hrun
    exact ⟨t, rfl, hst⟩
  | cons e es ih =>
    rw [Machine.run, Option.ite_none_right_eq_some, Option.bind_eq_some_iff] at hrun
    obtain ⟨hallowed, u, hu, hrun⟩ := hrun
    by_cases hidden_e : hidden e
    · rw [List.filter_cons_of_neg (by simpa using hidden_e)]
      exact ih (h.skip hidden_e hallowed hu hst) hrun
    · obtain ⟨v, hv, huv⟩ := h.follow hidden_e hallowed hu hst
      obtain ⟨t', ht', hs't'⟩ := ih huv hrun
      refine ⟨t', ?_, hs't'⟩
      rw [List.filter_cons_of_pos (by simpa using hidden_e), Machine.run, if_pos trivial, hv,
        Option.bind_some, ht']

end Machine

end HybridFtp
