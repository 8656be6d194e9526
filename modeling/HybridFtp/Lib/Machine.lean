import Mathlib.Logic.Relation
import Mathlib.Data.Set.Basic

/-!
# Machines

A *machine* on states `σ` and events `ε`: its initial states, and a partial step
function, so that runs on concrete events can be evaluated. The adversary picks
the events; what it may pick is a relation between states and events
(`Machine.Reaches`), which makes room for statements about the runs whose steps
all meet a condition.

* `Reaches.invariant`: a property preserved by every allowed step holds along
  runs; `Reachable.invariant`: and in every reachable state, if it holds initially;
* `run`, `reaches_of_run`: a list of events played from a state, and a potential that
  bounds its events of a kind (`countP_add_le_of_run`);
* `recording`: the machine that keeps its history along;
* `Inevitable`: what every run of a scheduler reaches, shown by a rank
  (`Inevitable.of_rank`) or refuted by an invariant (`not_inevitable`).
-/

namespace HybridFtp

/-- A transition system with partial, deterministic steps for each event. -/
structure Machine (σ ε : Type*) where
  /-- The initial states. -/
  init : Set σ
  /-- The step an event takes; `none` if the event cannot happen. -/
  step : ε → σ → Option σ

namespace Machine

variable {σ ε : Type*} (M : Machine σ ε)

/-- `t` is reached from `s` by events that are allowed where they happen. -/
inductive Reaches (allowed : σ → ε → Prop) (s : σ) : σ → Prop
  | refl : Reaches allowed s s
  | tail {t u : σ} {e : ε} :
      Reaches allowed s t → allowed t e → M.step e t = some u → Reaches allowed s u

/-- The states reached from an initial one by allowed events. -/
def ReachableBy (allowed : σ → ε → Prop) (s : σ) : Prop :=
  ∃ s₀ ∈ M.init, M.Reaches allowed s₀ s

/-- The states reached from an initial one, by any events. -/
def Reachable (s : σ) : Prop := M.ReachableBy (fun _ _ => True) s

variable {M} {allowed : σ → ε → Prop}

theorem Reaches.trans {s t u : σ} (hst : M.Reaches allowed s t) (htu : M.Reaches allowed t u) :
    M.Reaches allowed s u := by
  induction htu with
  | refl => exact hst
  | tail _ ha hs ih => exact ih.tail ha hs

theorem Reaches.mono {allowed' : σ → ε → Prop} (hle : ∀ s e, allowed s e → allowed' s e)
    {s t : σ} (h : M.Reaches allowed s t) : M.Reaches allowed' s t := by
  induction h with
  | refl => exact .refl
  | tail _ ha hs ih => exact ih.tail (hle _ _ ha) hs

theorem ReachableBy.tail {s t : σ} {e : ε} (h : M.ReachableBy allowed s) (ha : allowed s e)
    (hs : M.step e s = some t) : M.ReachableBy allowed t := by
  obtain ⟨s₀, h₀, h⟩ := h
  exact ⟨s₀, h₀, h.tail ha hs⟩

theorem ReachableBy.reachable {s : σ} (h : M.ReachableBy allowed s) : M.Reachable s := by
  obtain ⟨s₀, h₀, h⟩ := h
  exact ⟨s₀, h₀, h.mono fun _ _ _ => trivial⟩

/-- What every allowed step preserves holds along runs. -/
theorem Reaches.invariant {I : σ → Prop} {s t : σ} (h : M.Reaches allowed s t)
    (hstep : ∀ s e s', I s → allowed s e → M.step e s = some s' → I s') (hs : I s) : I t := by
  induction h with
  | refl => exact hs
  | tail _ ha hs ih => exact hstep _ _ _ ih ha hs

/-- An inductive invariant holds in every state reached by allowed events. -/
theorem ReachableBy.invariant {I : σ → Prop} {s : σ} (h : M.ReachableBy allowed s)
    (hinit : ∀ s ∈ M.init, I s)
    (hstep : ∀ s e s', I s → allowed s e → M.step e s = some s' → I s') : I s := by
  obtain ⟨s₀, h₀, h⟩ := h
  exact h.invariant hstep (hinit s₀ h₀)

/-- An inductive invariant holds in every reachable state. -/
theorem Reachable.invariant {I : σ → Prop} {s : σ} (h : M.Reachable s)
    (hinit : ∀ s ∈ M.init, I s)
    (hstep : ∀ s e s', I s → M.step e s = some s' → I s') : I s :=
  ReachableBy.invariant h hinit fun s e s' hI _ hs => hstep s e s' hI hs

/-! ## Runs -/

variable (M) in
/-- The state after the events `es`, one after the other, as long as each is
    allowed where it happens. -/
def run (allowed : σ → ε → Prop) [∀ s e, Decidable (allowed s e)] : List ε → σ → Option σ
  | [], s => some s
  | e :: es, s => if allowed s e then (M.step e s).bind (run allowed es) else none

theorem reaches_of_run [∀ s e, Decidable (allowed s e)] {es : List ε} {s t : σ}
    (h : M.run allowed es s = some t) : M.Reaches allowed s t := by
  induction es generalizing s with
  | nil => cases h; exact .refl
  | cons e es ih =>
    rw [run, Option.ite_none_right_eq_some, Option.bind_eq_some_iff] at h
    obtain ⟨ha, u, hu, h⟩ := h
    exact (Reaches.refl.tail ha hu).trans (ih h)

variable (M) (allowed) in
/-- What a run ends with is reached. -/
theorem exists_reaches_of_run [∀ s e, Decidable (allowed s e)] (es : List ε) {s : σ} (P : σ → Bool)
    (h : (M.run allowed es s).any P = true) :
    ∃ t, M.run allowed es s = some t ∧ M.Reaches allowed s t ∧ P t = true := by
  rw [Option.any_eq_true] at h
  obtain ⟨t, ht, hP⟩ := h
  exact ⟨t, ht, reaches_of_run ht, hP⟩

variable (M) (allowed) in
/-- What a run from a start ends with is reached. -/
theorem exists_reachableBy_of_run [∀ s e, Decidable (allowed s e)] {start : Option σ}
    (hstart : ∀ s ∈ start, s ∈ M.init) (es : List ε) (P : σ → Bool)
    (h : (start.bind (M.run allowed es)).any P = true) :
    ∃ t, M.ReachableBy allowed t ∧ P t = true := by
  rw [Option.any_eq_true] at h
  obtain ⟨t, ht, hP⟩ := h
  obtain ⟨s, hs, ht⟩ := Option.bind_eq_some_iff.1 ht
  exact ⟨t, ⟨s, hstart s hs, reaches_of_run ht⟩, hP⟩

/-- A potential that pays for each event of a kind bounds how many of them a run has. -/
theorem countP_add_le_of_run [∀ s e, Decidable (allowed s e)] {p : ε → Bool} {I : σ → Prop}
    {potential : σ → Nat}
    (hstep : ∀ s e s', I s → allowed s e → M.step e s = some s' →
      I s' ∧ potential s' + (if p e then 1 else 0) ≤ potential s)
    {es : List ε} {s t : σ} (hs : I s) (h : M.run allowed es s = some t) :
    potential t + es.countP p ≤ potential s := by
  induction es generalizing s with
  | nil =>
    cases h
    exact le_rfl
  | cons e es ih =>
    rw [run, Option.ite_none_right_eq_some, Option.bind_eq_some_iff] at h
    obtain ⟨ha, u, hu, h⟩ := h
    obtain ⟨hI, hle⟩ := hstep s e u hs ha hu
    have hrest := ih hI h
    rw [List.countP_cons]
    omega

/-! ## Histories -/

variable {τ : Type*}

variable (M) in
/-- The machine that keeps what is observed of its steps, the last one first. -/
def recording (observe : σ → ε → Option τ) : Machine (σ × List τ) ε where
  init := {s | s.1 ∈ M.init ∧ s.2 = []}
  step e s := (M.step e s.1).map fun t => (t, (observe s.1 e).toList ++ s.2)

/-- What holds initially without a history, and is kept by every step and what is
    observed of it, holds in every reachable state with its history. -/
theorem recording_invariant {observe : σ → ε → Option τ} {I : σ → List τ → Prop} {s : σ}
    {history : List τ} (h : (M.recording observe).Reachable (s, history))
    (hinit : ∀ s ∈ M.init, I s [])
    (hstep : ∀ s history e t, I s history → M.step e s = some t →
      I t ((observe s e).toList ++ history)) : I s history := by
  refine Reachable.invariant (I := fun s => I s.1 s.2) h ?_ ?_
  · rintro ⟨s, history⟩ ⟨hs, rfl⟩
    exact hinit s hs
  · rintro ⟨s, history⟩ e s' hI hs
    obtain ⟨t, ht, rfl⟩ := Option.map_eq_some_iff.1 hs
    exact hstep s history e t hI ht

/-! ## Inevitability -/

variable (M) in
/-- However the scheduler picks its steps, the run from `s` gets to `goal`, as long
    as its steps meet `cond`; and it does not get stuck before. -/
inductive Inevitable (scheduled cond : σ → ε → Prop) (goal : σ → Prop) : σ → Prop
  | now {s : σ} : goal s → Inevitable scheduled cond goal s
  | later {s s₀ : σ} {e₀ : ε} : scheduled s e₀ → M.step e₀ s = some s₀ →
      (∀ e s', scheduled s e → cond s e → M.step e s = some s' →
        Inevitable scheduled cond goal s') →
      Inevitable scheduled cond goal s

variable {scheduled cond : σ → ε → Prop} {goal : σ → Prop}

/-- A rank that every step decreases, short of the goal, gets every run there. -/
theorem Inevitable.of_rank {ρ : Type*} {lt : ρ → ρ → Prop} (hwf : WellFounded lt) (rank : σ → ρ)
    {I : σ → Prop}
    (hmoves : ∀ s, I s → ¬goal s → ∃ e s', scheduled s e ∧ M.step e s = some s')
    (hstep : ∀ s e s', I s → scheduled s e → cond s e → M.step e s = some s' →
      goal s' ∨ I s' ∧ lt (rank s') (rank s)) {s : σ} (hs : I s) :
    M.Inevitable scheduled cond goal s := by
  -- The induction is on the rank.
  generalize hr : rank s = r
  induction r using hwf.induction generalizing s with
  | _ r ih =>
    by_cases hg : goal s
    · exact .now hg
    · obtain ⟨e₀, s₀, he₀, hs₀⟩ := hmoves s hs hg
      refine .later he₀ hs₀ fun e s' he hc hs' => ?_
      rcases hstep s e s' hs he hc hs' with h | ⟨hI, hlt⟩
      · exact .now h
      · exact ih _ (hr ▸ hlt) hI rfl

theorem Inevitable.mono {goal' : σ → Prop} {s : σ} (h : M.Inevitable scheduled cond goal s)
    (himp : ∀ s, goal s → goal' s) : M.Inevitable scheduled cond goal' s := by
  induction h with
  | now hg => exact .now (himp _ hg)
  | later he hs _ ih => exact .later he hs ih

/-- What is inevitable stays so, as long as it has not happened. -/
theorem Inevitable.of_reaches {s t : σ} (h : M.Inevitable scheduled cond goal s)
    (hst : M.Reaches (fun s e => scheduled s e ∧ cond s e ∧ ¬goal s) s t) :
    M.Inevitable scheduled cond goal t := by
  induction hst with
  | refl => exact h
  | tail _ ha hs ih =>
    obtain ⟨hsched, hcond, hgoal⟩ := ha
    cases ih with
    | now hg => exact absurd hg hgoal
    | later _ _ hnext => exact hnext _ _ hsched hcond hs

/-- What a preserved property excludes is not inevitable. -/
theorem not_inevitable {J : σ → Prop} (hgoal : ∀ s, J s → ¬goal s)
    (hstep : ∀ s e s', J s → scheduled s e → M.step e s = some s' → J s' ∧ cond s e) {s : σ}
    (hs : J s) : ¬M.Inevitable scheduled cond goal s := by
  intro h
  induction h with
  | now h => exact hgoal _ hs h
  | later he hs₀ _ ih =>
    obtain ⟨hJ, hc⟩ := hstep _ _ _ hs he hs₀
    exact ih _ _ he hc hs₀ hJ

end Machine

end HybridFtp
