import Mathlib.Algebra.Order.Field.Basic
import Mathlib.Tactic.Linarith

/-!
# Congestion windows

Slow start, additive increase and multiplicative decrease, over a linearly ordered
field: a window grows with every segment that is acknowledged, up to a cap, and
collapses with every loss.

* `CongestionWindow.run`: the window after segments acknowledged and lost in any order;
* `CongestionWindow.Bounded`: the bounds of the window and of its threshold;
* `Bounded.run`: they hold throughout.
-/

namespace HybridFtp

/-- A congestion window and the threshold of its slow start. -/
structure CongestionWindow (K : Type*) where
  cwnd : K
  ssthresh : K

namespace CongestionWindow

variable {K : Type*} [Field K] [LinearOrder K]

/-- What changes the window. -/
inductive Event
  /-- One more segment is acknowledged. -/
  | acked
  | lost
  deriving DecidableEq, Repr

/-- Slow start below the threshold, additive increase from there on. -/
def acked (cap : K) (w : CongestionWindow K) : CongestionWindow K :=
  { w with cwnd := min (if w.cwnd < w.ssthresh then w.cwnd + 1 else w.cwnd + 1 / w.cwnd) cap }

/-- Multiplicative decrease. -/
def lost (w : CongestionWindow K) : CongestionWindow K :=
  { cwnd := 1, ssthresh := max (w.cwnd / 2) 1 }

/-- The window after an event. -/
def step (cap : K) (w : CongestionWindow K) : Event → CongestionWindow K
  | .acked => w.acked cap
  | .lost => w.lost

/-- The window after some events. -/
def run (cap : K) (w : CongestionWindow K) (events : List Event) : CongestionWindow K :=
  events.foldl (step cap) w

theorem run_append (cap : K) (w : CongestionWindow K) (events more : List Event) :
    w.run cap (events ++ more) = (w.run cap events).run cap more := List.foldl_append

/-- The bounds of a window with the cap `cap` that starts as `start`. -/
structure Bounded (cap : K) (w start : CongestionWindow K) : Prop where
  one_le_cwnd : 1 ≤ w.cwnd
  cwnd_le : w.cwnd ≤ max start.cwnd cap
  one_le_ssthresh : 1 ≤ w.ssthresh
  ssthresh_le : w.ssthresh ≤ max (max start.ssthresh (start.cwnd / 2)) (max (cap / 2) 1)

variable {cap : K} {start w : CongestionWindow K}

theorem bounded_start (hcwnd : 1 ≤ start.cwnd) (hssthresh : 1 ≤ start.ssthresh) :
    start.Bounded cap start where
  one_le_cwnd := hcwnd
  cwnd_le := le_max_left _ _
  one_le_ssthresh := hssthresh
  ssthresh_le := (le_max_left _ _).trans (le_max_left _ _)

variable [IsStrictOrderedRing K]

theorem Bounded.acked (hcap : 1 ≤ cap) (h : w.Bounded cap start) :
    (w.acked cap).Bounded cap start where
  one_le_cwnd := by
    have hpos : 0 ≤ 1 / w.cwnd := one_div_nonneg.2 (zero_le_one.trans h.one_le_cwnd)
    have hcwnd := h.one_le_cwnd
    refine le_min ?_ hcap
    split_ifs
    · linarith
    · linarith
  cwnd_le := (min_le_right _ _).trans (le_max_right _ _)
  one_le_ssthresh := h.one_le_ssthresh
  ssthresh_le := h.ssthresh_le

theorem Bounded.lost (hcap : 1 ≤ cap) (h : w.Bounded cap start) : w.lost.Bounded cap start where
  one_le_cwnd := le_rfl
  cwnd_le := hcap.trans (le_max_right _ _)
  one_le_ssthresh := le_max_right _ _
  ssthresh_le := by
    have hhalf : w.cwnd / 2 ≤ max (start.cwnd / 2) (cap / 2) := by
      rw [max_div_div_right (zero_le_two : (0 : K) ≤ 2)]
      exact div_le_div_of_nonneg_right h.cwnd_le zero_le_two
    refine max_le (hhalf.trans (max_le ?_ ?_)) ?_
    · exact (le_max_right _ _).trans (le_max_left _ _)
    · exact (le_max_left _ _).trans (le_max_right _ _)
    · exact (le_max_right _ _).trans (le_max_right _ _)

theorem Bounded.run (hcap : 1 ≤ cap) (h : w.Bounded cap start) (events : List Event) :
    (w.run cap events).Bounded cap start := by
  induction events generalizing w with
  | nil => exact h
  | cons event events ih =>
    refine ih ?_
    cases event with
    | acked => exact h.acked hcap
    | lost => exact h.lost hcap

end CongestionWindow

end HybridFtp
