import HybridFtp.Lib.CongestionWindow
import HybridFtp.Rdt.FlowControl

/-!
# Congestion control

The windows of a call of `sendData` over exact rationals, whatever datagrams it receives.

* `receive_window`: an outcome of `recvFrom` acknowledges some segments, loses one, or
  does nothing to the windows;
* `exists_run_of_reachable`: in every state, the windows are those of a run of
  `CongestionWindow`;
* `congestion_bounds`: so they keep their bounds, in the loop over the segments of an ACK,
  too.
-/

namespace HybridFtp

/-- The cap of the congestion window. -/
def RDTWindowSender.cap (cfg : RDTWindowSender ℚ) : ℚ := cfg.maxWindowSegments.toNat

/-- The windows at the start of `sendData`. -/
def RDTWindowSender.start (cfg : RDTWindowSender ℚ) : CongestionWindow ℚ :=
  { cwnd := cfg.initialCwnd, ssthresh := cfg.initialSsthresh }

namespace SenderState

/-- The windows of a state. -/
def window (s : SenderState ℚ) : CongestionWindow ℚ := { cwnd := s.cwnd, ssthresh := s.ssthresh }

variable {cfg : RDTWindowSender ℚ} {s : SenderState ℚ}

/-! ## What the moves do to the windows -/

theorem max_eq (a b : ℚ) : Double.max a b = max a b := by
  show (if decide (a < b) = true then b else a) = max a b
  rw [max_def_lt]
  simp only [decide_eq_true_eq]

theorem min_eq (a b : ℚ) : Double.min a b = min a b := by
  show (if decide (b < a) = true then b else a) = min a b
  rw [min_comm, min_def_lt]
  simp only [decide_eq_true_eq]

theorem one_eq : (Double.one : ℚ) = 1 := rfl

/-- A round of the loop over the segments of an ACK. -/
theorem grow_eq (cfg : RDTWindowSender ℚ) (w : CongestionWindow ℚ) :
    grow cfg w.ssthresh w.cwnd = (w.acked cfg.cap).cwnd := by
  rw [grow, min_eq]
  dsimp only [CongestionWindow.acked]
  show min (if decide (w.cwnd < w.ssthresh) = true then w.cwnd + Double.one
    else w.cwnd + Double.one / w.cwnd) _ = _
  simp only [decide_eq_true_eq, one_eq]
  rfl

/-- The loop, for any number of segments. -/
theorem iterate_grow (cfg : RDTWindowSender ℚ) (n : Nat) (w : CongestionWindow ℚ) :
    { w with cwnd := (grow cfg w.ssthresh)^[n] w.cwnd } =
      w.run cfg.cap (List.replicate n .acked) := by
  induction n generalizing w with
  | zero => rfl
  | succ n ih =>
    rw [Function.iterate_succ_apply, grow_eq]
    exact ih (w.acked cfg.cap)

theorem onNewAck_window (cfg : RDTWindowSender ℚ) (ackNum : UInt32) (s : SenderState ℚ) :
    (s.onNewAck cfg ackNum).window =
      s.window.run cfg.cap (List.replicate (ackNum + 1 - s.base).toNat .acked) :=
  iterate_grow cfg _ s.window

theorem lost_eq (s : SenderState ℚ) : s.window.lost =
    { cwnd := Double.one, ssthresh := Double.max (Double.div s.cwnd Double.two) Double.one } := by
  rw [max_eq]
  rfl

/-- The last timeout leaves the windows alone. -/
theorem onTimeout_window (cfg : RDTWindowSender ℚ) (s : SenderState ℚ) :
    ∃ events, (s.onTimeout cfg).window = s.window.run cfg.cap events := by
  rw [onTimeout]
  dsimp only
  split_ifs
  · exact ⟨[], rfl⟩
  · exact ⟨[.lost], (lost_eq s).symm⟩

theorem onDuplicateAck_window (cfg : RDTWindowSender ℚ) (ackNum : UInt32) (s : SenderState ℚ) :
    ∃ events, (s.onDuplicateAck cfg ackNum).window = s.window.run cfg.cap events := by
  rw [onDuplicateAck]
  dsimp only
  split_ifs
  · exact ⟨[], rfl⟩
  · exact ⟨[.lost], (lost_eq s).symm⟩
  · exact ⟨[], rfl⟩
  · exact ⟨[], rfl⟩
  · exact ⟨[.lost], (lost_eq s).symm⟩
  · exact ⟨[], rfl⟩

theorem noteWindow_window (rxWindow : UInt16) (s : SenderState ℚ) :
    (s.noteWindow rxWindow).window = s.window := by
  rw [noteWindow]
  split_ifs <;> rfl

theorem onAck_window (cfg : RDTWindowSender ℚ) (ackNum : UInt32) (rxWindow : UInt16)
    (s : SenderState ℚ) : ∃ events, (s.onAck cfg ackNum rxWindow).window =
      s.window.run cfg.cap events := by
  rw [← noteWindow_window rxWindow s, onAck]
  split_ifs
  · exact ⟨_, onNewAck_window cfg ackNum _⟩
  · exact onDuplicateAck_window cfg ackNum _
  · exact ⟨[], rfl⟩

theorem receive_window (cfg : RDTWindowSender ℚ) (cancelled : Bool) (arrival : Received)
    (s : SenderState ℚ) : ∃ events, (s.receive cfg cancelled arrival).window =
      s.window.run cfg.cap events := by
  cases hp : s.point with
  | loopHead | sending _ | finHead _ | returned _ =>
    refine ⟨[], ?_⟩
    simp only [receive, hp]
    rfl
  | awaitFinAck attempt =>
    refine ⟨[], ?_⟩
    rcases receive_awaitFinAck_cases hp cfg cancelled arrival with heq | heq <;> rw [heq] <;> rfl
  | awaitAck =>
    cases cancelled with
    | true =>
      rw [receive_cancelled hp]
      exact ⟨[], rfl⟩
    | false =>
      rcases receive_awaitAck_cases cfg hp arrival with ⟨_, heq | heq⟩ | ⟨_, _, _, heq⟩
      · rw [heq]
        exact onTimeout_window cfg s
      · rw [heq]
        exact ⟨[], rfl⟩
      · rw [heq]
        exact onAck_window cfg _ _ s

/-- Sending leaves the windows alone. -/
theorem advance_window (cfg : RDTWindowSender ℚ) (cancelled sendOk : Bool) (s : SenderState ℚ) :
    (s.advance cfg cancelled sendOk).1.window = s.window := by
  rw [advance]
  split
  · split_ifs <;> rfl
  · split_ifs <;> rfl
  · split_ifs <;> rfl
  · rfl
  · rfl
  · rfl

end SenderState

/-! ## Along runs -/

variable {cfg : RDTWindowSender ℚ} {data : Bytes} {f : Flow ℚ}

/-- The windows are those of a run of acknowledged and lost segments. -/
theorem exists_run_of_reachable (h : (flow cfg data).Reachable f) :
    ∃ events, f.sender.window = cfg.start.run cfg.cap events := by
  refine h.invariant (I := fun f => ∃ events, f.sender.window = cfg.start.run cfg.cap events)
    ?_ ?_
  · rintro f ⟨hinit, -⟩
    obtain ⟨segs, -, hsender⟩ := Option.map_eq_some_iff.1 hinit
    exact ⟨[], by rw [← hsender]; rfl⟩
  · rintro f (⟨cancelled, sendOk⟩ | ⟨cancelled, arrival⟩) f' ⟨events, hf⟩ hstep
    · obtain rfl := Option.some.inj hstep
      exact ⟨events, (SenderState.advance_window cfg cancelled sendOk f.sender).trans hf⟩
    · simp only [flow, Option.ite_none_right_eq_some, Option.some.injEq] at hstep
      obtain ⟨-, rfl⟩ := hstep
      obtain ⟨more, hmore⟩ := f.sender.receive_window cfg cancelled arrival
      refine ⟨events ++ more, ?_⟩
      rw [CongestionWindow.run_append, ← hf]
      exact hmore

/-- Whatever arrives, the congestion window and its threshold keep their bounds, after
    any number of rounds of the loop over the segments of an ACK, too; so nothing below
    `1` is divided by there, and the effective window is never closed or wider than
    configured. -/
theorem congestion_bounds (hcwnd : 1 ≤ cfg.initialCwnd) (hssthresh : 1 ≤ cfg.initialSsthresh)
    (hmax : 1 ≤ cfg.maxWindowSegments.toNat) (h : (flow cfg data).Reachable f) :
    f.sender.window.Bounded cfg.cap cfg.start ∧
      (∀ rounds, CongestionWindow.Bounded cfg.cap
        { f.sender.window with
          cwnd := (SenderState.grow cfg f.sender.ssthresh)^[rounds] f.sender.cwnd } cfg.start) ∧
      1 ≤ (f.sender.computeEffectiveWindow cfg).toNat ∧
      (f.sender.computeEffectiveWindow cfg).toNat ≤ cfg.maxWindowSegments.toNat := by
  have hcap : 1 ≤ cfg.cap := Nat.one_le_cast.2 hmax
  obtain ⟨events, hevents⟩ := exists_run_of_reachable h
  have hbounded : f.sender.window.Bounded cfg.cap cfg.start := by
    rw [hevents]
    exact (CongestionWindow.bounded_start hcwnd hssthresh).run hcap events
  have heffective := f.sender.computeEffectiveWindow_bounds cfg
  rw [Nat.max_eq_right hmax] at heffective
  refine ⟨hbounded, fun rounds => ?_, heffective⟩
  have hloop := SenderState.iterate_grow cfg rounds f.sender.window
  exact hloop ▸ hbounded.run hcap _

/-- After the only ACK of three segments. -/
theorem congestion_bounds_acked : ∃ f : Flow ℚ, (flow closing [1, 2, 3]).Reachable f ∧
    f.sender.base = 1 ∧ f.sender.window.Bounded closing.cap closing.start := by
  obtain ⟨f, hf, hP⟩ := (flow closing [1, 2, 3]).exists_reachableBy_of_run (fun _ _ => True)
    mem_init_closing [.advance false true, .advance false true, .advance false true,
      .receive false (some (closing.dest, packet (ackHeader 0 8) []))]
    (fun f => f.sender.base = 1) (by decide +kernel)
  exact ⟨f, hf, of_decide_eq_true hP, (congestion_bounds (by decide +kernel) (by decide +kernel)
    (by decide +kernel) hf).1⟩

end HybridFtp
