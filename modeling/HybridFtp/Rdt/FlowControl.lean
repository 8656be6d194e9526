import HybridFtp.Rdt.MainLoop
import HybridFtp.Rdt.Safety

/-!
# Flow control

A call of `sendData` on its own, whatever datagrams it receives: how far after `base`
it sends, compared with the windows.

* `flow`: the machine of the sender, which keeps the window of the last ACK along;
* `Flow.Honours`: every DATA segment is sent within the windows;
* `honours`: it is, as long as no ACK closes a window that was open for more than a
  segment. The sender does not take note of that (`not_honours`).
-/

namespace HybridFtp

/-- A move of the sender. -/
inductive SenderEvent
  | advance (cancelled sendOk : Bool)
  | receive (cancelled : Bool) (arrival : Received)

/-- A sender, and the window of the last valid ACK from the destination: before the
    first one, the window that the sender assumes. -/
structure Flow (α : Type) where
  sender : SenderState α
  advertised : UInt32

/-- The window of a datagram, if it is a valid ACK from the destination. -/
def ackWindow? {α : Type} (cfg : RDTWindowSender α) (arrival : Received) : Option UInt16 :=
  match recvFrom ACK_BUFFER_SIZE arrival with
  | none => none
  | some (sender, recvBuf) =>
    let ackHdr := deserializeHeader recvBuf
    if CUSTOM_UDP_HEADER_SIZE ≤ recvBuf.length ∧
        verifyChecksum ackHdr (recvBuf.drop CUSTOM_UDP_HEADER_SIZE) = true ∧
        hasFlag ackHdr FLAG_ACK = true ∧ sender = cfg.dest then some ackHdr.windowSize
    else none

section

variable {α : Type} [Double α]

/-- The machine of a call of `sendData`, which waits for nothing but datagrams. -/
def flow (cfg : RDTWindowSender α) (data : Bytes) : Machine (Flow α) SenderEvent where
  init := {f | SenderState.init cfg data = some f.sender ∧
    f.advertised = Double.toUInt32 cfg.initialSsthresh}
  step
    | .advance cancelled sendOk, f =>
      some { f with sender := (f.sender.advance cfg cancelled sendOk).1 }
    | .receive cancelled arrival, f =>
      if f.sender.point.waits then
        some
          { sender := f.sender.receive cfg cancelled arrival
            advertised :=
              if f.sender.point = .awaitAck ∧ cancelled = false then
                ((ackWindow? cfg arrival).map UInt16.toUInt32).getD f.advertised
              else f.advertised }
      else none

/-- How many segments may be on their way, by the congestion window, the window of the
    receiver and the configured one, none of which is ever closed. -/
def flowLimit (cfg : RDTWindowSender α) (cwnd : α) (window : UInt32) : Nat :=
  min (min (max 1 (Double.toUInt32 (Double.max Double.one (Double.floor cwnd))).toNat)
    (max 1 window.toNat)) (max 1 cfg.maxWindowSegments.toNat)

/-- Any DATA segment that is sent next is within the windows. -/
def Flow.Honours (cfg : RDTWindowSender α) (f : Flow α) : Prop :=
  ∀ cancelled sendOk, ∀ datagram ∈ (f.sender.advance cfg cancelled sendOk).2,
    hasFlag (deserializeHeader datagram) FLAG_DATA = true →
      f.sender.base.toNat ≤ (deserializeHeader datagram).seqNum.toNat ∧
      (deserializeHeader datagram).seqNum.toNat - f.sender.base.toNat <
        flowLimit cfg f.sender.cwnd f.advertised

/-- No ACK closes a window that is open for more than one segment. -/
def Flow.StaysOpen (cfg : RDTWindowSender α) (f : Flow α) : SenderEvent → Prop
  | .advance .. => True
  | .receive _ arrival => ackWindow? cfg arrival = some 0 → f.sender.recvWindow ≤ 1

/-! ## The windows -/

namespace SenderState

variable {cfg : RDTWindowSender α} {s : SenderState α}

theorem computeEffectiveWindow_toNat (cfg : RDTWindowSender α) (s : SenderState α) :
    (s.computeEffectiveWindow cfg).toNat = flowLimit cfg s.cwnd s.recvWindow := by
  rw [computeEffectiveWindow, flowLimit]
  generalize Double.toUInt32 (Double.max Double.one (Double.floor s.cwnd)) = cw
  have hrw : (if s.recvWindow = 0 then 1 else s.recvWindow).toNat = max 1 s.recvWindow.toNat := by
    split_ifs with h
    · rw [h]
      rfl
    · have hpos : s.recvWindow.toNat ≠ 0 := fun h0 => h (UInt32.toNat_inj.1 h0)
      omega
  generalize (if s.recvWindow = 0 then 1 else s.recvWindow) = rw at hrw ⊢
  split_ifs with h
  · have h0 := congrArg UInt32.toNat h
    rw [toNat_min, toNat_min, hrw] at h0
    simp only [UInt32.toNat_zero, UInt32.toNat_one] at h0 ⊢
    omega
  · have h0 : (Min.min (Min.min cw rw) cfg.maxWindowSegments).toNat ≠ 0 :=
      fun h0 => h (UInt32.toNat_inj.1 h0)
    rw [toNat_min, toNat_min, hrw] at h0 ⊢
    omega

/-- In the main loop, a datagram is an ACK with its window, or is not taken for one. -/
theorem receive_awaitAck_cases (cfg : RDTWindowSender α) (hp : s.point = .awaitAck)
    (arrival : Received) :
    ackWindow? cfg arrival = none ∧ (s.receive cfg false arrival = s.onTimeout cfg ∨
        s.receive cfg false arrival = { s with point := .loopHead }) ∨
      ∃ ackNum rxWindow, ackWindow? cfg arrival = some rxWindow ∧
        s.receive cfg false arrival = s.onAck cfg ackNum rxWindow := by
  simp only [receive, hp, ackWindow?, Bool.false_eq_true, if_false]
  cases recvFrom ACK_BUFFER_SIZE arrival with
  | none => exact .inl ⟨rfl, .inl rfl⟩
  | some arrival =>
    obtain ⟨sender, recvBuf⟩ := arrival
    dsimp only
    by_cases hlen : recvBuf.length < CUSTOM_UDP_HEADER_SIZE
    · rw [if_neg fun h => absurd h.1 (not_le.2 hlen), if_pos hlen]
      exact .inl ⟨rfl, .inl rfl⟩
    · rw [if_neg hlen]
      by_cases h : verifyChecksum (deserializeHeader recvBuf)
          (recvBuf.drop CUSTOM_UDP_HEADER_SIZE) = true ∧
          hasFlag (deserializeHeader recvBuf) FLAG_ACK = true ∧ sender = cfg.dest
      · rw [if_pos ⟨not_lt.1 hlen, h⟩, onDatagram_of_ack cfg h.1 h.2.1 h.2.2]
        exact .inr ⟨_, _, rfl, rfl⟩
      · rw [if_neg fun h' => h h'.2, onDatagram_ignored cfg h]
        exact .inl ⟨rfl, .inr rfl⟩

/-- What follows an ACK is not in the middle of sending. -/
theorem onAck_point (cfg : RDTWindowSender α) (ackNum : UInt32) (rxWindow : UInt16)
    (s : SenderState α) (wnd : UInt32) : (s.onAck cfg ackNum rxWindow).point ≠ .sending wnd := by
  rw [onAck]
  split_ifs
  · exact SenderPoint.noConfusion
  · rw [onDuplicateAck]
    dsimp only
    split_ifs <;> exact SenderPoint.noConfusion
  · exact SenderPoint.noConfusion

theorem onTimeout_point (cfg : RDTWindowSender α) (s : SenderState α) (wnd : UInt32) :
    (s.onTimeout cfg).point ≠ .sending wnd := by
  rw [onTimeout]
  dsimp only
  split_ifs <;> exact SenderPoint.noConfusion

/-- The window that is noted is that of the ACK, unless it is closed. -/
theorem onAck_recvWindow (cfg : RDTWindowSender α) (ackNum : UInt32) (rxWindow : UInt16)
    (s : SenderState α) :
    (s.onAck cfg ackNum rxWindow).recvWindow =
      if rxWindow > 0 then rxWindow.toUInt32 else s.recvWindow := by
  have hnote : (s.noteWindow rxWindow).recvWindow =
      if rxWindow > 0 then rxWindow.toUInt32 else s.recvWindow := by
    rw [noteWindow]
    split_ifs <;> rfl
  rw [← hnote, onAck]
  split_ifs
  · rfl
  · rw [onDuplicateAck]
    dsimp only
    split_ifs <;> rfl
  · rfl

theorem onTimeout_recvWindow (cfg : RDTWindowSender α) (s : SenderState α) :
    (s.onTimeout cfg).recvWindow = s.recvWindow := by
  rw [onTimeout]
  dsimp only
  split_ifs <;> rfl

omit [Double α] in
theorem toNat_succ {a b : UInt32} (h : a < b) : (a + 1).toNat = a.toNat + 1 := by
  rw [UInt32.lt_iff_toNat_lt] at h
  rw [UInt32.toNat_add, UInt32.toNat_one]
  exact Nat.mod_eq_of_lt (Nat.lt_of_le_of_lt h b.toNat_lt)

/-- An ACK acknowledges nothing that has not been sent. -/
theorem onAck_base_le (cfg : RDTWindowSender α) (ackNum : UInt32) (rxWindow : UInt16)
    (h : s.base.toNat ≤ s.nextSeq.toNat) :
    (s.onAck cfg ackNum rxWindow).base.toNat ≤ (s.onAck cfg ackNum rxWindow).nextSeq.toNat := by
  rw [onAck]
  simp only [noteWindow_base, noteWindow_nextSeq, noteWindow_N]
  split_ifs with hnew hdup
  · simp only [onNewAck, noteWindow_nextSeq]
    rw [toNat_succ hnew.2.1]
    exact UInt32.lt_iff_toNat_lt.1 hnew.2.1
  · rw [onDuplicateAck]
    dsimp only
    split_ifs <;> simp [h]
  · simpa using h

theorem onTimeout_base_le (cfg : RDTWindowSender α) (h : s.base.toNat ≤ s.nextSeq.toNat) :
    (s.onTimeout cfg).base.toNat ≤ (s.onTimeout cfg).nextSeq.toNat := by
  rw [onTimeout]
  dsimp only
  split_ifs
  · exact h
  · exact Nat.le_refl _

end SenderState

/-! ## Along runs -/

/-- The window that is being sent is that of the state, which has noted the window of
    the receiver, as far as it matters. -/
structure Flow.Bounded (cfg : RDTWindowSender α) (f : Flow α) : Prop where
  base_le : f.sender.base.toNat ≤ f.sender.nextSeq.toNat
  window : ∀ wnd, f.sender.point = .sending wnd → wnd = f.sender.computeEffectiveWindow cfg
  advertised : max 1 f.sender.recvWindow.toNat = max 1 f.advertised.toNat

variable {cfg : RDTWindowSender α} {data : Bytes} {f : Flow α}

theorem Flow.Bounded.advance (h : f.Bounded cfg) (cancelled sendOk : Bool) :
    Flow.Bounded cfg { f with sender := (f.sender.advance cfg cancelled sendOk).1 } := by
  cases hp : f.sender.point with
  | loopHead =>
    simp only [SenderState.advance, hp]
    split_ifs
    · exact ⟨h.base_le, fun _ => SenderPoint.noConfusion, h.advertised⟩
    · refine ⟨h.base_le, fun wnd hwnd => ?_, h.advertised⟩
      cases hwnd
      rfl
    · exact ⟨h.base_le, fun _ => SenderPoint.noConfusion, h.advertised⟩
  | sending wnd =>
    have hwnd := h.window wnd hp
    simp only [SenderState.advance, hp]
    split_ifs with hnext
    · refine ⟨?_, fun wnd' hwnd' => ?_, h.advertised⟩
      · rw [SenderState.toNat_succ hnext.1]
        exact Nat.le_succ_of_le h.base_le
      · obtain rfl : wnd = wnd' := SenderPoint.sending.inj hwnd'
        exact hwnd
    · exact ⟨h.base_le, fun _ => SenderPoint.noConfusion, h.advertised⟩
    · exact ⟨h.base_le, fun _ => SenderPoint.noConfusion, h.advertised⟩
  | finHead attempt =>
    simp only [SenderState.advance, hp]
    split_ifs
    all_goals exact ⟨h.base_le, fun _ => SenderPoint.noConfusion, h.advertised⟩
  | awaitAck =>
    simpa only [SenderState.advance, hp] using h
  | awaitFinAck attempt =>
    simpa only [SenderState.advance, hp] using h
  | returned ok =>
    simpa only [SenderState.advance, hp] using h

theorem Flow.Bounded.receive {f' : Flow α} {cancelled : Bool} {arrival : Received}
    (h : f.Bounded cfg) (hopen : f.StaysOpen cfg (.receive cancelled arrival))
    (hstep : (flow cfg data).step (.receive cancelled arrival) f = some f') : f'.Bounded cfg := by
  simp only [flow, Option.ite_none_right_eq_some, Option.some.injEq] at hstep
  obtain ⟨hwaits, rfl⟩ := hstep
  cases hp : f.sender.point with
  | loopHead | sending _ | finHead _ | returned _ => simp [hp, SenderPoint.waits] at hwaits
  | awaitFinAck attempt =>
    -- All segments have been acknowledged: no window is of interest any more.
    rcases SenderState.receive_awaitFinAck_cases hp cfg cancelled arrival with heq | heq
    all_goals
      rw [heq]
      refine ⟨h.base_le, fun _ => SenderPoint.noConfusion, ?_⟩
      simpa using h.advertised
  | awaitAck =>
    cases cancelled with
    | true =>
      rw [SenderState.receive_cancelled hp]
      refine ⟨h.base_le, fun _ => SenderPoint.noConfusion, ?_⟩
      simpa using h.advertised
    | false =>
      simp only [and_self, if_true]
      rcases SenderState.receive_awaitAck_cases cfg hp arrival with
        ⟨hwindow, heq | heq⟩ | ⟨ackNum, rxWindow, hwindow, heq⟩
      · rw [heq, hwindow]
        refine ⟨SenderState.onTimeout_base_le cfg h.base_le,
          fun wnd hwnd => absurd hwnd (SenderState.onTimeout_point cfg _ wnd), ?_⟩
        rw [SenderState.onTimeout_recvWindow]
        exact h.advertised
      · rw [heq, hwindow]
        exact ⟨h.base_le, fun _ => SenderPoint.noConfusion, h.advertised⟩
      · rw [heq, hwindow]
        refine ⟨SenderState.onAck_base_le cfg ackNum rxWindow h.base_le,
          fun wnd hwnd => absurd hwnd (SenderState.onAck_point cfg ackNum rxWindow _ wnd), ?_⟩
        rw [SenderState.onAck_recvWindow]
        simp only [Option.map_some, Option.getD_some]
        split_ifs with hrx
        · rfl
        · -- A window that is closed counts as one segment, as the one before does.
          obtain rfl : rxWindow = 0 := UInt16.toNat_inj.1 (Nat.eq_zero_of_not_pos hrx)
          have hle := UInt32.le_iff_toNat_le.1 (hopen hwindow)
          rw [UInt32.toNat_one] at hle
          exact (Nat.max_eq_left hle).trans rfl

/-- A segment that is sent is within the window of the state. -/
theorem Flow.Bounded.within_limit (h : f.Bounded cfg) : f.Honours cfg := by
  intro cancelled sendOk datagram hmem hdata
  obtain ⟨s', sent, hadvance⟩ : ∃ s' sent,
      f.sender.advance cfg cancelled sendOk = (s', sent) := ⟨_, _, rfl⟩
  rw [hadvance] at hmem
  rcases SenderState.advance_cases hadvance with
    ⟨rfl, _⟩ | ⟨rfl, _⟩ | ⟨wnd, hp, _, _, rfl⟩ | ⟨_, wnd, _, _, rfl⟩
  · cases hmem
  · cases hmem
  · -- A segment is sent, so its number is within the window.
    have hsending : f.sender.nextSeq < f.sender.base + wnd := by
      by_contra hnext
      rw [SenderState.advance_sending_done hp (fun h => hnext h.2)] at hadvance
      cases hadvance
    rw [List.mem_singleton] at hmem
    subst hmem
    rw [sendSegment, deserializeHeader_packet]
    show f.sender.base.toNat ≤ f.sender.nextSeq.toNat ∧
      f.sender.nextSeq.toNat - f.sender.base.toNat < _
    refine ⟨h.base_le, ?_⟩
    have hlimit : flowLimit cfg f.sender.cwnd f.advertised = wnd.toNat := by
      rw [h.window wnd hp, SenderState.computeEffectiveWindow_toNat, flowLimit, flowLimit,
        h.advertised]
    rw [hlimit]
    have hlt := UInt32.lt_iff_toNat_lt.1 hsending
    rw [UInt32.toNat_add] at hlt
    -- Where the sum wraps around, the window only gets smaller.
    have hmod := Nat.mod_le (f.sender.base.toNat + wnd.toNat) (2 ^ 32)
    have hbase := h.base_le
    omega
  · rw [List.mem_singleton] at hmem
    subst hmem
    rw [sendFIN, deserializeHeader_packet, hasFlag_stamp] at hdata
    simp only [finHeader, hasFlag, setFlag] at hdata
    exact absurd hdata (by decide)

/-- As long as no ACK closes a window that is open for more than one segment, every
    DATA segment is sent within the windows. -/
theorem honours (h : (flow cfg data).ReachableBy (Flow.StaysOpen cfg) f) : f.Honours cfg := by
  refine Flow.Bounded.within_limit (h.invariant (I := Flow.Bounded cfg) ?_ ?_)
  · rintro f ⟨hinit, hadvertised⟩
    obtain ⟨sender, advertised⟩ := f
    obtain ⟨segs, _, rfl⟩ := Option.map_eq_some_iff.1 hinit
    obtain rfl : advertised = Double.toUInt32 cfg.initialSsthresh := hadvertised
    exact ⟨Nat.le_refl _, fun _ => SenderPoint.noConfusion, rfl⟩
  · rintro f (⟨cancelled, sendOk⟩ | ⟨cancelled, arrival⟩) f' hf hopen hstep
    · obtain rfl := Option.some.inj hstep
      exact hf.advance cancelled sendOk
    · exact hf.receive hopen hstep

end

/-- Three segments, to a receiver that closes its window with the first ACK. -/
def closing : RDTWindowSender ℚ := { greeting.sender with mss := 1 }

theorem toUInt32_closing : Double.toUInt32 closing.initialSsthresh = 16 := by decide +kernel

instance (cfg : RDTWindowSender ℚ) (f : Flow ℚ) : DecidablePred (f.StaysOpen cfg)
  | .advance .. => inferInstanceAs (Decidable True)
  | .receive _ arrival =>
    inferInstanceAs (Decidable (ackWindow? cfg arrival = some 0 → f.sender.recvWindow ≤ 1))

/-- The sender with nothing sent yet. -/
theorem mem_init_closing : ∀ f ∈ (SenderState.init closing [1, 2, 3]).map
    fun sender => ({ sender, advertised := 16 } : Flow ℚ), f ∈ (flow closing [1, 2, 3]).init := by
  intro f hf
  obtain ⟨sender, hsender, rfl⟩ := Option.map_eq_some_iff.1 hf
  exact ⟨hsender, toUInt32_closing.symm⟩

/-- After an ACK that opens the window for eight segments, the second one is sent. -/
theorem honours_opened : ∃ f : Flow ℚ, f.sender.base = 1 ∧ f.advertised = 8 ∧
    (f.sender.advance closing false true).2 = [sendSegment 1 [2] 2] ∧ f.Honours closing := by
  obtain ⟨f, hf, hP⟩ := (flow closing [1, 2, 3]).exists_reachableBy_of_run
    (Flow.StaysOpen closing) mem_init_closing
    [.advance false true, .advance false true, .advance false true,
      .receive false (some (closing.dest, packet (ackHeader 0 8) [])), .advance false true]
    (fun f => f.sender.base = 1 ∧ f.advertised = 8 ∧
      (f.sender.advance closing false true).2 = [sendSegment 1 [2] 2]) (by decide +kernel)
  obtain ⟨hbase, hadvertised, hsent⟩ := of_decide_eq_true hP
  exact ⟨f, hbase, hadvertised, hsent, honours hf⟩

/-- After the window has been closed, two segments are sent at once. -/
theorem not_honours :
    ¬∀ (cfg : RDTWindowSender ℚ) (data : Bytes) (f : Flow ℚ),
      (flow cfg data).Reachable f → f.Honours cfg := by
  intro h
  obtain ⟨f, hf, hP⟩ := (flow closing [1, 2, 3]).exists_reachableBy_of_run (fun _ _ => True)
    mem_init_closing [.advance false true, .advance false true, .advance false true,
      .receive false (some (closing.dest, packet (ackHeader 0 0) [])),
      .advance false true, .advance false true]
    (fun f => f.sender.base = 1 ∧ f.advertised = 0 ∧
      (f.sender.advance closing false true).2 = [sendSegment 2 [3] 2]) (by decide +kernel)
  obtain ⟨hbase, hadvertised, hsent⟩ := of_decide_eq_true hP
  have hhonours := h closing [1, 2, 3] f hf false true (sendSegment 2 [3] 2) (by simp [hsent])
    (by decide +kernel)
  rw [hbase, hadvertised] at hhonours
  have hlimit := hhonours.2.trans_le ((min_le_left _ _).trans (min_le_right _ _))
  exact absurd hlimit (by decide +kernel)

end HybridFtp
