import HybridFtp.Rdt.Effort

/-!
# How wide the window gets

Which windows a configuration can bring about, as segments are acknowledged and lost.

* `Windows`: the congestion window and its threshold, after some segments have been
  acknowledged;
* `WindowsFit`: the window, added to its base, is within 32 bits, for all of them;
* `windows_of_reachable`: a call of `sendData` has no other windows, whatever datagrams it
  receives;
* `exists_reachable`: and it can have each of them, so that the sum never wraps around if
  and only if the windows fit (`windowsFit_iff`).
-/

namespace HybridFtp

variable {α : Type} [Double α]

/-- The congestion window and the threshold, after `base` segments have been acknowledged,
    and so many rounds of going back since then. -/
inductive Windows (cfg : RDTWindowSender α) : Nat → Int → α → α → Prop
  | start : Windows cfg 0 0 cfg.initialCwnd cfg.initialSsthresh
  | acked {base : Nat} {rounds : Int} {cwnd ssthresh : α} :
      Windows cfg base rounds cwnd ssthresh →
      Windows cfg (base + 1) 0 (SenderState.grow cfg ssthresh cwnd) ssthresh
  | lost {base : Nat} {rounds : Int} {cwnd ssthresh : α} : rounds < cfg.maxRetransmitRounds →
      Windows cfg base rounds cwnd ssthresh →
      Windows cfg base (rounds + 1) Double.one
        (Double.max (Double.div cwnd Double.two) Double.one)

/-- The widest window that a receiver can have, for the sender. -/
def RDTWindowSender.widestReceived (cfg : RDTWindowSender α) : UInt32 :=
  if Double.toUInt32 cfg.initialSsthresh < 65535 then 65535
  else Double.toUInt32 cfg.initialSsthresh

theorem RDTWindowSender.toNat_widestReceived (cfg : RDTWindowSender α) :
    cfg.widestReceived.toNat = max 65535 (Double.toUInt32 cfg.initialSsthresh).toNat := by
  rw [widestReceived]
  split_ifs with hnarrow
  · exact (max_eq_left (UInt32.lt_iff_toNat_lt.1 hnarrow).le).symm
  · exact (max_eq_right (not_lt.1 (mt UInt32.lt_iff_toNat_lt.2 hnarrow))).symm

/-- As long as there are segments to acknowledge, each of the windows, as wide as a receiver
    can make it, adds up with its base within 32 bits. -/
def WindowsFit (cfg : RDTWindowSender α) (count : Nat) : Prop :=
  ∀ base rounds cwnd ssthresh, Windows cfg base rounds cwnd ssthresh → base < count →
    base + flowLimit cfg cwnd cfg.widestReceived < 2 ^ 32

theorem Windows.iterate {cfg : RDTWindowSender α} {base : Nat} {rounds : Int} {cwnd ssthresh : α}
    (h : Windows cfg base rounds cwnd ssthresh) (n : Nat) :
    Windows cfg (base + (n + 1)) 0 ((SenderState.grow cfg ssthresh)^[n + 1] cwnd) ssthresh := by
  induction n with
  | zero => exact h.acked
  | succ n ih =>
    rw [Function.iterate_succ_apply']
    exact ih.acked

namespace SenderState

variable {cfg : RDTWindowSender α} {s : SenderState α}

/-- The windows of a state, if the call has not given up. -/
def HasWindows (cfg : RDTWindowSender α) (s : SenderState α) : Prop :=
  s.point ≠ .returned false → Windows cfg s.base.toNat s.retryRnd s.cwnd s.ssthresh

theorem hasWindows_onTimeout (h : Windows cfg s.base.toNat s.retryRnd s.cwnd s.ssthresh) :
    (s.onTimeout cfg).HasWindows cfg := by
  rw [onTimeout]
  dsimp only
  split_ifs with hgives
  · exact fun hp => absurd rfl hp
  · exact fun _ => h.lost (by omega)

theorem hasWindows_onDuplicateAck (ackNum : UInt32)
    (h : Windows cfg s.base.toNat s.retryRnd s.cwnd s.ssthresh) :
    (s.onDuplicateAck cfg ackNum).HasWindows cfg := by
  have hlost : s.retryRnd + 1 ≤ cfg.maxRetransmitRounds →
      Windows cfg s.base.toNat (s.retryRnd + 1) Double.one
        (Double.max (Double.div s.cwnd Double.two) Double.one) := fun hle => h.lost (by omega)
  rw [onDuplicateAck]
  dsimp only
  split_ifs with hlast hthird hgives hthird hgives
  · exact fun hp => absurd rfl hp
  · exact fun _ => hlost (not_lt.1 hgives)
  · exact fun _ => h
  · exact fun hp => absurd rfl hp
  · exact fun _ => hlost (not_lt.1 hgives)
  · exact fun _ => h

theorem hasWindows_onNewAck {ackNum : UInt32} (hle : s.base ≤ ackNum) (hlt : ackNum < s.nextSeq)
    (h : Windows cfg s.base.toNat s.retryRnd s.cwnd s.ssthresh) :
    (s.onNewAck cfg ackNum).HasWindows cfg := by
  intro _
  have hsucc := toNat_succ hlt
  have hle' := UInt32.le_iff_toNat_le.1 hle
  have hadded : (ackNum + 1 - s.base).toNat = ackNum.toNat - s.base.toNat + 1 := by
    rw [UInt32.toNat_sub_of_le _ _ (by rw [UInt32.le_iff_toNat_le]; omega)]
    omega
  have hbase : (ackNum + 1).toNat = s.base.toNat + (ackNum.toNat - s.base.toNat + 1) := by omega
  show Windows cfg (ackNum + 1).toNat 0 ((grow cfg s.ssthresh)^[(ackNum + 1 - s.base).toNat] s.cwnd)
    s.ssthresh
  rw [hadded, hbase]
  exact h.iterate _

theorem hasWindows_onAck (ackNum : UInt32) (rxWindow : UInt16)
    (h : Windows cfg s.base.toNat s.retryRnd s.cwnd s.ssthresh) :
    (s.onAck cfg ackNum rxWindow).HasWindows cfg := by
  have hnoted : Windows cfg (s.noteWindow rxWindow).base.toNat (s.noteWindow rxWindow).retryRnd
      (s.noteWindow rxWindow).cwnd (s.noteWindow rxWindow).ssthresh := by
    rw [noteWindow]
    split_ifs
    · exact h
    · exact h
  rw [onAck]
  split_ifs with hnew
  · exact hasWindows_onNewAck hnew.1 hnew.2.1 hnoted
  · exact hasWindows_onDuplicateAck ackNum hnoted
  · exact fun _ => hnoted

omit [Double α] in
theorem AckOutcome.segs_eq {s' : SenderState α} {missing : Bool}
    (h : AckOutcome cfg s missing s') : s'.segs = s.segs := by
  cases h with
  | goesBack _ _ hback => exact hback.segs
  | givesUp _ _ hsegs => exact hsegs
  | ignores _ hsegs => exact hsegs
  | slides _ hsegs => exact hsegs

/-- The windows along runs: what is sent is within that of the state. -/
structure Windowed (cfg : RDTWindowSender α) (segs : List Bytes) (s : SenderState α) : Prop where
  segs_eq : s.segs = segs
  windows : s.HasWindows cfg
  recvWindow_le : s.recvWindow ≤ cfg.widestReceived
  sending : ∀ wnd, s.point = .sending wnd → s.base < s.N ∧ wnd = s.computeEffectiveWindow cfg

namespace Windowed

variable {segs : List Bytes}

theorem of_point (h : Windowed cfg segs s) {point : SenderPoint}
    (hwindows : Windows cfg s.base.toNat s.retryRnd s.cwnd s.ssthresh)
    (hsending : ∀ wnd, point ≠ .sending wnd) : Windowed cfg segs { s with point } :=
  ⟨h.segs_eq, fun _ => hwindows, h.recvWindow_le, fun wnd hwnd => absurd hwnd (hsending wnd)⟩

theorem advance (h : Windowed cfg segs s) (hruns : s.point.runs = true)
    (cancelled sendOk : Bool) : Windowed cfg segs (s.advance cfg cancelled sendOk).1 := by
  have hwindows : Windows cfg s.base.toNat s.retryRnd s.cwnd s.ssthresh :=
    h.windows fun hp => by rw [hp] at hruns; cases hruns
  cases hp : s.point with
  | loopHead =>
    simp only [SenderState.advance, hp]
    split_ifs with hb
    · exact h.of_point hwindows fun _ => SenderPoint.noConfusion
    · -- The window is computed here, and kept until all of it has been sent.
      refine ⟨h.segs_eq, fun _ => hwindows, h.recvWindow_le, fun wnd hwnd => ?_⟩
      cases hwnd
      exact ⟨hb, rfl⟩
    · exact h.of_point hwindows fun _ => SenderPoint.noConfusion
  | sending wnd =>
    simp only [SenderState.advance, hp]
    split_ifs
    · have hsending := h.sending wnd hp
      exact ⟨h.segs_eq, fun _ => hwindows, h.recvWindow_le, fun wnd' hwnd' => by
        obtain rfl : wnd = wnd' := SenderPoint.sending.inj hwnd'
        exact hsending⟩
    · exact h.of_point hwindows fun _ => SenderPoint.noConfusion
    · exact h.of_point hwindows fun _ => SenderPoint.noConfusion
  | finHead attempt =>
    simp only [SenderState.advance, hp]
    split_ifs
    all_goals exact h.of_point hwindows fun _ => SenderPoint.noConfusion
  | awaitAck | awaitFinAck _ | returned _ => simp [hp, SenderPoint.runs] at hruns

theorem receive (h : Windowed cfg segs s) (hwaits : s.point.waits = true) (cancelled : Bool)
    (arrival : Received) : Windowed cfg segs (s.receive cfg cancelled arrival) := by
  have hwindows : Windows cfg s.base.toNat s.retryRnd s.cwnd s.ssthresh :=
    h.windows fun hp => by rw [hp] at hwaits; cases hwaits
  -- The windows change in the main loop only.
  cases hp : s.point with
  | awaitAck =>
    cases cancelled with
    | true =>
      rw [receive_cancelled hp]
      exact h.of_point hwindows fun _ => SenderPoint.noConfusion
    | false =>
      have hsegs := (receive_outcome cfg hp arrival).segs_eq.trans h.segs_eq
      rcases receive_awaitAck_cases cfg hp arrival with
        ⟨_, heq | heq⟩ | ⟨ackNum, rxWindow, _, heq⟩
      · rw [heq] at hsegs ⊢
        exact ⟨hsegs, hasWindows_onTimeout hwindows, (onTimeout_recvWindow cfg s).trans_le
          h.recvWindow_le, fun wnd hwnd => absurd hwnd (onTimeout_point cfg s wnd)⟩
      · rw [heq]
        exact h.of_point hwindows fun _ => SenderPoint.noConfusion
      · rw [heq] at hsegs ⊢
        refine ⟨hsegs, hasWindows_onAck ackNum rxWindow hwindows, ?_,
          fun wnd hwnd => absurd hwnd (onAck_point cfg ackNum rxWindow s wnd)⟩
        rw [onAck_recvWindow]
        split_ifs
        · have hlt := rxWindow.toNat_lt
          rw [UInt32.le_iff_toNat_le, UInt16.toNat_toUInt32, cfg.toNat_widestReceived]
          omega
        · exact h.recvWindow_le
  | awaitFinAck attempt =>
    rcases receive_awaitFinAck_cases hp cfg cancelled arrival with heq | heq
    · rw [heq]
      exact h.of_point hwindows fun _ => SenderPoint.noConfusion
    · rw [heq]
      exact h.of_point hwindows fun _ => SenderPoint.noConfusion
  | loopHead | sending _ | finHead _ | returned _ => simp [hp, SenderPoint.waits] at hwaits

end Windowed

end SenderState

/-! ## What a call has -/

variable {cfg : RDTWindowSender α} {data : Bytes} {segs : List Bytes} {s : SenderState α}

/-- Whatever datagrams arrive, there are no other windows. -/
theorem windows_of_reachable (hsegs : segments cfg.mss data = some segs)
    (h : (sending cfg data).Reachable s) : s.Windowed cfg segs := by
  refine h.invariant (I := SenderState.Windowed cfg segs) ?_ ?_
  · intro s hs
    have hinit : SenderState.init cfg data = some s := hs
    rw [SenderState.init, hsegs] at hinit
    cases hinit
    refine ⟨rfl, fun _ => .start, ?_, fun _ => SenderPoint.noConfusion⟩
    rw [UInt32.le_iff_toNat_le, cfg.toNat_widestReceived]
    exact Nat.le_max_right _ _
  · intro s e s' hwindowed hs
    rcases sending_step hs with ⟨cancelled, sendOk, rfl, hruns, rfl⟩ |
      ⟨cancelled, arrival, rfl, hwaits, rfl⟩
    · exact hwindowed.advance hruns cancelled sendOk
    · exact hwindowed.receive hwaits cancelled arrival

/-- The window that is being sent, added to its base, does not wrap around. -/
def SenderState.SumFits (s : SenderState α) : Prop :=
  ∀ wnd, s.point = .sending wnd → (s.base + wnd).toNat = s.base.toNat + wnd.toNat

theorem sumFits_of_windowsFit (hsegs : segments cfg.mss data = some segs)
    (hcount : segs.length < 2 ^ 32) (hfit : WindowsFit cfg segs.length)
    (h : (sending cfg data).Reachable s) : s.SumFits := by
  intro wnd hp
  have hwindowed := windows_of_reachable hsegs h
  obtain ⟨hb, rfl⟩ := hwindowed.sending wnd hp
  have hN : s.N.toNat = segs.length := by
    rw [SenderState.N, hwindowed.segs_eq]
    exact UInt32.toNat_ofNat_of_lt' hcount
  have hlt := UInt32.lt_iff_toNat_lt.1 hb
  rw [hN] at hlt
  have hsum := hfit _ _ _ _ (hwindowed.windows (by simp [hp])) hlt
  have hrecv := UInt32.le_iff_toNat_le.1 hwindowed.recvWindow_le
  have hwnd := s.computeEffectiveWindow_toNat cfg
  rw [flowLimit] at hsum hwnd
  rw [UInt32.toNat_add, Nat.mod_eq_of_lt (by omega)]

/-! ## What a call can have -/

namespace SenderState

/-- The head of the main loop, with the windows. -/
structure AtHead (cfg : RDTWindowSender α) (segs : List Bytes) (base : Nat) (rounds : Int)
    (cwnd ssthresh : α) (s : SenderState α) : Prop where
  segs_eq : s.segs = segs
  base_eq : s.base.toNat = base
  retryRnd : s.retryRnd = rounds
  cwnd_eq : s.cwnd = cwnd
  ssthresh_eq : s.ssthresh = ssthresh
  recvWindow : s.recvWindow = cfg.widestReceived
  base_le : s.base.toNat ≤ s.nextSeq.toNat
  point : s.point = .loopHead

/-- A segment that is not acknowledged has been sent, and nothing else is different. -/
structure Sent (s s' : SenderState α) : Prop where
  segs : s'.segs = s.segs
  base : s'.base = s.base
  retryRnd : s'.retryRnd = s.retryRnd
  cwnd : s'.cwnd = s.cwnd
  ssthresh : s'.ssthresh = s.ssthresh
  recvWindow : s'.recvWindow = s.recvWindow
  lastDuplicateAck : s'.lastDuplicateAck = s.lastDuplicateAck
  duplicateAckCount : s'.duplicateAckCount = s.duplicateAckCount
  base_lt : s'.base.toNat < s'.nextSeq.toNat
  point : s'.point = .awaitAck

end SenderState

/-- A move of the sender that nothing keeps from it. -/
theorem reachable_advance (h : (sending cfg data).Reachable s) (hruns : s.point.runs = true) :
    (sending cfg data).Reachable (s.advance cfg false true).1 :=
  h.tail (e := .advance false true) trivial (if_pos hruns)

/-- The loop that sends the window gets to its end. -/
theorem exists_sent_of_sending (hfits : ∀ s, (sending cfg data).Reachable s → s.SumFits)
    {wnd : UInt32} (h : (sending cfg data).Reachable s) (hp : s.point = .sending wnd)
    (hwnd : 1 ≤ wnd.toNat) (hb : s.base.toNat < s.N.toNat) (hle : s.base.toNat ≤ s.nextSeq.toNat) :
    ∃ s', (sending cfg data).Reachable s' ∧ s.Sent s' := by
  -- The induction is on the segments that are left.
  induction hleft : s.N.toNat - s.nextSeq.toNat generalizing s with
  | zero =>
    have hdone : ¬(s.nextSeq < s.N ∧ s.nextSeq < s.base + wnd) := by
      rw [UInt32.lt_iff_toNat_lt]
      omega
    have hlt : s.base.toNat < s.nextSeq.toNat := by omega
    have hstep := reachable_advance h (by rw [hp]; rfl)
    rw [SenderState.advance_sending_done hp hdone] at hstep
    exact ⟨_, hstep, rfl, rfl, rfl, rfl, rfl, rfl, rfl, rfl, hlt, rfl⟩
  | succ n ih =>
    have hstep := reachable_advance h (by rw [hp]; rfl)
    by_cases hnext : s.nextSeq < s.N ∧ s.nextSeq < s.base + wnd
    · rw [SenderState.advance_sending hp hnext] at hstep
      have hsucc := SenderState.toNat_succ hnext.1
      obtain ⟨s', hs', hsent⟩ := ih hstep hp hb
        (by show s.base.toNat ≤ (s.nextSeq + 1).toNat; omega)
        (by show s.N.toNat - (s.nextSeq + 1).toNat = n; omega)
      exact ⟨s', hs', hsent.segs, hsent.base, hsent.retryRnd, hsent.cwnd, hsent.ssthresh,
        hsent.recvWindow, hsent.lastDuplicateAck, hsent.duplicateAckCount, hsent.base_lt,
        hsent.point⟩
    · rw [SenderState.advance_sending_done hp hnext] at hstep
      refine ⟨_, hstep, rfl, rfl, rfl, rfl, rfl, rfl, rfl, rfl, ?_, rfl⟩
      -- The window has been sent, and it is not empty.
      rw [UInt32.lt_iff_toNat_lt, UInt32.lt_iff_toNat_lt, hfits s h wnd hp] at hnext
      show s.base.toNat < s.nextSeq.toNat
      omega

/-- From the head of the main loop, the sender gets to wait for an ACK. -/
theorem exists_sent (hfits : ∀ s, (sending cfg data).Reachable s → s.SumFits)
    (h : (sending cfg data).Reachable s) (hp : s.point = .loopHead) (hb : s.base < s.N)
    (hle : s.base.toNat ≤ s.nextSeq.toNat) :
    ∃ s', (sending cfg data).Reachable s' ∧ s.Sent s' := by
  have hstep := reachable_advance h (by rw [hp]; rfl)
  rw [SenderState.advance_loopHead hp hb] at hstep
  obtain ⟨s', hs', hsent⟩ := exists_sent_of_sending hfits hstep rfl
    (s.computeEffectiveWindow_bounds cfg).1 (UInt32.lt_iff_toNat_lt.1 hb) hle
  exact ⟨s', hs', hsent.segs, hsent.base, hsent.retryRnd, hsent.cwnd, hsent.ssthresh,
    hsent.recvWindow, hsent.lastDuplicateAck, hsent.duplicateAckCount, hsent.base_lt, hsent.point⟩

/-- Something arrives, or nothing in time. -/
theorem reachable_receive (h : (sending cfg data).Reachable s) (hwaits : s.point.waits = true)
    (arrival : Received) : (sending cfg data).Reachable (s.receive cfg false arrival) :=
  h.tail (e := .receive false arrival) trivial (if_pos hwaits)

/-- An ACK arrives. -/
theorem reachable_onAck (h : (sending cfg data).Reachable s) (hp : s.point = .awaitAck)
    (ackNum : UInt32) (rxWindow : UInt16) :
    (sending cfg data).Reachable (s.onAck cfg ackNum rxWindow) := by
  have hstep := reachable_receive h (by rw [hp]; rfl)
    (some (cfg.dest, packet (ackHeader ackNum rxWindow) []))
  rwa [SenderState.receive_ack hp] at hstep

omit [Double α] in
theorem noteWindow_zero (s : SenderState α) : s.noteWindow 0 = s := by
  rw [SenderState.noteWindow, if_neg (by decide)]

/-- The next segment is acknowledged, by an ACK that leaves the window as it is. -/
theorem onAck_base (hlt : s.base < s.nextSeq) (hb : s.base < s.N) :
    s.onAck cfg s.base 0 = s.onNewAck cfg s.base := by
  rw [SenderState.onAck, noteWindow_zero]
  exact if_pos ⟨UInt32.le_refl _, hlt, hb⟩

/-- Before anything is acknowledged, an ACK of nothing is a duplicate, but tells the window. -/
theorem onAck_nothing (hlast : s.lastDuplicateAck = UINT32_MAX)
    (hcount : s.duplicateAckCount = 0) :
    s.onAck cfg UINT32_MAX 65535 =
      { s with recvWindow := 65535, duplicateAckCount := 1, point := .loopHead } := by
  have hnew : ¬UINT32_MAX < s.nextSeq := by
    have hmax := s.nextSeq.toNat_lt
    rw [UInt32.lt_iff_toNat_lt]
    exact not_lt.2 (Nat.le_of_lt_succ hmax)
  have hnote : s.noteWindow 65535 = { s with recvWindow := 65535 } := by
    rw [SenderState.noteWindow, if_pos (by decide)]
    rfl
  rw [SenderState.onAck, hnote]
  dsimp only
  rw [if_neg fun h => hnew h.2.1, if_pos (.inr rfl), SenderState.onDuplicateAck]
  dsimp only
  rw [if_pos hlast.symm, hcount]
  rfl

section

variable {base : Nat} {rounds : Int} {cwnd ssthresh : α}

/-- The first head, after an ACK of nothing has told the widest window if that is wider than
    what the sender assumes. -/
theorem exists_atHead_start (hsegs : segments cfg.mss data = some segs)
    (hcount : segs.length < 2 ^ 32) (hne : 0 < segs.length)
    (hfits : ∀ s, (sending cfg data).Reachable s → s.SumFits) :
    ∃ s, (sending cfg data).Reachable s ∧
      s.AtHead cfg segs 0 0 cfg.initialCwnd cfg.initialSsthresh := by
  obtain ⟨s, hs⟩ : ∃ s, SenderState.init cfg data = some s := by
    rw [SenderState.init, hsegs]
    exact ⟨_, rfl⟩
  have hreach : (sending cfg data).Reachable s := ⟨s, hs, .refl⟩
  rw [SenderState.init, hsegs] at hs
  cases hs
  by_cases hnarrow : Double.toUInt32 cfg.initialSsthresh < 65535
  · have hb : (0 : UInt32) < UInt32.ofNat segs.length := by
      rw [UInt32.lt_iff_toNat_lt, UInt32.toNat_ofNat_of_lt' hcount]
      exact hne
    obtain ⟨s', hs', hsent⟩ := exists_sent hfits hreach rfl hb le_rfl
    have hack := reachable_onAck hs' hsent.point UINT32_MAX 65535
    rw [onAck_nothing hsent.lastDuplicateAck hsent.duplicateAckCount] at hack
    exact ⟨_, hack, hsent.segs, congrArg UInt32.toNat hsent.base, hsent.retryRnd,
      hsent.cwnd, hsent.ssthresh, (if_pos hnarrow).symm, hsent.base_lt.le, rfl⟩
  · exact ⟨_, hreach, rfl, rfl, rfl, rfl, rfl, (if_neg hnarrow).symm, le_rfl, rfl⟩

theorem SenderState.AtHead.base_lt (h : s.AtHead cfg segs base rounds cwnd ssthresh)
    (hcount : segs.length < 2 ^ 32) (hbase : base < segs.length) : s.base < s.N := by
  rw [UInt32.lt_iff_toNat_lt, SenderState.N, h.segs_eq, UInt32.toNat_ofNat_of_lt' hcount, h.base_eq]
  exact hbase

/-- The window is sent, and its first segment is acknowledged. -/
theorem exists_atHead_acked (hcount : segs.length < 2 ^ 32)
    (hfits : ∀ s, (sending cfg data).Reachable s → s.SumFits)
    (hs : (sending cfg data).Reachable s) (h : s.AtHead cfg segs base rounds cwnd ssthresh)
    (hbase : base < segs.length) :
    ∃ s', (sending cfg data).Reachable s' ∧
      s'.AtHead cfg segs (base + 1) 0 (SenderState.grow cfg ssthresh cwnd) ssthresh := by
  have hb := h.base_lt hcount hbase
  obtain ⟨s', hs', hsent⟩ := exists_sent hfits hs h.point hb h.base_le
  have hb' : s'.base < s'.N := by
    rw [hsent.base, SenderState.N, hsent.segs]
    exact hb
  have hnext : s'.base < s'.nextSeq := UInt32.lt_iff_toNat_lt.2 hsent.base_lt
  have hreach := reachable_onAck hs' hsent.point s'.base 0
  rw [onAck_base hnext hb'] at hreach
  have hsucc := SenderState.toNat_succ hnext
  have hone : (s'.base + 1 - s'.base).toNat = 1 := by
    rw [UInt32.toNat_sub_of_le _ _ (by rw [UInt32.le_iff_toNat_le]; omega)]
    omega
  refine ⟨_, hreach, hsent.segs.trans h.segs_eq, ?_, rfl, ?_, hsent.ssthresh.trans h.ssthresh_eq,
    hsent.recvWindow.trans h.recvWindow, ?_, rfl⟩
  · show (s'.base + 1).toNat = _
    rw [hsucc, hsent.base, h.base_eq]
  · show (SenderState.grow cfg s'.ssthresh)^[(s'.base + 1 - s'.base).toNat] s'.cwnd = _
    rw [hone, Function.iterate_one, hsent.ssthresh, h.ssthresh_eq, hsent.cwnd, h.cwnd_eq]
  · show (s'.base + 1).toNat ≤ s'.nextSeq.toNat
    rw [hsucc]
    exact hsent.base_lt

/-- The window is sent, and nothing arrives in time. -/
theorem exists_atHead_lost (hcount : segs.length < 2 ^ 32)
    (hfits : ∀ s, (sending cfg data).Reachable s → s.SumFits)
    (hs : (sending cfg data).Reachable s) (h : s.AtHead cfg segs base rounds cwnd ssthresh)
    (hbase : base < segs.length) (hrounds : rounds < cfg.maxRetransmitRounds) :
    ∃ s', (sending cfg data).Reachable s' ∧ s'.AtHead cfg segs base (rounds + 1) Double.one
      (Double.max (Double.div cwnd Double.two) Double.one) := by
  obtain ⟨s', hs', hsent⟩ := exists_sent hfits hs h.point (h.base_lt hcount hbase) h.base_le
  have hreach := reachable_receive hs' (by rw [hsent.point]; rfl) none
  have htimeout : s'.receive cfg false none = s'.onTimeout cfg := by
    rw [SenderState.receive, hsent.point]
    rfl
  have hretry : ¬s'.retryRnd + 1 > cfg.maxRetransmitRounds := by
    rw [hsent.retryRnd, h.retryRnd]
    omega
  rw [htimeout, SenderState.onTimeout, if_neg hretry] at hreach
  refine ⟨_, hreach, hsent.segs.trans h.segs_eq,
    (congrArg UInt32.toNat hsent.base).trans h.base_eq, ?_, rfl, ?_,
    hsent.recvWindow.trans h.recvWindow, le_rfl, rfl⟩
  · show s'.retryRnd + 1 = _
    rw [hsent.retryRnd, h.retryRnd]
  · show Double.max (Double.div s'.cwnd Double.two) Double.one = _
    rw [hsent.cwnd, h.cwnd_eq]

/-- Each of the windows can be reached, short of the end of the transfer. -/
theorem exists_reachable (hsegs : segments cfg.mss data = some segs) (hcount : segs.length < 2 ^ 32)
    (hfits : ∀ s, (sending cfg data).Reachable s → s.SumFits)
    (h : Windows cfg base rounds cwnd ssthresh) (hbase : base < segs.length) :
    ∃ s, (sending cfg data).Reachable s ∧ s.AtHead cfg segs base rounds cwnd ssthresh := by
  -- The induction is on how the windows come about, and leads the sender the same way.
  induction h with
  | start => exact exists_atHead_start hsegs hcount hbase hfits
  | acked h ih =>
    obtain ⟨s, hs, hhead⟩ := ih (by omega)
    exact exists_atHead_acked hcount hfits hs hhead (by omega)
  | lost hrounds h ih =>
    obtain ⟨s, hs, hhead⟩ := ih hbase
    exact exists_atHead_lost hcount hfits hs hhead hbase hrounds

end

/-- The sum of the window and its base never wraps around if and only if the windows fit. -/
theorem windowsFit_iff (hsegs : segments cfg.mss data = some segs) (hcount : segs.length < 2 ^ 32) :
    (∀ s, (sending cfg data).Reachable s → s.SumFits) ↔ WindowsFit cfg segs.length := by
  refine ⟨fun hfits base rounds cwnd ssthresh h hbase => ?_,
    fun hfit s h => sumFits_of_windowsFit hsegs hcount hfit h⟩
  -- The call that gets there computes this window next.
  obtain ⟨s, hs, hhead⟩ := exists_reachable hsegs hcount hfits h hbase
  have hstep := reachable_advance hs (by rw [hhead.point]; rfl)
  rw [SenderState.advance_loopHead hhead.point (hhead.base_lt hcount hbase)] at hstep
  have hsum : (s.base + s.computeEffectiveWindow cfg).toNat =
      s.base.toNat + (s.computeEffectiveWindow cfg).toNat := hfits _ hstep _ rfl
  have hlt := (s.base + s.computeEffectiveWindow cfg).toNat_lt
  rwa [hsum, SenderState.computeEffectiveWindow_toNat, hhead.base_eq, hhead.cwnd_eq,
    hhead.recvWindow] at hlt

end HybridFtp
