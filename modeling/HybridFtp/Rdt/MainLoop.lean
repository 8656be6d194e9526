import HybridFtp.Rdt.Receiver

/-!
# The main loop, counted

The moves of both sides in natural numbers, for transfers in which no counter
wraps: the ACK of a receiver that expects segment `c` is `ackOf c`, and the main
loop takes it for news if `c` is after `base`, for a duplicate if it is not.
-/

namespace HybridFtp

variable {α : Type} [Double α]

/-- The ACK of a receiver that expects the segment numbered `c`. For `c = 0`, it
    carries `UINT32_MAX`. -/
def ackOf (c : Nat) (w : UInt16) : Bytes := packet (ackHeader (UInt32.ofNat c - 1) w) []

theorem ReceiverState.cumulativeAck_eq (r : ReceiverState) : r.cumulativeAck = r.expectedSeq - 1 := by
  rw [cumulativeAck]
  split_ifs with h
  · rw [h]
    rfl
  · rfl

theorem ReceiverState.ackDatagram_eq (r : ReceiverState) :
    r.ackDatagram = ackOf r.expectedSeq.toNat r.advertisedWindow := by
  rw [ackDatagram, cumulativeAck_eq, ackOf, UInt32.ofNat_toNat]

namespace SenderState

/-! ## The window -/

theorem toNat_min (a b : UInt32) : (Min.min a b).toNat = Min.min a.toNat b.toNat := by
  show (if a ≤ b then a else b).toNat = _
  split_ifs with h
  · exact (Nat.min_eq_left (UInt32.le_iff_toNat_le.1 h)).symm
  · exact (Nat.min_eq_right (Nat.le_of_not_le fun h' => h (UInt32.le_iff_toNat_le.2 h'))).symm

/-- The window is never closed, and never wider than configured. -/
theorem computeEffectiveWindow_bounds (cfg : RDTWindowSender α) (s : SenderState α) :
    0 < (s.computeEffectiveWindow cfg).toNat ∧
      (s.computeEffectiveWindow cfg).toNat ≤ max 1 cfg.maxWindowSegments.toNat := by
  have hbound : ∀ x : UInt32, 0 < (if Min.min x cfg.maxWindowSegments = 0 then 1
      else Min.min x cfg.maxWindowSegments).toNat ∧ (if Min.min x cfg.maxWindowSegments = 0 then 1
      else Min.min x cfg.maxWindowSegments).toNat ≤ max 1 cfg.maxWindowSegments.toNat := by
    intro x
    split_ifs with h
    · exact ⟨by decide, Nat.le_max_left _ _⟩
    · refine ⟨Nat.pos_of_ne_zero fun h0 => h (UInt32.toNat_inj.1 h0), ?_⟩
      rw [toNat_min]
      exact (Nat.min_le_right _ _).trans (Nat.le_max_right _ _)
  exact hbound _

/-! ## Moves of the main loop -/

/-- The main loop, before everything is acknowledged. -/
structure InMain (cfg : RDTWindowSender α) (segs : List Bytes) (s : SenderState α) : Prop where
  segs_eq : s.segs = segs
  base_le : s.base.toNat ≤ s.nextSeq.toNat
  nextSeq_le : s.nextSeq.toNat ≤ segs.length
  point : s.point = .loopHead ∨
    (∃ wnd, s.point = .sending wnd ∧ 0 < wnd.toNat ∧
      wnd.toNat ≤ max 1 cfg.maxWindowSegments.toNat ∧ s.base.toNat < segs.length) ∨
    s.point = .awaitAck ∧ s.base.toNat < s.nextSeq.toNat

/-- The configuration leaves room for the sequence numbers in 32 bits. -/
def Fits (cfg : RDTWindowSender α) (segs : List Bytes) : Prop :=
  segs.length + max 1 cfg.maxWindowSegments.toNat < 2 ^ 32

variable {cfg : RDTWindowSender α} {segs : List Bytes} {s s' : SenderState α}

omit [Double α] in
theorem Fits.length_lt (h : Fits cfg segs) : segs.length < 2 ^ 32 :=
  (Nat.le_add_right _ _).trans_lt h

omit [Double α] in
theorem InMain.N_toNat (h : s.InMain cfg segs) (hfits : Fits cfg segs) :
    s.N.toNat = segs.length := by
  rw [N, h.segs_eq]
  exact UInt32.toNat_ofNat_of_lt' hfits.length_lt

/-- What the main loop does between two `recvFrom`. -/
theorem InMain.advance (h : s.InMain cfg segs) (hfits : Fits cfg segs)
    (hruns : s.point.runs = true) {sent : List Bytes}
    (ha : s.advance cfg false true = (s', sent)) :
    (∃ wnd, s.point = .loopHead ∧ s' = { s with point := .sending wnd } ∧ sent = [] ∧
      s'.InMain cfg segs) ∨
    (s.point = .loopHead ∧ s.base.toNat = segs.length ∧ s' = { s with point := .finHead 0 } ∧
      sent = []) ∨
    (∃ wnd, s.point = .sending wnd ∧ s.nextSeq.toNat < segs.length ∧
      (s.nextSeq + 1).toNat = s.nextSeq.toNat + 1 ∧
      s' = { s with
        totalPacketsSent := s.totalPacketsSent + 1
        nextSeq := s.nextSeq + 1 } ∧
      sent = [sendSegment s.nextSeq (segs.getD s.nextSeq.toNat []) wnd.toUInt16] ∧
      s'.InMain cfg segs) ∨
    (∃ wnd, s.point = .sending wnd ∧ s' = { s with point := .awaitAck } ∧ sent = [] ∧
      s'.InMain cfg segs) := by
  have hN := h.N_toNat hfits
  rcases h.point with hp | ⟨wnd, hp, hpos, hwnd, hbase⟩ | ⟨hp, _⟩
  · by_cases hb : s.base < s.N
    · rw [advance_loopHead hp hb] at ha
      obtain ⟨rfl, rfl⟩ := ha
      rw [UInt32.lt_iff_toNat_lt, hN] at hb
      obtain ⟨hpos, hle⟩ := computeEffectiveWindow_bounds cfg s
      exact .inl ⟨_, hp, rfl, rfl, h.segs_eq, h.base_le, h.nextSeq_le,
        .inr (.inl ⟨_, rfl, hpos, hle, hb⟩)⟩
    · rw [advance_loopHead_done hp hb] at ha
      obtain ⟨rfl, rfl⟩ := ha
      rw [UInt32.lt_iff_toNat_lt, hN] at hb
      have := h.base_le
      have := h.nextSeq_le
      exact .inr (.inl ⟨hp, by omega, rfl, rfl⟩)
  · have hsum : (s.base + wnd).toNat = s.base.toNat + wnd.toNat := by
      rw [UInt32.toNat_add]
      exact Nat.mod_eq_of_lt (by rw [Fits] at hfits; omega)
    by_cases hn : s.nextSeq < s.N ∧ s.nextSeq < s.base + wnd
    · have hlt := UInt32.lt_iff_toNat_lt.1 hn.1
      rw [hN] at hlt
      have hsucc : (s.nextSeq + 1).toNat = s.nextSeq.toNat + 1 := by
        rw [UInt32.toNat_add]
        exact Nat.mod_eq_of_lt (by have := hfits.length_lt; simp; omega)
      rw [advance_sending hp hn, h.segs_eq] at ha
      obtain ⟨rfl, rfl⟩ := ha
      refine .inr (.inr (.inl ⟨wnd, hp, hlt, hsucc, by rw [h.segs_eq], rfl, rfl, ?_, ?_,
        .inr (.inl ⟨wnd, hp, hpos, hwnd, hbase⟩)⟩))
      · exact h.base_le.trans (by rw [hsucc]; exact Nat.le_succ _)
      · show (s.nextSeq + 1).toNat ≤ _
        rw [hsucc]
        exact hlt
    · rw [advance_sending_done hp hn] at ha
      obtain ⟨rfl, rfl⟩ := ha
      -- With an open window, the segment at `base` has been sent.
      have hnext : s.base.toNat < s.nextSeq.toNat := by
        rw [UInt32.lt_iff_toNat_lt, UInt32.lt_iff_toNat_lt, hN, hsum] at hn
        omega
      exact .inr (.inr (.inr ⟨wnd, hp, rfl, rfl, h.segs_eq, h.base_le, h.nextSeq_le,
        .inr (.inr ⟨rfl, hnext⟩)⟩))
  · simp [hp, SenderPoint.runs] at hruns

/-- The state after a segment newly acknowledged: the main loop goes on from it. -/
structure NewAck (c : Nat) (s s' : SenderState α) : Prop where
  segs : s'.segs = s.segs
  base : s'.base.toNat = c
  nextSeq : s'.nextSeq = s.nextSeq
  retryRnd : s'.retryRnd = 0
  duplicateAckCount : s'.duplicateAckCount = 0
  point : s'.point = .loopHead

/-- The state after a duplicate ACK that is not the third one. -/
structure Duplicate (k : UInt32) (s s' : SenderState α) : Prop where
  segs : s'.segs = s.segs
  base : s'.base = s.base
  nextSeq : s'.nextSeq = s.nextSeq
  retryRnd : s'.retryRnd = s.retryRnd
  duplicateAckCount : s'.duplicateAckCount = s.duplicateAckCount + 1
  lastDuplicateAck : s'.lastDuplicateAck = k
  point : s'.point = .loopHead

/-- The state after going back to `base`, on a timeout or a third duplicate. -/
structure Rollback (s s' : SenderState α) : Prop where
  segs : s'.segs = s.segs
  base : s'.base = s.base
  nextSeq : s'.nextSeq = s.base
  retryRnd : s'.retryRnd = s.retryRnd + 1
  point : s'.point = .loopHead

omit [Double α] in
theorem Duplicate.of_noteWindow {k : UInt32} {w : UInt16} (h : Duplicate k (s.noteWindow w) s') :
    Duplicate k s s' := by
  rw [noteWindow] at h
  split_ifs at h
  · exact ⟨h.segs, h.base, h.nextSeq, h.retryRnd, h.duplicateAckCount, h.lastDuplicateAck, h.point⟩
  · exact h

omit [Double α] in
theorem Rollback.of_noteWindow {w : UInt16} (h : Rollback (s.noteWindow w) s') : Rollback s s' := by
  rw [noteWindow] at h
  split_ifs at h
  · exact ⟨h.segs, h.base, h.nextSeq, h.retryRnd, h.point⟩
  · exact h

omit [Double α] in
theorem toNat_pred {c : Nat} (hpos : 0 < c) (hc : c < 2 ^ 32) :
    (UInt32.ofNat c - 1).toNat = c - 1 := by
  rw [UInt32.toNat_sub_of_le]
  · rw [UInt32.toNat_ofNat_of_lt' hc]
    rfl
  · rw [UInt32.le_iff_toNat_le, UInt32.toNat_ofNat_of_lt' hc]
    exact hpos

theorem onAck_new (cfg : RDTWindowSender α) {c : Nat} (hb : s.base.toNat < c) (hc : c ≤ s.nextSeq.toNat)
    (hn : s.nextSeq.toNat ≤ s.N.toNat) (w : UInt16) :
    NewAck c s (s.onAck cfg (UInt32.ofNat c - 1) w) := by
  have hlt : c < 2 ^ 32 := hc.trans_lt s.nextSeq.toNat_lt
  have hpred := toNat_pred (Nat.zero_lt_of_lt hb) hlt
  have hnew : s.base ≤ UInt32.ofNat c - 1 ∧ UInt32.ofNat c - 1 < s.nextSeq ∧
      UInt32.ofNat c - 1 < s.N := by
    rw [UInt32.le_iff_toNat_le, UInt32.lt_iff_toNat_lt, UInt32.lt_iff_toNat_lt, hpred]
    omega
  have hack : s.onAck cfg (UInt32.ofNat c - 1) w =
      (s.noteWindow w).onNewAck cfg (UInt32.ofNat c - 1) := by
    rw [onAck]
    exact if_pos (by simpa using hnew)
  rw [hack]
  refine ⟨by simp [onNewAck], ?_, by simp [onNewAck], rfl, rfl, rfl⟩
  show (UInt32.ofNat c - 1 + 1).toNat = c
  rw [UInt32.sub_add_cancel, UInt32.toNat_ofNat_of_lt' hlt]

omit [Double α] in
theorem ackNum_lt_or_eq {c : Nat} (hc : c ≤ s.base.toNat) :
    UInt32.ofNat c - 1 < s.base ∨ UInt32.ofNat c - 1 = UINT32_MAX := by
  rcases Nat.eq_zero_or_pos c with rfl | hpos
  · -- The ACK of a receiver that has accepted nothing carries `UINT32_MAX`.
    exact .inr rfl
  · left
    rw [UInt32.lt_iff_toNat_lt, toNat_pred hpos (hc.trans_lt s.base.toNat_lt)]
    omega

/-- An ACK that is not after `base` is a duplicate. -/
theorem onAck_eq_onDuplicateAck {c : Nat} (hc : c ≤ s.base.toNat) (w : UInt16) :
    s.onAck cfg (UInt32.ofNat c - 1) w =
      (s.noteWindow w).onDuplicateAck cfg (UInt32.ofNat c - 1) := by
  have hdup := ackNum_lt_or_eq hc
  rw [onAck]
  simp only [noteWindow_base, noteWindow_nextSeq, noteWindow_N]
  rw [if_neg, if_pos hdup]
  rintro ⟨hle, _, hN⟩
  rcases hdup with hlt | hmax
  · exact UInt32.not_le.2 hlt hle
  · rw [hmax, UInt32.lt_iff_toNat_lt] at hN
    exact absurd hN (not_lt.2 (Nat.le_of_lt_succ s.N.toNat_lt))

theorem onDuplicateAck_duplicate {k : UInt32}
    (hk : s.duplicateAckCount = 0 ∨ s.lastDuplicateAck = k) (hd : s.duplicateAckCount + 1 < 3) :
    Duplicate k s (s.onDuplicateAck cfg k) := by
  rw [onDuplicateAck]
  dsimp only
  by_cases hlast : k = s.lastDuplicateAck
  · simp only [hlast, if_true, ge_iff_le, show ¬3 ≤ s.duplicateAckCount + 1 by omega, if_false]
    exact ⟨rfl, rfl, rfl, rfl, rfl, rfl, rfl⟩
  · have h0 : s.duplicateAckCount = 0 := hk.resolve_right fun h => hlast h.symm
    simp only [hlast, if_false, show ¬(1 : Int) ≥ 3 by decide]
    exact ⟨rfl, rfl, rfl, rfl, by simp [h0], rfl, rfl⟩

theorem onDuplicateAck_rollback {k : UInt32}
    (hk : s.duplicateAckCount = 0 ∨ s.lastDuplicateAck = k) (hd : ¬s.duplicateAckCount + 1 < 3)
    (hr : s.retryRnd < cfg.maxRetransmitRounds) :
    Rollback s (s.onDuplicateAck cfg k) ∧ (s.onDuplicateAck cfg k).duplicateAckCount = 0 := by
  have hlast : k = s.lastDuplicateAck := (hk.resolve_left (by omega)).symm
  rw [onDuplicateAck]
  simp only [hlast, if_true, ge_iff_le, show 3 ≤ s.duplicateAckCount + 1 by omega,
    show ¬s.retryRnd + 1 > cfg.maxRetransmitRounds by omega, if_false]
  exact ⟨⟨rfl, rfl, rfl, rfl, rfl⟩, trivial⟩

/-- A duplicate is counted; the third one goes back to `base`. -/
theorem onAck_duplicate {c : Nat} (hc : c ≤ s.base.toNat)
    (hk : s.duplicateAckCount = 0 ∨ s.lastDuplicateAck = UInt32.ofNat c - 1) (w : UInt16) :
    s.duplicateAckCount + 1 < 3 ∧
      Duplicate (UInt32.ofNat c - 1) s (s.onAck cfg (UInt32.ofNat c - 1) w) ∨
    ¬s.duplicateAckCount + 1 < 3 ∧ (s.retryRnd < cfg.maxRetransmitRounds →
      Rollback s (s.onAck cfg (UInt32.ofNat c - 1) w) ∧
        (s.onAck cfg (UInt32.ofNat c - 1) w).duplicateAckCount = 0) := by
  have hcount : (s.noteWindow w).duplicateAckCount = s.duplicateAckCount := by
    rw [noteWindow]
    split_ifs <;> rfl
  have hlast : (s.noteWindow w).lastDuplicateAck = s.lastDuplicateAck := by
    rw [noteWindow]
    split_ifs <;> rfl
  have hretry : (s.noteWindow w).retryRnd = s.retryRnd := by
    rw [noteWindow]
    split_ifs <;> rfl
  rw [← hcount, ← hlast] at hk
  rw [onAck_eq_onDuplicateAck hc, ← hcount, ← hretry]
  by_cases hd : (s.noteWindow w).duplicateAckCount + 1 < 3
  · exact .inl ⟨hd, (onDuplicateAck_duplicate hk hd).of_noteWindow⟩
  · exact .inr ⟨hd, fun hr => (onDuplicateAck_rollback hk hd hr).imp_left Rollback.of_noteWindow⟩

theorem onTimeout_rollback (hr : s.retryRnd < cfg.maxRetransmitRounds) :
    Rollback s (s.onTimeout cfg) ∧
      (s.onTimeout cfg).duplicateAckCount = s.duplicateAckCount ∧
      (s.onTimeout cfg).lastDuplicateAck = s.lastDuplicateAck := by
  rw [onTimeout]
  dsimp only
  rw [if_neg (by omega)]
  exact ⟨⟨rfl, rfl, rfl, rfl, rfl⟩, rfl, rfl⟩

end SenderState

end HybridFtp
