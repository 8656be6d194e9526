import HybridFtp.Rdt.WindowGrowth
import Mathlib.Algebra.Order.Floor.Div

/-!
# Segmentation

How `sendData` cuts the data into segments, and counts them with 32 bits.

* `Segmented`: what the loop that cuts the data is to give, and `segmented_iff`, when it
  does: an `mss` of `0` keeps it from ending, and the count has to fit 32 bits;
* `Numbered`: the numbers along runs, and which segments have been sent;
* `segmentation`: no segment is lost sight of, and no sum wraps around, if and only if the
  loop ends, the count fits, and the windows do.
-/

namespace HybridFtp

/-! ## Cutting the data -/

/-- The segments of the data: as many as it takes, and their count is within 32 bits. -/
structure Segmented (mss : Nat) (data : Bytes) (segs : List Bytes) : Prop where
  count : segs.length = max 1 (data.length ⌈/⌉ mss)
  flatten : segs.flatten = data
  length_le : ∀ seg ∈ segs, seg.length ≤ mss
  numbered : (UInt32.ofNat segs.length).toNat = segs.length

/-- The loop does not get anywhere with segments that have no room for a byte. -/
theorem segmentLoop_zero {data : Bytes} (h : data ≠ []) (fuel : Nat) :
    segmentLoop 0 fuel data = none := by
  induction fuel with
  | zero =>
    cases data with
    | nil => exact absurd rfl h
    | cons b data => rfl
  | succ fuel ih =>
    cases data with
    | nil => exact absurd rfl h
    | cons b data => simp only [segmentLoop, List.drop_zero, ih, Option.map_none]

/-- The quotient, one round of the loop after another. -/
theorem ceilDiv_eq_succ {mss n : Nat} (hmss : 0 < mss) (hn : 0 < n) :
    n ⌈/⌉ mss = (n - mss) ⌈/⌉ mss + 1 := by
  rw [Nat.ceilDiv_eq_add_pred_div, Nat.ceilDiv_eq_add_pred_div]
  rcases Nat.le_total n mss with hle | hle
  · -- The last round takes what is left.
    have hlt : (n - mss + mss - 1) / mss = 0 := Nat.div_eq_of_lt (by omega)
    have hsplit : n + mss - 1 = n - 1 + mss := by omega
    rw [hlt, hsplit, Nat.add_div_right _ hmss, Nat.div_eq_of_lt (by omega)]
  · have hsplit : n + mss - 1 = n - mss + mss - 1 + mss := by omega
    rw [hsplit, Nat.add_div_right _ hmss]

theorem length_segmentLoop {mss fuel : Nat} {data : Bytes} {segs : List Bytes}
    (hmss : 0 < mss) (h : segmentLoop mss fuel data = some segs) :
    segs.length = data.length ⌈/⌉ mss := by
  induction fuel generalizing data segs with
  | zero =>
    cases data with
    | nil =>
      cases h
      exact (zero_ceilDiv mss).symm
    | cons b data => cases h
  | succ fuel ih =>
    cases data with
    | nil =>
      cases h
      exact (zero_ceilDiv mss).symm
    | cons b data =>
      obtain ⟨rest, hrest, rfl⟩ := Option.map_eq_some_iff.1 h
      rw [List.length_cons, ih hrest, List.length_drop]
      exact (ceilDiv_eq_succ hmss (Nat.succ_pos data.length)).symm

/-- The loop ends where a segment has room for a byte, or there is none. -/
theorem exists_segments_iff {mss : Nat} {data : Bytes} :
    (∃ segs, segments mss data = some segs) ↔ 0 < mss ∨ data = [] := by
  constructor
  · rintro ⟨segs, hsegs⟩
    by_contra h
    obtain ⟨hmss, hdata⟩ := not_or.1 h
    obtain rfl : mss = 0 := Nat.eq_zero_of_not_pos hmss
    rw [segments, segmentLoop_zero hdata] at hsegs
    cases hsegs
  · rintro (hmss | rfl)
    · exact Option.isSome_iff_exists.1 (segments_isSome hmss data)
    · exact ⟨[[]], rfl⟩

theorem length_segments {mss : Nat} {data : Bytes} {segs : List Bytes}
    (h : segments mss data = some segs) : segs.length = max 1 (data.length ⌈/⌉ mss) := by
  rcases exists_segments_iff.1 ⟨segs, h⟩ with hmss | rfl
  · obtain ⟨loop, hloop, rfl⟩ := Option.map_eq_some_iff.1 h
    rw [← length_segmentLoop hmss hloop]
    cases loop with
    | nil => rfl
    | cons seg loop => simp
  · cases h
    rw [List.length_nil, zero_ceilDiv]
    rfl

/-- The data are cut as they are to be where the loop ends, and the count fits. -/
theorem segmented_iff {mss : Nat} {data : Bytes} {segs : List Bytes}
    (h : segments mss data = some segs) :
    Segmented mss data segs ↔ max 1 (data.length ⌈/⌉ mss) < 2 ^ 32 := by
  rw [← length_segments h]
  constructor
  · intro hsegs
    rw [← hsegs.numbered]
    exact UInt32.toNat_lt _
  · intro hlt
    exact ⟨length_segments h, segments_flatten h, fun seg => length_of_mem_segments h,
      UInt32.toNat_ofNat_of_lt' hlt⟩

/-! ## Numbering the segments -/

section

variable {α : Type} [Double α]

/-- What a move sends. -/
def transmission (cfg : RDTWindowSender α) (s : SenderState α) : SenderEvent → Option Bytes
  | .advance cancelled sendOk => (s.advance cfg cancelled sendOk).2.head?
  | .receive .. => none

/-- The segment of the number `i`, as it is sent. -/
def IsSegment (segs : List Bytes) (i : Nat) (datagram : Bytes) : Prop :=
  ∃ w, datagram = sendSegment (UInt32.ofNat i) (segs.getD i []) w

/-- The numbers of the sender are those of the segments, and those below `nextSeq` have
    been sent. -/
structure Numbered (segs : List Bytes) (s : SenderState α) (history : List Bytes) : Prop where
  segs_eq : s.segs = segs
  base_le : s.base.toNat ≤ s.nextSeq.toNat
  nextSeq_le : s.nextSeq.toNat ≤ segs.length
  inFinPhase : s.inFinPhase → s.base.toNat = segs.length
  sent : ∀ i < s.nextSeq.toNat, ∃ datagram ∈ history, IsSegment segs i datagram

namespace Numbered

variable {cfg : RDTWindowSender α} {segs : List Bytes} {s s' : SenderState α} {history : List Bytes}

omit [Double α] in
theorem N_toNat (h : Numbered segs s history) (hcount : segs.length < 2 ^ 32) :
    s.N.toNat = segs.length := by
  rw [SenderState.N, h.segs_eq]
  exact UInt32.toNat_ofNat_of_lt' hcount

omit [Double α] in
theorem of_point (h : Numbered segs s history) {point : SenderPoint}
    (hfin : ({ s with point } : SenderState α).inFinPhase → s.base.toNat = segs.length) :
    Numbered segs { s with point } history :=
  ⟨h.segs_eq, h.base_le, h.nextSeq_le, hfin, h.sent⟩

omit [Double α] in
theorem cons (h : Numbered segs s history) (datagram : Bytes) :
    Numbered segs s (datagram :: history) := by
  refine ⟨h.segs_eq, h.base_le, h.nextSeq_le, h.inFinPhase, fun i hi => ?_⟩
  obtain ⟨old, hmem, hsegment⟩ := h.sent i hi
  exact ⟨old, List.mem_cons_of_mem _ hmem, hsegment⟩

omit [Double α] in
theorem transmit (h : Numbered segs s history) (hcount : segs.length < 2 ^ 32) {wnd : UInt32}
    (hp : s.point = .sending wnd) (hnext : s.nextSeq < s.N) :
    Numbered segs
      { s with totalPacketsSent := s.totalPacketsSent + 1, nextSeq := s.nextSeq + 1 }
      (sendSegment s.nextSeq (s.segs.getD s.nextSeq.toNat []) wnd.toUInt16 :: history) := by
  have hlt := UInt32.lt_iff_toNat_lt.1 hnext
  have hsucc := SenderState.toNat_succ hnext
  have hbase := h.base_le
  rw [h.N_toNat hcount] at hlt
  refine ⟨h.segs_eq, ?_, ?_, ?_, ?_⟩
  · show s.base.toNat ≤ (s.nextSeq + 1).toNat
    omega
  · show (s.nextSeq + 1).toNat ≤ segs.length
    omega
  · intro hfin
    simp [SenderState.inFinPhase, hp] at hfin
  · intro i hi
    replace hi : i < (s.nextSeq + 1).toNat := hi
    rcases Nat.lt_or_ge i s.nextSeq.toNat with hold | hnew
    · obtain ⟨datagram, hmem, hsegment⟩ := h.sent i hold
      exact ⟨datagram, List.mem_cons_of_mem _ hmem, hsegment⟩
    · -- The segment that is sent now.
      obtain rfl : i = s.nextSeq.toNat := by omega
      refine ⟨_, List.mem_cons_self, wnd.toUInt16, ?_⟩
      rw [UInt32.ofNat_toNat, h.segs_eq]

theorem advance (h : Numbered segs s history) (hcount : segs.length < 2 ^ 32)
    (cancelled sendOk : Bool) :
    Numbered segs (s.advance cfg cancelled sendOk).1
      ((transmission cfg s (.advance cancelled sendOk)).toList ++ history) := by
  have hN := h.N_toNat hcount
  rw [transmission]
  cases hp : s.point with
  | loopHead =>
    simp only [SenderState.advance, hp]
    split_ifs with hb
    · exact h.of_point False.elim
    · exact h.of_point False.elim
    · have hge := not_lt.1 (mt UInt32.lt_iff_toNat_lt.2 hb)
      rw [hN] at hge
      exact h.of_point fun _ => le_antisymm (h.base_le.trans h.nextSeq_le) hge
  | sending wnd =>
    simp only [SenderState.advance, hp]
    split_ifs with hnext
    · have hsent := h.transmit hcount hp hnext.1
      rw [hp] at hsent
      exact hsent
    · exact h.of_point False.elim
    · exact h.of_point False.elim
  | finHead attempt =>
    have hbase := h.inFinPhase (by simp [SenderState.inFinPhase, hp])
    simp only [SenderState.advance, hp]
    split_ifs
    · exact h.of_point fun _ => hbase
    · exact (h.of_point fun _ => hbase).cons _
    · exact h.of_point fun _ => hbase
  | awaitAck | awaitFinAck _ | returned _ =>
    simp only [SenderState.advance, hp]
    exact h

/-- What `recvFrom` returns can slide the window, or go back to its base. -/
theorem receive_awaitAck (h : Numbered segs s history) (hp : s.point = .awaitAck)
    (arrival : Received) : Numbered segs (s.receive cfg false arrival) history := by
  have houtcome := SenderState.receive_outcome cfg hp arrival
  generalize s.receive cfg false arrival = s' at houtcome
  have hstays : s'.segs = s.segs → s'.base = s.base → s'.nextSeq = s.nextSeq →
      s'.point = .loopHead ∨ s'.point = .returned false → Numbered segs s' history := by
    intro hsegs hbase hnext hpoint
    refine ⟨hsegs.trans h.segs_eq, ?_, hnext ▸ h.nextSeq_le, ?_, hnext ▸ h.sent⟩
    · rw [hbase, hnext]
      exact h.base_le
    · rcases hpoint with hp | hp <;> simp [SenderState.inFinPhase, hp]
  cases houtcome with
  -- What is sent again has been sent before.
  | goesBack _ _ hback =>
    refine ⟨hback.segs.trans h.segs_eq, ?_, ?_, ?_, ?_⟩
    · rw [hback.base, hback.nextSeq]
    · rw [hback.nextSeq]
      exact h.base_le.trans h.nextSeq_le
    · simp [SenderState.inFinPhase, hback.point]
    · rw [hback.nextSeq]
      exact fun i hi => h.sent i (hi.trans_le h.base_le)
  | givesUp _ _ hsegs hbase hnext hpoint => exact hstays hsegs hbase hnext (.inr hpoint)
  | ignores _ hsegs hbase hnext _ hpoint => exact hstays hsegs hbase hnext (.inl hpoint)
  | slides _ hsegs _ hle hnext _ hpoint =>
    exact ⟨hsegs.trans h.segs_eq, hnext ▸ hle, hnext ▸ h.nextSeq_le,
      by simp [SenderState.inFinPhase, hpoint], hnext ▸ h.sent⟩

theorem receive (h : Numbered segs s history) (hwaits : s.point.waits = true)
    (cancelled : Bool) (arrival : Received) :
    Numbered segs (s.receive cfg cancelled arrival) history := by
  cases hp : s.point with
  | awaitAck =>
    cases cancelled with
    | true =>
      rw [SenderState.receive_cancelled hp]
      exact h.of_point False.elim
    | false => exact h.receive_awaitAck hp arrival
  | awaitFinAck attempt =>
    have hbase := h.inFinPhase (by simp [SenderState.inFinPhase, hp])
    rcases SenderState.receive_awaitFinAck_cases hp cfg cancelled arrival with heq | heq
    · rw [heq]
      exact h.of_point fun _ => hbase
    · rw [heq]
      exact h.of_point fun _ => hbase
  | loopHead | sending _ | finHead _ | returned _ => simp [hp, SenderPoint.waits] at hwaits

end Numbered

variable {cfg : RDTWindowSender α} {data : Bytes} {segs : List Bytes} {s : SenderState α}
  {history : List Bytes}

/-- The numbers are kept from the start of the call on. -/
theorem numbered (hsegs : segments cfg.mss data = some segs) (hcount : segs.length < 2 ^ 32)
    (h : ((sending cfg data).recording (transmission cfg)).Reachable (s, history)) :
    Numbered segs s history := by
  refine Machine.recording_invariant h ?_ ?_
  · intro s hs
    obtain ⟨segs', hsegs', rfl⟩ := Option.map_eq_some_iff.1 hs
    obtain rfl : segs' = segs := Option.some.inj (hsegs'.symm.trans hsegs)
    exact ⟨rfl, le_rfl, Nat.zero_le _, False.elim, fun i hi => absurd hi (Nat.not_lt_zero i)⟩
  · intro s history e s' hnumbered hs
    rcases sending_step hs with
      ⟨cancelled, sendOk, rfl, _, rfl⟩ | ⟨cancelled, arrival, rfl, hwaits, rfl⟩
    · exact hnumbered.advance hcount cancelled sendOk
    · exact hnumbered.receive hwaits cancelled arrival

/-- The 32 bits of the sender stand for the segments: their count, the number that each is
    sent with, and which of them are sent when the call reports success. -/
structure Represents (cfg : RDTWindowSender α) (segs : List Bytes) (s : SenderState α)
    (history : List Bytes) : Prop where
  count : s.N.toNat = segs.length
  seqNum : ∀ cancelled sendOk, ∀ datagram ∈ (s.advance cfg cancelled sendOk).2,
    isData datagram = true → ∃ i < segs.length, IsSegment segs i datagram ∧
      (deserializeHeader datagram).seqNum.toNat = i
  complete : s.point = .returned true → s.base.toNat = segs.length ∧
    ∀ i < segs.length, ∃ datagram ∈ history, IsSegment segs i datagram

theorem Numbered.represents (h : Numbered segs s history) (hcount : segs.length < 2 ^ 32) :
    Represents cfg segs s history := by
  have hN := h.N_toNat hcount
  refine ⟨hN, ?_, ?_⟩
  · intro cancelled sendOk datagram hmem hdata
    cases hadvance : s.advance cfg cancelled sendOk with
    | mk s' sent =>
      rw [hadvance] at hmem
      rcases SenderState.advance_cases hadvance with
        ⟨rfl, _⟩ | ⟨rfl, _⟩ | ⟨wnd, _, hnext, _, rfl⟩ | ⟨_, wnd, _, _, rfl⟩
      · cases hmem
      · cases hmem
      · obtain rfl := List.mem_singleton.1 hmem
        refine ⟨s.nextSeq.toNat, hN ▸ UInt32.lt_iff_toNat_lt.1 hnext, ⟨wnd.toUInt16, ?_⟩, ?_⟩
        · rw [UInt32.ofNat_toNat, h.segs_eq]
        · rw [sendSegment, deserializeHeader_packet]
          rfl
      · obtain rfl := List.mem_singleton.1 hmem
        rw [isData_sendFIN] at hdata
        cases hdata
  · intro hp
    have hbase := h.inFinPhase (by simp [SenderState.inFinPhase, hp])
    exact ⟨hbase, fun i hi => h.sent i (by have := h.base_le; omega)⟩

end

end HybridFtp
