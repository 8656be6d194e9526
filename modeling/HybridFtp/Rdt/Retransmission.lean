import HybridFtp.Rdt.OneLoss

/-!
# The main loop with one loss

What each step does to the first two phases of a run with one loss.

* `Joint.Pipeline`: what the steps do to the datagrams on their way, in numbers;
* `Joint.Streams`: as long as no segment is missing, every step keeps the first
  phase, or gets to the last one; a loss or a timeout gets to the second;
* `Joint.Retransmits`: every step keeps the second phase, or gets to the last one.

Every step but the loss gets closer to the end of the transfer (`Joint.Below`).
-/

namespace HybridFtp

variable {α : Type} [Double α]

/-! ## The moves of the main loop -/

section

variable {t : Transfer α} {segs : List Bytes} {ns : List (Nat × UInt16)} {cs : List Nat}
  {s s' : Joint α}

/-- The sender moves, but for its point and the number of the next segment. -/
structure SenderState.Same (s s' : SenderState α) : Prop where
  segs : s'.segs = s.segs
  base : s'.base = s.base
  retryRnd : s'.retryRnd = s.retryRnd
  duplicateAckCount : s'.duplicateAckCount = s.duplicateAckCount
  lastDuplicateAck : s'.lastDuplicateAck = s.lastDuplicateAck

/-- What the sender does between two `recvFrom`: it moves on, sends the next
    segment, or enters the FIN phase. -/
theorem Joint.Pipeline.senderAdvances (h : s.Pipeline t segs ns cs)
    (hfits : SenderState.Fits t.sender segs)
    (hs : s.step t (.senderAdvances false true) = some s') :
    (s'.receiver = s.receiver ∧ s'.toSender = s.toSender ∧ s.sender.Same s'.sender ∧
      s'.Below t segs.length s) ∧
    (s'.sender.nextSeq = s.sender.nextSeq ∧ s'.Pipeline t segs ns cs ∨
    (∃ w, s'.sender.nextSeq.toNat = s.sender.nextSeq.toNat + 1 ∧
      s'.Pipeline t segs (ns ++ [(s.sender.nextSeq.toNat, w)]) cs) ∨
    s.sender.base.toNat = segs.length ∧ s'.sender.point = .finHead 0 ∧
      s'.toReceiver = s.toReceiver) := by
  obtain ⟨sender, sent, ha, hruns, rfl⟩ := Joint.step_senderAdvances hs
  -- It takes the window, ends the main loop, sends a segment, or finds none to send.
  rcases h.sender.advance hfits hruns ha with ⟨wnd, hp, rfl, rfl, hmain⟩ |
    ⟨hp, hbase, rfl, rfl⟩ | ⟨wnd, hp, hlt, hsucc, rfl, rfl, hmain⟩ | ⟨wnd, hp, rfl, rfl, hmain⟩
  · refine ⟨⟨rfl, rfl, ⟨rfl, rfl, rfl, rfl, rfl⟩, ?_⟩, .inl ⟨rfl, hmain, h.receiver, h.window,
      h.heard, h.expectedSeq_le, ?_, h.toSender, h.numbers_lt⟩⟩
    · refine Joint.below_of_work ?_ ?_ ?_ ?_ <;> simp [SenderState.segmentsLeft,
        SenderState.roundsLeft, SenderState.patience, work, SenderPoint.work, hp]
    · rw [List.append_nil]
      exact h.toReceiver
  · refine ⟨⟨rfl, rfl, ⟨rfl, rfl, rfl, rfl, rfl⟩, ?_⟩, .inr (.inr ⟨hbase, rfl, List.append_nil _⟩)⟩
    left
    simp only [SenderState.segmentsLeft, hp]
    omega
  · refine ⟨⟨rfl, rfl, ⟨rfl, rfl, rfl, rfl, rfl⟩, ?_⟩, .inr (.inl ⟨wnd.toUInt16, hsucc, hmain,
      h.receiver, h.window, h.heard, h.expectedSeq_le, ?_, h.toSender, fun n hn => ?_⟩)⟩
    · refine Joint.below_of_work rfl rfl le_rfl ?_
      simp only [work, hsucc, List.length_append, List.length_singleton]
      omega
    · rw [List.map_append, ← h.toReceiver, List.map_singleton, segmentOf, UInt32.ofNat_toNat]
    · rcases List.mem_append.1 hn with hn | hn
      · exact h.numbers_lt n hn
      · rw [List.mem_singleton.1 hn]
        exact hlt
  · refine ⟨⟨rfl, rfl, ⟨rfl, rfl, rfl, rfl, rfl⟩, ?_⟩, .inl ⟨rfl, hmain, h.receiver, h.window,
      h.heard, h.expectedSeq_le, ?_, h.toSender, h.numbers_lt⟩⟩
    · refine Joint.below_of_work ?_ ?_ ?_ ?_ <;> simp [SenderState.segmentsLeft,
        SenderState.roundsLeft, SenderState.patience, work, SenderPoint.work, hp]
    · rw [List.append_nil]
      exact h.toReceiver

omit [Double α] in
/-- The main loop waits for an ACK. -/
theorem SenderState.InMain.waits {sender : SenderState α} (h : sender.InMain t.sender segs)
    (hwaits : sender.point.waits = true) :
    sender.point = .awaitAck ∧ sender.base.toNat < sender.nextSeq.toNat := by
  rcases h.point with hp | ⟨wnd, hp, _⟩ | hp
  · simp [hp, SenderPoint.waits] at hwaits
  · simp [hp, SenderPoint.waits] at hwaits
  · exact hp

omit [Double α] in
/-- The main loop does not wait for the ACK of a segment it has not sent. -/
theorem SenderState.InMain.runs {sender : SenderState α} (h : sender.InMain t.sender segs)
    (hnext : sender.nextSeq = sender.base) : sender.point.runs = true := by
  rcases h.point with hp | ⟨wnd, hp, _⟩ | ⟨_, hlt⟩
  · rw [hp]
    rfl
  · rw [hp]
    rfl
  · rw [hnext] at hlt
    exact absurd hlt (Nat.lt_irrefl _)

/-- The main loop waits in vain. -/
theorem Joint.timesOut (hp : s.sender.point = .awaitAck)
    (hs : s.step t (.senderTimesOut false) = some s') :
    s'.sender = s.sender.onTimeout t.sender ∧ s'.receiver = s.receiver ∧
      s'.toReceiver = s.toReceiver ∧ s'.toSender = s.toSender := by
  obtain ⟨_, rfl⟩ := Joint.step_senderTimesOut hs
  refine ⟨?_, rfl, rfl, rfl⟩
  show s.sender.receive t.sender false none = _
  simp [SenderState.receive, hp, recvFrom]

/-- The receiver goes on to its next `recvFrom`. -/
theorem Joint.Pipeline.receiverAdvances (h : s.Pipeline t segs ns cs)
    (hs : s.step t (.receiverAdvances false) = some s') :
    s'.Pipeline t segs ns cs ∧ s'.sender = s.sender ∧
      s'.receiver.expectedSeq = s.receiver.expectedSeq ∧ s'.Below t segs.length s := by
  obtain ⟨hp, rfl⟩ := Joint.step_receiverAdvances hs
  have hadvance : s.receiver.advance false = { s.receiver with point := .awaitDatagram } := by
    simp [ReceiverState.advance, hp]
  rw [hadvance]
  refine ⟨⟨h.sender, .inr rfl, h.window, h.heard, h.expectedSeq_le, h.toReceiver, h.toSender,
    h.numbers_lt⟩, rfl, rfl, Joint.below_of_work rfl rfl le_rfl ?_⟩
  simp [work, hp]

/-- The receiver reads the next segment, and answers it. -/
theorem Joint.Pipeline.receiverReceives (h : s.Pipeline t segs ns cs)
    (hfits : SenderState.Fits t.sender segs) (hfit : ∀ seg ∈ segs, seg.length ≤ MAX_PAYLOAD)
    (hs : s.step t (.receiverReceives false) = some s') :
    ∃ n ns' e', ns = n :: ns' ∧
      e' = (if n.1 = s.receiver.expectedSeq.toNat then n.1 + 1 else s.receiver.expectedSeq.toNat) ∧
      s'.Pipeline t segs ns' (cs ++ [e']) ∧ s'.sender = s.sender ∧
      s'.receiver.expectedSeq.toNat = e' ∧ s'.Below t segs.length s := by
  obtain ⟨d, rest, hd, hp, rfl⟩ := Joint.step_receiverReceives hs
  obtain ⟨n, ns', rfl, rfl, rfl⟩ := List.map_eq_cons_iff.1 (h.toReceiver.symm.trans hd)
  have hn := h.numbers_lt n (by simp)
  have hr := ReceiverState.readSegment hfits.length_lt hfit hn t.socket.toEndpoint s.receiver
  rw [segmentOf, Joint.receiverReads_sendSegment (t := t)
    (s := { s with toReceiver := ns'.map (segmentOf segs) }) hp]
  refine ⟨n, ns', _, rfl, rfl, ⟨h.sender, .inl hr.point, hr.window.trans h.window,
    fun _ => hr.sender, ?_, rfl, ?_, fun n' hn' => h.numbers_lt n' (.tail _ hn')⟩, rfl,
    hr.expectedSeq, ?_⟩
  · show (s.receiver.afterSegment _ _ _ _).expectedSeq.toNat ≤ _
    rw [hr.expectedSeq]
    have := h.expectedSeq_le
    split_ifs <;> omega
  · rw [List.map_append, ← h.toSender, List.map_singleton, ReceiverState.ackDatagram_eq,
      hr.expectedSeq, hr.window, h.window]
  · refine Joint.below_of_work rfl rfl (s.sender.patience_le ?_) ?_
    · rw [List.length_append]
      exact Nat.le_add_right _ _
    · simp only [work, hd, hp, hr.point, List.length_append, List.length_nil,
        List.length_cons, List.length_map, reduceCtorEq, if_true, if_false]
      omega

/-- The sender reads the next ACK. -/
theorem Joint.Pipeline.senderReceives (h : s.Pipeline t segs ns cs)
    (hs : s.step t (.senderReceives false) = some s') :
    ∃ c cs', cs = c :: cs' ∧ s.toSender = ackOf c t.advertisedWindow :: s'.toSender ∧
      s'.toSender = cs'.map (fun c => ackOf c t.advertisedWindow) ∧
      s.sender.point = .awaitAck ∧ s.sender.base.toNat < s.sender.nextSeq.toNat ∧
      s'.sender = s.sender.onAck t.sender (UInt32.ofNat c - 1) t.advertisedWindow ∧
      s'.receiver = s.receiver ∧ s'.toReceiver = s.toReceiver := by
  obtain ⟨d, rest, hd, hwaits, rfl⟩ := Joint.step_senderReceives hs
  obtain ⟨c, cs', rfl, rfl, rfl⟩ := List.map_eq_cons_iff.1 (h.toSender.symm.trans hd)
  obtain ⟨hp, hlt⟩ := h.sender.waits hwaits
  exact ⟨c, cs', rfl, hd, rfl, hp, hlt, SenderState.receive_ack hp _ _ _, rfl, rfl⟩

omit [Double α] in
/-- The main loop goes on from an ACK that is news. -/
theorem Joint.Pipeline.newAck (h : s.Pipeline t segs ns cs) {c : Nat} {cs' : List Nat}
    (hnew : SenderState.NewAck c s.sender s'.sender) (hc : c ≤ s.sender.nextSeq.toNat)
    (hp : s.sender.point = .awaitAck) (hlt : s.sender.base.toNat < c)
    (hreceiver : s'.receiver = s.receiver) (htoReceiver : s'.toReceiver = s.toReceiver)
    (htoSender : s'.toSender = cs'.map fun c => ackOf c t.advertisedWindow) :
    s'.Pipeline t segs ns cs' ∧ s'.Below t segs.length s := by
  refine ⟨⟨⟨hnew.segs.trans h.sender.segs_eq, ?_, ?_, .inl hnew.point⟩, ?_, ?_, ?_, ?_, ?_,
    htoSender, h.numbers_lt⟩, .inl ?_⟩
  · rw [hnew.base, hnew.nextSeq]
    exact hc
  · rw [hnew.nextSeq]
    exact h.sender.nextSeq_le
  · rw [hreceiver]
    exact h.receiver
  · rw [hreceiver]
    exact h.window
  · rw [hreceiver]
    exact h.heard
  · rw [hreceiver]
    exact h.expectedSeq_le
  · rw [htoReceiver]
    exact h.toReceiver
  · have := h.sender.nextSeq_le
    simp only [SenderState.segmentsLeft, hnew.point, hp, hnew.base]
    omega

omit [Double α] in
/-- The main loop goes on from a duplicate. -/
theorem Joint.Pipeline.duplicate (h : s.Pipeline t segs ns cs) {k : UInt32} {cs' : List Nat}
    (hdup : SenderState.Duplicate k s.sender s'.sender)
    (hcount : s.sender.duplicateAckCount + 1 < 3) (hnonneg : 0 ≤ s.sender.duplicateAckCount)
    (hp : s.sender.point = .awaitAck) (hreceiver : s'.receiver = s.receiver)
    (htoReceiver : s'.toReceiver = s.toReceiver) (hlength : s.toSender.length = cs'.length + 1)
    (htoSender : s'.toSender = cs'.map fun c => ackOf c t.advertisedWindow) :
    s'.Pipeline t segs ns cs' ∧ s'.Below t segs.length s := by
  refine ⟨⟨⟨hdup.segs.trans h.sender.segs_eq, ?_, ?_, .inl hdup.point⟩, ?_, ?_, ?_, ?_, ?_,
    htoSender, h.numbers_lt⟩, Joint.below_of_work ?_ ?_ ?_ ?_⟩
  · rw [hdup.base, hdup.nextSeq]
    exact h.sender.base_le
  · rw [hdup.nextSeq]
    exact h.sender.nextSeq_le
  · rw [hreceiver]
    exact h.receiver
  · rw [hreceiver]
    exact h.window
  · rw [hreceiver]
    exact h.heard
  · rw [hreceiver]
    exact h.expectedSeq_le
  · rw [htoReceiver]
    exact h.toReceiver
  · simp only [SenderState.segmentsLeft, hdup.point, hp, hdup.base]
  · simp only [SenderState.roundsLeft, hdup.point, hp, hdup.retryRnd]
  · -- One duplicate more has been counted, and one ACK less is on its way.
    simp only [SenderState.patience, hdup.point, hp, hdup.duplicateAckCount, htoSender, hlength,
      List.length_map]
    omega
  · simp only [work, SenderPoint.work, hdup.point, hp, hdup.nextSeq, hreceiver, htoReceiver,
      htoSender, hlength, List.length_map]
    omega

omit [Double α] in
/-- Nobody can do anything but time out: nothing is on its way. -/
theorem Joint.Pipeline.quiet (h : s.Pipeline t segs ns cs) (hq : s.Quiet) :
    s.sender.point = .awaitAck ∧ s.sender.base.toNat < s.sender.nextSeq.toNat ∧
      s.receiver.point = .awaitDatagram ∧ ns = [] ∧ cs = [] := by
  obtain ⟨hruns, hhead, hsender, hreceiver⟩ := hq
  have hwaits : s.sender.point.waits = true := by
    rcases h.sender.point with hp | ⟨wnd, hp, _⟩ | ⟨hp, _⟩
    · simp [hp, SenderPoint.runs] at hruns
    · simp [hp, SenderPoint.runs] at hruns
    · rw [hp]
      rfl
  have hp := h.receiver.resolve_left hhead
  refine ⟨(h.sender.waits hwaits).1, (h.sender.waits hwaits).2, hp, ?_, ?_⟩
  · exact List.map_eq_nil_iff.1 (h.toReceiver.symm.trans (hreceiver hp))
  · exact List.map_eq_nil_iff.1 (h.toSender.symm.trans (hsender hwaits))

omit [Double α] in
/-- Back at `base`, the main loop starts over. -/
theorem Joint.Pipeline.rollback (h : s.Pipeline t segs ns cs) {cs' : List Nat}
    (hback : SenderState.Rollback s.sender s'.sender) (hp : s.sender.point = .awaitAck)
    (hretry : s.sender.retryRnd < t.sender.maxRetransmitRounds)
    (hreceiver : s'.receiver = s.receiver) (htoReceiver : s'.toReceiver = s.toReceiver)
    (htoSender : s'.toSender = cs'.map fun c => ackOf c t.advertisedWindow) :
    s'.Pipeline t segs ns cs' ∧ s'.Below t segs.length s := by
  refine ⟨⟨⟨hback.segs.trans h.sender.segs_eq, ?_, ?_, .inl hback.point⟩, ?_, ?_, ?_, ?_, ?_,
    htoSender, h.numbers_lt⟩, .inr ⟨?_, .inl ?_⟩⟩
  · rw [hback.base, hback.nextSeq]
  · rw [hback.nextSeq]
    exact h.sender.base_le.trans h.sender.nextSeq_le
  · rw [hreceiver]
    exact h.receiver
  · rw [hreceiver]
    exact h.window
  · rw [hreceiver]
    exact h.heard
  · rw [hreceiver]
    exact h.expectedSeq_le
  · rw [htoReceiver]
    exact h.toReceiver
  · simp only [SenderState.segmentsLeft, hback.point, hp, hback.base]
  · simp only [SenderState.roundsLeft, hback.point, hp, hback.retryRnd]
    omega

/-- The receiver, once it has heard from the sender, answers a timeout by its
    ACK. -/
theorem Joint.Pipeline.receiverTimesOut (h : s.Pipeline t segs [] [])
    (hknown : s.receiver.sender.isKnown = true) (hp : s.sender.point = .awaitAck)
    (hdup : s.sender.duplicateAckCount ≤ 2)
    (hs : s.step t (.receiverTimesOut false) = some s') :
    s'.Pipeline t segs [] [s.receiver.expectedSeq.toNat] ∧ s'.sender = s.sender ∧
      s'.receiver.expectedSeq = s.receiver.expectedSeq ∧ s'.Below t segs.length s := by
  obtain ⟨hpoint, rfl⟩ := Joint.step_receiverTimesOut hs
  have hreceive : s.receiver.receive false none =
      ({ s.receiver with point := .loopHead }, [(t.socket.toEndpoint, s.receiver.ackDatagram)]) := by
    rw [ReceiverState.receive]
    simp [hpoint, recvFrom, ReceiverState.sendCumulativeAck, h.heard hknown, t.socket.isKnown]
  have hnil : s.toSender = [] := h.toSender
  rw [Joint.receiverReads, hreceive]
  refine ⟨⟨h.sender, .inl rfl, h.window, h.heard, h.expectedSeq_le, h.toReceiver, ?_,
    h.numbers_lt⟩, rfl, rfl, .inr ⟨rfl, .inr ⟨rfl, .inl ?_⟩⟩⟩
  · rw [hnil, ReceiverState.ackDatagram_eq, h.window]
    simp
  · simp only [SenderState.patience, hp, hnil]
    simp
    omega

/-! ## The first phase -/

variable {slack : Nat} {lost : Bool}

omit [Double α] in
theorem Joint.Streams.base_le (h : s.Streams t segs slack ns cs) :
    s.sender.base.toNat ≤ s.receiver.expectedSeq.toNat := h.rising.le

omit [Double α] in
/-- The FIN phase starts once everything is acknowledged. -/
theorem Joint.Pipeline.finishing (h : s.Pipeline t segs ns cs)
    (hbase : s.sender.base.toNat = segs.length)
    (hle : s.sender.base.toNat ≤ s.receiver.expectedSeq.toNat)
    (hmax : 0 < t.sender.maxRetransmitRounds) (hsame : s.sender.Same s'.sender)
    (hpoint : s'.sender.point = .finHead 0) (hreceiver : s'.receiver = s.receiver)
    (htoReceiver : s'.toReceiver = s.toReceiver) (htoSender : s'.toSender = s.toSender) :
    s'.Finishing t segs lost where
  segs_eq := hsame.segs.trans h.sender.segs_eq
  point := ⟨0, .inl hpoint, le_rfl, hmax⟩
  expectedSeq := by
    have := h.expectedSeq_le
    rw [hreceiver]
    omega
  heard := by
    rw [hreceiver]
    exact h.heard
  toReceiver d hd := by
    rw [htoReceiver, h.toReceiver] at hd
    obtain ⟨n, hn, rfl⟩ := List.mem_map.1 hd
    exact .inl ⟨n, h.numbers_lt n hn, rfl⟩
  receiver := by
    refine .inl ⟨hreceiver ▸ h.receiver, fun d hd => ?_, ?_⟩
    · rw [htoSender, h.toSender] at hd
      obtain ⟨c, _, rfl⟩ := List.mem_map.1 hd
      exact not_looksLikeFinAck_ack _ _
    · rw [hpoint, SenderPoint.finsSent]
      split_ifs <;> omega

theorem Joint.Streams.senderAdvances (h : s.Streams t segs slack ns cs) (lost : Bool)
    (hfits : SenderState.Fits t.sender segs) (hmax : 0 < t.sender.maxRetransmitRounds)
    (hs : s.step t (.senderAdvances false true) = some s') :
    ((∃ ns', s'.Streams t segs slack ns' cs) ∨ s'.Finishing t segs lost) ∧
      s'.Below t segs.length s := by
  obtain ⟨⟨hreceiver, htoSender, hsame, hbelow⟩, hmove⟩ := h.toPipeline.senderAdvances hfits hs
  refine ⟨?_, hbelow⟩
  have hle := h.expectedSeq_le_nextSeq
  have hrising : Rising slack s'.sender.base.toNat cs s'.receiver.expectedSeq.toNat := by
    rw [hsame.base, hreceiver]
    exact h.rising
  rcases hmove with ⟨hnext, hpipe⟩ | ⟨w, hnext, hpipe⟩ | ⟨hbase, hpoint, htoReceiver⟩
  · refine .inl ⟨ns, hpipe, ?_, ?_, hrising, hsame.duplicateAckCount.trans h.duplicateAckCount,
      hsame.retryRnd.trans h.retryRnd⟩
    · rwa [hreceiver, hnext]
    · rw [hreceiver, hnext]
      exact h.numbers
  · refine .inl ⟨_, hpipe, ?_, ?_, hrising, hsame.duplicateAckCount.trans h.duplicateAckCount,
      hsame.retryRnd.trans h.retryRnd⟩
    · rw [hreceiver, hnext]
      exact hle.trans (Nat.le_succ _)
    · rw [hreceiver, hnext, Nat.succ_sub hle, List.range'_1_concat, List.map_append, h.numbers,
        Nat.add_sub_cancel' hle]
      rfl
  · exact .inr (h.toPipeline.finishing hbase h.base_le hmax hsame hpoint hreceiver htoReceiver
      htoSender)

theorem Joint.Streams.senderReceives (h : s.Streams t segs slack ns cs)
    (hfits : SenderState.Fits t.sender segs)
    (hs : s.step t (.senderReceives false) = some s') :
    (∃ slack' ≤ slack, ∃ cs', s'.Streams t segs slack' ns cs') ∧ s'.Below t segs.length s := by
  obtain ⟨c, cs', rfl, _, htoSender, hp, _, hsender, hreceiver, htoReceiver⟩ :=
    h.toPipeline.senderReceives hs
  -- Every ACK of this phase is news, and about a segment that has been sent.
  obtain ⟨hlt, slack', hslack, hrising⟩ : s.sender.base.toNat < c ∧
      ∃ slack' ≤ slack, Rising slack' c cs' s.receiver.expectedSeq.toNat := by
    rcases h.rising with ⟨hc, hr⟩ | ⟨hslack, hc, hr⟩
    · exact ⟨by omega, slack, le_rfl, hr⟩
    · exact ⟨by omega, 0, Nat.zero_le _, hr⟩
  have hc : c ≤ s.sender.nextSeq.toNat := hrising.le.trans h.expectedSeq_le_nextSeq
  have hN : s.sender.nextSeq.toNat ≤ s.sender.N.toNat := by
    rw [h.sender.N_toNat hfits]
    exact h.sender.nextSeq_le
  have hnew := SenderState.onAck_new t.sender hlt hc hN t.advertisedWindow
  rw [← hsender] at hnew
  obtain ⟨hpipe, hbelow⟩ := h.toPipeline.newAck hnew hc hp hlt hreceiver htoReceiver htoSender
  refine ⟨⟨slack', hslack, cs', hpipe, ?_, ?_, ?_, hnew.duplicateAckCount, hnew.retryRnd⟩, hbelow⟩
  · rw [hreceiver, hnew.nextSeq]
    exact h.expectedSeq_le_nextSeq
  · rw [hreceiver, hnew.nextSeq]
    exact h.numbers
  · rw [hreceiver, hnew.base]
    exact hrising

theorem Joint.Streams.receiverAdvances (h : s.Streams t segs slack ns cs)
    (hs : s.step t (.receiverAdvances false) = some s') :
    s'.Streams t segs slack ns cs ∧ s'.Below t segs.length s := by
  obtain ⟨hpipe, hsender, hseq, hbelow⟩ := h.toPipeline.receiverAdvances hs
  refine ⟨⟨hpipe, ?_, ?_, ?_, ?_, ?_⟩, hbelow⟩
  · rw [hsender, hseq]
    exact h.expectedSeq_le_nextSeq
  · rw [hsender, hseq]
    exact h.numbers
  · rw [hsender, hseq]
    exact h.rising
  · rw [hsender]
    exact h.duplicateAckCount
  · rw [hsender]
    exact h.retryRnd

theorem Joint.Streams.receiverReceives (h : s.Streams t segs slack ns cs) (hslack : slack ≤ 1)
    (hfits : SenderState.Fits t.sender segs) (hfit : ∀ seg ∈ segs, seg.length ≤ MAX_PAYLOAD)
    (hs : s.step t (.receiverReceives false) = some s') :
    (∃ ns' cs', s'.Streams t segs slack ns' cs') ∧ s'.Below t segs.length s := by
  obtain ⟨n, ns', e', rfl, he', hpipe, hsender, hseq, hbelow⟩ :=
    h.toPipeline.receiverReceives hfits hfit hs
  -- The segments come in order: this one is the one expected.
  have hnumbers := h.numbers
  have hlt : s.receiver.expectedSeq.toNat < s.sender.nextSeq.toNat := by
    by_contra hge
    rw [Nat.sub_eq_zero_of_le (not_lt.1 hge)] at hnumbers
    simp at hnumbers
  obtain ⟨k, hk⟩ := Nat.exists_eq_add_of_lt hlt
  rw [show s.sender.nextSeq.toNat - s.receiver.expectedSeq.toNat = k + 1 by omega,
    List.map_cons, List.range'_succ, List.cons.injEq] at hnumbers
  rw [if_pos hnumbers.1, hnumbers.1] at he'
  subst he'
  refine ⟨⟨ns', _, hpipe, ?_, ?_, ?_, ?_, ?_⟩, hbelow⟩
  · rw [hsender, hseq]
    exact hlt
  · rw [hsender, hseq, hnumbers.2]
    congr 1
    omega
  · rw [hsender, hseq]
    exact h.rising.append hslack
  · rw [hsender]
    exact h.duplicateAckCount
  · rw [hsender]
    exact h.retryRnd

omit [Double α] in
/-- If nobody can do anything but time out, the last ACK is missing. -/
theorem Joint.Streams.quiet (h : s.Streams t segs slack ns cs) (hslack : slack ≤ 1)
    (hq : s.Quiet) : slack = 1 ∧ ns = [] ∧ cs = [] ∧ s.sender.point = .awaitAck ∧
      s.receiver.expectedSeq.toNat = s.sender.base.toNat + 1 := by
  obtain ⟨hp, hlt, _, rfl, rfl⟩ := h.toPipeline.quiet hq
  obtain ⟨hle, hge⟩ := h.rising
  have hnumbers := congrArg List.length h.numbers
  have := h.expectedSeq_le_nextSeq
  simp only [List.map_nil, List.length_nil, List.length_range'] at hnumbers
  exact ⟨by omega, rfl, rfl, hp, by omega⟩

theorem Joint.Streams.senderTimesOut (h : s.Streams t segs slack ns cs) (hslack : slack ≤ 1)
    (hq : s.Quiet) (hmax : 0 < t.sender.maxRetransmitRounds)
    (hs : s.step t (.senderTimesOut false) = some s') :
    s'.Retransmits t segs [] [] ∧ slack = 1 ∧ s'.Below t segs.length s := by
  obtain ⟨rfl, rfl, rfl, hp, hseq⟩ := h.quiet hslack hq
  obtain ⟨hsender, hreceiver, htoReceiver, htoSender⟩ := Joint.timesOut hp hs
  have hretry : s.sender.retryRnd < t.sender.maxRetransmitRounds := by
    rw [h.retryRnd]
    exact hmax
  obtain ⟨hback, hdup, hlast⟩ := SenderState.onTimeout_rollback hretry
  rw [← hsender] at hback hdup hlast
  obtain ⟨hpipe, hbelow⟩ := h.toPipeline.rollback hback hp hretry hreceiver htoReceiver
    (htoSender.trans h.toSender)
  have hnext : s'.sender.nextSeq = s'.sender.base := by rw [hback.nextSeq, hback.base]
  have hruns := hpipe.sender.runs hnext
  refine ⟨⟨hpipe, .inr ⟨rfl, ?_, .inl ⟨rfl, hruns, hnext⟩⟩, ?_, .inl ?_, ?_, .inl ⟨hruns, hnext⟩⟩,
    rfl, hbelow⟩
  · rw [hreceiver, hback.base]
    exact hseq
  · rw [hdup, h.duplicateAckCount]
    decide
  · rw [hdup, h.duplicateAckCount]
  · rw [hback.retryRnd, h.retryRnd]
    omega

theorem Joint.Streams.receiverTimesOut (h : s.Streams t segs slack ns cs) (hslack : slack ≤ 1)
    (hq : s.Quiet) (hknown : s.receiver.sender.isKnown = true)
    (hs : s.step t (.receiverTimesOut false) = some s') :
    (∃ ns' cs', s'.Streams t segs slack ns' cs') ∧ s'.Below t segs.length s := by
  obtain ⟨rfl, rfl, rfl, hp, hseq⟩ := h.quiet hslack hq
  obtain ⟨hpipe, hsender, hseq', hbelow⟩ := h.toPipeline.receiverTimesOut hknown hp
    (by rw [h.duplicateAckCount]; decide) hs
  refine ⟨⟨_, _, hpipe, ?_, ?_, ?_, ?_, ?_⟩, hbelow⟩
  · rw [hsender, hseq']
    exact h.expectedSeq_le_nextSeq
  · rw [hsender, hseq']
    exact h.numbers
  · rw [hsender, hseq']
    exact .inl ⟨hseq, le_rfl, Nat.le_succ _⟩
  · rw [hsender]
    exact h.duplicateAckCount
  · rw [hsender]
    exact h.retryRnd

omit [Double α] in
/-- The loss of a segment. -/
theorem Joint.Streams.lose_toReceiver (h : s.Streams t segs 0 ns cs) {i : Nat}
    (hmax : 0 ≤ t.sender.maxRetransmitRounds) :
    Joint.Retransmits t segs (ns.eraseIdx i) cs { s with
      toReceiver := s.toReceiver.eraseIdx i } where
  sender := h.sender
  receiver := h.receiver
  window := h.window
  heard := h.heard
  expectedSeq_le := h.expectedSeq_le
  toReceiver := by
    show s.toReceiver.eraseIdx i = _
    rw [h.toReceiver, List.eraseIdx_map]
  toSender := h.toSender
  numbers_lt n hn := h.numbers_lt n (List.mem_of_mem_eraseIdx hn)
  aligned := .inl h.rising.tight
  duplicateAckCount := by
    show 0 ≤ s.sender.duplicateAckCount ∧ s.sender.duplicateAckCount ≤ 2
    rw [h.duplicateAckCount]
    decide
  lastDuplicateAck := .inl h.duplicateAckCount
  retryRnd := ⟨h.retryRnd.ge, h.retryRnd.trans_le hmax⟩
  progress := .inr (.inr (.inr h.retryRnd))

omit [Double α] in
/-- The loss of an ACK. -/
theorem Joint.Streams.lose_toSender (h : s.Streams t segs 0 ns cs) {i : Nat} :
    Joint.Streams t segs 1 ns (cs.eraseIdx i) { s with toSender := s.toSender.eraseIdx i } where
  sender := h.sender
  receiver := h.receiver
  window := h.window
  heard := h.heard
  expectedSeq_le := h.expectedSeq_le
  toReceiver := h.toReceiver
  toSender := by
    show s.toSender.eraseIdx i = _
    rw [h.toSender, List.eraseIdx_map]
  numbers_lt := h.numbers_lt
  expectedSeq_le_nextSeq := h.expectedSeq_le_nextSeq
  numbers := h.numbers
  rising := h.rising.eraseIdx i
  duplicateAckCount := h.duplicateAckCount
  retryRnd := h.retryRnd

/-! ## The second phase -/

omit [Double α] in
theorem Joint.Retransmits.base_le (h : s.Retransmits t segs ns cs) :
    s.sender.base.toNat ≤ s.receiver.expectedSeq.toNat := by
  rcases h.aligned with htight | ⟨_, hseq, _⟩
  · exact htight.le
  · rw [hseq]
    exact Nat.le_succ _

theorem Joint.Retransmits.senderAdvances (h : s.Retransmits t segs ns cs) (lost : Bool)
    (hfits : SenderState.Fits t.sender segs) (hmax : 0 < t.sender.maxRetransmitRounds)
    (hs : s.step t (.senderAdvances false true) = some s') :
    ((∃ ns', s'.Retransmits t segs ns' cs) ∨ s'.Finishing t segs lost) ∧
      s'.Below t segs.length s := by
  obtain ⟨⟨hreceiver, htoSender, hsame, hbelow⟩, hmove⟩ := h.toPipeline.senderAdvances hfits hs
  refine ⟨?_, hbelow⟩
  rcases hmove with ⟨hnext, hpipe⟩ | ⟨w, hnext, hpipe⟩ | ⟨hbase, hpoint, htoReceiver⟩
  · -- Nothing is sent: the sender still has to send the segment at `base`, if it had to.
    have hruns : s.sender.nextSeq = s.sender.base →
        s'.sender.point.runs = true ∧ s'.sender.nextSeq = s'.sender.base := by
      intro heq
      have heq' : s'.sender.nextSeq = s'.sender.base := by rw [hnext, hsame.base, heq]
      exact ⟨hpipe.sender.runs heq', heq'⟩
    refine .inl ⟨ns, hpipe, ?_, ?_, ?_, ?_, ?_⟩
    · rw [hreceiver, hsame.base]
      refine h.aligned.imp_right fun ⟨hcs, hseq, hns⟩ => ⟨hcs, hseq, hns.imp_left ?_⟩
      exact fun ⟨hns, _, heq⟩ => ⟨hns, hsame.base ▸ hruns heq⟩
    · rw [hsame.duplicateAckCount]
      exact h.duplicateAckCount
    · rw [hsame.duplicateAckCount, hsame.lastDuplicateAck, hsame.base]
      exact h.lastDuplicateAck
    · rw [hsame.retryRnd]
      exact h.retryRnd
    · rw [hreceiver, hsame.retryRnd]
      refine h.progress.imp (fun ⟨_, heq⟩ => hruns heq) ?_
      rw [hsame.base]
      exact id
  · -- The segment sent is the one at `base`, if that had to be sent.
    refine .inl ⟨_, hpipe, ?_, ?_, ?_, ?_, ?_⟩
    · rw [hreceiver, hsame.base]
      refine h.aligned.imp_right fun ⟨hcs, hseq, hns⟩ => ⟨hcs, hseq, .inr ?_⟩
      rcases hns with ⟨rfl, _, heq⟩ | ⟨w', rest, rfl⟩
      · exact ⟨w, [], by rw [heq]; rfl⟩
      · exact ⟨w', _, rfl⟩
    · rw [hsame.duplicateAckCount]
      exact h.duplicateAckCount
    · rw [hsame.duplicateAckCount, hsame.lastDuplicateAck, hsame.base]
      exact h.lastDuplicateAck
    · rw [hsame.retryRnd]
      exact h.retryRnd
    · rw [hreceiver, hsame.retryRnd, hsame.base]
      right
      rcases h.progress with ⟨_, heq⟩ | ⟨w', hw'⟩ | hprogress
      · exact .inl ⟨w, by rw [heq]; simp⟩
      · exact .inl ⟨w', List.mem_append_left _ hw'⟩
      · exact .inr hprogress
  · exact .inr (h.toPipeline.finishing hbase h.base_le hmax hsame hpoint hreceiver htoReceiver
      htoSender)

theorem Joint.Retransmits.receiverAdvances (h : s.Retransmits t segs ns cs)
    (hs : s.step t (.receiverAdvances false) = some s') :
    s'.Retransmits t segs ns cs ∧ s'.Below t segs.length s := by
  obtain ⟨hpipe, hsender, hseq, hbelow⟩ := h.toPipeline.receiverAdvances hs
  refine ⟨⟨hpipe, ?_, ?_, ?_, ?_, ?_⟩, hbelow⟩
  · rw [hsender, hseq]
    exact h.aligned
  · rw [hsender]
    exact h.duplicateAckCount
  · rw [hsender]
    exact h.lastDuplicateAck
  · rw [hsender]
    exact h.retryRnd
  · rw [hsender, hseq]
    exact h.progress

theorem Joint.Retransmits.receiverReceives (h : s.Retransmits t segs ns cs)
    (hfits : SenderState.Fits t.sender segs) (hfit : ∀ seg ∈ segs, seg.length ≤ MAX_PAYLOAD)
    (hs : s.step t (.receiverReceives false) = some s') :
    (∃ ns' cs', s'.Retransmits t segs ns' cs') ∧ s'.Below t segs.length s := by
  obtain ⟨n, ns', e', rfl, he', hpipe, hsender, hseq, hbelow⟩ :=
    h.toPipeline.receiverReceives hfits hfit hs
  have hle : s.receiver.expectedSeq.toNat ≤ e' ∧ e' ≤ s.receiver.expectedSeq.toNat + 1 := by
    split_ifs at he' <;> omega
  refine ⟨⟨ns', _, hpipe, ?_, ?_, ?_, ?_, ?_⟩, hbelow⟩
  · rw [hsender, hseq]
    left
    rcases h.aligned with htight | ⟨rfl, hseq', ⟨hns, _⟩ | ⟨w, rest, hns⟩⟩
    · exact htight.append hle.1 hle.2
    · cases hns
    · -- The segment at `base` is received again, and acknowledged again.
      cases hns
      rw [if_neg (by omega)] at he'
      exact ⟨by omega, by omega, rfl⟩
  · rw [hsender]
    exact h.duplicateAckCount
  · rw [hsender]
    exact h.lastDuplicateAck
  · rw [hsender]
    exact h.retryRnd
  · rw [hsender, hseq]
    have hbase := h.base_le
    rcases h.progress with hruns | ⟨w, hw⟩ | hlt | hretry
    · exact .inl hruns
    · rcases List.mem_cons.1 hw with rfl | hw
      · refine .inr (.inr (.inl ?_))
        split_ifs at he' <;> omega
      · exact .inr (.inl ⟨w, hw⟩)
    · exact .inr (.inr (.inl (by omega)))
    · exact .inr (.inr (.inr hretry))

theorem Joint.Retransmits.senderReceives (h : s.Retransmits t segs ns cs)
    (hfits : SenderState.Fits t.sender segs)
    (hafford : ∀ d ∈ s.toSender.head?, s.sender.Affords t.sender (readInto ACK_BUFFER_SIZE d))
    (hs : s.step t (.senderReceives false) = some s') :
    (∃ cs', s'.Retransmits t segs ns cs') ∧ s'.Below t segs.length s := by
  obtain ⟨c, cs', rfl, hd, htoSender, hp, hlt, hsender, hreceiver, htoReceiver⟩ :=
    h.toPipeline.senderReceives hs
  obtain ⟨hle, hge, htight⟩ : s.sender.base.toNat ≤ c ∧ c ≤ s.sender.base.toNat + 1 ∧
      Tight c cs' s.receiver.expectedSeq.toNat := by
    rcases h.aligned with htight | ⟨hcs, _⟩
    · exact htight
    · cases hcs
  rcases Nat.eq_or_lt_of_le hle with hc | hnewer
  · -- A duplicate.
    have hlast : s.sender.duplicateAckCount = 0 ∨
        s.sender.lastDuplicateAck = UInt32.ofNat c - 1 := by
      rw [← hc, UInt32.ofNat_toNat]
      exact h.lastDuplicateAck
    rcases SenderState.onAck_duplicate hc.ge hlast t.advertisedWindow with ⟨hcount, hdup⟩ |
      ⟨hcount, hback⟩
    · rw [← hsender] at hdup
      obtain ⟨hpipe, hbelow⟩ := h.toPipeline.duplicate hdup hcount h.duplicateAckCount.1 hp
        hreceiver htoReceiver (by rw [hd, htoSender]; simp) htoSender
      refine ⟨⟨cs', hpipe, .inl ?_, ?_, .inr ?_, ?_, ?_⟩, hbelow⟩
      · rw [hreceiver, hdup.base, hc]
        exact htight
      · rw [hdup.duplicateAckCount]
        have := h.duplicateAckCount.1
        omega
      · rw [hdup.lastDuplicateAck, hdup.base, ← hc, UInt32.ofNat_toNat]
      · rw [hdup.retryRnd]
        exact h.retryRnd
      · rw [hreceiver, hdup.base, hdup.retryRnd]
        refine .inr (h.progress.resolve_left ?_)
        simp [hp, SenderPoint.runs]
    · -- The third one: the sender can afford to go back to `base`.
      have hretry : s.sender.retryRnd < t.sender.maxRetransmitRounds := by
        have ha := hafford (ackOf c t.advertisedWindow) (by simp [hd])
        rw [SenderState.Affords, hp, ackOf, readInto_ack, deserializeHeader_packet] at ha
        exact ha ⟨SenderState.ackNum_lt_or_eq hc.ge,
          (hlast.resolve_left (by omega)).symm, by have := h.duplicateAckCount.2; omega⟩
      obtain ⟨hback, hzero⟩ := hback hretry
      rw [← hsender] at hback hzero
      obtain ⟨hpipe, hbelow⟩ := h.toPipeline.rollback hback hp hretry hreceiver htoReceiver
        htoSender
      have hnext : s'.sender.nextSeq = s'.sender.base := by rw [hback.nextSeq, hback.base]
      refine ⟨⟨cs', hpipe, .inl ?_, ?_, .inl hzero, ?_, .inl ⟨hpipe.sender.runs hnext, hnext⟩⟩,
        hbelow⟩
      · rw [hreceiver, hback.base, hc]
        exact htight
      · rw [hzero]
        decide
      · rw [hback.retryRnd]
        have := h.retryRnd.1
        omega
  · -- The ACK is news.
    have hN : s.sender.nextSeq.toNat ≤ s.sender.N.toNat := by
      rw [h.sender.N_toNat hfits]
      exact h.sender.nextSeq_le
    have hnew := SenderState.onAck_new t.sender hnewer (by omega) hN t.advertisedWindow
    rw [← hsender] at hnew
    obtain ⟨hpipe, hbelow⟩ := h.toPipeline.newAck hnew (by omega) hp hnewer hreceiver htoReceiver
      htoSender
    refine ⟨⟨cs', hpipe, .inl ?_, ?_, .inl hnew.duplicateAckCount, ?_, ?_⟩, hbelow⟩
    · rw [hreceiver, hnew.base]
      exact htight
    · rw [hnew.duplicateAckCount]
      decide
    · rw [hnew.retryRnd]
      exact ⟨le_rfl, h.retryRnd.1.trans h.retryRnd.2⟩
    · exact .inr (.inr (.inr hnew.retryRnd))

omit [Double α] in
/-- If nobody can do anything but time out, every ACK has been read, and the sender
    has not gone back to `base` yet. -/
theorem Joint.Retransmits.quiet (h : s.Retransmits t segs ns cs) (hq : s.Quiet) :
    ns = [] ∧ cs = [] ∧ s.sender.point = .awaitAck ∧ s.sender.retryRnd = 0 ∧
      s.receiver.expectedSeq.toNat = s.sender.base.toNat := by
  obtain ⟨hp, hlt, _, rfl, rfl⟩ := h.toPipeline.quiet hq
  have hwaits : s.sender.point.runs = true → False := by
    rw [hp]
    exact Bool.false_ne_true
  have hseq : s.receiver.expectedSeq.toNat = s.sender.base.toNat := by
    rcases h.aligned with htight | ⟨_, _, ⟨_, hruns, _⟩ | ⟨_, _, hns⟩⟩
    · exact htight
    · exact (hwaits hruns).elim
    · cases hns
  refine ⟨rfl, rfl, hp, ?_, hseq⟩
  rcases h.progress with ⟨hruns, _⟩ | ⟨_, hw⟩ | hlt' | hretry
  · exact (hwaits hruns).elim
  · cases hw
  · omega
  · exact hretry

theorem Joint.Retransmits.senderTimesOut (h : s.Retransmits t segs ns cs) (hq : s.Quiet)
    (hmax : 0 < t.sender.maxRetransmitRounds)
    (hs : s.step t (.senderTimesOut false) = some s') :
    s'.Retransmits t segs [] [] ∧ s'.Below t segs.length s := by
  obtain ⟨rfl, rfl, hp, hretry, hseq⟩ := h.quiet hq
  obtain ⟨hsender, hreceiver, htoReceiver, htoSender⟩ := Joint.timesOut hp hs
  have hlt : s.sender.retryRnd < t.sender.maxRetransmitRounds := hretry.trans_lt hmax
  obtain ⟨hback, hdup, hlast⟩ := SenderState.onTimeout_rollback hlt
  rw [← hsender] at hback hdup hlast
  obtain ⟨hpipe, hbelow⟩ := h.toPipeline.rollback hback hp hlt hreceiver htoReceiver
    (htoSender.trans h.toSender)
  have hnext : s'.sender.nextSeq = s'.sender.base := by rw [hback.nextSeq, hback.base]
  refine ⟨⟨hpipe, .inl ?_, ?_, ?_, ?_, .inl ⟨hpipe.sender.runs hnext, hnext⟩⟩, hbelow⟩
  · rw [hreceiver, hback.base]
    exact hseq
  · rw [hdup]
    exact h.duplicateAckCount
  · rw [hdup, hlast, hback.base]
    exact h.lastDuplicateAck
  · rw [hback.retryRnd, hretry]
    omega

theorem Joint.Retransmits.receiverTimesOut (h : s.Retransmits t segs ns cs) (hq : s.Quiet)
    (hknown : s.receiver.sender.isKnown = true)
    (hs : s.step t (.receiverTimesOut false) = some s') :
    (∃ ns' cs', s'.Retransmits t segs ns' cs') ∧ s'.Below t segs.length s := by
  obtain ⟨rfl, rfl, hp, hretry, hseq⟩ := h.quiet hq
  obtain ⟨hpipe, hsender, hseq', hbelow⟩ := h.toPipeline.receiverTimesOut hknown hp
    h.duplicateAckCount.2 hs
  refine ⟨⟨_, _, hpipe, .inl ?_, ?_, ?_, ?_, .inr (.inr (.inr ?_))⟩, hbelow⟩
  · rw [hsender, hseq']
    exact ⟨hseq.ge, hseq.trans_le (Nat.le_succ _), rfl⟩
  · rw [hsender]
    exact h.duplicateAckCount
  · rw [hsender]
    exact h.lastDuplicateAck
  · rw [hsender]
    exact h.retryRnd
  · rw [hsender]
    exact hretry

end

end HybridFtp
