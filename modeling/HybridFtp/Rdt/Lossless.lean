import HybridFtp.Rdt.SingleLoss

/-!
# Transfers without a loss

One transfer over a network that delivers every datagram once and in order, where
nobody times out as long as anything else can happen.

* `Unfailing`: the steps over such a network;
* `SenderState.Steady`: every segment is sent once, and the window grows by one ACK
  after the other;
* `Joint.Closing`: the FIN, and its FINACK;
* `lossless`: however the steps are ordered, both calls succeed, no segment is sent
  twice, and the congestion window depends on the number of segments only.
-/

namespace HybridFtp

variable {α : Type} [Double α] {t : Transfer α} {segs : List Bytes} {s s' : Joint α}

/-- Nobody cancels, sending does not fail, nothing is lost, and a `recvFrom` times
    out only if nothing else can happen. -/
def Unfailing (s : Joint α) : TransferEvent → Prop
  | .senderAdvances cancelled sendOk => cancelled = false ∧ sendOk = true
  | .senderReceives cancelled | .receiverAdvances cancelled | .receiverReceives cancelled =>
    cancelled = false
  | .senderTimesOut cancelled | .receiverTimesOut cancelled => cancelled = false ∧ s.Quiet
  | .faultToReceiver _ | .faultToSender _ => False

/-! ## The sender -/

namespace SenderState

/-- The window after the ACKs of `n` segments, none of which has been sent twice. -/
def windowAfter (cfg : RDTWindowSender α) (n : Nat) : α :=
  (grow cfg cfg.initialSsthresh)^[n] cfg.initialCwnd

/-- Every segment is sent once, and the window has grown by one ACK after the other. -/
structure Steady (cfg : RDTWindowSender α) (s : SenderState α) : Prop where
  totalTimeouts : s.totalTimeouts = 0
  totalPacketsSent : s.totalPacketsSent = s.nextSeq
  ssthresh : s.ssthresh = cfg.initialSsthresh
  cwnd : s.cwnd = windowAfter cfg s.base.toNat

variable {cfg : RDTWindowSender α} {s s' : SenderState α}

theorem steady_init {data : Bytes} (hs : SenderState.init cfg data = some s) : s.Steady cfg := by
  obtain ⟨segs, _, rfl⟩ := Option.map_eq_some_iff.1 hs
  exact ⟨rfl, rfl, rfl, rfl⟩

theorem Steady.advance (h : s.Steady cfg) {cancelled sendOk : Bool} {sent : List Bytes}
    (ha : s.advance cfg cancelled sendOk = (s', sent)) : s'.Steady cfg := by
  rw [SenderState.advance] at ha
  split at ha
  · split_ifs at ha <;> cases ha
    · exact ⟨h.totalTimeouts, h.totalPacketsSent, h.ssthresh, h.cwnd⟩
    · exact ⟨h.totalTimeouts, h.totalPacketsSent, h.ssthresh, h.cwnd⟩
    · exact ⟨h.totalTimeouts, h.totalPacketsSent, h.ssthresh, h.cwnd⟩
  · split_ifs at ha <;> cases ha
    · exact ⟨h.totalTimeouts, congrArg (· + 1) h.totalPacketsSent, h.ssthresh, h.cwnd⟩
    · exact ⟨h.totalTimeouts, h.totalPacketsSent, h.ssthresh, h.cwnd⟩
    · exact ⟨h.totalTimeouts, h.totalPacketsSent, h.ssthresh, h.cwnd⟩
  · split_ifs at ha <;> cases ha
    · exact ⟨h.totalTimeouts, h.totalPacketsSent, h.ssthresh, h.cwnd⟩
    · exact ⟨h.totalTimeouts, h.totalPacketsSent, h.ssthresh, h.cwnd⟩
    · exact ⟨h.totalTimeouts, h.totalPacketsSent, h.ssthresh, h.cwnd⟩
  · cases ha
    exact h
  · cases ha
    exact h
  · cases ha
    exact h

omit [Double α] in
theorem noteWindow_eq (rxWindow : UInt16) (s : SenderState α) :
    ∃ recvWindow, s.noteWindow rxWindow = { s with recvWindow } := by
  rw [noteWindow]
  split_ifs
  · exact ⟨_, rfl⟩
  · exact ⟨s.recvWindow, rfl⟩

/-- The ACK of the segment at `base` grows the window once. -/
theorem Steady.onAck (h : s.Steady cfg) {c : Nat} (hc : c = s.base.toNat + 1)
    (hnext : c ≤ s.nextSeq.toNat) (hN : s.nextSeq.toNat ≤ s.N.toNat) (w : UInt16) :
    (s.onAck cfg (UInt32.ofNat c - 1) w).Steady cfg := by
  have hlt : c < 2 ^ 32 := hnext.trans_lt s.nextSeq.toNat_lt
  have hack : UInt32.ofNat c - 1 = s.base := by
    rw [← UInt32.toNat_inj, toNat_pred (by omega) hlt]
    omega
  have hone : (s.base + 1 - s.base).toNat = 1 := by
    rw [UInt32.add_comm, UInt32.add_sub_cancel]
    rfl
  have hnew : s.base ≤ s.base ∧ s.base < s.nextSeq ∧ s.base < s.N := by
    rw [UInt32.lt_iff_toNat_lt, UInt32.lt_iff_toNat_lt]
    exact ⟨UInt32.le_refl _, by omega, by omega⟩
  have hsucc : (s.base + 1).toNat = s.base.toNat + 1 := by
    rw [UInt32.toNat_add]
    exact Nat.mod_eq_of_lt (by simp; omega)
  obtain ⟨recvWindow, hnote⟩ := noteWindow_eq w s
  have honAck : s.onAck cfg (UInt32.ofNat c - 1) w =
      { s with recvWindow }.onNewAck cfg s.base := by
    rw [SenderState.onAck, hack, hnote]
    exact if_pos hnew
  rw [honAck]
  refine ⟨h.totalTimeouts, h.totalPacketsSent, h.ssthresh, ?_⟩
  show (grow cfg s.ssthresh)^[(s.base + 1 - s.base).toNat] s.cwnd = windowAfter cfg (s.base + 1).toNat
  rw [hone, hsucc, h.ssthresh, h.cwnd, windowAfter, windowAfter,
    Function.iterate_succ_apply' _ s.base.toNat]
  rfl

end SenderState

/-! ## The FIN phase -/

/-- The datagrams of the FIN phase, of which there is one at a time. -/
structure Joint.Closing (t : Transfer α) (segs : List Bytes) (s : Joint α) : Prop where
  segs_eq : s.sender.segs = segs
  base : s.sender.base.toNat = segs.length
  nextSeq : s.sender.nextSeq.toNat = segs.length
  expectedSeq : s.receiver.expectedSeq.toNat = segs.length
  heard : s.receiver.sender.isKnown = true → s.receiver.sender = t.socket.toEndpoint
  stage : (s.receiver.point = .loopHead ∨ s.receiver.point = .awaitDatagram) ∧ s.toSender = [] ∧
      (s.sender.point = .finHead 0 ∧ s.toReceiver = [] ∨
        s.sender.point = .awaitFinAck 0 ∧ ∃ n w, s.toReceiver = [sendFIN n w]) ∨
    s.receiver.point = .returned true ∧ s.sender.point = .awaitFinAck 0 ∧ s.toReceiver = [] ∧
      ∃ n w, s.toSender = [packet (finAckHeader n w) []]

omit [Double α] in
/-- Nothing is missing: one FIN is enough. -/
theorem Joint.Closing.finishing (h : s.Closing t segs) (hmax : 0 < t.sender.maxRetransmitRounds) :
    s.Finishing t segs false where
  segs_eq := h.segs_eq
  point := by
    rcases h.stage with ⟨_, _, ⟨hp, _⟩ | ⟨hp, _⟩⟩ | ⟨_, hp, _⟩
    · exact ⟨0, .inl hp, le_rfl, hmax⟩
    · exact ⟨0, .inr hp, le_rfl, hmax⟩
    · exact ⟨0, .inr hp, le_rfl, hmax⟩
  expectedSeq := h.expectedSeq
  heard := h.heard
  toReceiver d hd := by
    rcases h.stage with ⟨_, _, ⟨_, hnil⟩ | ⟨_, n, w, hfin⟩⟩ | ⟨_, _, hnil, _⟩
    · rw [hnil] at hd
      cases hd
    · rw [hfin] at hd
      exact .inr ⟨n, w, List.mem_singleton.1 hd⟩
    · rw [hnil] at hd
      cases hd
  receiver := by
    rcases h.stage with ⟨hrunning, hnil, hsent⟩ | ⟨hreturned, _, _, n, w, hfin⟩
    · refine .inl ⟨hrunning, by simp [hnil], ?_⟩
      rcases hsent with ⟨hp, hflight⟩ | ⟨hp, n, w, hflight⟩
      · rw [hp, hflight]
        rfl
      · rw [hp, hflight]
        simp [SenderPoint.finsSent, isFin_sendFIN]
    · exact .inr ⟨hreturned, _, by rw [hfin]; exact List.mem_singleton_self _,
        looksLikeFinAck_finAck n w⟩

omit [Double α] in
theorem Joint.Closing.not_quiet (h : s.Closing t segs) : ¬s.Quiet := by
  rintro ⟨hruns, hhead, hsender, hreceiver⟩
  rcases h.stage with ⟨hrunning, _, ⟨hp, _⟩ | ⟨_, n, w, hflight⟩⟩ | ⟨_, hp, _, n, w, hflight⟩
  · simp [hp, SenderPoint.runs] at hruns
  · rw [hreceiver (hrunning.resolve_left hhead)] at hflight
    cases hflight
  · rw [hsender (by rw [hp]; rfl)] at hflight
    cases hflight

/-- How a transfer without a loss ends. -/
structure Joint.Smooth (t : Transfer α) (segs : List Bytes) (s : Joint α) : Prop where
  sender : s.sender.point = .returned true
  receiver : s.receiver.point = .returned true
  segs_eq : s.sender.segs = segs
  totalTimeouts : s.sender.totalTimeouts = 0
  totalPacketsSent : s.sender.totalPacketsSent.toNat = segs.length
  cwnd : s.sender.cwnd = SenderState.windowAfter t.sender segs.length

section

variable {e : TransferEvent}

/-- The FIN is sent, received and answered, and the FINACK is received. -/
theorem Joint.Closing.step (h : s.Closing t segs) (hsteady : s.sender.Steady t.sender)
    (hlen : segs.length < 2 ^ 32) (hfit : ∀ seg ∈ segs, seg.length ≤ MAX_PAYLOAD)
    (hmax : 0 < t.sender.maxRetransmitRounds) (hallowed : Unfailing s e)
    (hs : s.step t e = some s') :
    s'.Smooth t segs ∨
      (s'.Closing t segs ∧ s'.sender.Steady t.sender) ∧ s'.Below t segs.length s := by
  have hfinishing := h.finishing hmax
  cases e with
  | senderAdvances cancelled sendOk =>
    obtain ⟨rfl, rfl⟩ := hallowed
    refine .inr ⟨?_, (hfinishing.senderAdvances hs).2⟩
    obtain ⟨sender, sent, ha, hruns, rfl⟩ := Joint.step_senderAdvances hs
    refine ⟨?_, hsteady.advance ha⟩
    rcases h.stage with ⟨hrunning, hnil, ⟨hp, hflight⟩ | ⟨hp, _⟩⟩ | ⟨_, hp, _⟩
    · rw [SenderState.advance_finHead hp hmax] at ha
      obtain ⟨rfl, rfl⟩ := ha
      exact ⟨h.segs_eq, h.base, h.nextSeq, h.expectedSeq, h.heard, .inl ⟨hrunning, hnil,
        .inr ⟨rfl, _, _, by rw [hflight, List.nil_append]⟩⟩⟩
    · simp [hp, SenderPoint.runs] at hruns
    · simp [hp, SenderPoint.runs] at hruns
  | senderReceives cancelled =>
    obtain rfl : cancelled = false := hallowed
    left
    obtain ⟨d, rest, hd, hwaits, rfl⟩ := Joint.step_senderReceives hs
    rcases h.stage with ⟨_, hnil, _⟩ | ⟨hreturned, hp, _, n, w, hfin⟩
    · rw [hnil] at hd
      cases hd
    · rw [hfin] at hd
      cases hd
      rw [Joint.senderReads, SenderState.receive_awaitFinAck hp,
        if_pos (looksLikeFinAck_finAck n w)]
      refine ⟨rfl, hreturned, h.segs_eq, hsteady.totalTimeouts, ?_, ?_⟩
      · show s.sender.totalPacketsSent.toNat = segs.length
        rw [hsteady.totalPacketsSent, h.nextSeq]
      · show s.sender.cwnd = _
        rw [hsteady.cwnd, h.base]
  | receiverAdvances cancelled =>
    obtain rfl : cancelled = false := hallowed
    refine .inr ⟨?_, (hfinishing.receiverAdvances hs).2⟩
    obtain ⟨hpoint, rfl⟩ := Joint.step_receiverAdvances hs
    have hadvance : s.receiver.advance false = { s.receiver with point := .awaitDatagram } := by
      simp [ReceiverState.advance, hpoint]
    rw [hadvance]
    refine ⟨⟨h.segs_eq, h.base, h.nextSeq, h.expectedSeq, h.heard, ?_⟩, hsteady⟩
    rcases h.stage with ⟨_, hrest⟩ | ⟨hreturned, _⟩
    · exact .inl ⟨.inr rfl, hrest⟩
    · simp [hpoint] at hreturned
  | receiverReceives cancelled =>
    obtain rfl : cancelled = false := hallowed
    refine .inr ⟨?_, (hfinishing.receiverReceives hlen hfit hs).2⟩
    obtain ⟨d, rest, hd, hpoint, rfl⟩ := Joint.step_receiverReceives hs
    rcases h.stage with ⟨_, hnil, ⟨_, hflight⟩ | ⟨hp, n, w, hflight⟩⟩ | ⟨hreturned, _⟩
    · rw [hflight] at hd
      cases hd
    · rw [hflight] at hd
      cases hd
      rw [Joint.receiverReads, ReceiverState.receive_sendFIN hpoint]
      refine ⟨⟨h.segs_eq, h.base, h.nextSeq, h.expectedSeq, fun _ => rfl, .inr ⟨rfl, hp, rfl, n,
        s.receiver.advertisedWindow, ?_⟩⟩, hsteady⟩
      simp [hnil]
    · simp [hpoint] at hreturned
  | senderTimesOut cancelled => exact absurd hallowed.2 h.not_quiet
  | receiverTimesOut cancelled => exact absurd hallowed.2 h.not_quiet
  | faultToReceiver f => exact hallowed.elim
  | faultToSender f => exact hallowed.elim

/-! ## Every run -/

/-- The phase of a run. -/
inductive Joint.Lossless (t : Transfer α) (segs : List Bytes) (s : Joint α) : Prop
  | streams {ns : List (Nat × UInt16)} {cs : List Nat} :
      s.Streams t segs 0 ns cs → s.sender.Steady t.sender → Lossless t segs s
  | closing : s.Closing t segs → s.sender.Steady t.sender → Lossless t segs s

omit [Double α] in
/-- Once everything is acknowledged, nothing is on its way. -/
theorem Joint.Streams.closing {ns : List (Nat × UInt16)} {cs : List Nat}
    (h : s.Streams t segs 0 ns cs) (hbase : s.sender.base.toNat = segs.length)
    (hsame : s.sender.Same s'.sender) (hnext : s'.sender.nextSeq = s.sender.nextSeq)
    (hpoint : s'.sender.point = .finHead 0) (hreceiver : s'.receiver = s.receiver)
    (htoReceiver : s'.toReceiver = s.toReceiver) (htoSender : s'.toSender = s.toSender) :
    s'.Closing t segs := by
  have hnextSeq : s.sender.nextSeq.toNat = segs.length :=
    Nat.le_antisymm h.sender.nextSeq_le (hbase ▸ h.sender.base_le)
  have hexpected : s.receiver.expectedSeq.toNat = segs.length :=
    Nat.le_antisymm h.expectedSeq_le (hbase ▸ h.base_le)
  obtain rfl : cs = [] := by
    cases cs with
    | nil => rfl
    | cons c cs =>
      obtain ⟨hc, hr⟩ := h.rising.resolve_right (by simp)
      have := hr.le
      omega
  obtain rfl : ns = [] := by
    have hnumbers := congrArg List.length h.numbers
    rw [List.length_map, List.length_range', hnextSeq, hexpected, Nat.sub_self] at hnumbers
    exact List.eq_nil_of_length_eq_zero hnumbers
  refine ⟨hsame.segs.trans h.sender.segs_eq, by rw [hsame.base, hbase], by rw [hnext, hnextSeq],
    by rw [hreceiver, hexpected], ?_, .inl ⟨?_, htoSender.trans h.toSender,
      .inl ⟨hpoint, htoReceiver.trans h.toReceiver⟩⟩⟩
  · rw [hreceiver]
    exact h.heard
  · rw [hreceiver]
    exact h.receiver

/-- Segments are sent one after the other, and each ACK is about the next one. -/
theorem Joint.Lossless.of_streams {ns : List (Nat × UInt16)} {cs : List Nat}
    (h : s.Streams t segs 0 ns cs) (hsteady : s.sender.Steady t.sender)
    (hfits : SenderState.Fits t.sender segs) (hfit : ∀ seg ∈ segs, seg.length ≤ MAX_PAYLOAD)
    (hmax : 0 < t.sender.maxRetransmitRounds) (hallowed : Unfailing s e)
    (hs : s.step t e = some s') :
    s'.Lossless t segs ∧ s'.Below t segs.length s := by
  cases e with
  | senderAdvances cancelled sendOk =>
    obtain ⟨rfl, rfl⟩ := hallowed
    obtain ⟨hphase, hbelow⟩ := h.senderAdvances false hfits hmax hs
    obtain ⟨⟨hreceiver, htoSender, hsame, _⟩, _⟩ := h.toPipeline.senderAdvances hfits hs
    obtain ⟨sender, sent, ha, hruns, rfl⟩ := Joint.step_senderAdvances hs
    have hsteady' := hsteady.advance ha
    refine ⟨?_, hbelow⟩
    rcases hphase with ⟨_, h'⟩ | h'
    · exact .streams h' hsteady'
    · obtain ⟨_, hpoint, _⟩ := h'.point
      -- The FIN phase is entered only at the head of the main loop.
      rcases h.sender.advance hfits hruns ha with ⟨_, _, rfl, _⟩ | ⟨_, hbase, rfl, rfl⟩ |
        ⟨_, hp, _, _, rfl, _⟩ | ⟨_, _, rfl, _⟩
      · simp at hpoint
      · exact .closing (h.closing hbase hsame rfl rfl hreceiver (List.append_nil _) htoSender)
          hsteady'
      · simp [hp] at hpoint
      · simp at hpoint
  | senderReceives cancelled =>
    obtain rfl : cancelled = false := hallowed
    obtain ⟨⟨slack, hslack, _, h'⟩, hbelow⟩ := h.senderReceives hfits hs
    obtain ⟨c, cs, rfl, _, _, _, _, hsender, _⟩ := h.toPipeline.senderReceives hs
    obtain rfl := Nat.le_zero.1 hslack
    obtain ⟨hc, hr⟩ := h.rising.resolve_right (by simp)
    refine ⟨.streams h' ?_, hbelow⟩
    rw [hsender]
    refine hsteady.onAck hc (hr.le.trans h.expectedSeq_le_nextSeq) ?_ _
    rw [h.sender.N_toNat hfits]
    exact h.sender.nextSeq_le
  | receiverAdvances cancelled =>
    obtain rfl : cancelled = false := hallowed
    obtain ⟨h', hbelow⟩ := h.receiverAdvances hs
    obtain ⟨_, rfl⟩ := Joint.step_receiverAdvances hs
    exact ⟨.streams h' hsteady, hbelow⟩
  | receiverReceives cancelled =>
    obtain rfl : cancelled = false := hallowed
    obtain ⟨⟨_, _, h'⟩, hbelow⟩ := h.receiverReceives (Nat.zero_le _) hfits hfit hs
    obtain ⟨_, _, _, _, rfl⟩ := Joint.step_receiverReceives hs
    exact ⟨.streams h' hsteady, hbelow⟩
  | senderTimesOut cancelled =>
    exact absurd (h.quiet (Nat.zero_le _) hallowed.2).1 (by decide)
  | receiverTimesOut cancelled =>
    exact absurd (h.quiet (Nat.zero_le _) hallowed.2).1 (by decide)
  | faultToReceiver f => exact hallowed.elim
  | faultToSender f => exact hallowed.elim

/-- Unless all that is left is to time out, something else can happen. -/
theorem Joint.exists_step_of_not_quiet (hq : ¬s.Quiet) :
    ∃ e s', Unfailing s e ∧ s.step t e = some s' := by
  by_cases hruns : s.sender.point.runs = true
  · exact ⟨.senderAdvances false true, _, ⟨rfl, rfl⟩, if_pos hruns⟩
  by_cases hhead : s.receiver.point = .loopHead
  · exact ⟨.receiverAdvances false, _, rfl, if_pos hhead⟩
  by_cases hsender : s.sender.point.waits = true → s.toSender = []
  · by_cases hreceiver : s.receiver.point = .awaitDatagram → s.toReceiver = []
    · exact absurd ⟨Bool.eq_false_iff.2 hruns, hhead, hsender, hreceiver⟩ hq
    · obtain ⟨hp, hne⟩ := Classical.not_imp.1 hreceiver
      obtain ⟨d, rest, hd⟩ := List.exists_cons_of_ne_nil hne
      obtain ⟨s', hs⟩ := Joint.exists_step_receiverReceives (t := t) hd hp
      exact ⟨.receiverReceives false, s', rfl, hs⟩
  · obtain ⟨hp, hne⟩ := Classical.not_imp.1 hsender
    obtain ⟨d, rest, hd⟩ := List.exists_cons_of_ne_nil hne
    obtain ⟨s', hs⟩ := Joint.exists_step_senderReceives (t := t) hd hp
    exact ⟨.senderReceives false, s', rfl, hs⟩

/-- Nobody has to wait for a timeout. -/
theorem Joint.Lossless.not_quiet (h : s.Lossless t segs) : ¬s.Quiet := by
  intro hq
  cases h with
  | streams h _ => exact absurd (h.quiet (Nat.zero_le _) hq).1 (by decide)
  | closing h _ => exact h.not_quiet hq

theorem Joint.lossless_start (hsegs : segments t.sender.mss t.data = some segs)
    (hs : t.start = some s) : s.Lossless t segs := by
  obtain ⟨sender, hsender, rfl⟩ := Option.map_eq_some_iff.1 hs
  exact .streams (OneLoss.streams_start hsegs hs) (SenderState.steady_init hsender)

/-- Nothing keeps a run from its end, wherever it has got to. -/
theorem Joint.Lossless.inevitable (h : s.Lossless t segs) (hreach : t.machine.Reachable s)
    (hmss : t.sender.mss ≤ 1564) (hsegs : segments t.sender.mss t.data = some segs)
    (hfits : segs.length + max 1 t.sender.maxWindowSegments.toNat < 2 ^ 32)
    (hmax : 0 < t.sender.maxRetransmitRounds) :
    t.machine.Inevitable Unfailing (fun _ _ => True)
      (fun s => s.Smooth t segs ∧ s.receiver.outData = t.data) s := by
  have hfit : ∀ seg ∈ segs, seg.length ≤ MAX_PAYLOAD := fun seg hseg =>
    (length_of_mem_segments hsegs hseg).trans hmss
  have hlen := SenderState.Fits.length_lt hfits
  refine Machine.Inevitable.of_rank (Joint.below_wf t segs.length) id
    (I := fun s => s.Lossless t segs ∧ t.machine.Reachable s)
    (fun s h _ => Joint.exists_step_of_not_quiet h.1.not_quiet) ?_ ⟨h, hreach⟩
  rintro s e s' ⟨h, hreach⟩ hallowed - hstep
  have hreach' := hreach.tail trivial hstep
  cases h with
  | streams h hsteady =>
    obtain ⟨h', hbelow⟩ := Joint.Lossless.of_streams h hsteady hfits hfit hmax hallowed hstep
    exact .inr ⟨⟨h', hreach'⟩, hbelow⟩
  | closing h hsteady =>
    rcases h.step hsteady hlen hfit hmax hallowed hstep with h' | ⟨⟨h', hsteady'⟩, hbelow⟩
    · obtain ⟨p, hp⟩ := exists_refines hfit hsegs hreach'
      exact .inl ⟨h', (hp.outData_eq hsegs hlen).2.2 h'.receiver⟩
    · exact .inr ⟨⟨.closing h' hsteady', hreach'⟩, hbelow⟩

end

/-- Over a network that loses nothing, every run ends with the success of both calls and
    all data received. Each segment has been sent once, nobody has timed out, and the
    congestion window has grown by one ACK for each segment. -/
theorem lossless (hmss : t.sender.mss ≤ 1564) (hsegs : segments t.sender.mss t.data = some segs)
    (hfits : segs.length + max 1 t.sender.maxWindowSegments.toNat < 2 ^ 32)
    (hmax : 0 < t.sender.maxRetransmitRounds) (hs : t.start = some s) :
    t.machine.Inevitable Unfailing (fun _ _ => True)
      (fun s => s.Smooth t segs ∧ s.receiver.outData = t.data) s :=
  (Joint.lossless_start hsegs hs).inevitable ⟨s, hs, .refl⟩ hmss hsegs hfits hmax

/-- The transfer of two bytes, in whatever order its steps are taken. -/
theorem lossless_greeting : ∃ s, greeting.start = some s ∧
    greeting.machine.Inevitable Unfailing (fun _ _ => True)
      (fun s => s.Smooth greeting [[104, 105]] ∧ s.receiver.outData = [104, 105]) s := by
  obtain ⟨s, hs⟩ : ∃ s, greeting.start = some s := ⟨_, rfl⟩
  exact ⟨s, hs, lossless (by decide)
    (rfl : segments greeting.sender.mss greeting.data = some [[104, 105]]) (by decide) (by decide) hs⟩

end HybridFtp
