import HybridFtp.Rdt.GoBackN

/-!
# What a transfer guarantees

The consequences of the refinement of an ordered stream, for the calls of
`sendData` and `receiveData`:

* `outData_eq_and_base_le`: the receiver has appended the segments in order, the
  sender counts no other as acknowledged, and a receiver that succeeds has all;
* `received_of_sent`: a sender that succeeds has a receiver that succeeded, as
  long as the FIN phase reads no damaged datagram with the flags of a FINACK.
  The FIN phase does not test the checksum, so that such a datagram ends it
  (`not_received_of_sent`).
-/

namespace HybridFtp

variable {α : Type} [Double α] {t : Transfer α} {s s' : Joint α} {segs : List Bytes}

/-! ## Safety of the receiver -/

omit [Double α] in
/-- What it means for the data that a joint state is as far as a stream. -/
theorem Joint.Refines.outData_eq (hsegs : segments t.sender.mss t.data = some segs)
    (hlen : segs.length < 2 ^ 32) {p : OrderedStream (numSegments segs).toNat}
    (h : s.Refines segs p) :
    s.receiver.outData = (segs.take s.receiver.expectedSeq.toNat).flatten ∧
      s.sender.base ≤ s.receiver.expectedSeq ∧
      (s.receiver.point = .returned true → s.receiver.outData = t.data) := by
  refine ⟨?_, ?_, fun hr => ?_⟩
  · rw [h.receiver.outData, h.receiver.expectedSeq]
  · rw [UInt32.le_iff_toNat_le, h.sender.base, h.receiver.expectedSeq]
    exact p.acknowledged_le
  · -- The stream is finished, and it is one of all the segments.
    have hn : (numSegments segs).toNat = segs.length := UInt32.toNat_ofNat_of_lt' hlen
    rw [h.receiver.outData, p.delivered_eq (h.receiver.finished.2 hr), hn, List.take_length,
      segments_flatten hsegs]

/-- In every reachable joint state, the receiver has appended exactly the segments
    before the one it expects, the sender has seen none acknowledged that was not
    appended, and a receiver that has returned `true` has the whole buffer. -/
theorem outData_eq_and_base_le (hmss : t.sender.mss ≤ 1564)
    (hsegs : segments t.sender.mss t.data = some segs)
    (hlen : segs.length + t.sender.maxWindowSegments.toNat < 2 ^ 32)
    (hs : t.machine.Reachable s) :
    s.receiver.outData = (segs.take s.receiver.expectedSeq.toNat).flatten ∧
      s.sender.base ≤ s.receiver.expectedSeq ∧
      (s.receiver.point = .returned true → s.receiver.outData = t.data) := by
  have hfit : ∀ seg ∈ segs, seg.length ≤ MAX_PAYLOAD := fun seg hseg =>
    (length_of_mem_segments hsegs hseg).trans hmss
  obtain ⟨p, hp⟩ := exists_refines hfit hsegs hs
  exact hp.outData_eq hsegs (by omega)

/-- A transfer of two bytes. -/
def greeting : Transfer ℚ where
  sender := {
    dest := { ip := "127.0.0.1", port := 5000 }
    mss := 1400
    initialCwnd := 1
    initialSsthresh := 16
    maxWindowSegments := 64
    maxRetransmitRounds := 10 }
  socket := { ip := "127.0.0.1", port := 5001, isKnown := by decide }
  advertisedWindow := 64
  data := [104, 105]

/-- The DATA segment and its ACK, up to the FIN. -/
def greetingData : List TransferEvent :=
  [.senderAdvances false true, .senderAdvances false true, .senderAdvances false true,
    .receiverAdvances false, .receiverReceives false]

/-- The ACK of the DATA segment and the FIN, up to the FINACK. -/
def greetingFin : List TransferEvent :=
  [.senderReceives false, .senderAdvances false true, .senderAdvances false true,
    .receiverAdvances false, .receiverReceives false]

/-- The transfer is received. -/
theorem outData_eq_and_base_le_greeting :
    ∃ s, greeting.machine.Reachable s ∧ s.receiver.point = .returned true ∧
      s.receiver.outData = [104, 105] := by
  obtain ⟨s, hs, hr⟩ := greeting.machine.exists_reachableBy_of_run (fun _ _ => True)
    (fun _ => id) (greetingData ++ greetingFin) (fun s => s.receiver.point = .returned true)
    (by decide +kernel)
  have hr := of_decide_eq_true hr
  exact ⟨s, hs, hr, (outData_eq_and_base_le (by decide)
    (rfl : segments greeting.sender.mss greeting.data = some [[104, 105]]) (by decide) hs).2.2 hr⟩

/-! ## Success of the sender -/

/-- A datagram that the FIN phase takes for a FINACK, whatever its checksum. -/
def LooksLikeFinAck (ackBuf : Bytes) : Prop :=
  CUSTOM_UDP_HEADER_SIZE ≤ ackBuf.length ∧
    hasFlag (deserializeHeader ackBuf) FLAG_FIN = true ∧
    hasFlag (deserializeHeader ackBuf) FLAG_ACK = true

instance (ackBuf : Bytes) : Decidable (LooksLikeFinAck ackBuf) :=
  inferInstanceAs (Decidable (_ ∧ _))

/-- What the FIN phase takes for a FINACK passes the checksum test it does not
    make. -/
def FinAckIntact (s : Joint α) : TransferEvent → Prop
  | .senderReceives _ => s.sender.point ≠ .awaitAck →
      ∀ d ∈ s.toSender.head?, LooksLikeFinAck (readInto ACK_BUFFER_SIZE d) →
        Verifies (readInto ACK_BUFFER_SIZE d)
  | _ => True

instance (s : Joint α) : DecidablePred (FinAckIntact s)
  | .senderReceives _ => inferInstanceAs (Decidable (_ → _))
  | .senderAdvances .. | .senderTimesOut _ | .receiverAdvances _ | .receiverTimesOut _
  | .receiverReceives _ | .faultToReceiver _ | .faultToSender _ => isTrue trivial

/-- Both sides read only datagrams that are what they seem to be: none cut short
    by the buffer of the receiver, and no damaged one in the FIN phase. -/
def ReadsIntact (s : Joint α) (e : TransferEvent) : Prop := ReadsWhole s e ∧ FinAckIntact s e

instance (s : Joint α) : DecidablePred (ReadsIntact s) := fun _ =>
  inferInstanceAs (Decidable (_ ∧ _))

theorem SenderState.success_of_advance {s s' : SenderState α} {cfg : RDTWindowSender α}
    {cancelled sendOk : Bool} {sent : List Bytes}
    (h : s.advance cfg cancelled sendOk = (s', sent)) (hr : s'.point = .returned true) :
    s.point = .returned true := by
  rcases SenderState.advance_cases h with ⟨_, hk⟩ | ⟨_, _, rfl⟩ | ⟨wnd, _, _, rfl, _⟩ |
    ⟨attempt, wnd, _, rfl, _⟩
  · exact hk.returned hr
  · cases hr
  · exact hr
  · cases hr

/-- `sendData` succeeds by reading what it takes for a FINACK. -/
theorem SenderState.success_of_receive {s : SenderState α} {cfg : RDTWindowSender α}
    {cancelled : Bool} {arrival : Received}
    (hr : (s.receive cfg cancelled arrival).point = .returned true) :
    s.point = .returned true ∨
      s.point ≠ .awaitAck ∧
        ∃ e d, arrival = some (e, d) ∧ LooksLikeFinAck (readInto ACK_BUFFER_SIZE d) := by
  rcases SenderState.receive_cases cfg cancelled arrival s with hk |
    ⟨_, _, _, _, _, _, _, _, _, _, _, _, hp⟩ | ⟨attempt, _, _, hp, hread, hlen, hfin, hack, _⟩
  · exact .inl (hk.returned hr)
  · rw [hp] at hr
    cases hr
  · obtain ⟨⟨_, d⟩, rfl, hd⟩ := Option.map_eq_some_iff.1 hread
    cases hd
    exact .inr ⟨by simp [hp], _, d, rfl, hlen, hfin, hack⟩

/-- An undamaged datagram with the flags of a FINACK comes from a receiver that
    has finished. -/
theorem ToSender.finished {n : Nat} {p : OrderedStream n} {d : Bytes} (h : ToSender p d)
    (hv : Verifies (readInto ACK_BUFFER_SIZE d))
    (hf : LooksLikeFinAck (readInto ACK_BUFFER_SIZE d)) : p.finished := by
  cases h with
  | damaged h => exact absurd hv h
  | ack k w h =>
    have hfin := hf.2.1
    rw [readInto_ack, deserializeHeader_packet, hasFlag_stamp, hasFlag_ackHeader_fin] at hfin
    cases hfin
  | finAck k w h => exact h

/-- A step after which `sendData` has succeeded, though it had not before, has
    read a FINACK of a receiver that has finished. -/
theorem finished_of_success_step {p : OrderedStream (numSegments segs).toNat}
    (h : s.Refines segs p) {e : TransferEvent} (he : FinAckIntact s e)
    (hs : s.step t e = some s') (hr : s'.sender.point = .returned true) :
    s.sender.point = .returned true ∨ p.finished := by
  cases e with
  | senderAdvances cancelled sendOk =>
    obtain ⟨_, _, ha, _, rfl⟩ := Joint.step_senderAdvances hs
    exact .inl (SenderState.success_of_advance ha hr)
  | senderTimesOut cancelled =>
    obtain ⟨_, rfl⟩ := Joint.step_senderTimesOut hs
    exact (SenderState.success_of_receive hr).imp_right fun ⟨_, _, _, hd, _⟩ => nomatch hd
  | senderReceives cancelled =>
    obtain ⟨d, rest, hd, _, rfl⟩ := Joint.step_senderReceives hs
    -- The call only succeeds on what looks like a FINACK.
    refine (SenderState.success_of_receive hr).imp_right fun ⟨hp, _, d', hd', hf⟩ => ?_
    cases hd'
    exact (h.toSender d (by simp [hd])).finished (he hp d (by simp [hd]) hf) hf
  | receiverAdvances cancelled =>
    obtain ⟨_, rfl⟩ := Joint.step_receiverAdvances hs
    exact .inl hr
  | receiverTimesOut cancelled =>
    obtain ⟨_, rfl⟩ := Joint.step_receiverTimesOut hs
    exact .inl hr
  | receiverReceives cancelled =>
    obtain ⟨_, _, _, _, rfl⟩ := Joint.step_receiverReceives hs
    exact .inl hr
  | faultToReceiver f =>
    obtain ⟨_, _, rfl⟩ := Joint.step_faultToReceiver hs
    exact .inl hr
  | faultToSender f =>
    obtain ⟨_, _, rfl⟩ := Joint.step_faultToSender hs
    exact .inl hr

/-- Along intact reads, a sender that has succeeded is one of a finished stream. -/
theorem exists_refines_of_intact (hsegs : segments t.sender.mss t.data = some segs)
    (hs : t.machine.ReachableBy ReadsIntact s) :
    ∃ p, s.Refines segs p ∧ (s.sender.point = .returned true → p.finished) := by
  refine Machine.ReachableBy.invariant
    (I := fun s => ∃ p, s.Refines segs p ∧ (s.sender.point = .returned true → p.finished)) hs ?_ ?_
  · intro s hs
    refine ⟨_, refines_init hsegs hs, fun hr => ?_⟩
    rw [Transfer.start_sender_point hs] at hr
    cases hr
  · rintro s e s' ⟨p, h, hfin⟩ ⟨hwhole, hintact⟩ hstep
    obtain ⟨p', hp', h'⟩ := refines_step h hwhole hstep
    exact ⟨p', h', fun hr => hp' ((finished_of_success_step h hintact hstep hr).elim hfin id)⟩

/-- If `sendData` succeeds, so has `receiveData`, with all the data, in every run
    whose steps read intact datagrams. -/
theorem received_of_sent (hsegs : segments t.sender.mss t.data = some segs)
    (hlen : segs.length < 2 ^ 32) (hs : t.machine.ReachableBy ReadsIntact s)
    (hr : s.sender.point = .returned true) :
    s.receiver.point = .returned true ∧ s.receiver.outData = t.data := by
  obtain ⟨p, h, hfin⟩ := exists_refines_of_intact hsegs hs
  have hret := h.receiver.finished.1 (hfin hr)
  exact ⟨hret, (h.outData_eq hsegs hlen).2.2 hret⟩

theorem received_of_sent_greeting :
    ∃ s, greeting.machine.ReachableBy ReadsIntact s ∧ s.sender.point = .returned true ∧
      s.receiver.point = .returned true ∧ s.receiver.outData = [104, 105] := by
  obtain ⟨s, hs, hr⟩ := greeting.machine.exists_reachableBy_of_run ReadsIntact (fun _ => id)
    (greetingData ++ greetingFin ++ [.senderReceives false])
    (fun s => s.sender.point = .returned true) (by decide +kernel)
  have hr := of_decide_eq_true hr
  exact ⟨s, hs, hr, received_of_sent
    (rfl : segments greeting.sender.mss greeting.data = some [[104, 105]]) (by decide) hs hr⟩

/-- The ACK of the DATA segment, with the FIN flag set by an error of transmission
    that the checksum shows. -/
def greetingDamagedAck : Bytes := (packet (ackHeader 0 64) []).set 14 (FLAG_FIN ||| FLAG_ACK)

/-- A second copy of the last ACK, damaged so that it has the flags of a FINACK,
    makes `sendData` succeed before `receiveData` has seen a FIN. -/
theorem not_received_of_sent :
    ¬∀ (t : Transfer ℚ) (s : Joint ℚ), t.machine.Reachable s →
      s.sender.point = .returned true →
        s.receiver.point = .returned true ∧ s.receiver.outData = t.data := by
  intro h
  obtain ⟨s, hs, hr⟩ := greeting.machine.exists_reachableBy_of_run (fun _ _ => True)
    (fun _ => id)
    (greetingData ++ [.faultToSender (.duplicate 0), .senderReceives false,
      .senderAdvances false true, .senderAdvances false true,
      .faultToSender (.damage 0 greetingDamagedAck), .senderReceives false])
    (fun s => s.sender.point = .returned true ∧ s.receiver.point ≠ .returned true)
    (by decide +kernel)
  obtain ⟨hsender, hreceiver⟩ := of_decide_eq_true hr
  exact hreceiver (h greeting s hs hsender).1

end HybridFtp
