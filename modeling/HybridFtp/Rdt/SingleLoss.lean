import HybridFtp.Rdt.Retransmission

/-!
# A single loss

* `Joint.Finishing`: every step keeps the FIN phase, or ends it with the success
  of both sides;
* `delivered_of_affordable`: so every run of affordable steps ends, with at most
  one datagram lost. The loss of the FINACK is not affordable (`not_delivered`):
  the receiver has returned, and the FINs sent again find nobody.
-/

namespace HybridFtp

variable {α : Type} [Double α] {t : Transfer α} {segs : List Bytes} {lost : Bool} {s s' : Joint α}

/-! ## The FIN phase -/

/-- The FIN phase reads a datagram: it ends with a FINACK, and else sends the next
    FIN. -/
theorem SenderState.receive_awaitFinAck {sender : SenderState α} {attempt : Int}
    (hp : sender.point = .awaitFinAck attempt) (cfg : RDTWindowSender α) (e : Endpoint) (d : Bytes) :
    sender.receive cfg false (some (e, d)) =
      { sender with
        point := if LooksLikeFinAck (readInto ACK_BUFFER_SIZE d) then .returned true
          else .finHead (attempt + 1) } := by
  simp only [receive, hp, recvFrom, Option.map_some, LooksLikeFinAck, ← not_lt]
  split_ifs with hlen hflags hflags
  · exact absurd hlen hflags.1
  · rfl
  · simp [onFinDatagram, hflags.2]
  · rw [onFinDatagram]
    exact if_neg fun h => hflags ⟨hlen, h⟩

omit [Double α] in
theorem Joint.Finishing.waits (h : s.Finishing t segs lost) (hwaits : s.sender.point.waits = true) :
    ∃ attempt, s.sender.point = .awaitFinAck attempt ∧ 0 ≤ attempt ∧
      attempt < t.sender.maxRetransmitRounds := by
  obtain ⟨attempt, hp | hp, hbounds⟩ := h.point
  · simp [hp, SenderPoint.waits] at hwaits
  · exact ⟨attempt, hp, hbounds⟩

theorem Joint.Finishing.senderAdvances (h : s.Finishing t segs lost)
    (hs : s.step t (.senderAdvances false true) = some s') :
    s'.Finishing t segs lost ∧ s'.Below t segs.length s := by
  obtain ⟨sender, sent, ha, hruns, rfl⟩ := Joint.step_senderAdvances hs
  obtain ⟨attempt, hp | hp, hnonneg, hlt⟩ := h.point
  · rw [SenderState.advance_finHead hp hlt] at ha
    obtain ⟨rfl, rfl⟩ := ha
    refine ⟨⟨h.segs_eq, ⟨attempt, .inr rfl, hnonneg, hlt⟩, h.expectedSeq, h.heard, fun d hd => ?_,
      ?_⟩, Joint.below_of_work ?_ ?_ ?_ ?_⟩
    · rcases List.mem_append.1 hd with hd | hd
      · exact h.toReceiver d hd
      · exact .inr ⟨_, _, List.mem_singleton.1 hd⟩
    · refine h.receiver.imp_left fun ⟨hrunning, hfins, hcount⟩ => ⟨hrunning, hfins, ?_⟩
      rw [hp] at hcount
      simp only [SenderPoint.finsSent, List.countP_append, List.countP_singleton,
        isFin_sendFIN, if_true, Nat.cast_add, Nat.cast_one] at hcount ⊢
      omega
    · simp only [SenderState.segmentsLeft, hp]
    · simp only [SenderState.roundsLeft, hp]
    · simp only [SenderState.patience, hp, le_refl]
    · simp only [work, SenderPoint.work, hp, List.length_append, List.length_singleton]
      omega
  · simp [hp, SenderPoint.runs] at hruns

theorem Joint.Finishing.senderReceives (h : s.Finishing t segs lost)
    (hafford : ∀ d ∈ s.toSender.head?, s.sender.Affords t.sender (readInto ACK_BUFFER_SIZE d))
    (hs : s.step t (.senderReceives false) = some s') :
    s'.sender.point = .returned true ∧ s'.receiver.point = .returned true ∨
      s'.Finishing t segs lost ∧ s'.Below t segs.length s := by
  obtain ⟨d, rest, hd, hwaits, rfl⟩ := Joint.step_senderReceives hs
  obtain ⟨attempt, hp, hnonneg, hlt⟩ := h.waits hwaits
  have ha := hafford d (by simp [hd])
  rw [SenderState.Affords, hp] at ha
  rw [Joint.senderReads, SenderState.receive_awaitFinAck hp]
  by_cases hfin : LooksLikeFinAck (readInto ACK_BUFFER_SIZE d)
  · -- There is no FINACK before the receiver has returned.
    left
    refine ⟨if_pos hfin, (h.receiver.resolve_left fun hr => ?_).1⟩
    exact hr.2.1 d (by simp [hd]) hfin
  · right
    rw [if_neg hfin]
    refine ⟨⟨h.segs_eq, ⟨attempt + 1, .inl rfl, by omega, ha.resolve_left hfin⟩, h.expectedSeq,
      h.heard, h.toReceiver, ?_⟩, .inr ⟨?_, .inl ?_⟩⟩
    · rcases h.receiver with ⟨hrunning, hfins, hcount⟩ | ⟨hreturned, d', hd', hfin'⟩
      · refine .inl ⟨hrunning, fun d' hd' => hfins d' (by simp [hd, hd']), ?_⟩
        rwa [hp] at hcount
      · rw [hd] at hd'
        refine .inr ⟨hreturned, d', (List.mem_cons.1 hd').resolve_left fun he => hfin ?_, hfin'⟩
        rwa [← he]
    · simp only [SenderState.segmentsLeft, hp]
    · simp only [SenderState.roundsLeft, hp]
      omega

omit [Double α] in
/-- If nobody can do anything but time out, the first FIN is missing. -/
theorem Joint.Finishing.quiet (h : s.Finishing t segs lost) (hq : s.Quiet) :
    s.sender.point = .awaitFinAck 0 ∧ s.receiver.point = .awaitDatagram ∧ s.toReceiver = [] ∧
      s.toSender = [] ∧ 1 ≤ (if lost then 1 else 0 : Int) := by
  obtain ⟨hruns, hhead, hsender, hreceiver⟩ := hq
  obtain ⟨attempt, hp | hp, hnonneg, hlt⟩ := h.point
  · simp [hp, SenderPoint.runs] at hruns
  · have hnil := hsender (by rw [hp]; rfl)
    rcases h.receiver with ⟨hrunning, _, hcount⟩ | ⟨_, d, hd, _⟩
    · have hpoint := hrunning.resolve_left hhead
      rw [hp, hreceiver hpoint, List.countP_nil, SenderPoint.finsSent] at hcount
      have hzero : attempt = 0 := by
        split_ifs at hcount <;> push_cast at hcount <;> omega
      subst hzero
      exact ⟨hp, hpoint, hreceiver hpoint, hnil, by simpa using hcount⟩
    · rw [hnil] at hd
      cases hd

theorem Joint.Finishing.senderTimesOut (h : s.Finishing t segs lost) (hq : s.Quiet)
    (hmax : 2 ≤ t.sender.maxRetransmitRounds)
    (hs : s.step t (.senderTimesOut false) = some s') :
    s'.Finishing t segs lost ∧ s'.Below t segs.length s := by
  obtain ⟨hp, hpoint, htoReceiver, htoSender, hlost⟩ := h.quiet hq
  obtain ⟨_, rfl⟩ := Joint.step_senderTimesOut hs
  have hreceive : s.sender.receive t.sender false none = { s.sender with point := .finHead 1 } := by
    simp [SenderState.receive, hp, recvFrom]
  rw [Joint.senderReads, hreceive]
  refine ⟨⟨h.segs_eq, ⟨1, .inl rfl, by decide, by omega⟩, h.expectedSeq, h.heard, h.toReceiver,
    .inl ⟨.inr hpoint, ?_, ?_⟩⟩, .inr ⟨?_, .inl ?_⟩⟩
  · show ∀ d ∈ s.toSender, _
    simp [htoSender]
  · show SenderPoint.finsSent (.finHead 1) ≤ (s.toReceiver.countP isFin : Int) + _
    rw [htoReceiver, SenderPoint.finsSent]
    simpa using hlost
  · simp only [SenderState.segmentsLeft, hp]
  · simp only [SenderState.roundsLeft, hp]
    omega

theorem Joint.Finishing.receiverAdvances (h : s.Finishing t segs lost)
    (hs : s.step t (.receiverAdvances false) = some s') :
    s'.Finishing t segs lost ∧ s'.Below t segs.length s := by
  obtain ⟨hp, rfl⟩ := Joint.step_receiverAdvances hs
  have hadvance : s.receiver.advance false = { s.receiver with point := .awaitDatagram } := by
    simp [ReceiverState.advance, hp]
  rw [hadvance]
  refine ⟨⟨h.segs_eq, h.point, h.expectedSeq, h.heard, h.toReceiver, .inl ?_⟩,
    Joint.below_of_work rfl rfl le_rfl (by simp [work, hp])⟩
  rcases h.receiver with ⟨_, hrest⟩ | ⟨hreturned, _⟩
  · exact ⟨.inr rfl, hrest⟩
  · simp [hp] at hreturned

theorem Joint.Finishing.receiverReceives (h : s.Finishing t segs lost)
    (hlen : segs.length < 2 ^ 32) (hfit : ∀ seg ∈ segs, seg.length ≤ MAX_PAYLOAD)
    (hs : s.step t (.receiverReceives false) = some s') :
    s'.Finishing t segs lost ∧ s'.Below t segs.length s := by
  obtain ⟨d, rest, hd, hp, rfl⟩ := Joint.step_receiverReceives hs
  obtain ⟨_, hfins, hcount⟩ := h.receiver.resolve_right fun hr => by simp [hp] at hr
  have hrest : ∀ d ∈ rest, d ∈ s.toReceiver := fun d' hd' => by simp [hd, hd']
  rcases h.toReceiver d (by simp [hd]) with ⟨n, hn, rfl⟩ | ⟨n, w, rfl⟩
  · -- A segment that has been received before.
    have hr := ReceiverState.readSegment hlen hfit hn t.socket.toEndpoint s.receiver
    rw [if_neg (by have := h.expectedSeq; omega)] at hr
    rw [segmentOf, Joint.receiverReads_sendSegment (t := t) (s := { s with toReceiver := rest }) hp]
    refine ⟨⟨h.segs_eq, h.point, hr.expectedSeq.trans h.expectedSeq, fun _ => hr.sender,
      fun d' hd' => h.toReceiver d' (hrest d' hd'), .inl ⟨.inl hr.point, fun d' hd' => ?_, ?_⟩⟩,
      Joint.below_of_work rfl rfl (s.sender.patience_le ?_) ?_⟩
    · rcases List.mem_append.1 hd' with hd' | hd'
      · exact hfins d' hd'
      · rw [List.mem_singleton.1 hd', ReceiverState.ackDatagram]
        exact not_looksLikeFinAck_ack _ _
    · rwa [hd, List.countP_cons_of_neg (by simp [isFin_segmentOf])] at hcount
    · rw [List.length_append]
      exact Nat.le_add_right _ _
    · simp only [work, hd, hp, hr.point, List.length_append, List.length_cons, List.length_nil,
        reduceCtorEq, if_true, if_false]
      omega
  · rw [Joint.receiverReads, ReceiverState.receive_sendFIN hp]
    refine ⟨⟨h.segs_eq, h.point, h.expectedSeq, fun _ => rfl,
      fun d' hd' => h.toReceiver d' (hrest d' hd'), .inr ⟨rfl, _, List.mem_append_right _ ?_,
        looksLikeFinAck_finAck n s.receiver.advertisedWindow⟩⟩,
      Joint.below_of_work rfl rfl (s.sender.patience_le ?_) ?_⟩
    · simp
    · rw [List.length_append]
      exact Nat.le_add_right _ _
    · simp [work, hd, hp]
      omega

theorem Joint.Finishing.receiverTimesOut (h : s.Finishing t segs lost) (hq : s.Quiet)
    (hknown : s.receiver.sender.isKnown = true)
    (hs : s.step t (.receiverTimesOut false) = some s') :
    s'.Finishing t segs lost ∧ s'.Below t segs.length s := by
  obtain ⟨hp, hpoint, htoReceiver, htoSender, hlost⟩ := h.quiet hq
  obtain ⟨_, rfl⟩ := Joint.step_receiverTimesOut hs
  obtain ⟨_, hfins, hcount⟩ := h.receiver.resolve_right fun hr => by simp [hpoint] at hr
  have hreceive : s.receiver.receive false none =
      ({ s.receiver with point := .loopHead }, [(t.socket.toEndpoint, s.receiver.ackDatagram)]) := by
    rw [ReceiverState.receive]
    simp [hpoint, recvFrom, ReceiverState.sendCumulativeAck, h.heard hknown, t.socket.isKnown]
  rw [Joint.receiverReads, hreceive]
  refine ⟨⟨h.segs_eq, h.point, h.expectedSeq, h.heard, h.toReceiver, .inl ⟨.inl rfl,
    fun d hd => ?_, hcount⟩⟩, .inr ⟨rfl, .inr ⟨rfl, .inl ?_⟩⟩⟩
  · rcases List.mem_append.1 hd with hd | hd
    · exact hfins d hd
    · obtain rfl : d = s.receiver.ackDatagram := by simpa using hd
      exact not_looksLikeFinAck_ack _ _
  · simp only [SenderState.patience, hp, htoSender]
    simp

omit [Double α] in
theorem Joint.Finishing.lose_toReceiver (h : s.Finishing t segs false) (i : Nat) :
    Joint.Finishing t segs true { s with toReceiver := s.toReceiver.eraseIdx i } where
  segs_eq := h.segs_eq
  point := h.point
  expectedSeq := h.expectedSeq
  heard := h.heard
  toReceiver d hd := h.toReceiver d (List.mem_of_mem_eraseIdx hd)
  receiver := by
    refine h.receiver.imp_left fun ⟨hrunning, hfins, hcount⟩ => ⟨hrunning, hfins, ?_⟩
    have hle := (List.eraseIdx_sublist s.toReceiver i).le_countP isFin
    have hlength := List.length_eraseIdx (l := s.toReceiver) (i := i)
    simp only [Bool.false_eq_true, if_false, if_true] at hcount ⊢
    split_ifs at hlength <;> omega

omit [Double α] in
/-- The loss of a datagram that is not the FINACK. -/
theorem Joint.Finishing.lose_toSender (h : s.Finishing t segs false) {i : Nat}
    (hi : ∀ d ∈ s.toSender[i]?, ¬LooksLikeFinAck (readInto ACK_BUFFER_SIZE d)) :
    Joint.Finishing t segs true { s with toSender := s.toSender.eraseIdx i } where
  segs_eq := h.segs_eq
  point := h.point
  expectedSeq := h.expectedSeq
  heard := h.heard
  toReceiver := h.toReceiver
  receiver := by
    refine h.receiver.imp (fun ⟨hrunning, hfins, hcount⟩ => ⟨hrunning, fun d hd => ?_, ?_⟩)
      fun ⟨hreturned, d, hd, hfin⟩ => ⟨hreturned, d, ?_, hfin⟩
    · exact hfins d (List.mem_of_mem_eraseIdx hd)
    · simp only [Bool.false_eq_true, if_false, if_true] at hcount ⊢
      omega
    · obtain ⟨j, hj⟩ := List.mem_iff_getElem?.1 hd
      refine List.mem_eraseIdx_iff_getElem?.2 ⟨j, ?_, hj⟩
      rintro rfl
      exact hi d hj hfin

/-! ## Every run -/

/-- The phase of a run. A segment or an ACK may be missing only after the loss. -/
inductive OneLoss.Phase (t : Transfer α) (segs : List Bytes) (s : OneLoss α) : Prop
  | streams {slack : Nat} {ns : List (Nat × UInt16)} {cs : List Nat} :
      slack ≤ s.lost.toNat → s.joint.Streams t segs slack ns cs → Phase t segs s
  | retransmits {ns : List (Nat × UInt16)} {cs : List Nat} :
      s.lost = true → s.joint.Retransmits t segs ns cs → Phase t segs s
  | finishing : s.joint.Finishing t segs s.lost → Phase t segs s

namespace OneLoss

variable {s s' : OneLoss α}

omit [Double α] in
theorem Phase.runs_or_waits (h : s.Phase t segs) :
    s.joint.sender.point.runs = true ∨ s.joint.sender.point.waits = true := by
  have main : ∀ {ns cs}, s.joint.Pipeline t segs ns cs →
      s.joint.sender.point.runs = true ∨ s.joint.sender.point.waits = true := by
    intro ns cs h
    rcases h.sender.point with hp | ⟨_, hp, _⟩ | ⟨hp, _⟩ <;>
      simp [hp, SenderPoint.runs, SenderPoint.waits]
  cases h with
  | streams _ h => exact main h.toPipeline
  | retransmits _ h => exact main h.toPipeline
  | finishing h =>
    obtain ⟨_, hp | hp, _⟩ := h.point <;> simp [hp, SenderPoint.runs, SenderPoint.waits]

/-- A run does not get stuck before the sender has returned. -/
theorem Phase.moves (h : s.Phase t segs) :
    ∃ e s', Scheduled s e ∧ (machine t).step e s = some s' := by
  have map : ∀ {e joint}, s.joint.step t e = some joint →
      (s.joint.step t e).map (fun joint => { s with joint }) = some { s with joint } := by
    intro e joint he
    rw [he, Option.map_some]
  rcases h.runs_or_waits with hruns | hwaits
  · exact ⟨.senderAdvances false true, _, ⟨rfl, rfl⟩, map (if_pos hruns)⟩
  · cases hd : s.joint.toSender with
    | nil => exact ⟨.senderTimesOut false, _, ⟨rfl, hd⟩, map (if_pos hwaits)⟩
    | cons d rest =>
      obtain ⟨joint, hs⟩ := Joint.exists_step_senderReceives (t := t) hd hwaits
      exact ⟨.senderReceives false, _, rfl, map hs⟩

/-- The events of the two calls. -/
def IsCall (e : TransferEvent) : Prop :=
  (∀ f, e ≠ .faultToReceiver f) ∧ ∀ f, e ≠ .faultToSender f

/-- A step is one of the two calls, or the loss. -/
theorem step_cases {e : TransferEvent} (hs : (machine t).step e s = some s') :
    (s'.lost = s.lost ∧ IsCall e ∧ s.joint.step t e = some s'.joint) ∨
    s.lost = false ∧ s'.lost = true ∧
      ((∃ i, e = .faultToReceiver (.lose i) ∧
        s'.joint = { s.joint with toReceiver := s.joint.toReceiver.eraseIdx i }) ∨
      ∃ i, e = .faultToSender (.lose i) ∧
        s'.joint = { s.joint with toSender := s.joint.toSender.eraseIdx i }) := by
  have call : ∀ {e}, IsCall e → (s.joint.step t e).map (fun joint => { s with joint }) = some s' →
      s'.lost = s.lost ∧ IsCall e ∧ s.joint.step t e = some s'.joint := by
    intro e he hs
    obtain ⟨joint, hjoint, rfl⟩ := Option.map_eq_some_iff.1 hs
    exact ⟨rfl, he, hjoint⟩
  have hs : step t e s = some s' := hs
  cases e with
  | faultToReceiver f =>
    cases f with
    | lose i =>
      simp only [step, Option.ite_none_left_eq_some, Option.map_eq_some_iff] at hs
      obtain ⟨hlost, joint, hjoint, rfl⟩ := hs
      obtain ⟨l, hl, rfl⟩ := Joint.step_faultToReceiver hjoint
      simp only [Fault.apply, Option.ite_none_right_eq_some, Option.some.injEq] at hl
      obtain ⟨_, rfl⟩ := hl
      exact .inr ⟨Bool.not_eq_true _ ▸ hlost, rfl, .inl ⟨i, rfl, rfl⟩⟩
    | duplicate i | holdBack i | damage i m => simp [step] at hs
  | faultToSender f =>
    cases f with
    | lose i =>
      simp only [step, Option.ite_none_left_eq_some, Option.map_eq_some_iff] at hs
      obtain ⟨hlost, joint, hjoint, rfl⟩ := hs
      obtain ⟨l, hl, rfl⟩ := Joint.step_faultToSender hjoint
      simp only [Fault.apply, Option.ite_none_right_eq_some, Option.some.injEq] at hl
      obtain ⟨_, rfl⟩ := hl
      exact .inr ⟨Bool.not_eq_true _ ▸ hlost, rfl, .inr ⟨i, rfl, rfl⟩⟩
    | duplicate i | holdBack i | damage i m => simp [step] at hs
  | senderAdvances cancelled sendOk => exact .inl (call ⟨by simp, by simp⟩ hs)
  | senderTimesOut cancelled => exact .inl (call ⟨by simp, by simp⟩ hs)
  | senderReceives cancelled => exact .inl (call ⟨by simp, by simp⟩ hs)
  | receiverAdvances cancelled => exact .inl (call ⟨by simp, by simp⟩ hs)
  | receiverTimesOut cancelled => exact .inl (call ⟨by simp, by simp⟩ hs)
  | receiverReceives cancelled => exact .inl (call ⟨by simp, by simp⟩ hs)

theorem exists_step {e : TransferEvent} (hs : (machine t).step e s = some s') :
    ∃ e, s.joint.step t e = some s'.joint := by
  have hs : step t e s = some s' := hs
  rw [step.eq_def] at hs
  split at hs
  all_goals
    simp only [Option.ite_none_left_eq_some, Option.map_eq_some_iff, reduceCtorEq] at hs
  · obtain ⟨_, joint, hjoint, rfl⟩ := hs
    exact ⟨_, hjoint⟩
  · obtain ⟨_, joint, hjoint, rfl⟩ := hs
    exact ⟨_, hjoint⟩
  · obtain ⟨joint, hjoint, rfl⟩ := hs
    exact ⟨_, hjoint⟩

variable {slack : Nat} {ns : List (Nat × UInt16)} {cs : List Nat} {joint : Joint α}
  {e : TransferEvent}

/-- Every step of the calls keeps the first phase, or gets to a later one. -/
theorem Phase.of_streams (hslack : slack ≤ s.lost.toNat) (h : s.joint.Streams t segs slack ns cs)
    (hfits : SenderState.Fits t.sender segs) (hfit : ∀ seg ∈ segs, seg.length ≤ MAX_PAYLOAD)
    (hmax : 0 < t.sender.maxRetransmitRounds) (hcall : IsCall e) (hsched : Scheduled s e)
    (hafford : Affordable t s e) (hs : s.joint.step t e = some joint) :
    Phase t segs { s with joint } ∧ joint.Below t segs.length s.joint := by
  have hone := hslack.trans (Bool.toNat_le s.lost)
  cases e with
  | senderAdvances cancelled sendOk =>
    obtain ⟨rfl, rfl⟩ := hsched
    refine (h.senderAdvances s.lost hfits hmax hs).imp_left fun hphase => ?_
    rcases hphase with ⟨_, h'⟩ | h'
    · exact .streams hslack h'
    · exact .finishing h'
  | senderReceives cancelled =>
    obtain rfl : cancelled = false := hsched
    refine (h.senderReceives hfits hs).imp_left fun ⟨_, hle, _, h'⟩ => ?_
    exact .streams (hle.trans hslack) h'
  | receiverAdvances cancelled =>
    obtain rfl : cancelled = false := hsched
    exact (h.receiverAdvances hs).imp_left fun h' => .streams hslack h'
  | receiverReceives cancelled =>
    obtain rfl : cancelled = false := hsched
    exact (h.receiverReceives hone hfits hfit hs).imp_left fun ⟨_, _, h'⟩ => .streams hslack h'
  | senderTimesOut cancelled =>
    obtain ⟨rfl, _⟩ := hsched
    -- The sender times out only when something has been lost.
    obtain ⟨h', rfl, hbelow⟩ := h.senderTimesOut hone hafford hmax hs
    refine ⟨.retransmits ?_ h', hbelow⟩
    cases hlost : s.lost with
    | true => rfl
    | false => simp [hlost] at hslack
  | receiverTimesOut cancelled =>
    obtain ⟨rfl, _, hknown⟩ := hsched
    exact (h.receiverTimesOut hone hafford hknown hs).imp_left fun ⟨_, _, h'⟩ => .streams hslack h'
  | faultToReceiver f => exact absurd rfl (hcall.1 f)
  | faultToSender f => exact absurd rfl (hcall.2 f)

/-- Every step of the calls keeps the second phase, or gets to the last one. -/
theorem Phase.of_retransmits (hlost : s.lost = true) (h : s.joint.Retransmits t segs ns cs)
    (hfits : SenderState.Fits t.sender segs) (hfit : ∀ seg ∈ segs, seg.length ≤ MAX_PAYLOAD)
    (hmax : 0 < t.sender.maxRetransmitRounds) (hcall : IsCall e) (hsched : Scheduled s e)
    (hafford : Affordable t s e) (hs : s.joint.step t e = some joint) :
    Phase t segs { s with joint } ∧ joint.Below t segs.length s.joint := by
  cases e with
  | senderAdvances cancelled sendOk =>
    obtain ⟨rfl, rfl⟩ := hsched
    refine (h.senderAdvances s.lost hfits hmax hs).imp_left fun hphase => ?_
    rcases hphase with ⟨_, h'⟩ | h'
    · exact .retransmits hlost h'
    · exact .finishing h'
  | senderReceives cancelled =>
    obtain rfl : cancelled = false := hsched
    exact (h.senderReceives hfits hafford hs).imp_left fun ⟨_, h'⟩ => .retransmits hlost h'
  | receiverAdvances cancelled =>
    obtain rfl : cancelled = false := hsched
    exact (h.receiverAdvances hs).imp_left fun h' => .retransmits hlost h'
  | receiverReceives cancelled =>
    obtain rfl : cancelled = false := hsched
    exact (h.receiverReceives hfits hfit hs).imp_left fun ⟨_, _, h'⟩ => .retransmits hlost h'
  | senderTimesOut cancelled =>
    obtain ⟨rfl, _⟩ := hsched
    exact (h.senderTimesOut hafford hmax hs).imp_left fun h' => .retransmits hlost h'
  | receiverTimesOut cancelled =>
    obtain ⟨rfl, _, hknown⟩ := hsched
    exact (h.receiverTimesOut hafford hknown hs).imp_left fun ⟨_, _, h'⟩ => .retransmits hlost h'
  | faultToReceiver f => exact absurd rfl (hcall.1 f)
  | faultToSender f => exact absurd rfl (hcall.2 f)

/-- Every step of the calls keeps the FIN phase, or ends it. -/
theorem Phase.of_finishing (h : s.joint.Finishing t segs s.lost) (hlen : segs.length < 2 ^ 32)
    (hfit : ∀ seg ∈ segs, seg.length ≤ MAX_PAYLOAD) (hmax : 2 ≤ t.sender.maxRetransmitRounds)
    (hcall : IsCall e) (hsched : Scheduled s e) (hafford : Affordable t s e)
    (hs : s.joint.step t e = some joint) :
    joint.sender.point = .returned true ∧ joint.receiver.point = .returned true ∨
      Phase t segs { s with joint } ∧ joint.Below t segs.length s.joint := by
  cases e with
  | senderAdvances cancelled sendOk =>
    obtain ⟨rfl, rfl⟩ := hsched
    exact .inr ((h.senderAdvances hs).imp_left .finishing)
  | senderReceives cancelled =>
    obtain rfl : cancelled = false := hsched
    exact (h.senderReceives hafford hs).imp_right (.imp_left .finishing)
  | receiverAdvances cancelled =>
    obtain rfl : cancelled = false := hsched
    exact .inr ((h.receiverAdvances hs).imp_left .finishing)
  | receiverReceives cancelled =>
    obtain rfl : cancelled = false := hsched
    exact .inr ((h.receiverReceives hlen hfit hs).imp_left .finishing)
  | senderTimesOut cancelled =>
    obtain ⟨rfl, _⟩ := hsched
    exact .inr ((h.senderTimesOut hafford hmax hs).imp_left .finishing)
  | receiverTimesOut cancelled =>
    obtain ⟨rfl, _, hknown⟩ := hsched
    exact .inr ((h.receiverTimesOut hafford hknown hs).imp_left .finishing)
  | faultToReceiver f => exact absurd rfl (hcall.1 f)
  | faultToSender f => exact absurd rfl (hcall.2 f)

/-- How close a state is to the end of a run: the loss brings it closer. -/
def Closer (t : Transfer α) (n : Nat) : Nat × Joint α → Nat × Joint α → Prop :=
  Prod.Lex (· < ·) (Joint.Below t n)

/-- What gets closer: whether the loss is still to come, and the state. -/
def rank (s : OneLoss α) : Nat × Joint α := ((!s.lost).toNat, s.joint)

/-- Every affordable step keeps the phase or gets to a later one, or ends the run. -/
theorem Phase.step (h : s.Phase t segs) (hfits : SenderState.Fits t.sender segs)
    (hfit : ∀ seg ∈ segs, seg.length ≤ MAX_PAYLOAD) (hmax : 2 ≤ t.sender.maxRetransmitRounds)
    (hsched : Scheduled s e) (hafford : Affordable t s e) (hs : (machine t).step e s = some s') :
    s'.joint.sender.point = .returned true ∧ s'.joint.receiver.point = .returned true ∨
      s'.Phase t segs ∧ Closer t segs.length s'.rank s.rank := by
  obtain ⟨joint, lost⟩ := s'
  rcases step_cases hs with ⟨hlost, hcall, hjoint⟩ | ⟨hlost, hlost', hloss⟩
  · obtain rfl : lost = s.lost := hlost
    have hcloser : joint.Below t segs.length s.joint →
        Closer t segs.length { s with joint }.rank s.rank := .right _
    have hpos : 0 < t.sender.maxRetransmitRounds := by omega
    cases h with
    | streams hslack h =>
      exact .inr ((Phase.of_streams hslack h hfits hfit hpos hcall hsched hafford hjoint).imp_right
        hcloser)
    | retransmits hlost h =>
      exact .inr ((Phase.of_retransmits hlost h hfits hfit hpos hcall hsched hafford hjoint).imp_right
        hcloser)
    | finishing h =>
      exact (Phase.of_finishing h hfits.length_lt hfit hmax hcall hsched hafford hjoint).imp_right
        (.imp_right hcloser)
  · -- Before the loss, nothing is missing.
    obtain rfl : lost = true := hlost'
    refine .inr ⟨?_, .left _ _ (by simp [hlost])⟩
    cases h with
    | streams hslack h =>
      obtain rfl : _ = 0 := Nat.le_zero.1 (by simpa [hlost] using hslack)
      rcases hloss with ⟨i, rfl, rfl⟩ | ⟨i, rfl, rfl⟩
      · exact .retransmits rfl (h.lose_toReceiver (by omega))
      · exact .streams le_rfl h.lose_toSender
    | retransmits hlost' h => simp [hlost] at hlost'
    | finishing h =>
      rw [hlost] at h
      rcases hloss with ⟨i, rfl, rfl⟩ | ⟨i, rfl, rfl⟩
      · exact .finishing (h.lose_toReceiver i)
      · exact .finishing (h.lose_toSender hafford)

theorem streams_start (hsegs : segments t.sender.mss t.data = some segs)
    (hs : t.start = some joint) : joint.Streams t segs 0 [] [] := by
  rw [Transfer.start, SenderState.init, hsegs, Option.map_some, Option.map_some,
    Option.some.injEq] at hs
  subst hs
  refine ⟨⟨⟨rfl, le_rfl, Nat.zero_le _, .inl rfl⟩, .inl rfl, rfl, fun hknown => ?_, Nat.zero_le _,
    rfl, rfl, by simp⟩, le_rfl, rfl, ⟨le_rfl, le_rfl⟩, rfl, rfl⟩
  cases hknown

theorem Phase.init (hsegs : segments t.sender.mss t.data = some segs)
    (hs : s ∈ (machine t).init) : s.Phase t segs ∧ t.machine.Reachable s.joint := by
  obtain ⟨joint, hjoint, rfl⟩ := hs
  exact ⟨.streams le_rfl (streams_start hsegs hjoint), joint, hjoint, .refl⟩

/-- A transfer that loses at most one datagram ends with the success of both
    sides, and all the data received, if all its steps are affordable. -/
theorem delivered_of_affordable (hmss : t.sender.mss ≤ 1564)
    (hsegs : segments t.sender.mss t.data = some segs)
    (hfits : segs.length + max 1 t.sender.maxWindowSegments.toNat < 2 ^ 32)
    (hmax : 2 ≤ t.sender.maxRetransmitRounds) (hs : s ∈ (machine t).init) :
    (machine t).Inevitable Scheduled (Affordable t) (Delivered t) s := by
  have hfit : ∀ seg ∈ segs, seg.length ≤ MAX_PAYLOAD := fun seg hseg =>
    (length_of_mem_segments hsegs hseg).trans hmss
  refine Machine.Inevitable.of_rank
    (WellFounded.prod_lex wellFounded_lt (Joint.below_wf t segs.length)) rank
    (I := fun s => s.Phase t segs ∧ t.machine.Reachable s.joint) (fun s h _ => h.1.moves) ?_
    (Phase.init hsegs hs)
  rintro s e s' ⟨h, hreach⟩ hsched hafford hstep
  have hreach' : t.machine.Reachable s'.joint := by
    obtain ⟨e', he'⟩ := exists_step hstep
    exact hreach.tail trivial he'
  refine (h.step hfits hfit hmax hsched hafford hstep).imp (fun ⟨hsender, hreceiver⟩ => ?_)
    fun ⟨h', hcloser⟩ => ⟨⟨h', hreach'⟩, hcloser⟩
  obtain ⟨p, hp⟩ := exists_refines hfit hsegs hreach'
  exact ⟨hsender, hreceiver, (hp.outData_eq hsegs (by omega)).2.2 hreceiver⟩

theorem delivered_of_affordable_greeting :
    ∃ s ∈ (machine greeting).init,
      (machine greeting).Inevitable Scheduled (Affordable greeting) (Delivered greeting) s := by
  obtain ⟨joint, hjoint⟩ : ∃ joint, greeting.start = some joint := ⟨_, rfl⟩
  have hs : { joint } ∈ (machine greeting).init := ⟨joint, hjoint, rfl⟩
  exact ⟨_, hs, delivered_of_affordable (by decide)
    (rfl : segments greeting.sender.mss greeting.data = some [[104, 105]]) (by decide) (by decide) hs⟩

/-! ## The loss of the FINACK -/

/-- The receiver has returned, and its FINACK is lost. -/
structure Stranded (s : OneLoss α) : Prop where
  lost : s.lost = true
  receiver : s.joint.receiver.point = .returned true
  sender : s.joint.sender.point ≠ .returned true
  toSender : ∀ d ∈ s.joint.toSender, ¬LooksLikeFinAck (readInto ACK_BUFFER_SIZE d)

instance : DecidablePred (Stranded : OneLoss α → Prop) := fun s =>
  decidable_of_iff (s.lost = true ∧ s.joint.receiver.point = .returned true ∧
    s.joint.sender.point ≠ .returned true ∧
      ∀ d ∈ s.joint.toSender, ¬LooksLikeFinAck (readInto ACK_BUFFER_SIZE d))
    ⟨fun ⟨h₁, h₂, h₃, h₄⟩ => ⟨h₁, h₂, h₃, h₄⟩, fun ⟨h₁, h₂, h₃, h₄⟩ => ⟨h₁, h₂, h₃, h₄⟩⟩

theorem Stranded.step (h : s.Stranded) (hs : (machine t).step e s = some s') : s'.Stranded := by
  rcases step_cases hs with ⟨hlost, hcall, hjoint⟩ | ⟨hlost, _⟩
  swap
  · simp [h.lost] at hlost
  have hlost' : s'.lost = true := hlost.trans h.lost
  obtain ⟨joint, lost⟩ := s'
  cases e with
  | senderAdvances cancelled sendOk =>
    obtain ⟨_, _, ha, _, rfl⟩ := Joint.step_senderAdvances hjoint
    exact ⟨hlost', h.receiver, fun hr => h.sender (SenderState.success_of_advance ha hr), h.toSender⟩
  | senderTimesOut cancelled =>
    obtain ⟨_, rfl⟩ := Joint.step_senderTimesOut hjoint
    refine ⟨hlost', h.receiver, fun hr => ?_, h.toSender⟩
    rcases SenderState.success_of_receive hr with hr | ⟨_, _, _, hd, _⟩
    · exact h.sender hr
    · cases hd
  | senderReceives cancelled =>
    obtain ⟨d, rest, hd, _, rfl⟩ := Joint.step_senderReceives hjoint
    refine ⟨hlost', h.receiver, fun hr => ?_, fun d' hd' => h.toSender d' (by
      rw [hd]
      exact .tail _ hd')⟩
    rcases SenderState.success_of_receive hr with hr | ⟨_, _, d', hd', hfin⟩
    · exact h.sender hr
    · cases hd'
      exact h.toSender d (by simp [hd]) hfin
  -- The receiver has returned, and moves no more.
  | receiverAdvances cancelled =>
    obtain ⟨hp, _⟩ := Joint.step_receiverAdvances hjoint
    simp [h.receiver] at hp
  | receiverTimesOut cancelled =>
    obtain ⟨hp, _⟩ := Joint.step_receiverTimesOut hjoint
    simp [h.receiver] at hp
  | receiverReceives cancelled =>
    obtain ⟨_, _, _, hp, _⟩ := Joint.step_receiverReceives hjoint
    simp [h.receiver] at hp
  | faultToReceiver f => exact absurd rfl (hcall.1 f)
  | faultToSender f => exact absurd rfl (hcall.2 f)

/-- A sender whose FINACK is lost does not succeed, whatever happens next. -/
theorem Stranded.not_inevitable (h : s.Stranded) :
    ¬(machine t).Inevitable Scheduled (fun _ _ => True) (Delivered t) s :=
  Machine.not_inevitable (J := Stranded) (fun _ h hd => h.sender hd.1)
    (fun _ _ _ h _ hs => ⟨h.step hs, trivial⟩) h

/-- The receiver returns with its first FINACK: if that is lost, nobody answers the
    FINs sent again. -/
theorem not_delivered :
    ¬∀ (t : Transfer ℚ) (s : OneLoss ℚ), 0 < t.sender.mss → t.sender.mss ≤ 1564 →
      2 ≤ t.sender.maxRetransmitRounds → s ∈ (machine t).init →
        (machine t).Inevitable Scheduled (fun _ _ => True) (Delivered t) s := by
  intro h
  have hstart : ∀ s ∈ greeting.start.map fun joint => ({ joint } : OneLoss ℚ),
      s ∈ (machine greeting).init := by
    intro s hs
    obtain ⟨joint, hjoint, rfl⟩ := Option.map_eq_some_iff.1 hs
    exact ⟨joint, hjoint, rfl⟩
  obtain ⟨s, ⟨s₀, hs₀, hreach⟩, hs⟩ := (machine greeting).exists_reachableBy_of_run
    (fun s e => Scheduled s e ∧ True ∧ ¬Delivered greeting s) hstart
    (greetingData ++ greetingFin ++ [.faultToSender (.lose 0)]) (fun s => s.Stranded)
    (by decide +kernel)
  have hinev := h greeting s₀ (by decide) (by decide) (by decide) hs₀
  exact (of_decide_eq_true hs).not_inevitable (hinev.of_reaches hreach)

end OneLoss

end HybridFtp
