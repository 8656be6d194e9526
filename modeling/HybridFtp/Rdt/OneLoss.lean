import HybridFtp.Rdt.MainLoop
import HybridFtp.Rdt.Recovery

/-!
# Transfers with one loss

One transfer over a network that delivers every datagram once and in order, but
for at most one, which it loses.

* `OneLoss.machine`, `Scheduled`: the transfer over such a network, where nobody
  times out while a datagram is on its way to it;
* `Affordable`: the steps after which the transfer can still succeed;
* `Joint.Streams`, `Joint.Retransmits`, `Joint.Finishing`: the three phases of a
  run;
* `Joint.Below`: which states are closer to the end of a transfer.
-/

namespace HybridFtp

variable {α : Type} [Double α]

/-- A transfer, and whether the network has lost a datagram. -/
structure OneLoss (α : Type) where
  joint : Joint α
  lost : Bool := false

namespace OneLoss

/-- The step an event takes. The only fault is a loss, and it happens only once. -/
def step (t : Transfer α) : TransferEvent → OneLoss α → Option (OneLoss α)
  | .faultToReceiver (.lose i), s =>
    if s.lost then none
    else (s.joint.step t (.faultToReceiver (.lose i))).map fun joint => { joint, lost := true }
  | .faultToSender (.lose i), s =>
    if s.lost then none
    else (s.joint.step t (.faultToSender (.lose i))).map fun joint => { joint, lost := true }
  | .faultToReceiver _, _ | .faultToSender _, _ => none
  | e, s => (s.joint.step t e).map fun joint => { s with joint }

/-- The machine of a transfer with at most one loss. -/
def machine (t : Transfer α) : Machine (OneLoss α) TransferEvent where
  init := {s | ∃ joint ∈ t.start, s = { joint }}
  step := step t

end OneLoss

/-- Nobody cancels, sending does not fail, and a `recvFrom` times out only if no
    datagram is on its way to it. A timeout of a receiver that has not heard from
    anybody is left out: it sends nothing and waits again
    (`ReceiverState.receive_none_of_unknown`). -/
def Scheduled (s : OneLoss α) : TransferEvent → Prop
  | .senderAdvances cancelled sendOk => cancelled = false ∧ sendOk = true
  | .senderReceives cancelled | .receiverAdvances cancelled | .receiverReceives cancelled =>
    cancelled = false
  | .senderTimesOut cancelled => cancelled = false ∧ s.joint.toSender = []
  | .receiverTimesOut cancelled =>
    cancelled = false ∧ s.joint.toReceiver = [] ∧ s.joint.receiver.sender.isKnown = true
  | .faultToReceiver _ | .faultToSender _ => True

instance (s : OneLoss α) : DecidablePred (Scheduled s)
  | .senderAdvances .. => inferInstanceAs (Decidable (_ ∧ _))
  | .senderReceives _ | .receiverAdvances _ | .receiverReceives _ =>
    inferInstanceAs (Decidable (_ = _))
  | .senderTimesOut _ => inferInstanceAs (Decidable (_ ∧ _))
  | .receiverTimesOut _ => inferInstanceAs (Decidable (_ ∧ _ ∧ _))
  | .faultToReceiver _ | .faultToSender _ => isTrue trivial

/-- The third duplicate in a row of an ACK. -/
def SenderState.ThirdDuplicate (s : SenderState α) (ackNum : UInt32) : Prop :=
  (ackNum < s.base ∨ ackNum = UINT32_MAX) ∧ ackNum = s.lastDuplicateAck ∧ s.duplicateAckCount = 2

/-- What the sender can afford to read: a third duplicate, as long as it may go
    back to `base` once more, and in the FIN phase something else than a FINACK,
    as long as it may send one more FIN. -/
def SenderState.Affords (cfg : RDTWindowSender α) (s : SenderState α) (recvBuf : Bytes) : Prop :=
  match s.point with
  | .awaitAck => s.ThirdDuplicate (deserializeHeader recvBuf).ackNum →
      s.retryRnd < cfg.maxRetransmitRounds
  | .awaitFinAck attempt => LooksLikeFinAck recvBuf ∨ attempt + 1 < cfg.maxRetransmitRounds
  | .loopHead | .sending _ | .finHead _ | .returned _ => True

/-- The steps after which the transfer can still succeed: the loss is not that of
    the FINACK, the sender can afford what it reads, and nobody times out as long as
    anything else can happen. -/
def Affordable (t : Transfer α) (s : OneLoss α) : TransferEvent → Prop
  | .senderTimesOut _ | .receiverTimesOut _ => s.joint.Quiet
  | .senderReceives _ =>
    ∀ d ∈ s.joint.toSender.head?, s.joint.sender.Affords t.sender (readInto ACK_BUFFER_SIZE d)
  | .faultToSender (.lose i) =>
    ∀ d ∈ s.joint.toSender[i]?, ¬LooksLikeFinAck (readInto ACK_BUFFER_SIZE d)
  | .senderAdvances .. | .receiverAdvances _ | .receiverReceives _ | .faultToReceiver _
  | .faultToSender _ => True

/-- Both calls have returned `true`, and all the data has been received. -/
def Delivered (t : Transfer α) (s : OneLoss α) : Prop :=
  s.joint.sender.point = .returned true ∧ s.joint.receiver.point = .returned true ∧
    s.joint.receiver.outData = t.data

instance (t : Transfer α) : DecidablePred (Delivered t) := fun _ =>
  inferInstanceAs (Decidable (_ ∧ _ ∧ _))

/-! ## Sequences of ACKs -/

/-- ACKs, each of them news to a sender at `b`, that lead it to `e`, but for a
    `slack` of missing ones. -/
def Rising : Nat → Nat → List Nat → Nat → Prop
  | slack, b, [], e => b ≤ e ∧ e ≤ b + slack
  | slack, b, c :: cs, e =>
    c = b + 1 ∧ Rising slack c cs e ∨ slack = 1 ∧ c = b + 2 ∧ Rising 0 c cs e

/-- ACKs that lead a sender at `b` to `e`, none of them missing, but some perhaps
    more than once. -/
def Tight : Nat → List Nat → Nat → Prop
  | b, [], e => e = b
  | b, c :: cs, e => b ≤ c ∧ c ≤ b + 1 ∧ Tight c cs e

theorem Rising.le {slack b e : Nat} {cs : List Nat} (h : Rising slack b cs e) : b ≤ e := by
  induction cs generalizing slack b with
  | nil => exact h.1
  | cons c cs ih =>
    rcases h with ⟨rfl, h⟩ | ⟨_, rfl, h⟩
    · have := ih h
      omega
    · have := ih h
      omega

theorem Rising.append {slack b e : Nat} {cs : List Nat} (h : Rising slack b cs e)
    (hslack : slack ≤ 1) : Rising slack b (cs ++ [e + 1]) (e + 1) := by
  induction cs generalizing slack b with
  | nil =>
    obtain ⟨hle, hge⟩ := h
    rcases Nat.eq_or_lt_of_le hle with rfl | hlt
    · exact .inl ⟨rfl, le_rfl, Nat.le_add_right _ _⟩
    · exact .inr ⟨by omega, by omega, le_rfl, le_rfl⟩
  | cons c cs ih =>
    rcases h with ⟨hc, h⟩ | ⟨hs, hc, h⟩
    · exact .inl ⟨hc, ih h hslack⟩
    · exact .inr ⟨hs, hc, ih h (Nat.zero_le _)⟩

/-- Losing one of the ACKs leaves a slack. -/
theorem Rising.eraseIdx {b e : Nat} {cs : List Nat} (h : Rising 0 b cs e) (i : Nat) :
    Rising 1 b (cs.eraseIdx i) e := by
  induction cs generalizing b i with
  | nil => exact ⟨h.1, h.2.trans (Nat.le_succ _)⟩
  | cons c cs ih =>
    obtain ⟨rfl, h⟩ := h.resolve_right (by simp)
    cases i with
    | zero =>
      cases cs with
      | nil => exact ⟨(Nat.le_succ b).trans h.1, h.2⟩
      | cons c cs =>
        obtain ⟨hc, h⟩ := h.resolve_right (by simp)
        exact .inr ⟨rfl, hc, h⟩
    | succ i => exact .inl ⟨rfl, ih h i⟩

theorem Rising.tight {b e : Nat} {cs : List Nat} (h : Rising 0 b cs e) : Tight b cs e := by
  induction cs generalizing b with
  | nil => exact Nat.le_antisymm h.2 h.1
  | cons c cs ih =>
    obtain ⟨hc, h⟩ := h.resolve_right (by simp)
    exact ⟨by omega, hc.le, ih h⟩

theorem Tight.le {b e : Nat} {cs : List Nat} (h : Tight b cs e) : b ≤ e := by
  induction cs generalizing b with
  | nil => exact h.ge
  | cons c cs ih => exact h.1.trans (ih h.2.2)

theorem Tight.append {b e e' : Nat} {cs : List Nat} (h : Tight b cs e) (hle : e ≤ e')
    (hge : e' ≤ e + 1) : Tight b (cs ++ [e']) e' := by
  induction cs generalizing b with
  | nil =>
    cases h
    exact ⟨hle, hge, rfl⟩
  | cons c cs ih => exact ⟨h.1, h.2.1, ih h.2.2⟩

/-! ## The phases of a run -/

/-- The datagram of a segment, by its number and the window it was sent in. -/
def segmentOf (segs : List Bytes) (n : Nat × UInt16) : Bytes :=
  sendSegment (UInt32.ofNat n.1) (segs.getD n.1 []) n.2

/-- Both sides are in their loops: segments `ns` are on their way to the receiver,
    and ACKs `cs` to the sender. -/
structure Joint.Pipeline (t : Transfer α) (segs : List Bytes) (ns : List (Nat × UInt16))
    (cs : List Nat) (s : Joint α) : Prop where
  sender : s.sender.InMain t.sender segs
  receiver : s.receiver.point = .loopHead ∨ s.receiver.point = .awaitDatagram
  window : s.receiver.advertisedWindow = t.advertisedWindow
  heard : s.receiver.sender.isKnown = true → s.receiver.sender = t.socket.toEndpoint
  expectedSeq_le : s.receiver.expectedSeq.toNat ≤ segs.length
  toReceiver : s.toReceiver = ns.map (segmentOf segs)
  toSender : s.toSender = cs.map fun c => ackOf c t.advertisedWindow
  numbers_lt : ∀ n ∈ ns, n.1 < segs.length

/-- The first phase: nothing is sent twice, and at most `slack` ACKs are missing. -/
structure Joint.Streams (t : Transfer α) (segs : List Bytes) (slack : Nat)
    (ns : List (Nat × UInt16)) (cs : List Nat) (s : Joint α) : Prop
    extends s.Pipeline t segs ns cs where
  expectedSeq_le_nextSeq : s.receiver.expectedSeq.toNat ≤ s.sender.nextSeq.toNat
  numbers : ns.map Prod.fst = List.range' s.receiver.expectedSeq.toNat
    (s.sender.nextSeq.toNat - s.receiver.expectedSeq.toNat)
  rising : Rising slack s.sender.base.toNat cs s.receiver.expectedSeq.toNat
  duplicateAckCount : s.sender.duplicateAckCount = 0
  retryRnd : s.sender.retryRnd = 0

/-- The second phase, after the loss: segments are sent again, in any order, but
    `base` does not stay where it is. -/
structure Joint.Retransmits (t : Transfer α) (segs : List Bytes) (ns : List (Nat × UInt16))
    (cs : List Nat) (s : Joint α) : Prop extends s.Pipeline t segs ns cs where
  /-- No ACK is missing, or it is the last one, and the segment it was about comes
      first of all that is sent again. -/
  aligned : Tight s.sender.base.toNat cs s.receiver.expectedSeq.toNat ∨
    cs = [] ∧ s.receiver.expectedSeq.toNat = s.sender.base.toNat + 1 ∧
      (ns = [] ∧ s.sender.point.runs = true ∧ s.sender.nextSeq = s.sender.base ∨
        ∃ w rest, ns = (s.sender.base.toNat, w) :: rest)
  duplicateAckCount : 0 ≤ s.sender.duplicateAckCount ∧ s.sender.duplicateAckCount ≤ 2
  lastDuplicateAck : s.sender.duplicateAckCount = 0 ∨
    s.sender.lastDuplicateAck = s.sender.base - 1
  retryRnd : 0 ≤ s.sender.retryRnd ∧ s.sender.retryRnd ≤ t.sender.maxRetransmitRounds
  /-- The segment at `base` is about to be sent, or on its way, or received; or the
      sender has not gone back to it yet. -/
  progress : s.sender.point.runs = true ∧ s.sender.nextSeq = s.sender.base ∨
    (∃ w, (s.sender.base.toNat, w) ∈ ns) ∨
    s.sender.base.toNat < s.receiver.expectedSeq.toNat ∨ s.sender.retryRnd = 0

/-- A datagram that ends a transfer. -/
def isFin (d : Bytes) : Bool := hasFlag (deserializeHeader d) FLAG_FIN

/-- How many FINs the FIN phase has sent. -/
def SenderPoint.finsSent : SenderPoint → Int
  | .finHead attempt => attempt
  | .awaitFinAck attempt => attempt + 1
  | .loopHead | .sending _ | .awaitAck | .returned _ => 0

/-- The last phase, in which FINs are sent. -/
structure Joint.Finishing (t : Transfer α) (segs : List Bytes) (lost : Bool) (s : Joint α) :
    Prop where
  segs_eq : s.sender.segs = segs
  point : ∃ attempt, (s.sender.point = .finHead attempt ∨ s.sender.point = .awaitFinAck attempt) ∧
    0 ≤ attempt ∧ attempt < t.sender.maxRetransmitRounds
  expectedSeq : s.receiver.expectedSeq.toNat = segs.length
  heard : s.receiver.sender.isKnown = true → s.receiver.sender = t.socket.toEndpoint
  toReceiver : ∀ d ∈ s.toReceiver, (∃ n : Nat × UInt16, n.1 < segs.length ∧ d = segmentOf segs n) ∨
    ∃ n w, d = sendFIN n w
  /-- While the receiver is running, at most one of the FINs is missing; once it
      has returned, its FINACK is on its way. -/
  receiver : (s.receiver.point = .loopHead ∨ s.receiver.point = .awaitDatagram) ∧
      (∀ d ∈ s.toSender, ¬LooksLikeFinAck (readInto ACK_BUFFER_SIZE d)) ∧
      s.sender.point.finsSent ≤ s.toReceiver.countP isFin + (if lost then 1 else 0) ∨
    s.receiver.point = .returned true ∧
      ∃ d ∈ s.toSender, LooksLikeFinAck (readInto ACK_BUFFER_SIZE d)

/-! ## The receiver, counted -/

omit [Double α] in
theorem isFin_segmentOf (segs : List Bytes) (n : Nat × UInt16) : isFin (segmentOf segs n) = false := by
  rw [isFin, segmentOf, sendSegment, deserializeHeader_packet, hasFlag_stamp,
    hasFlag_dataHeader_fin]

theorem isFin_sendFIN (n : UInt32) (w : UInt16) : isFin (sendFIN n w) = true := by
  rw [isFin, sendFIN, deserializeHeader_packet, hasFlag_stamp, hasFlag_finHeader_fin]

theorem not_looksLikeFinAck_ack (k : UInt32) (w : UInt16) :
    ¬LooksLikeFinAck (readInto ACK_BUFFER_SIZE (packet (ackHeader k w) [])) := by
  rintro ⟨_, hfin, _⟩
  rw [readInto_ack, deserializeHeader_packet, hasFlag_stamp, hasFlag_ackHeader_fin] at hfin
  cases hfin

theorem looksLikeFinAck_finAck (k : UInt32) (w : UInt16) :
    LooksLikeFinAck (readInto ACK_BUFFER_SIZE (packet (finAckHeader k w) [])) := by
  rw [readInto_finAck, LooksLikeFinAck, deserializeHeader_packet]
  exact ⟨by rw [length_packet]; exact Nat.le_add_right _ _, by simp, by simp⟩

/-- What reading a segment does to the receiver. -/
structure ReceiverState.ReadSegment (e' : Nat) (sender : Endpoint) (r r' : ReceiverState) : Prop where
  expectedSeq : r'.expectedSeq.toNat = e'
  window : r'.advertisedWindow = r.advertisedWindow
  sender : r'.sender = sender
  point : r'.point = .loopHead

/-- A segment that fits the buffer is accepted if it is the one expected next. -/
theorem ReceiverState.readSegment {segs : List Bytes} (hlen : segs.length < 2 ^ 32)
    (hfit : ∀ seg ∈ segs, seg.length ≤ MAX_PAYLOAD) {n : Nat × UInt16} (hn : n.1 < segs.length)
    (sender : Endpoint) (r : ReceiverState) :
    r.ReadSegment (if n.1 = r.expectedSeq.toNat then n.1 + 1 else r.expectedSeq.toNat) sender
      (r.afterSegment sender (UInt32.ofNat n.1) (segs.getD n.1 []) n.2) := by
  have hread : Readable (UInt32.ofNat n.1) (segs.getD n.1 []) n.2 := by
    rw [List.getD_eq_getElem _ _ hn]
    exact readable_of_length_le (hfit _ (List.getElem_mem hn))
  have hnum : (UInt32.ofNat n.1).toNat = n.1 := UInt32.toNat_ofNat_of_lt' (hn.trans hlen)
  have heq : UInt32.ofNat n.1 = r.expectedSeq ↔ n.1 = r.expectedSeq.toNat := by
    rw [← UInt32.toNat_inj, hnum]
  rw [afterSegment]
  by_cases h : n.1 = r.expectedSeq.toNat
  · rw [if_pos h, if_pos ⟨hread, heq.2 h⟩]
    refine ⟨?_, rfl, rfl, rfl⟩
    show (r.expectedSeq + 1).toNat = n.1 + 1
    rw [UInt32.toNat_add, ← h]
    exact Nat.mod_eq_of_lt (by simp; omega)
  · rw [if_neg h, if_neg fun hacc => h (heq.1 hacc.2)]
    exact ⟨rfl, rfl, rfl, rfl⟩

/-! ## The rank of a state -/

/-- How many segments are left to acknowledge; none in the FIN phase. -/
def SenderState.segmentsLeft (n : Nat) (s : SenderState α) : Nat :=
  match s.point with
  | .loopHead | .sending _ | .awaitAck => n + 1 - s.base.toNat
  | .finHead _ | .awaitFinAck _ | .returned _ => 0

/-- How many rounds of retransmission are left. -/
def SenderState.roundsLeft (cfg : RDTWindowSender α) (s : SenderState α) : Nat :=
  match s.point with
  | .loopHead | .sending _ | .awaitAck => (cfg.maxRetransmitRounds - s.retryRnd).toNat
  | .finHead attempt | .awaitFinAck attempt => (cfg.maxRetransmitRounds - attempt).toNat
  | .returned _ => 0

/-- How many ACKs may still be sent for nothing, with `acks` on their way. -/
def SenderState.patience (acks : Nat) (s : SenderState α) : Nat :=
  match s.point with
  | .loopHead | .sending _ | .awaitAck => 3 - s.duplicateAckCount.toNat - acks
  | .finHead _ | .awaitFinAck _ | .returned _ => 1 - acks

/-- The work a point of the sender is ahead of. -/
def SenderPoint.work : SenderPoint → Nat
  | .loopHead => 2
  | .sending _ => 1
  | .finHead _ => 8
  | .awaitAck | .awaitFinAck _ | .returned _ => 0

/-- The work a state is ahead of, if nothing is sent again. -/
def Joint.work (n : Nat) (s : Joint α) : Nat :=
  8 * (n - s.sender.nextSeq.toNat) + 6 * s.toReceiver.length + 4 * s.toSender.length +
    s.sender.point.work + (if s.receiver.point = .loopHead then 1 else 0)

/-- The first state is closer to the end of the transfer than the second. -/
def Joint.Below (t : Transfer α) (n : Nat) (s' s : Joint α) : Prop :=
  s'.sender.segmentsLeft n < s.sender.segmentsLeft n ∨
  s'.sender.segmentsLeft n = s.sender.segmentsLeft n ∧
    (s'.sender.roundsLeft t.sender < s.sender.roundsLeft t.sender ∨
    s'.sender.roundsLeft t.sender = s.sender.roundsLeft t.sender ∧
      (s'.sender.patience s'.toSender.length < s.sender.patience s.toSender.length ∨
      s'.sender.patience s'.toSender.length = s.sender.patience s.toSender.length ∧
        s'.work n < s.work n))

omit [Double α] in
/-- Work done is progress, unless it costs a round or an ACK. -/
theorem Joint.below_of_work {t : Transfer α} {n : Nat} {s' s : Joint α}
    (hsegments : s'.sender.segmentsLeft n = s.sender.segmentsLeft n)
    (hrounds : s'.sender.roundsLeft t.sender = s.sender.roundsLeft t.sender)
    (hpatience : s'.sender.patience s'.toSender.length ≤ s.sender.patience s.toSender.length)
    (hwork : s'.work n < s.work n) : s'.Below t n s :=
  .inr ⟨hsegments, .inr ⟨hrounds, hpatience.lt_or_eq.imp_right (⟨·, hwork⟩)⟩⟩

omit [Double α] in
theorem SenderState.patience_le (s : SenderState α) {acks acks' : Nat} (h : acks ≤ acks') :
    s.patience acks' ≤ s.patience acks := by
  rw [patience, patience]
  split <;> omega

omit [Double α] in
theorem Joint.below_wf (t : Transfer α) (n : Nat) :
    WellFounded (Joint.Below t n) := by
  have hwf : WellFounded (Prod.Lex (· < ·) (Prod.Lex (· < ·) (Prod.Lex (· < ·) (· < ·))) :
      ℕ × ℕ × ℕ × ℕ → ℕ × ℕ × ℕ × ℕ → Prop) :=
    (WellFounded.prod_lex wellFounded_lt (WellFounded.prod_lex wellFounded_lt
      (WellFounded.prod_lex wellFounded_lt wellFounded_lt)))
  refine Subrelation.wf (fun {s' s} h => ?_) (InvImage.wf (fun s : Joint α =>
    (s.sender.segmentsLeft n, s.sender.roundsLeft t.sender,
      s.sender.patience s.toSender.length, s.work n)) hwf)
  simp only [InvImage, Prod.lex_def]
  exact h

end HybridFtp
