import HybridFtp.Rdt.Socket
import Mathlib.Data.Rat.Floor

/-!
# The window sender

`RDTWindowSender::sendData`: Go-Back-N with slow start and AIMD. A run of
`sendData` is a sequence of moves between the points where it looks at the
outside world:

* `advance`: the code up to the next datagram sent, or to the next `recvFrom`;
* `receive`: what the code does with the outcome of `recvFrom`.

The congestion window is a `double`. The moves only use the operations of the
class `Double`, so that what is proved about them holds for IEEE doubles and for
exact rationals alike.
-/

namespace HybridFtp

/-- The arithmetic of `double` the congestion control is written in, with the
    facts on small integers that any such arithmetic satisfies. -/
class Double (α : Type) where
  add : α → α → α
  div : α → α → α
  floor : α → α
  /-- `a < b` -/
  lt : α → α → Bool
  /-- `static_cast<double>(n)` -/
  ofUInt32 : UInt32 → α
  /-- `static_cast<uint32_t>(x)` -/
  toUInt32 : α → UInt32
  lt_irrefl : ∀ x, lt x x = false
  floor_ofUInt32 : ∀ n, floor (ofUInt32 n) = ofUInt32 n
  toUInt32_ofUInt32 : ∀ n, toUInt32 (ofUInt32 n) = n

namespace Double

variable {α : Type} [Double α]

/-- `std::max` -/
def max (a b : α) : α := if lt a b then b else a

/-- `std::min` -/
def min (a b : α) : α := if lt b a then b else a

/-- The literal `1.0`. -/
def one : α := ofUInt32 1

/-- The literal `2.0`. -/
def two : α := ofUInt32 2

theorem max_self (x : α) : max x x = x := by simp [max]

end Double

instance : Double ℚ where
  add := (· + ·)
  div := (· / ·)
  floor x := ⌊x⌋
  lt a b := a < b
  ofUInt32 n := n.toNat
  toUInt32 x := UInt32.ofNat ⌊x⌋.toNat
  lt_irrefl x := by simp
  floor_ofUInt32 n := by simp
  toUInt32_ofUInt32 n := by simp

/-! ## Segmentation -/

/-- The loop that cuts the data into segments of at most `mss` bytes, for at most
    `fuel` rounds. -/
def segmentLoop (mss : Nat) : Nat → Bytes → Option (List Bytes)
  | _, [] => some []
  | 0, _ => none
  | fuel + 1, data => (segmentLoop mss fuel (data.drop mss)).map (data.take mss :: ·)

/-- The segments of a buffer: one empty segment if there are no data. A round of
    the loop takes at least a byte, unless the loop does not end (`none`). -/
def segments (mss : Nat) (data : Bytes) : Option (List Bytes) :=
  (segmentLoop mss data.length data).map fun segs => if segs.isEmpty then [[]] else segs

theorem segmentLoop_flatten {mss fuel : Nat} {data : Bytes} {segs : List Bytes}
    (h : segmentLoop mss fuel data = some segs) : segs.flatten = data := by
  induction fuel generalizing data segs with
  | zero =>
    cases data with
    | nil => cases h; rfl
    | cons b data => simp [segmentLoop] at h
  | succ fuel ih =>
    cases data with
    | nil => cases h; rfl
    | cons b data =>
      simp only [segmentLoop, Option.map_eq_some_iff] at h
      obtain ⟨rest, hrest, rfl⟩ := h
      rw [List.flatten_cons, ih hrest, List.take_append_drop]

theorem length_of_mem_segmentLoop {mss fuel : Nat} {data : Bytes} {segs : List Bytes}
    (h : segmentLoop mss fuel data = some segs) {seg : Bytes} (hseg : seg ∈ segs) :
    seg.length ≤ mss := by
  induction fuel generalizing data segs with
  | zero =>
    cases data with
    | nil => cases h; cases hseg
    | cons b data => simp [segmentLoop] at h
  | succ fuel ih =>
    cases data with
    | nil => cases h; cases hseg
    | cons b data =>
      simp only [segmentLoop, Option.map_eq_some_iff] at h
      obtain ⟨rest, hrest, rfl⟩ := h
      rcases List.mem_cons.1 hseg with rfl | hseg
      · exact List.length_take_le _ _
      · exact ih hrest hseg

/-- The segments are the data, cut into pieces. -/
theorem segments_flatten {mss : Nat} {data : Bytes} {segs : List Bytes}
    (h : segments mss data = some segs) : segs.flatten = data := by
  simp only [segments, Option.map_eq_some_iff] at h
  obtain ⟨loop, hloop, rfl⟩ := h
  have := segmentLoop_flatten hloop
  cases loop with
  | nil => simpa using this
  | cons seg loop => simpa using this

theorem length_of_mem_segments {mss : Nat} {data : Bytes} {segs : List Bytes}
    (h : segments mss data = some segs) {seg : Bytes} (hseg : seg ∈ segs) :
    seg.length ≤ mss := by
  simp only [segments, Option.map_eq_some_iff] at h
  obtain ⟨loop, hloop, rfl⟩ := h
  cases loop with
  | nil => simp_all
  | cons s loop => exact length_of_mem_segmentLoop hloop (by simpa using hseg)

/-- There is always a segment to send. -/
theorem segments_ne_nil {mss : Nat} {data : Bytes} {segs : List Bytes}
    (h : segments mss data = some segs) : segs ≠ [] := by
  simp only [segments, Option.map_eq_some_iff] at h
  obtain ⟨loop, hloop, rfl⟩ := h
  cases loop <;> simp

/-- The loop ends as soon as a segment may hold a byte. -/
theorem segments_isSome {mss : Nat} (hmss : 0 < mss) (data : Bytes) :
    (segments mss data).isSome := by
  have loop : ∀ fuel (data : Bytes), data.length ≤ fuel → (segmentLoop mss fuel data).isSome := by
    intro fuel
    induction fuel with
    | zero =>
      intro data hdata
      rw [List.eq_nil_of_length_eq_zero (Nat.le_zero.1 hdata)]
      rfl
    | succ fuel ih =>
      intro data hdata
      cases data with
      | nil => rfl
      | cons b data =>
        simp only [segmentLoop, Option.isSome_map]
        exact ih _ (by rw [List.length_drop]; omega)
  simpa [segments] using loop data.length data le_rfl

/-! ## Datagrams of the sender -/

/-- The header of a DATA segment. -/
def dataHeader (seqNum : UInt32) (payload : Bytes) (senderWindow : UInt16) : CustomUDPHeader :=
  setFlag { seqNum, payloadLen := UInt16.ofNat payload.length, windowSize := senderWindow } FLAG_DATA

/-- The datagram `sendSegment` sends. -/
def sendSegment (seqNum : UInt32) (payload : Bytes) (senderWindow : UInt16) : Bytes :=
  packet (dataHeader seqNum payload senderWindow) payload

/-- The header of a FIN. -/
def finHeader (seqNum : UInt32) (senderWindow : UInt16) : CustomUDPHeader :=
  setFlag { seqNum, windowSize := senderWindow } FLAG_FIN

/-- The datagram `sendFIN` sends. -/
def sendFIN (seqNum : UInt32) (senderWindow : UInt16) : Bytes :=
  packet (finHeader seqNum senderWindow) []

/-! ## The sender -/

/-- The configuration of a `RDTWindowSender`. -/
structure RDTWindowSender (α : Type) where
  dest : Endpoint
  mss : Nat
  initialCwnd : α
  initialSsthresh : α
  maxWindowSegments : UInt32
  maxRetransmitRounds : Int

/-- `std::numeric_limits<uint32_t>::max()` -/
def UINT32_MAX : UInt32 := 0xFFFFFFFF

/-- The points of `sendData` between two moves. -/
inductive SenderPoint
  /-- At the head of the main loop. -/
  | loopHead
  /-- In the loop that sends the window, of size `wnd`. -/
  | sending (wnd : UInt32)
  /-- In the `recvFrom` of the main loop. -/
  | awaitAck
  /-- At the head of the loop of the FIN phase. -/
  | finHead (attempt : Int)
  /-- In the `recvFrom` of the FIN phase. -/
  | awaitFinAck (attempt : Int)
  | returned (ok : Bool)
  deriving DecidableEq, Repr

/-- The sender is in a `recvFrom`. -/
def SenderPoint.waits : SenderPoint → Bool
  | .awaitAck | .awaitFinAck _ => true
  | .loopHead | .sending _ | .finHead _ | .returned _ => false

/-- The sender has code to run before it waits or returns. -/
def SenderPoint.runs : SenderPoint → Bool
  | .loopHead | .sending _ | .finHead _ => true
  | .awaitAck | .awaitFinAck _ | .returned _ => false

/-- The state of a call of `sendData`. -/
structure SenderState (α : Type) where
  segs : List Bytes
  cwnd : α
  ssthresh : α
  recvWindow : UInt32
  totalTimeouts : Int := 0
  totalPacketsSent : UInt32 := 0
  base : UInt32 := 0
  nextSeq : UInt32 := 0
  retryRnd : Int := 0
  lastDuplicateAck : UInt32 := UINT32_MAX
  duplicateAckCount : Int := 0
  point : SenderPoint := .loopHead

/-- The size of the buffers the sender receives into. -/
def ACK_BUFFER_SIZE : Nat := CUSTOM_UDP_HEADER_SIZE + 64

namespace SenderState

variable {α : Type} [Double α]

open Double

/-- The number of segments, as the code counts them. -/
def N (s : SenderState α) : UInt32 := UInt32.ofNat s.segs.length

/-- The state at the start of `sendData`; `none` if it does not get past the
    segmentation of the data. -/
def init (cfg : RDTWindowSender α) (data : Bytes) : Option (SenderState α) :=
  (segments cfg.mss data).map fun segs =>
    { segs, cwnd := cfg.initialCwnd, ssthresh := cfg.initialSsthresh,
      recvWindow := toUInt32 cfg.initialSsthresh }

/-- The window to send: the smallest of three, and at least one segment. -/
def computeEffectiveWindow (cfg : RDTWindowSender α) (s : SenderState α) : UInt32 :=
  let cw := toUInt32 (Double.max one (floor s.cwnd))
  -- A closed window counts as one segment, or both sides would wait for each other.
  let rw := if s.recvWindow = 0 then 1 else s.recvWindow
  let eff := Min.min (Min.min cw rw) cfg.maxWindowSegments
  if eff = 0 then 1 else eff

/-- The code up to the next datagram sent, or to the next `recvFrom`. It reads
    the cancellation callback at the heads of the loops; `sendOk` tells whether
    `sendTo` succeeds. -/
def advance (cfg : RDTWindowSender α) (cancelled sendOk : Bool) (s : SenderState α) :
    SenderState α × List Bytes :=
  match s.point with
  | .loopHead =>
    if s.base < s.N then
      if cancelled then ({ s with point := .returned false }, [])
      else ({ s with point := .sending (computeEffectiveWindow cfg s) }, [])
    else ({ s with point := .finHead 0 }, [])
  | .sending wnd =>
    if s.nextSeq < s.N ∧ s.nextSeq < s.base + wnd then
      if sendOk then
        ({ s with totalPacketsSent := s.totalPacketsSent + 1, nextSeq := s.nextSeq + 1 },
          [sendSegment s.nextSeq (s.segs.getD s.nextSeq.toNat []) wnd.toUInt16])
      else ({ s with point := .returned false }, [])
    else ({ s with point := .awaitAck }, [])
  | .finHead attempt =>
    if attempt < cfg.maxRetransmitRounds then
      if cancelled then ({ s with point := .returned false }, [])
      -- Nobody looks at whether the FIN could be sent.
      else ({ s with point := .awaitFinAck attempt },
        [sendFIN s.N (computeEffectiveWindow cfg s).toUInt16])
    else ({ s with point := .returned false }, [])
  | .awaitAck | .awaitFinAck _ | .returned _ => (s, [])

/-- A timeout: multiplicative decrease, and back to `base`. -/
def onTimeout (cfg : RDTWindowSender α) (s : SenderState α) : SenderState α :=
  let s := { s with totalTimeouts := s.totalTimeouts + 1, retryRnd := s.retryRnd + 1 }
  if s.retryRnd > cfg.maxRetransmitRounds then { s with point := .returned false }
  else
    { s with
      ssthresh := Double.max (div s.cwnd two) one
      cwnd := one
      nextSeq := s.base
      point := .loopHead }

/-- The congestion window after a newly acknowledged segment. -/
def grow (cfg : RDTWindowSender α) (ssthresh cwnd : α) : α :=
  let cwnd := if lt cwnd ssthresh then add cwnd one else add cwnd (div one cwnd)
  Double.min cwnd (ofUInt32 cfg.maxWindowSegments)

/-- A cumulative ACK of segments not acknowledged yet slides the window. -/
def onNewAck (cfg : RDTWindowSender α) (ackNum : UInt32) (s : SenderState α) : SenderState α :=
  { s with
    cwnd := (grow cfg s.ssthresh)^[(ackNum + 1 - s.base).toNat] s.cwnd
    base := ackNum + 1
    retryRnd := 0
    duplicateAckCount := 0
    lastDuplicateAck := UINT32_MAX
    point := .loopHead }

/-- A duplicate ACK: the third one triggers a fast retransmit. -/
def onDuplicateAck (cfg : RDTWindowSender α) (ackNum : UInt32) (s : SenderState α) :
    SenderState α :=
  let s := if ackNum = s.lastDuplicateAck then
      { s with duplicateAckCount := s.duplicateAckCount + 1 }
    else { s with lastDuplicateAck := ackNum, duplicateAckCount := 1 }
  if s.duplicateAckCount ≥ 3 then
    -- These rounds and those after timeouts have one counter.
    let s := { s with retryRnd := s.retryRnd + 1 }
    if s.retryRnd > cfg.maxRetransmitRounds then { s with point := .returned false }
    else
      { s with
        ssthresh := Double.max (div s.cwnd two) one
        cwnd := one
        nextSeq := s.base
        duplicateAckCount := 0
        point := .loopHead }
  else { s with point := .loopHead }

/-- The window the receiver advertises, unless it is closed. -/
def noteWindow (rxWindow : UInt16) (s : SenderState α) : SenderState α :=
  if rxWindow > 0 then { s with recvWindow := rxWindow.toUInt32 } else s

/-- An ACK from the receiver, with a valid checksum. -/
def onAck (cfg : RDTWindowSender α) (ackNum : UInt32) (rxWindow : UInt16) (s : SenderState α) :
    SenderState α :=
  let s := s.noteWindow rxWindow
  if s.base ≤ ackNum ∧ ackNum < s.nextSeq ∧ ackNum < s.N then onNewAck cfg ackNum s
  else if ackNum < s.base ∨ ackNum = UINT32_MAX then onDuplicateAck cfg ackNum s
  -- An ACK of a segment that has not been sent yet.
  else { s with point := .loopHead }

/-- What the main loop does with a datagram: only an ACK from the destination
    counts, with a valid checksum. -/
def onDatagram (cfg : RDTWindowSender α) (sender : Endpoint) (recvBuf : Bytes)
    (s : SenderState α) : SenderState α :=
  let ackHdr := deserializeHeader recvBuf
  if ¬verifyChecksum ackHdr (recvBuf.drop CUSTOM_UDP_HEADER_SIZE) then { s with point := .loopHead }
  else if ¬hasFlag ackHdr FLAG_ACK then { s with point := .loopHead }
  else if sender ≠ cfg.dest then { s with point := .loopHead }
  else onAck cfg ackHdr.ackNum ackHdr.windowSize s

/-- What the FIN phase does with a datagram: only its flags count. -/
def onFinDatagram (attempt : Int) (ackBuf : Bytes) (s : SenderState α) : SenderState α :=
  let h := deserializeHeader ackBuf
  if hasFlag h FLAG_FIN ∧ hasFlag h FLAG_ACK then { s with point := .returned true }
  else { s with point := .finHead (attempt + 1) }

/-- What the code does with the outcome of `recvFrom`. The main loop reads the
    cancellation callback first. -/
def receive (cfg : RDTWindowSender α) (cancelled : Bool) (arrival : Received)
    (s : SenderState α) : SenderState α :=
  match s.point, recvFrom ACK_BUFFER_SIZE arrival with
  | .awaitAck, received =>
    if cancelled then { s with point := .returned false }
    else match received with
      | none => onTimeout cfg s
      | some (sender, recvBuf) =>
        if recvBuf.length < CUSTOM_UDP_HEADER_SIZE then onTimeout cfg s
        else onDatagram cfg sender recvBuf s
  | .awaitFinAck attempt, none => { s with point := .finHead (attempt + 1) }
  | .awaitFinAck attempt, some (_, ackBuf) =>
    if ackBuf.length < CUSTOM_UDP_HEADER_SIZE then { s with point := .finHead (attempt + 1) }
    else onFinDatagram attempt ackBuf s
  | _, _ => s

/-! ## The moves from each point -/

section

variable {cfg : RDTWindowSender α} {cancelled sendOk : Bool} {s : SenderState α}

theorem advance_loopHead (hp : s.point = .loopHead) (hb : s.base < s.N) :
    s.advance cfg false sendOk =
      ({ s with point := .sending (s.computeEffectiveWindow cfg) }, []) := by
  simp [advance, hp, hb]

theorem advance_loopHead_done (hp : s.point = .loopHead) (hb : ¬s.base < s.N) :
    s.advance cfg cancelled sendOk = ({ s with point := .finHead 0 }, []) := by
  simp [advance, hp, hb]

theorem advance_sending {wnd : UInt32} (hp : s.point = .sending wnd)
    (hn : s.nextSeq < s.N ∧ s.nextSeq < s.base + wnd) :
    s.advance cfg cancelled true =
      ({ s with
          totalPacketsSent := s.totalPacketsSent + 1
          nextSeq := s.nextSeq + 1 },
        [sendSegment s.nextSeq (s.segs.getD s.nextSeq.toNat []) wnd.toUInt16]) := by
  simp [advance, hp, hn]

theorem advance_sending_done {wnd : UInt32} (hp : s.point = .sending wnd)
    (hn : ¬(s.nextSeq < s.N ∧ s.nextSeq < s.base + wnd)) :
    s.advance cfg cancelled sendOk = ({ s with point := .awaitAck }, []) := by
  rw [advance]
  simp only [hp]
  rw [if_neg hn]

theorem advance_finHead {attempt : Int} (hp : s.point = .finHead attempt)
    (ha : attempt < cfg.maxRetransmitRounds) :
    s.advance cfg false sendOk = ({ s with point := .awaitFinAck attempt },
      [sendFIN s.N (s.computeEffectiveWindow cfg).toUInt16]) := by
  simp [advance, hp, ha]

/-- A cancellation ends the call, whatever has arrived. -/
theorem receive_cancelled (hp : s.point = .awaitAck) (cfg : RDTWindowSender α)
    (arrival : Received) : s.receive cfg true arrival = { s with point := .returned false } := by
  rw [receive, hp]
  rfl

/-- What the FIN phase does with the outcome of `recvFrom`. -/
theorem receive_awaitFinAck_cases {attempt : Int} (hp : s.point = .awaitFinAck attempt)
    (cfg : RDTWindowSender α) (cancelled : Bool) (arrival : Received) :
    s.receive cfg cancelled arrival = { s with point := .finHead (attempt + 1) } ∨
      s.receive cfg cancelled arrival = { s with point := .returned true } := by
  rw [receive, hp]
  cases recvFrom ACK_BUFFER_SIZE arrival with
  | none => exact .inl rfl
  | some arrival =>
    dsimp only
    split_ifs
    · exact .inl rfl
    · rw [onFinDatagram]
      split_ifs
      · exact .inr rfl
      · exact .inl rfl

end

/-! ## What a move can do -/

/-- The FIN phase: all segments are acknowledged. -/
def inFinPhase (s : SenderState α) : Prop :=
  match s.point with
  | .finHead _ | .awaitFinAck _ | .returned true => True
  | .loopHead | .sending _ | .awaitAck | .returned false => False

/-- A move that does not acknowledge anything, enter the FIN phase, or succeed. -/
structure Keeps (s s' : SenderState α) : Prop where
  segs : s'.segs = s.segs
  base : s'.base = s.base
  inFinPhase : s'.inFinPhase → s.inFinPhase
  returned : s'.point = .returned true → s.point = .returned true

/-- Up to the next datagram or the next `recvFrom`, the code moves on (into the
    FIN phase only if everything is acknowledged), sends the next segment, or
    sends a FIN. -/
theorem advance_cases {cfg : RDTWindowSender α} {cancelled sendOk : Bool} {s s' : SenderState α}
    {sent : List Bytes} (h : s.advance cfg cancelled sendOk = (s', sent)) :
    (sent = [] ∧ s.Keeps s') ∨
    (sent = [] ∧ ¬s.base < s.N ∧ s' = { s with point := .finHead 0 }) ∨
    (∃ wnd, s.point = .sending wnd ∧ s.nextSeq < s.N ∧
      s' = { s with totalPacketsSent := s.totalPacketsSent + 1, nextSeq := s.nextSeq + 1 } ∧
      sent = [sendSegment s.nextSeq (s.segs.getD s.nextSeq.toNat []) wnd.toUInt16]) ∨
    (∃ attempt wnd, s.point = .finHead attempt ∧ s' = { s with point := .awaitFinAck attempt } ∧
      sent = [sendFIN s.N wnd]) := by
  rw [advance] at h
  split at h
  · split_ifs at h <;> cases h
    · exact .inl ⟨rfl, rfl, rfl, by simp [inFinPhase], by simp⟩
    · exact .inl ⟨rfl, rfl, rfl, by simp [inFinPhase], by simp⟩
    · exact .inr (.inl ⟨rfl, ‹_›, rfl⟩)
  · rename_i wnd hp
    split_ifs at h with hn hok <;> cases h
    · exact .inr (.inr (.inl ⟨wnd, hp, hn.1, rfl, rfl⟩))
    · exact .inl ⟨rfl, rfl, rfl, by simp [inFinPhase], by simp⟩
    · exact .inl ⟨rfl, rfl, rfl, by simp [inFinPhase], by simp⟩
  · rename_i attempt hp
    split_ifs at h <;> cases h
    · exact .inl ⟨rfl, rfl, rfl, by simp [inFinPhase], by simp⟩
    · exact .inr (.inr (.inr ⟨attempt, _, hp, rfl, rfl⟩))
    · exact .inl ⟨rfl, rfl, rfl, by simp [inFinPhase], by simp⟩
  all_goals
    cases h
    exact .inl ⟨rfl, rfl, rfl, id, id⟩

omit [Double α] in
/-- A move back to the head of the main loop that leaves `segs` and `base` alone. -/
theorem keeps_loopHead {s s' : SenderState α} (hsegs : s'.segs = s.segs) (hbase : s'.base = s.base)
    (hpoint : s'.point = .loopHead ∨ s'.point = .returned false) : s.Keeps s' := by
  refine ⟨hsegs, hbase, fun hf => ?_, fun hr => ?_⟩ <;> rcases hpoint with hp | hp <;>
    simp_all [inFinPhase]

theorem keeps_onTimeout (cfg : RDTWindowSender α) (s : SenderState α) :
    s.Keeps (s.onTimeout cfg) := by
  rw [onTimeout]
  dsimp only
  split_ifs
  · exact keeps_loopHead rfl rfl (.inr rfl)
  · exact keeps_loopHead rfl rfl (.inl rfl)

theorem keeps_onDuplicateAck (cfg : RDTWindowSender α) (ackNum : UInt32) (s : SenderState α) :
    s.Keeps (s.onDuplicateAck cfg ackNum) := by
  rw [onDuplicateAck]
  dsimp only
  split_ifs
  all_goals first
    | exact keeps_loopHead rfl rfl (.inr rfl)
    | exact keeps_loopHead rfl rfl (.inl rfl)

omit [Double α] in
@[simp] theorem noteWindow_segs (rxWindow : UInt16) (s : SenderState α) :
    (s.noteWindow rxWindow).segs = s.segs := by
  rw [noteWindow]; split_ifs <;> rfl

omit [Double α] in
@[simp] theorem noteWindow_base (rxWindow : UInt16) (s : SenderState α) :
    (s.noteWindow rxWindow).base = s.base := by
  rw [noteWindow]; split_ifs <;> rfl

omit [Double α] in
@[simp] theorem noteWindow_nextSeq (rxWindow : UInt16) (s : SenderState α) :
    (s.noteWindow rxWindow).nextSeq = s.nextSeq := by
  rw [noteWindow]; split_ifs <;> rfl

omit [Double α] in
@[simp] theorem noteWindow_point (rxWindow : UInt16) (s : SenderState α) :
    (s.noteWindow rxWindow).point = s.point := by
  rw [noteWindow]; split_ifs <;> rfl

omit [Double α] in
@[simp] theorem noteWindow_N (rxWindow : UInt16) (s : SenderState α) :
    (s.noteWindow rxWindow).N = s.N := by
  rw [N, noteWindow_segs, N]

/-- The main loop takes an undamaged ACK from the destination as one. -/
theorem onDatagram_of_ack (cfg : RDTWindowSender α) {sender : Endpoint} {recvBuf : Bytes}
    {s : SenderState α}
    (hsum : verifyChecksum (deserializeHeader recvBuf)
      (recvBuf.drop CUSTOM_UDP_HEADER_SIZE) = true)
    (hack : hasFlag (deserializeHeader recvBuf) FLAG_ACK = true) (hdest : sender = cfg.dest) :
    s.onDatagram cfg sender recvBuf = s.onAck cfg (deserializeHeader recvBuf).ackNum
      (deserializeHeader recvBuf).windowSize := by
  simp [onDatagram, hsum, hack, hdest]

/-- The main loop ignores any other datagram. -/
theorem onDatagram_ignored (cfg : RDTWindowSender α) {sender : Endpoint} {recvBuf : Bytes}
    {s : SenderState α}
    (h : ¬(verifyChecksum (deserializeHeader recvBuf)
      (recvBuf.drop CUSTOM_UDP_HEADER_SIZE) = true ∧
      hasFlag (deserializeHeader recvBuf) FLAG_ACK = true ∧ sender = cfg.dest)) :
    s.onDatagram cfg sender recvBuf = { s with point := .loopHead } := by
  simp only [onDatagram]
  split_ifs <;> simp_all

/-- A datagram of the main loop moves `base` right after the segment its ACK
    carries, if it is an undamaged ACK from the destination, for a segment that
    has been sent and was not acknowledged yet; else it does nothing to `base`. -/
theorem onDatagram_cases (cfg : RDTWindowSender α) (sender : Endpoint) (recvBuf : Bytes)
    (s : SenderState α) :
    s.Keeps (s.onDatagram cfg sender recvBuf) ∨
    (verifyChecksum (deserializeHeader recvBuf) (recvBuf.drop CUSTOM_UDP_HEADER_SIZE) = true ∧
      hasFlag (deserializeHeader recvBuf) FLAG_ACK = true ∧ sender = cfg.dest ∧
      s.base ≤ (deserializeHeader recvBuf).ackNum ∧
      (deserializeHeader recvBuf).ackNum < s.nextSeq ∧
      (deserializeHeader recvBuf).ackNum < s.N ∧
      (s.onDatagram cfg sender recvBuf).segs = s.segs ∧
      (s.onDatagram cfg sender recvBuf).base = (deserializeHeader recvBuf).ackNum + 1 ∧
      (s.onDatagram cfg sender recvBuf).point = .loopHead) := by
  by_cases h : verifyChecksum (deserializeHeader recvBuf)
      (recvBuf.drop CUSTOM_UDP_HEADER_SIZE) = true ∧
      hasFlag (deserializeHeader recvBuf) FLAG_ACK = true ∧ sender = cfg.dest
  swap
  · rw [onDatagram_ignored cfg h]
    exact .inl (keeps_loopHead rfl rfl (.inl rfl))
  obtain ⟨hsum, hack, hdest⟩ := h
  rw [onDatagram_of_ack cfg hsum hack hdest, onAck]
  simp only [noteWindow_base, noteWindow_nextSeq, noteWindow_N]
  split_ifs with hnew hdup
  · exact .inr ⟨hsum, hack, hdest, hnew.1, hnew.2.1, hnew.2.2, by simp [onNewAck],
      by simp [onNewAck], rfl⟩
  · have hk := keeps_onDuplicateAck cfg (deserializeHeader recvBuf).ackNum
      (s.noteWindow (deserializeHeader recvBuf).windowSize)
    refine .inl ⟨by simpa using hk.segs, by simpa using hk.base, fun h => ?_, fun h => ?_⟩
    · simpa [inFinPhase] using hk.inFinPhase h
    · simpa using hk.returned h
  · exact .inl (keeps_loopHead (by simp) (by simp) (.inl rfl))

/-- What the outcome of `recvFrom` can do to the state: nothing that matters;
    move `base` past an acknowledged segment, in the main loop; or end `sendData`
    with success, in the FIN phase. -/
theorem receive_cases (cfg : RDTWindowSender α) (cancelled : Bool) (arrival : Received)
    (s : SenderState α) :
    s.Keeps (s.receive cfg cancelled arrival) ∨
    (∃ recvBuf ackNum, s.point = .awaitAck ∧
      recvFrom ACK_BUFFER_SIZE arrival = some (cfg.dest, recvBuf) ∧ Verifies recvBuf ∧
      hasFlag (deserializeHeader recvBuf) FLAG_ACK = true ∧
      (deserializeHeader recvBuf).ackNum = ackNum ∧
      s.base ≤ ackNum ∧ ackNum < s.nextSeq ∧ ackNum < s.N ∧
      (s.receive cfg cancelled arrival).segs = s.segs ∧
      (s.receive cfg cancelled arrival).base = ackNum + 1 ∧
      (s.receive cfg cancelled arrival).point = .loopHead) ∨
    (∃ attempt sender ackBuf, s.point = .awaitFinAck attempt ∧
      recvFrom ACK_BUFFER_SIZE arrival = some (sender, ackBuf) ∧
      CUSTOM_UDP_HEADER_SIZE ≤ ackBuf.length ∧
      hasFlag (deserializeHeader ackBuf) FLAG_FIN = true ∧
      hasFlag (deserializeHeader ackBuf) FLAG_ACK = true ∧
      s.receive cfg cancelled arrival = { s with point := .returned true }) := by
  rw [receive]
  split
  · rename_i hp
    split_ifs
    · exact .inl (keeps_loopHead rfl rfl (.inr rfl))
    · split
      · exact .inl (keeps_onTimeout cfg s)
      · rename_i sender recvBuf hr
        split_ifs with hlen
        · exact .inl (keeps_onTimeout cfg s)
        · rcases onDatagram_cases cfg sender recvBuf s with hk | ⟨hsum, hack, rfl, h⟩
          · exact .inl hk
          · exact .inr (.inl ⟨recvBuf, _, hp, hr, ⟨not_lt.1 hlen, hsum⟩, hack, rfl, h⟩)
  · rename_i attempt hp _
    exact .inl ⟨rfl, rfl, fun _ => by simp [inFinPhase, hp], by simp⟩
  · rename_i attempt sender ackBuf hp hr
    split_ifs with hlen
    · exact .inl ⟨rfl, rfl, fun _ => by simp [inFinPhase, hp], by simp⟩
    · rw [onFinDatagram]
      split_ifs with hflags
      · exact .inr (.inr ⟨attempt, sender, ackBuf, hp, hr, not_lt.1 hlen, hflags.1, hflags.2, rfl⟩)
      · exact .inl ⟨rfl, rfl, fun _ => by simp [inFinPhase, hp], by simp⟩
  · exact .inl ⟨rfl, rfl, id, id⟩

/-- The window after a rollback: it has collapsed to one segment, whatever the
    receiver advertises. -/
theorem computeEffectiveWindow_of_cwnd {s : SenderState α} (h : s.cwnd = one)
    (cfg : RDTWindowSender α) : s.computeEffectiveWindow cfg = 1 := by
  have hcw : toUInt32 (Double.max one (floor s.cwnd)) = 1 := by
    rw [h, one, floor_ofUInt32, Double.max_self, toUInt32_ofUInt32]
  -- The other two bounds are at least one, or count as one.
  have hmin : ∀ x : UInt32, x ≠ 0 → Min.min 1 x = 1 := by
    intro x hx
    have hpos : 0 < x.toNat := Nat.pos_of_ne_zero fun h0 => hx (UInt32.toNat_inj.1 h0)
    have hle : (1 : UInt32) ≤ x := UInt32.le_iff_toNat_le.2 hpos
    exact if_pos hle
  rw [computeEffectiveWindow]
  simp only [hcw]
  rw [hmin _ (by split_ifs with h0; exacts [by decide, h0])]
  by_cases hmax : cfg.maxWindowSegments = 0
  · rw [hmax]
    rfl
  · rw [hmin _ hmax]
    rfl

end SenderState

end HybridFtp
