import HybridFtp.Rdt.Completeness
import HybridFtp.Rdt.Strangers

/-!
# One sender

What datagrams from other endpoints do to a call of `receiveData` that has accepted a
segment.

* `ReceiverState.react`: what the receiver does between two calls of `recvFrom`;
* `listening`: two calls that receive the same, except that datagrams of strangers are
  inserted into what the first one receives, from the first segment accepted on;
* `listens_to_one`: the receiver does not look at the endpoint at all. It takes a stranger's
  FIN, or the segment expected next, and it answers the next timeout to the stranger.
-/

namespace HybridFtp

namespace ReceiverState

/-- What the receiver does with the outcome of a `recvFrom`, up to the next. -/
def react (e : Reception) (r : ReceiverState) : ReceiverState × List (Endpoint × Bytes) :=
  if r.point = .awaitDatagram then
    ((r.receive e.cancelled e.arrival).1.advance e.cancelledNext,
      (r.receive e.cancelled e.arrival).2)
  else (r, [])

/-- What is in the buffer ends the call. -/
def Ends (recvBuf : Bytes) : Prop :=
  Verifies recvBuf ∧ hasFlag (deserializeHeader recvBuf) FLAG_FIN = true

instance (recvBuf : Bytes) : Decidable (Ends recvBuf) := inferInstanceAs (Decidable (_ ∧ _))

variable {r : ReceiverState} {sender : Endpoint} {datagram : Bytes}

/-- A datagram that is neither accepted nor a FIN only tells where it comes from. -/
theorem receive_heard (hp : r.point = .awaitDatagram)
    (hends : ¬Ends (readInto DATA_BUFFER_SIZE datagram))
    (haccepts : ¬r.Accepts (readInto DATA_BUFFER_SIZE datagram)) (sender : Endpoint) :
    (r.receive false (some (sender, datagram))).1 = r.heard sender := by
  simp only [receive, hp, recvFrom, Option.map_some, Bool.false_eq_true, if_false]
  generalize readInto DATA_BUFFER_SIZE datagram = recvBuf at *
  split_ifs with hlen
  · rfl
  · rw [onDatagram]
    dsimp only
    split_ifs with hverify hfin hdata hseq
    · exact absurd ⟨⟨not_lt.1 hlen, hverify⟩, hfin⟩ hends
    · refine absurd ⟨⟨not_lt.1 hlen, hverify⟩, ?_, hdata, hseq⟩ haccepts
      simpa using hfin
    · rfl
    · rfl
    · rfl

theorem receive_of_ends (hp : r.point = .awaitDatagram)
    (hends : Ends (readInto DATA_BUFFER_SIZE datagram)) (sender : Endpoint) :
    (r.receive false (some (sender, datagram))).1 =
      { r with sender, point := .returned true } := by
  obtain ⟨⟨hlen, hverify⟩, hfin⟩ := hends
  simp only [receive, hp, recvFrom, Option.map_some, Bool.false_eq_true, if_false]
  rw [if_neg (not_lt.2 hlen), onDatagram]
  simp only [hverify, hfin, not_true_eq_false, if_false, if_true]

/-- What is sent in answer to a datagram goes where it comes from. -/
theorem mem_receive (hp : r.point = .awaitDatagram) (cancelled : Bool) (sender : Endpoint)
    (datagram : Bytes) {sent : Endpoint × Bytes}
    (h : sent ∈ (r.receive cancelled (some (sender, datagram))).2) : sent.1 = sender := by
  have hack : ∀ r' : ReceiverState, r'.sender = sender → sent ∈ r'.sendCumulativeAck →
      sent.1 = sender := by
    intro r' hsender hmem
    rw [sendCumulativeAck] at hmem
    split_ifs at hmem
    · rw [List.mem_singleton.1 hmem, hsender]
    · cases hmem
  simp only [receive, hp, recvFrom, Option.map_some, onDatagram] at h
  split_ifs at h
  · cases h
  · exact hack _ rfl h
  · rw [List.mem_singleton.1 h]
  · exact hack _ rfl h
  · exact hack _ rfl h
  · cases h
  · exact hack _ rfl h

/-- The endpoint noted before only matters to what a timeout sends. -/
theorem react_sender (r : ReceiverState) (noted : Endpoint) (e : Reception)
    (h : r.point = .awaitDatagram → e.cancelled = false → e.arrival = none → noted = r.sender) :
    (({ r with sender := noted } : ReceiverState).react e).2 = (r.react e).2 ∧
      ∃ noted', (({ r with sender := noted } : ReceiverState).react e).1 =
        { (r.react e).1 with sender := noted' } := by
  by_cases hp : r.point = .awaitDatagram
  · rw [react, react, if_pos hp, if_pos hp]
    dsimp only
    cases harrival : e.arrival with
    -- The endpoint of the datagram replaces the one noted.
    | some arrival =>
      have hreceive : ({ r with sender := noted } : ReceiverState).receive e.cancelled (some arrival) =
          r.receive e.cancelled (some arrival) := by
        simp only [receive, hp, recvFrom, Option.map_some]
      rw [hreceive]
      exact ⟨rfl, _, rfl⟩
    | none =>
      cases hcancelled : e.cancelled with
      | true =>
        simp only [receive, hp, recvFrom, Option.map_none, if_true]
        exact ⟨trivial, noted, rfl⟩
      | false =>
        obtain rfl := h hp hcancelled harrival
        exact ⟨rfl, _, rfl⟩
  · rw [react, react, if_neg hp, if_neg hp]
    exact ⟨rfl, noted, rfl⟩

end ReceiverState

/-! ## Two calls -/

/-- Two calls of `receiveData`, and what they have sent in answer to what both receive,
    the last datagrams first. -/
structure Listening where
  first : ReceiverState
  second : ReceiverState
  firstSent : List (Endpoint × Bytes) := []
  secondSent : List (Endpoint × Bytes) := []
  deriving DecidableEq

/-- Two calls that receive the same, except for the datagrams of strangers, which only the
    first one receives. They begin when a segment from `peer` has been accepted. -/
def listening (peer : Endpoint) : Machine Listening (Incoming peer) where
  init := {c | ∃ (r : ReceiverState) (e : Reception) (datagram : Bytes),
    receiving.Reachable r ∧ r.point = .awaitDatagram ∧ e.cancelled = false ∧
      e.arrival = some (peer, datagram) ∧ r.Accepts (readInto DATA_BUFFER_SIZE datagram) ∧
        c = { first := (r.react e).1, second := (r.react e).1 }}
  step
    | .genuine e, c => some
      { first := (c.first.react e).1
        second := (c.second.react e).1
        firstSent := (c.first.react e).2 ++ c.firstSent
        secondSent := (c.second.react e).2 ++ c.secondSent }
    | .stranger sender datagram sendOk, c => some
      { c with first := (c.first.react (Incoming.stranger sender datagram sendOk).reception).1 }

/-- The two calls receive the same stream, and answer what both receive alike. -/
structure SameStream (c : Listening) : Prop where
  outData : c.first.outData = c.second.outData
  expectedSeq : c.first.expectedSeq = c.second.expectedSeq
  point : c.first.point = c.second.point
  sent : c.firstSent = c.secondSent

/-- A stranger's datagram is not taken for a FIN, nor for the segment expected next; and
    no timeout follows on it. -/
def Harmless {peer : Endpoint} (c : Listening) : Incoming peer → Prop
  | .genuine e => c.first.point = .awaitDatagram → e.cancelled = false → e.arrival = none →
      c.first.sender = c.second.sender
  | .stranger _ datagram _ => c.first.point = .awaitDatagram →
      ¬ReceiverState.Ends (readInto DATA_BUFFER_SIZE datagram) ∧
        ¬c.first.Accepts (readInto DATA_BUFFER_SIZE datagram)

instance {peer : Endpoint} (c : Listening) : DecidablePred (@Harmless peer c)
  | .genuine _ => inferInstanceAs (Decidable (_ → _ → _ → _))
  | .stranger .. => inferInstanceAs (Decidable (_ → _ ∧ _))

section

variable {peer : Endpoint} {c c' : Listening}

/-- The two calls differ in the endpoint they have noted, at most. -/
structure SameBut (c : Listening) : Prop where
  first : ∃ noted, c.first = { c.second with sender := noted }
  sent : c.firstSent = c.secondSent

theorem SameBut.sameStream (h : SameBut c) : SameStream c := by
  obtain ⟨noted, hfirst⟩ := h.first
  refine ⟨?_, ?_, ?_, h.sent⟩
  all_goals rw [hfirst]

theorem SameBut.genuine {e : Reception} (h : SameBut c)
    (hharmless : @Harmless peer c (.genuine e))
    (hs : (listening peer).step (.genuine e) c = some c') : SameBut c' := by
  obtain rfl := Option.some.inj hs
  obtain ⟨noted, hfirst⟩ := h.first
  obtain ⟨hsent, hsame⟩ := c.second.react_sender noted e fun hp hcancelled harrival => by
    have hsender := hharmless (by rw [hfirst, ← hp]) hcancelled harrival
    rwa [hfirst] at hsender
  rw [← hfirst] at hsent hsame
  exact ⟨hsame, congrArg₂ _ hsent h.sent⟩

theorem SameBut.stranger {sender : { e : Endpoint // e ≠ peer }} {datagram : Bytes}
    {sendOk : UInt32 → Bool} (h : SameBut c)
    (hharmless : Harmless c (.stranger sender datagram sendOk))
    (hs : (listening peer).step (.stranger sender datagram sendOk) c = some c') : SameBut c' := by
  obtain rfl := Option.some.inj hs
  obtain ⟨noted, hfirst⟩ := h.first
  refine ⟨?_, h.sent⟩
  by_cases hp : c.first.point = .awaitDatagram
  · obtain ⟨hends, haccepts⟩ := hharmless hp
    have hreact : (c.first.react (Incoming.stranger sender datagram sendOk).reception).1 =
        { c.first with sender := sender.1 } := by
      rw [ReceiverState.react, if_pos hp]
      simp only [Incoming.reception, ReceiverState.receive_heard hp hends haccepts]
      rw [ReceiverState.heard, ReceiverState.advance, ← hp]
      rfl
    refine ⟨sender.1, ?_⟩
    rw [hreact, hfirst]
  · rw [ReceiverState.react, if_neg hp]
    exact ⟨noted, hfirst⟩

theorem sameBut (h : (listening peer).ReachableBy Harmless c) : SameBut c := by
  refine h.invariant ?_ ?_
  · rintro c ⟨r, e, datagram, _, _, _, _, _, rfl⟩
    exact ⟨⟨_, rfl⟩, rfl⟩
  · rintro c (e | ⟨sender, datagram, sendOk⟩) c' hsame hharmless hs
    · exact hsame.genuine hharmless hs
    · exact hsame.stranger hharmless hs

/-- A stranger's FIN, or the segment expected next, is taken. -/
theorem harmless_of_stranger {sender : { e : Endpoint // e ≠ peer }} {datagram : Bytes}
    {sendOk : UInt32 → Bool} (h : SameStream c)
    (hs : (listening peer).step (.stranger sender datagram sendOk) c = some c')
    (h' : SameStream c') : Harmless c (.stranger sender datagram sendOk) := by
  obtain rfl := Option.some.inj hs
  intro hp
  have hreact : (c.first.react (Incoming.stranger sender datagram sendOk).reception).1 =
      (c.first.receive false (some (sender.1, datagram))).1.advance false := by
    rw [ReceiverState.react, if_pos hp]
    rfl
  refine ⟨fun hends => ?_, fun haccepts => ?_⟩
  · -- The first call has returned, the second one still waits.
    have hpoint := h'.point
    rw [← h.point, hp] at hpoint
    simp only [hreact, ReceiverState.receive_of_ends hp hends, ReceiverState.advance] at hpoint
    cases hpoint
  · -- The first call expects the next number already.
    have hseq := h'.expectedSeq
    rw [← h.expectedSeq] at hseq
    simp only [hreact, ReceiverState.receive_of_accepts hp _ haccepts] at hseq
    have hnext : c.first.expectedSeq + 1 = c.first.expectedSeq := hseq
    simp at hnext

/-- A timeout is answered to the endpoint noted last. -/
theorem harmless_of_genuine {e : Reception} (h : SameStream c)
    (hknown : c.second.sender.isKnown = true)
    (hs : (listening peer).step (.genuine e) c = some c') (h' : SameStream c') :
    @Harmless peer c (.genuine e) := by
  obtain rfl := Option.some.inj hs
  intro hp hcancelled harrival
  have hreact : ∀ r : ReceiverState, r.point = .awaitDatagram →
      (r.react e).2 = r.sendCumulativeAck := by
    intro r hr
    rw [ReceiverState.react, if_pos hr, hcancelled, harrival]
    simp only [ReceiverState.receive, hr, recvFrom, Option.map_none, Bool.false_eq_true, if_false]
  have hsent := h'.sent
  simp only [hreact _ hp, hreact _ (h.point.symm.trans hp), h.sent] at hsent
  -- Both have sent the same before, so what they send now goes to one endpoint.
  have hack := List.append_cancel_right hsent
  rw [ReceiverState.sendCumulativeAck, ReceiverState.sendCumulativeAck, if_pos hknown] at hack
  split_ifs at hack
  · exact congrArg Prod.fst (List.head_eq_of_cons_eq hack)

end

/-- As long as no datagram of a stranger is taken for a FIN or for the segment expected
    next, and no timeout follows on one, the call goes as it does without them; any other
    makes a difference. -/
theorem listens_to_one {peer : Endpoint} {c : Listening}
    (h : (listening peer).ReachableBy Harmless c) :
    SameStream c ∧
    (∀ (e : Reception) (sender : Endpoint) (datagram : Bytes),
      e.arrival = some (sender, datagram) → ∀ sent ∈ (c.first.react e).2, sent.1 = sender) ∧
    ∀ e c', (listening peer).step e c = some c' → c.second.sender.isKnown = true →
      (SameStream c' ↔ Harmless c e) := by
  have hsame := sameBut h
  refine ⟨hsame.sameStream, ?_, ?_⟩
  · intro e sender datagram harrival sent hmem
    rw [ReceiverState.react] at hmem
    split_ifs at hmem with hp
    · rw [harrival] at hmem
      exact ReceiverState.mem_receive hp _ _ _ hmem
    · cases hmem
  · rintro (e | ⟨sender, datagram, sendOk⟩) c' hs hknown
    · exact ⟨harmless_of_genuine hsame.sameStream hknown hs,
        fun hharmless => (hsame.genuine hharmless hs).sameStream⟩
    · exact ⟨harmless_of_stranger hsame.sameStream hs,
        fun hharmless => (hsame.stranger hharmless hs).sameStream⟩

/-- A datagram is received from the file server. -/
def hears (datagram : Bytes) : Reception where
  arrival := some (fileServer, datagram)
  cancelled := false
  cancelledNext := false
  sendOk _ := true

/-- Two calls that have accepted the first segment from the file server. -/
def hasBegun : Listening where
  first := (ReceiverState.react (hears (sendSegment 0 [104] 1))
    { idleReceiver with point := .awaitDatagram }).1
  second := (ReceiverState.react (hears (sendSegment 0 [104] 1))
    { idleReceiver with point := .awaitDatagram }).1

theorem hasBegun_init : ∀ c ∈ some hasBegun, c ∈ (listening fileServer).init := by
  rintro c hc
  cases hc
  refine ⟨{ idleReceiver with point := .awaitDatagram }, hears (sendSegment 0 [104] 1),
    sendSegment 0 [104] 1, ⟨idleReceiver, ⟨8, {}, rfl⟩, ?_⟩, rfl, rfl, rfl, by decide +kernel, rfl⟩
  exact Machine.Reaches.refl.tail (e := .advance false) trivial rfl

/-- An endpoint that is not that of the sender. -/
def aForger : { e : Endpoint // e ≠ fileServer } :=
  ⟨{ ip := "192.168.1.9", port := 53 }, by decide⟩

/-- A segment from elsewhere that is not the one expected next does no harm. -/
theorem listens_to_one_stale :
    ∃ c, (listening fileServer).ReachableBy Harmless c ∧ c.second.outData = [104, 105] ∧
      SameStream c := by
  obtain ⟨c, hc, hP⟩ := (listening fileServer).exists_reachableBy_of_run Harmless
    hasBegun_init
    [.stranger aForger (sendSegment 0 [120] 1) fun _ => true,
      .genuine (hears (sendSegment 1 [105] 1))]
    (fun c => c.second.outData = [104, 105]) (by decide +kernel)
  exact ⟨c, hc, of_decide_eq_true hP, (listens_to_one hc).1⟩

/-- The second segment is taken from a stranger. -/
theorem not_listens_to_one :
    ¬∀ (peer : Endpoint) (c : Listening), (listening peer).Reachable c → SameStream c := by
  intro h
  obtain ⟨c, hc, hP⟩ := (listening fileServer).exists_reachableBy_of_run (fun _ _ => True)
    hasBegun_init
    [.stranger aForger (sendSegment 1 [120] 1) fun _ => true,
      .genuine (hears (sendSegment 1 [105] 1))]
    (fun c => c.first.outData = [104, 120] ∧ c.second.outData = [104, 105]) (by decide +kernel)
  obtain ⟨hfirst, hsecond⟩ := of_decide_eq_true hP
  have hsame := (h fileServer c hc).outData
  rw [hfirst, hsecond] at hsame
  exact absurd hsame (by decide)

end HybridFtp
