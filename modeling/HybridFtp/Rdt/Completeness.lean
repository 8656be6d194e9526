import HybridFtp.Lib.Machine
import HybridFtp.Rdt.Datagrams

/-!
# Complete streams

A call of `receiveData` on its own, whatever datagrams it receives.

* `receiving`: the machine of the receiver, and `acceptance`, what it accepts;
* `Accounted`: what has been accepted makes up the state of the receiver, as long as it
  runs;
* `Complete`: what a FIN announces has been accepted. Any FIN ends the call, whatever
  it announces, so that the stream is complete only if the FIN has the number that is
  expected next (`complete_iff`).
-/

namespace HybridFtp

/-- A move of the receiver. -/
inductive ReceiverEvent
  | advance (cancelled : Bool)
  | receive (cancelled : Bool) (arrival : Received)

/-- The machine of a call of `receiveData`, which waits for nothing but datagrams. The
    caller passes the variables for the endpoint, with any value. -/
def receiving : Machine ReceiverState ReceiverEvent where
  init := {r | ∃ advertisedWindow sender, r = { advertisedWindow, sender }}
  step
    | .advance cancelled, r => if r.point = .loopHead then some (r.advance cancelled) else none
    | .receive cancelled arrival, r =>
      if r.point = .awaitDatagram then some (r.receive cancelled arrival).1 else none

theorem receiving_step {r r' : ReceiverState} {e : ReceiverEvent}
    (h : receiving.step e r = some r') :
    (∃ cancelled, e = .advance cancelled ∧ r.point = .loopHead ∧ r' = r.advance cancelled) ∨
    (∃ cancelled arrival, e = .receive cancelled arrival ∧ r.point = .awaitDatagram ∧
      r' = (r.receive cancelled arrival).1) := by
  cases e with
  | advance cancelled =>
    obtain ⟨hp, hs⟩ := Option.ite_none_right_eq_some.1 h
    exact .inl ⟨cancelled, rfl, hp, (Option.some.inj hs).symm⟩
  | receive cancelled arrival =>
    obtain ⟨hp, hs⟩ := Option.ite_none_right_eq_some.1 h
    exact .inr ⟨cancelled, arrival, rfl, hp, (Option.some.inj hs).symm⟩

/-- The number and the payload of the segment that a move accepts. -/
def acceptance (r : ReceiverState) : ReceiverEvent → Option (UInt32 × Bytes)
  | .receive false (some (_, datagram)) =>
    let recvBuf := readInto DATA_BUFFER_SIZE datagram
    if r.Accepts recvBuf then
      some ((deserializeHeader recvBuf).seqNum, recvBuf.drop CUSTOM_UDP_HEADER_SIZE)
    else none
  | .receive true _ | .receive false none | .advance _ => none

/-- The segments accepted are those numbered below `n`, one of each and in order, and the
    data are their payloads. -/
structure Complete (n : UInt32) (accepted : List (UInt32 × Bytes)) (outData : Bytes) : Prop where
  numbers : accepted.map Prod.fst = (List.range n.toNat).map UInt32.ofNat
  outData : outData = (accepted.map Prod.snd).flatten

/-! ## Accounts -/

/-- What has been accepted, the last segment first, makes up the state. -/
structure Accounted (r : ReceiverState) (accepted : List (UInt32 × Bytes)) : Prop where
  expectedSeq : r.expectedSeq = UInt32.ofNat accepted.length
  numbers : accepted.reverse.map Prod.fst = (List.range accepted.length).map UInt32.ofNat
  outData : r.outData = (accepted.reverse.map Prod.snd).flatten

variable {r r' : ReceiverState} {accepted : List (UInt32 × Bytes)}

theorem Accounted.of_eq (h : Accounted r accepted) (hseq : r'.expectedSeq = r.expectedSeq)
    (hdata : r'.outData = r.outData) : Accounted r' accepted :=
  ⟨hseq.trans h.expectedSeq, h.numbers, hdata.trans h.outData⟩

theorem Accounted.accept (h : Accounted r accepted) (sender : Endpoint) (payload : Bytes) :
    Accounted (r.accept sender payload) ((r.expectedSeq, payload) :: accepted) := by
  refine ⟨?_, ?_, ?_⟩
  · show r.expectedSeq + 1 = UInt32.ofNat (accepted.length + 1)
    rw [h.expectedSeq, UInt32.ofNat_add]
    rfl
  · rw [List.reverse_cons, List.map_append, h.numbers, List.length_cons, List.range_succ,
      List.map_append, h.expectedSeq]
    rfl
  · show r.outData ++ payload = _
    rw [List.reverse_cons, List.map_append, List.flatten_append, ← h.outData]
    simp

/-- A move that accepts nothing leaves the account alone. -/
theorem receive_unchanged {cancelled : Bool} {arrival : Received}
    (h : acceptance r (.receive cancelled arrival) = none) :
    (r.receive cancelled arrival).1.expectedSeq = r.expectedSeq ∧
      (r.receive cancelled arrival).1.outData = r.outData := by
  cases hr : r.receive cancelled arrival with
  | mk r' sent =>
    rcases ReceiverState.receive_cases hr with
      hkeeps | ⟨_, recvBuf, hp, hrecv, _, _, _, _, rfl, _⟩ | ⟨_, _, _, _, _, _, rfl, _⟩
    · exact ⟨hkeeps.expectedSeq, hkeeps.outData⟩
    · -- A segment that is appended has been observed.
      obtain ⟨⟨sender, datagram⟩, rfl, _⟩ := Option.map_eq_some_iff.1 hrecv
      obtain ⟨rfl, _, haccepts⟩ := ReceiverState.accepts_of_expectedSeq
        (congrArg (fun out => out.1.expectedSeq) hr)
      rw [acceptance, if_pos haccepts] at h
      cases h
    · exact ⟨rfl, rfl⟩

theorem exists_of_acceptance {cancelled : Bool} {arrival : Received} {segment : UInt32 × Bytes}
    (h : acceptance r (.receive cancelled arrival) = some segment) :
    ∃ sender datagram, cancelled = false ∧ arrival = some (sender, datagram) ∧
      r.Accepts (readInto DATA_BUFFER_SIZE datagram) ∧ segment =
        (r.expectedSeq, (readInto DATA_BUFFER_SIZE datagram).drop CUSTOM_UDP_HEADER_SIZE) := by
  cases cancelled with
  | true => cases h
  | false =>
    cases arrival with
    | none => cases h
    | some arrival =>
      obtain ⟨haccepts, heq⟩ := Option.ite_none_right_eq_some.1 h
      refine ⟨arrival.1, arrival.2, rfl, rfl, haccepts, ?_⟩
      rw [← Option.some.inj heq, haccepts.2.2.2]

theorem Accounted.step {e : ReceiverEvent} (h : Accounted r accepted)
    (hs : receiving.step e r = some r') :
    Accounted r' ((acceptance r e).toList ++ accepted) := by
  rcases receiving_step hs with ⟨cancelled, rfl, _, rfl⟩ | ⟨cancelled, arrival, rfl, hp, rfl⟩
  · have hkeeps := ReceiverState.keeps_advance cancelled r
    exact h.of_eq hkeeps.expectedSeq hkeeps.outData
  · cases ha : acceptance r (.receive cancelled arrival) with
    | none =>
      obtain ⟨hseq, hdata⟩ := receive_unchanged ha
      exact h.of_eq hseq hdata
    | some segment =>
      obtain ⟨sender, datagram, rfl, rfl, haccepts, rfl⟩ := exists_of_acceptance ha
      rw [ReceiverState.receive_of_accepts hp sender haccepts]
      exact h.accept sender _

/-- The account is kept from the start of the call on. -/
theorem accounted (h : (receiving.recording acceptance).Reachable (r, accepted)) :
    Accounted r accepted := by
  refine Machine.recording_invariant h ?_ fun r history e r' hI hs => hI.step hs
  rintro r ⟨advertisedWindow, sender, rfl⟩
  exact ⟨rfl, rfl, rfl⟩

/-! ## The end of the call -/

/-- Only a FIN ends the call with success, and it leaves the data as they are. -/
theorem returned_cases {cancelled : Bool} {arrival : Received}
    (hs : receiving.step (.receive cancelled arrival) r = some r')
    (hreturned : r'.point = .returned true) :
    ∃ sender fin, recvFrom DATA_BUFFER_SIZE arrival = some (sender, fin) ∧ Verifies fin ∧
      hasFlag (deserializeHeader fin) FLAG_FIN = true ∧ r'.outData = r.outData := by
  obtain ⟨hp, hr'⟩ := Option.ite_none_right_eq_some.1 hs
  obtain rfl := Option.some.inj hr'
  cases hr : r.receive cancelled arrival with
  | mk r' sent =>
    rw [hr] at hreturned
    rcases ReceiverState.receive_cases hr with
      hkeeps | ⟨_, _, _, _, _, _, _, _, rfl, _⟩ | ⟨sender, fin, _, hrecv, hverifies, hfin, rfl, _⟩
    · rw [hkeeps.returned, hp] at hreturned
      cases hreturned
    · cases hreturned
    · exact ⟨sender, fin, hrecv, hverifies, hfin, rfl⟩

/-- The call ends with success on a FIN, and the stream is complete if and only if the
    FIN has the number that is expected next, and the numbers have not run out before. -/
theorem complete_iff (h : (receiving.recording acceptance).Reachable (r, accepted))
    {cancelled : Bool} {arrival : Received}
    (hs : receiving.step (.receive cancelled arrival) r = some r')
    (hreturned : r'.point = .returned true) :
    ∃ sender fin, recvFrom DATA_BUFFER_SIZE arrival = some (sender, fin) ∧
      hasFlag (deserializeHeader fin) FLAG_FIN = true ∧
      (Complete (deserializeHeader fin).seqNum accepted.reverse r'.outData ↔
        (deserializeHeader fin).seqNum = r.expectedSeq ∧ accepted.length < 2 ^ 32) := by
  have hacc := accounted h
  obtain ⟨sender, fin, hrecv, _, hfin, hdata⟩ := returned_cases hs hreturned
  refine ⟨sender, fin, hrecv, hfin, ?_⟩
  constructor
  · intro hcomplete
    -- As many segments have been accepted as the FIN says.
    have hlength := congrArg List.length hcomplete.numbers
    simp only [List.length_map, List.length_reverse, List.length_range] at hlength
    rw [hacc.expectedSeq, hlength, UInt32.ofNat_toNat]
    exact ⟨rfl, (deserializeHeader fin).seqNum.toNat_lt⟩
  · rintro ⟨hnext, hlt⟩
    have hlength : (deserializeHeader fin).seqNum.toNat = accepted.length := by
      rw [hnext, hacc.expectedSeq, UInt32.toNat_ofNat_of_lt' hlt]
    exact ⟨hlength ▸ hacc.numbers, hdata.trans hacc.outData⟩

/-- The receiver at the start of a call. -/
def idleReceiver : ReceiverState := { advertisedWindow := 8 }

/-- Where the segments come from. -/
def fileServer : Endpoint := { ip := "127.0.0.1", port := 5000 }

/-- A call that has just begun waits for a datagram. -/
theorem reachable_awaitDatagram : (receiving.recording acceptance).Reachable
    ({ idleReceiver with point := .awaitDatagram }, []) :=
  ⟨(idleReceiver, []), ⟨⟨8, {}, rfl⟩, rfl⟩, Machine.Reaches.refl.tail (e := .advance false) trivial rfl⟩

/-- Two segments, the first one twice, and a FIN of their number. -/
theorem complete_iff_greeting :
    ∃ r accepted, (receiving.recording acceptance).Reachable (r, accepted) ∧
      r.outData = [104, 105] ∧ Complete 2 accepted.reverse r.outData := by
  have hstart : ∀ s ∈ some (idleReceiver, []), s ∈ (receiving.recording acceptance).init := by
    intro s hs
    cases hs
    exact ⟨⟨8, {}, rfl⟩, rfl⟩
  obtain ⟨⟨r, accepted⟩, hreach, hP⟩ := (receiving.recording acceptance).exists_reachableBy_of_run
    (fun _ _ => True) hstart
    [.advance false, .receive false (some (fileServer, sendSegment 0 [104] 1)),
      .advance false, .receive false (some (fileServer, sendSegment 0 [104] 1)),
      .advance false, .receive false (some (fileServer, sendSegment 1 [105] 1)), .advance false]
    (fun s => s.1.outData = [104, 105] ∧ s.1.expectedSeq = 2 ∧ s.2.length = 2 ∧
      s.1.point = .awaitDatagram ∧
      (s.1.receive false (some (fileServer, sendFIN 2 1))).1.point = .returned true ∧
      (s.1.receive false (some (fileServer, sendFIN 2 1))).1.outData = [104, 105])
    (by decide +kernel)
  obtain ⟨hdata, hseq, hlength, hp, hreturned, hkept⟩ := of_decide_eq_true hP
  have hread : recvFrom DATA_BUFFER_SIZE (some (fileServer, sendFIN 2 1)) =
      some (fileServer, sendFIN 2 1) := by decide +kernel
  obtain ⟨_, fin, hrecv, _, hiff⟩ := complete_iff hreach (if_pos hp) hreturned
  obtain ⟨rfl, rfl⟩ := Prod.mk.inj (Option.some.inj (hread.symm.trans hrecv))
  have hnumber : (deserializeHeader (sendFIN 2 1)).seqNum = 2 := by decide +kernel
  rw [hnumber, hkept, ← hdata] at hiff
  exact ⟨r, accepted, hreach, hdata, hiff.2 ⟨hseq.symm, by rw [hlength]; decide⟩⟩

/-- A FIN of the number 5 ends a call that has accepted nothing. -/
theorem not_complete_of_fin :
    (receiving.recording acceptance).Reachable
        ({ idleReceiver with point := .awaitDatagram }, []) ∧
      receiving.step (.receive false (some (fileServer, sendFIN 5 1)))
          { idleReceiver with point := .awaitDatagram } =
        some { idleReceiver with sender := fileServer, point := .returned true } ∧
      (deserializeHeader (sendFIN 5 1)).seqNum = 5 ∧ ¬Complete 5 [] [] := by
  refine ⟨reachable_awaitDatagram, by decide +kernel, by decide +kernel, fun hcomplete => ?_⟩
  exact absurd hcomplete.numbers (by decide)

end HybridFtp
