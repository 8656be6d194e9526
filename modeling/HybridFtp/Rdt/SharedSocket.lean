import HybridFtp.Rdt.Safety

/-!
# Transfers that share a receiving socket

A sequence of transfers, one after the other, received on one socket, as the
client does in active mode: each transfer has a sender of its own on a fresh
socket and a fresh `RDTWindowReceiver`, but whatever is still on its way to the
receiving socket survives from one transfer to the next.

* `Shared.machine`: the transfer that is running, and the stale datagrams of the
  earlier ones;
* `AcceptsCurrent`: no stale datagram is read that `receiveData` would accept;
* `outData_eq_of_acceptsCurrent`: as long as this is so, a `receiveData` that
  succeeds has the data of its own transfer. `receiveData` looks at the flags and
  the sequence number only, so that the FIN of an earlier transfer ends it
  (`outData_ne_of_stale`).
-/

namespace HybridFtp

variable {α : Type} [Double α]

/-- The transfer that is running, and what is left of the earlier ones, with the
    socket it comes from. -/
structure Shared (α : Type) where
  index : Nat
  joint : Joint α
  stale : List (Endpoint × Bytes) := []

/-- The events of a sequence of transfers. -/
inductive SharedEvent
  | current (e : TransferEvent)
  | readsStale (cancelled : Bool)
  | faultToStale (f : Fault (Endpoint × Bytes))
  | next
  deriving DecidableEq, Repr

namespace Shared

/-- A stale datagram the receiver could not accept, whatever it expects. -/
def DamagedStale (d : Endpoint × Bytes) : Prop := Damaged DATA_BUFFER_SIZE d.2

instance : DecidablePred DamagedStale := fun d =>
  inferInstanceAs (Decidable (Damaged DATA_BUFFER_SIZE d.2))

/-- The step an event takes. The next transfer starts when both calls have
    returned; nothing is on its way to the fresh socket of its sender. -/
def step (ts : Nat → Transfer α) : SharedEvent → Shared α → Option (Shared α)
  | .current e, s => (s.joint.step (ts s.index) e).map fun joint => { s with joint }
  | .readsStale cancelled, s =>
    match s.stale with
    | [] => none
    | d :: rest =>
      if s.joint.receiver.point = .awaitDatagram then
        some { s with
          joint := s.joint.receiverReads (ts s.index) cancelled (some d)
          stale := rest }
      else none
  | .faultToStale f, s => (f.apply DamagedStale s.stale).map fun stale => { s with stale }
  | .next, s =>
    match s.joint.sender.point, s.joint.receiver.point with
    | .returned _, .returned _ =>
      (ts (s.index + 1)).start.map fun joint =>
        { index := s.index + 1
          joint
          stale := s.stale ++
            s.joint.toReceiver.map fun d => ((ts s.index).socket.toEndpoint, d) }
    | _, _ => none

/-- The state at the start of the first transfer. -/
def start (ts : Nat → Transfer α) : Option (Shared α) :=
  (ts 0).start.map fun joint => { index := 0, joint }

/-- The machine of a sequence of transfers. -/
def machine (ts : Nat → Transfer α) : Machine (Shared α) SharedEvent where
  init := {s | s ∈ start ts}
  step := step ts

end Shared

/-- A datagram that `receiveData` would accept: an undamaged FIN, or the DATA
    segment expected next. -/
def ReceiverState.Acceptable (r : ReceiverState) (recvBuf : Bytes) : Prop :=
  Verifies recvBuf ∧ (hasFlag (deserializeHeader recvBuf) FLAG_FIN = true ∨
    hasFlag (deserializeHeader recvBuf) FLAG_DATA = true ∧
      (deserializeHeader recvBuf).seqNum = r.expectedSeq)

instance (r : ReceiverState) (recvBuf : Bytes) : Decidable (r.Acceptable recvBuf) :=
  inferInstanceAs (Decidable (_ ∧ _))

/-- The receiver accepts datagrams of the current transfer only, and reads those
    whole. -/
def AcceptsCurrent (s : Shared α) : SharedEvent → Prop
  | .current e => ReadsWhole s.joint e
  | .readsStale _ => ∀ d ∈ s.stale.head?,
      ¬s.joint.receiver.Acceptable (readInto DATA_BUFFER_SIZE d.2)
  | .faultToStale _ | .next => True

instance (s : Shared α) : DecidablePred (AcceptsCurrent s)
  | .current e => inferInstanceAs (Decidable (ReadsWhole s.joint e))
  | .readsStale _ => inferInstanceAs (Decidable (∀ d ∈ s.stale.head?,
      ¬s.joint.receiver.Acceptable (readInto DATA_BUFFER_SIZE d.2)))
  | .faultToStale _ | .next => isTrue trivial

/-- A datagram that is not acceptable does nothing that matters. -/
theorem ReceiverState.keeps_of_not_acceptable {r r' : ReceiverState} {cancelled : Bool}
    {d : Endpoint × Bytes} {sent : List (Endpoint × Bytes)}
    (hd : ¬r.Acceptable (readInto DATA_BUFFER_SIZE d.2))
    (h : r.receive cancelled (some d) = (r', sent)) : r.Keeps r' sent := by
  rcases receive_cases h with hk | ⟨_, recvBuf, _, hread, hv, _, hdata, hseq, _⟩ |
    ⟨_, recvBuf, _, hread, hv, hfin, _⟩
  · exact hk
  · cases hread
    exact absurd ⟨hv, .inr ⟨hdata, hseq⟩⟩ hd
  · cases hread
    exact absurd ⟨hv, .inl hfin⟩ hd

variable {ts : Nat → Transfer α} {s s' : Shared α}

/-- The transfer that is running is as far as an ordered stream of its own
    segments. -/
def Shared.Refines (ts : Nat → Transfer α) (s : Shared α) : Prop :=
  ∃ segs, segments (ts s.index).sender.mss (ts s.index).data = some segs ∧
    ∃ p, s.joint.Refines segs p

omit [Double α] in
/-- A stale datagram that is not acceptable leaves the stream where it is. -/
theorem Joint.Refines.readsStale {t : Transfer α} {s : Joint α} {segs : List Bytes}
    {p : OrderedStream (numSegments segs).toNat} (h : s.Refines segs p) (cancelled : Bool)
    {d : Endpoint × Bytes} (hd : ¬s.receiver.Acceptable (readInto DATA_BUFFER_SIZE d.2)) :
    (s.receiverReads t cancelled (some d)).Refines segs p := by
  obtain ⟨hr, hsent⟩ := h.receiver.of_keeps (ReceiverState.keeps_of_not_acceptable hd rfl)
  refine ⟨h.sender, hr, h.toReceiver, fun d' hd' => ?_⟩
  rcases List.mem_append.1 hd' with hd' | hd'
  · exact h.toSender d' hd'
  · obtain ⟨q, hq, rfl⟩ := List.mem_map.1 hd'
    exact hsent q (List.mem_filter.1 hq).1

/-- A transfer starts at the start of its stream, whatever is left of the earlier
    ones. -/
theorem exists_refines_start {t : Transfer α} {s : Joint α} (hs : t.start = some s) :
    ∃ segs, segments t.sender.mss t.data = some segs ∧ ∃ p, s.Refines segs p := by
  have hinit : ∃ segs, segments t.sender.mss t.data = some segs := by
    simp only [Transfer.start, SenderState.init, Option.map_map, Option.map_eq_some_iff] at hs
    exact hs.imp fun _ => And.left
  obtain ⟨segs, hsegs⟩ := hinit
  exact ⟨segs, hsegs, _, refines_init hsegs hs⟩

theorem Shared.Refines.step (h : s.Refines ts) {e : SharedEvent} (he : AcceptsCurrent s e)
    (hs : s.step ts e = some s') : s'.Refines ts := by
  obtain ⟨segs, hsegs, p, hp⟩ := h
  cases e with
  | current e =>
    simp only [Shared.step, Option.map_eq_some_iff] at hs
    obtain ⟨joint, hjoint, rfl⟩ := hs
    obtain ⟨p', _, hp'⟩ := refines_step hp he hjoint
    exact ⟨segs, hsegs, p', hp'⟩
  | readsStale cancelled =>
    rw [Shared.step] at hs
    split at hs
    · cases hs
    · rename_i d rest hd
      simp only [Option.ite_none_right_eq_some, Option.some.injEq] at hs
      obtain ⟨_, rfl⟩ := hs
      exact ⟨segs, hsegs, p, hp.readsStale cancelled (he d (by simp [hd]))⟩
  | faultToStale f =>
    simp only [Shared.step, Option.map_eq_some_iff] at hs
    obtain ⟨stale, _, rfl⟩ := hs
    exact ⟨segs, hsegs, p, hp⟩
  | next =>
    rw [Shared.step] at hs
    split at hs
    · obtain ⟨joint, hjoint, rfl⟩ := Option.map_eq_some_iff.1 hs
      exact exists_refines_start hjoint
    · cases hs

theorem Shared.refines_of_acceptsCurrent
    (hs : (Shared.machine ts).ReachableBy AcceptsCurrent s) : s.Refines ts := by
  refine Machine.ReachableBy.invariant (I := Shared.Refines ts) hs (fun s hs => ?_)
    fun s e s' h he hstep => h.step he hstep
  obtain ⟨joint, hjoint, rfl⟩ := Option.map_eq_some_iff.1 hs
  exact exists_refines_start hjoint

/-- As long as no stale datagram is accepted, a `receiveData` that succeeds has the
    data of its own transfer. -/
theorem outData_eq_of_acceptsCurrent
    (hlen : ∀ k segs, segments (ts k).sender.mss (ts k).data = some segs → segs.length < 2 ^ 32)
    (hs : (Shared.machine ts).ReachableBy AcceptsCurrent s)
    (hr : s.joint.receiver.point = .returned true) :
    s.joint.receiver.outData = (ts s.index).data := by
  obtain ⟨segs, hsegs, p, hp⟩ := Shared.refines_of_acceptsCurrent hs
  exact (hp.outData_eq hsegs (hlen _ _ hsegs)).2.2 hr

/-- Two transfers of different data, from different sockets; the rest does not
    matter. -/
def greetings (k : Nat) : Transfer ℚ where
  sender := greeting.sender
  socket := {
    ip := "127.0.0.1"
    port := if k = 0 then 5001 else 5002
    isKnown := by split <;> decide }
  advertisedWindow := 64
  data := if k = 0 then [104, 105] else [98, 121, 101]

/-- The data of the first transfer, and its FIN; then the sender takes its FINACK
    after having sent the FIN once more. -/
def greetingsFirst : List SharedEvent :=
  (greetingData ++ greetingFin).map .current ++
    [.current (.senderTimesOut false), .current (.senderAdvances false true),
      .current (.senderReceives false)]

/-- The second transfer is received, as the stale FIN of the first one has been lost. -/
theorem outData_eq_of_acceptsCurrent_greetings :
    ∃ s, (Shared.machine greetings).ReachableBy AcceptsCurrent s ∧ s.index = 1 ∧
      s.joint.receiver.outData = [98, 121, 101] := by
  obtain ⟨s, hs, hP⟩ := (Shared.machine greetings).exists_reachableBy_of_run AcceptsCurrent
    (fun _ => id)
    (greetingsFirst ++ [.next, .faultToStale (.lose 0)] ++
      (greetingData ++ greetingFin).map .current)
    (fun s => s.index = 1 ∧ s.joint.receiver.point = .returned true) (by decide +kernel)
  obtain ⟨hindex, hr⟩ := of_decide_eq_true hP
  have hdata := outData_eq_of_acceptsCurrent (fun k segs hsegs => ?_) hs hr
  · exact ⟨s, hs, hindex, by rw [hdata, hindex]; rfl⟩
  · -- Every transfer of the example has a single segment.
    by_cases hk : k = 0
    · subst hk
      cases hsegs
      decide
    · simp only [greetings, hk, if_false] at hsegs
      cases hsegs
      decide

/-- The second FIN of the first transfer, left on the socket, ends the second
    transfer before any of its data is received. -/
theorem outData_ne_of_stale :
    ¬∀ (ts : Nat → Transfer ℚ) (s : Shared ℚ), (Shared.machine ts).Reachable s →
      s.joint.receiver.point = .returned true →
        s.joint.receiver.outData = (ts s.index).data := by
  intro h
  obtain ⟨s, hs, hP⟩ := (Shared.machine greetings).exists_reachableBy_of_run (fun _ _ => True)
    (fun _ => id)
    (greetingsFirst ++ [.next, .current (.receiverAdvances false), .readsStale false])
    (fun s => s.joint.receiver.point = .returned true ∧
      s.joint.receiver.outData ≠ (greetings s.index).data) (by decide +kernel)
  obtain ⟨hr, hne⟩ := of_decide_eq_true hP
  exact hne (h greetings s hs hr)

end HybridFtp
