import HybridFtp.Lib.FirstFit
import HybridFtp.Lib.Machine

/-!
# The session table

The table of clients of the server, the listener, and the threads of the sessions. A
session closes its descriptor before it removes its record, which it looks up by the
descriptor: the listener may have got the same one for another session by then.

* `clientsAdd`, `clientsRemove`: the records of the table;
* `sessionTable`: the machine of the listener and the threads;
* `Accounted`: there are as many active records of a descriptor as sessions that have not
  removed theirs;
* `Consistent`: every session that has not closed its descriptor has one record;
* `sessionTable_consistent`: it does, unless a step takes the wrong record
  (`Undisturbed`), which can happen (`not_consistent`).
-/

namespace HybridFtp

/-- The length of the table. -/
def MAX_CLIENTS : Nat := 100

/-- A record of the table. -/
structure ClientRecord where
  socketFd : Nat := 0
  ip : String := ""
  port : Nat := 0
  active : Bool := false
  deriving DecidableEq, Repr

/-- `ServerState`: the table of clients. -/
structure ServerState where
  clients : List ClientRecord
  length_clients : clients.length = MAX_CLIENTS

namespace ServerState

variable (state : ServerState)

/-- The first record that is not active is taken; `none` if there is no such record. -/
def clientsAdd (socketFd : Nat) (ip : String) (port : Nat) : Option Nat × ServerState :=
  let add (r : ClientRecord) : Option ClientRecord :=
    if r.active then none else some { active := true, socketFd, ip, port }
  (state.clients.findIdx? fun r => !r.active,
    { clients := state.clients.replaceF add
      length_clients := by rw [List.length_replaceF, state.length_clients] })

/-- The first active record with the descriptor is not active any longer. -/
def clientsRemove (socketFd : Nat) : ServerState :=
  let remove (r : ClientRecord) : Option ClientRecord :=
    if r.active ∧ r.socketFd = socketFd then some { r with active := false } else none
  { clients := state.clients.replaceF remove
    length_clients := by rw [List.length_replaceF, state.length_clients] }

end ServerState

/-- The client of a session, and its descriptor. -/
structure SessionArgs where
  socketFd : Nat
  ip : String
  port : Nat
  deriving DecidableEq, Repr

/-- The active record of a client. -/
def ClientRecord.Of (r : ClientRecord) (c : SessionArgs) : Bool :=
  r.active && r.socketFd = c.socketFd && r.ip = c.ip && r.port = c.port

namespace ClientRecord

variable {r : ClientRecord} {c : SessionArgs}

theorem of_not_active (h : r.active = false) : r.Of c = false := by simp [Of, h]

theorem of_socketFd_ne (h : r.socketFd ≠ c.socketFd) : r.Of c = false := by simp [Of, h]

theorem of_self (c : SessionArgs) :
    Of { active := true, socketFd := c.socketFd, ip := c.ip, port := c.port } c = true := by
  simp [Of]

end ClientRecord

/-- The server at work. -/
structure Sessions where
  state : ServerState
  /-- The client that the listener has accepted, before `clientsAdd`. -/
  accepted : Option SessionArgs := none
  /-- The clients of the sessions that have been added and not closed their descriptor. -/
  running : List SessionArgs := []
  /-- Those of the sessions that have closed it, before `clientsRemove`. -/
  closed : List SessionArgs := []
  /-- What other descriptors the server has open. -/
  descriptors : List Nat

namespace Sessions

variable (s : Sessions)

/-- The clients whose descriptors are open. -/
def opened : List SessionArgs := s.accepted.toList ++ s.running

/-- How many sessions there are. -/
def count : Nat := s.opened.length + s.closed.length

/-- Every session that has been added and not closed its descriptor has exactly one active
    record with its descriptor, address and port. -/
def Consistent : Prop := ∀ c ∈ s.running, s.state.clients.countP (·.Of c) = 1

instance : Decidable s.Consistent := by
  unfold Consistent
  infer_instance

/-- All sessions have finished. -/
def Finished : Prop := s.opened = [] ∧ s.closed = []

instance : Decidable s.Finished := by
  unfold Finished
  infer_instance

end Sessions

/-- A step of the listener, or of the thread of a session. -/
inductive SessionEvent
  /-- `accept` returns the lowest free descriptor. -/
  | accept (ip : String) (port : Nat)
  | clientsAdd
  | close (c : SessionArgs)
  | clientsRemove (c : SessionArgs)
  /-- Other descriptors are opened and closed. -/
  | descriptors (fds : List Nat)
  deriving DecidableEq, Repr

/-- The machine of the listener, which accepts one client after the other, and of the
    threads of at most `MAX_CLIENTS` sessions at a time. -/
def sessionTable : Machine Sessions SessionEvent where
  init := {s | (∀ r ∈ s.state.clients, r.active = false) ∧ s.opened = [] ∧ s.closed = []}
  step
    | .accept ip port, s =>
      if s.accepted = none ∧ s.count < MAX_CLIENTS then
        let used := s.descriptors ++ s.opened.map SessionArgs.socketFd
        some { s with accepted := some { socketFd := lowestFree used, ip, port } }
      else none
    | .clientsAdd, s =>
      match s.accepted with
      | none => none
      | some c =>
        some { s with
          state := (s.state.clientsAdd c.socketFd c.ip c.port).2
          accepted := none
          running := c :: s.running }
    | .close c, s =>
      if c ∈ s.running then
        some { s with running := s.running.erase c, closed := c :: s.closed }
      else none
    | .clientsRemove c, s =>
      if c ∈ s.closed then
        some { s with
          state := s.state.clientsRemove c.socketFd
          closed := s.closed.erase c }
      else none
    | .descriptors fds, s =>
      if ∀ c ∈ s.opened, c.socketFd ∉ fds then some { s with descriptors := fds } else none

/-- When a session is added, there is no active record left that looks like its own; and the
    first record with the descriptor of a session that removes its own is not that of another
    session, which still has the descriptor open. -/
def Sessions.Unambiguous (s : Sessions) : SessionEvent → Prop
  | .clientsAdd => ∀ c ∈ s.accepted, ∀ r ∈ s.state.clients, r.Of c = false
  | .clientsRemove c => ∀ o ∈ s.running,
    ∀ r ∈ s.state.clients.find? (fun r => r.active && r.socketFd = c.socketFd), r.Of o = false
  | .accept .. | .close _ | .descriptors _ => True

instance (s : Sessions) (e : SessionEvent) : Decidable (s.Unambiguous e) := by
  cases e <;> unfold Sessions.Unambiguous <;> infer_instance

/-! ## The steps -/

namespace Sessions

variable {s s' : Sessions} {c : SessionArgs}

theorem step_accept {ip : String} {port : Nat} :
    sessionTable.step (.accept ip port) s = some s' ↔
      (s.accepted = none ∧ s.count < MAX_CLIENTS) ∧ { s with accepted := some {
        socketFd := lowestFree (s.descriptors ++ s.opened.map SessionArgs.socketFd)
        ip, port } } = s' := by
  simp only [sessionTable, Option.ite_none_right_eq_some, Option.some.injEq]

theorem step_clientsAdd : sessionTable.step .clientsAdd s = some s' ↔
    ∃ c, s.accepted = some c ∧ { s with
      state := (s.state.clientsAdd c.socketFd c.ip c.port).2
      accepted := none
      running := c :: s.running } = s' := by
  simp only [sessionTable]
  cases s.accepted <;> simp

theorem step_close : sessionTable.step (.close c) s = some s' ↔
    c ∈ s.running ∧ { s with running := s.running.erase c, closed := c :: s.closed } = s' := by
  simp only [sessionTable, Option.ite_none_right_eq_some, Option.some.injEq]

theorem step_clientsRemove : sessionTable.step (.clientsRemove c) s = some s' ↔
    c ∈ s.closed ∧ { s with
      state := s.state.clientsRemove c.socketFd
      closed := s.closed.erase c } = s' := by
  simp only [sessionTable, Option.ite_none_right_eq_some, Option.some.injEq]

theorem step_descriptors {fds : List Nat} :
    sessionTable.step (.descriptors fds) s = some s' ↔
      (∀ c ∈ s.opened, c.socketFd ∉ fds) ∧ { s with descriptors := fds } = s' := by
  simp only [sessionTable, Option.ite_none_right_eq_some, Option.some.injEq]

end Sessions

/-! ## The records -/

namespace ServerState

variable {state : ServerState}

/-- A record that is not active becomes the record of the session, if there is one. -/
theorem exists_clientsAdd (h : ∃ r ∈ state.clients, r.active = false) (socketFd : Nat)
    (ip : String) (port : Nat) :
    ∃ r : ClientRecord, r.active = false ∧ ∀ q : ClientRecord → Bool,
      (state.clientsAdd socketFd ip port).2.clients.countP q + (if q r then 1 else 0) =
        state.clients.countP q + if q { active := true, socketFd, ip, port } then 1 else 0 := by
  obtain ⟨r, hr, hfree⟩ := h
  obtain ⟨a, a', -, ha, hcount⟩ := exists_countP_replaceF (l := state.clients)
    (p := fun r : ClientRecord =>
      if r.active then none else some { active := true, socketFd, ip, port })
    ⟨r, hr, by simp [hfree]⟩
  simp only [Option.ite_none_left_eq_some, Bool.not_eq_true, Option.some.injEq] at ha
  obtain ⟨hactive, rfl⟩ := ha
  exact ⟨a, hactive, hcount⟩

/-- The first active record with the descriptor is given up, if there is one. -/
theorem exists_clientsRemove {socketFd : Nat}
    (h : ∃ r ∈ state.clients, r.active = true ∧ r.socketFd = socketFd) :
    ∃ r : ClientRecord, r.active = true ∧ r.socketFd = socketFd ∧
      state.clients.find? (fun r => r.active && r.socketFd = socketFd) = some r ∧
      ∀ q : ClientRecord → Bool,
        (state.clientsRemove socketFd).clients.countP q + (if q r then 1 else 0) =
          state.clients.countP q + if q { r with active := false } then 1 else 0 := by
  obtain ⟨r, hr, hactive, hfd⟩ := h
  obtain ⟨a, a', hfind, ha, hcount⟩ := exists_countP_replaceF (l := state.clients)
    (p := fun r : ClientRecord =>
      if r.active ∧ r.socketFd = socketFd then some { r with active := false } else none)
    ⟨r, hr, by simp [hactive, hfd]⟩
  simp only [Option.ite_none_right_eq_some, Option.some.injEq] at ha
  obtain ⟨⟨hactive, hfd⟩, rfl⟩ := ha
  refine ⟨a, hactive, hfd, ?_, hcount⟩
  rw [← hfind]
  refine congrArg (List.find? · state.clients) (funext fun r => ?_)
  by_cases h : r.active = true ∧ r.socketFd = socketFd
  · rw [if_pos h]
    simpa using h
  · rw [if_neg h]
    simpa using h

end ServerState

/-! ## Every reachable state -/

/-- Active records and sessions, descriptor by descriptor. -/
structure Sessions.Accounted (s : Sessions) : Prop where
  /-- There is a record for every session that has been added and not removed it. -/
  records : ∀ p : Nat → Bool, s.state.clients.countP (fun r => r.active && p r.socketFd) =
    (s.running ++ s.closed).countP fun c => p c.socketFd
  count_le : s.count ≤ MAX_CLIENTS
  /-- Descriptors are not shared. -/
  nodup : (s.opened.map SessionArgs.socketFd).Nodup

namespace Sessions.Accounted

variable {s s' : Sessions} {c : SessionArgs}

/-- There is room for the session that is added. -/
theorem exists_not_active (h : s.Accounted) (hc : s.accepted = some c) :
    ∃ r ∈ s.state.clients, r.active = false := by
  by_contra hall
  push Not at hall
  have hfull : s.state.clients.countP (fun r => r.active && true) = MAX_CLIENTS := by
    rw [← s.state.length_clients]
    exact List.countP_eq_length.2 fun r hr => by simpa using hall r hr
  have hrecords := h.records fun _ => true
  have hle := h.count_le
  rw [hfull, List.countP_true, List.length_append] at hrecords
  rw [count, opened, hc, List.length_append] at hle
  simp at hle
  omega

/-- A session that has not removed its record has an active one with its descriptor. -/
theorem exists_active (h : s.Accounted) (hc : c ∈ s.closed) :
    ∃ r ∈ s.state.clients, r.active = true ∧ r.socketFd = c.socketFd := by
  have hrecords := h.records fun fd => fd = c.socketFd
  have hpos : 0 < (s.running ++ s.closed).countP fun d => d.socketFd = c.socketFd :=
    List.countP_pos_iff.2 ⟨c, List.mem_append_right _ hc, by simp⟩
  rw [← hrecords, List.countP_pos_iff] at hpos
  obtain ⟨r, hr, hp⟩ := hpos
  exact ⟨r, hr, by simpa using hp⟩

theorem accept {ip : String} {port : Nat} (h : s.Accounted) (hfree : s.accepted = none)
    (hlt : s.count < MAX_CLIENTS) :
    let used := s.descriptors ++ s.opened.map SessionArgs.socketFd
    Accounted { s with accepted := some { socketFd := lowestFree used, ip, port } } := by
  have hopened : s.opened = s.running := by
    rw [opened, hfree]
    rfl
  refine ⟨h.records, ?_, ?_⟩
  · rw [count, hopened] at hlt
    simp only [count, opened, Option.toList_some, List.singleton_append, List.length_cons]
    omega
  · have hnot := lowestFree_notMem (s.descriptors ++ s.opened.map SessionArgs.socketFd)
    have hnodup := h.nodup
    rw [hopened] at hnot hnodup ⊢
    exact List.nodup_cons.2 ⟨fun hmem => hnot (List.mem_append_right _ hmem), hnodup⟩

theorem clientsAdd (h : s.Accounted) (hc : s.accepted = some c) :
    Accounted { s with
      state := (s.state.clientsAdd c.socketFd c.ip c.port).2
      accepted := none
      running := c :: s.running } := by
  obtain ⟨r, hfree, hcount⟩ :=
    ServerState.exists_clientsAdd (h.exists_not_active hc) c.socketFd c.ip c.port
  have hopened : s.opened = c :: s.running := by
    rw [opened, hc]
    rfl
  refine ⟨fun p => ?_, ?_, ?_⟩
  · have hrecords := h.records p
    have hp := hcount fun r => r.active && p r.socketFd
    simp only [hfree, Bool.false_and, Bool.true_and] at hp
    rw [List.cons_append, List.countP_cons, ← hrecords]
    simpa using hp
  · have hle := h.count_le
    rw [count, hopened] at hle
    exact hle
  · have hnodup := h.nodup
    rw [hopened] at hnodup
    exact hnodup

theorem close (h : s.Accounted) (hc : c ∈ s.running) :
    Accounted { s with running := s.running.erase c, closed := c :: s.closed } := by
  have hperm : (s.running.erase c ++ c :: s.closed).Perm (s.running ++ s.closed) :=
    List.perm_middle.trans ((List.perm_cons_erase hc).symm.append_right s.closed)
  refine ⟨fun p => ?_, ?_, ?_⟩
  · rw [hperm.countP_eq]
    exact h.records p
  · have hle := h.count_le
    have hlength := hperm.length_eq
    simp only [count, opened, List.length_append] at hle hlength ⊢
    omega
  · refine h.nodup.sublist (List.Sublist.map _ ?_)
    exact (List.erase_sublist).append_left _

theorem clientsRemove (h : s.Accounted) (hc : c ∈ s.closed) :
    Accounted { s with
      state := s.state.clientsRemove c.socketFd
      closed := s.closed.erase c } := by
  obtain ⟨r, hactive, hfd, -, hcount⟩ := ServerState.exists_clientsRemove (h.exists_active hc)
  have hperm := List.perm_cons_erase hc
  refine ⟨fun p => ?_, ?_, h.nodup⟩
  · have hrecords := h.records p
    have hp := hcount fun r => r.active && p r.socketFd
    have herase := hperm.countP_eq fun c => p c.socketFd
    rw [List.countP_cons] at herase
    simp only [hactive, hfd, Bool.true_and, Bool.false_and] at hp
    rw [List.countP_append] at hrecords ⊢
    dsimp only
    simp at hp
    omega
  · have hle := h.count_le
    have hlength := hperm.length_eq
    rw [List.length_cons] at hlength
    simp only [count] at hle ⊢
    show s.opened.length + _ ≤ _
    omega

theorem step {e : SessionEvent} (h : s.Accounted) (hs : sessionTable.step e s = some s') :
    s'.Accounted := by
  cases e with
  | accept ip port =>
    obtain ⟨⟨hfree, hlt⟩, rfl⟩ := step_accept.1 hs
    exact h.accept hfree hlt
  | clientsAdd =>
    obtain ⟨c, hc, rfl⟩ := step_clientsAdd.1 hs
    exact h.clientsAdd hc
  | close c =>
    obtain ⟨hc, rfl⟩ := step_close.1 hs
    exact h.close hc
  | clientsRemove c =>
    obtain ⟨hc, rfl⟩ := step_clientsRemove.1 hs
    exact h.clientsRemove hc
  | descriptors fds =>
    obtain ⟨_, rfl⟩ := step_descriptors.1 hs
    exact ⟨h.records, h.count_le, h.nodup⟩

end Sessions.Accounted

/-- In every reachable state, all records are accounted for. -/
theorem Sessions.accounted {s : Sessions} (h : sessionTable.Reachable s) : s.Accounted := by
  refine h.invariant (I := Sessions.Accounted) ?_ fun s e s' hs hstep => hs.step hstep
  rintro s ⟨hfree, hopened, hclosed⟩
  have hrunning : s.running = [] := (List.append_eq_nil_iff.1 hopened).2
  refine ⟨fun p => ?_, ?_, ?_⟩
  · rw [hrunning, hclosed, List.append_nil, List.countP_nil]
    exact List.countP_eq_zero.2 fun r hr => by simp [hfree r hr]
  · simp [Sessions.count, hopened, hclosed]
  · simp [hopened]

/-- When all sessions have finished, no record is active. -/
theorem Sessions.Accounted.not_active {s : Sessions} (h : s.Accounted) (hfinished : s.Finished) :
    ∀ r ∈ s.state.clients, r.active = false := by
  obtain ⟨hopened, hclosed⟩ := hfinished
  have hrecords := h.records fun _ => true
  rw [(List.append_eq_nil_iff.1 hopened).2, hclosed, List.append_nil, List.countP_nil,
    List.countP_eq_zero] at hrecords
  intro r hr
  simpa using hrecords r hr

/-! ## The records of the sessions -/

namespace Sessions

variable {s s' : Sessions} {c : SessionArgs}

/-- The other sessions keep their records, since their descriptors are different. -/
theorem consistent_clientsAdd_iff (h : s.Accounted) (hconsistent : s.Consistent)
    (hs : sessionTable.step .clientsAdd s = some s') :
    s'.Consistent ↔ s.Unambiguous .clientsAdd := by
  obtain ⟨c, hc, rfl⟩ := step_clientsAdd.1 hs
  obtain ⟨r, hfree, hcount⟩ :=
    ServerState.exists_clientsAdd (h.exists_not_active hc) c.socketFd c.ip c.port
  have hother : ∀ d ∈ s.running, c.socketFd ≠ d.socketFd := by
    intro d hd heq
    have hnodup := h.nodup
    rw [opened, hc, Option.toList_some, List.singleton_append, List.map_cons,
      List.nodup_cons] at hnodup
    exact hnodup.1 (List.mem_map.2 ⟨d, hd, heq.symm⟩)
  have hrunning : ∀ d ∈ s.running,
      (s.state.clientsAdd c.socketFd c.ip c.port).2.clients.countP (·.Of d) = 1 := by
    intro d hd
    have hd' := hcount fun r => r.Of d
    rw [ClientRecord.of_not_active hfree, ClientRecord.of_socketFd_ne (hother d hd),
      hconsistent d hd] at hd'
    exact hd'
  have hnew : (s.state.clientsAdd c.socketFd c.ip c.port).2.clients.countP (·.Of c) =
      s.state.clients.countP (·.Of c) + 1 := by
    have hc' := hcount fun r => r.Of c
    rw [ClientRecord.of_not_active hfree, ClientRecord.of_self] at hc'
    exact hc'
  have hzero : s.Unambiguous .clientsAdd ↔ s.state.clients.countP (·.Of c) = 0 := by
    simp [Unambiguous, hc]
  rw [hzero]
  constructor
  · intro hall
    have hone := hall c List.mem_cons_self
    rw [hnew] at hone
    omega
  · intro hnone d hd
    rcases List.mem_cons.1 hd with rfl | hd
    · rw [hnew, hnone]
    · exact hrunning d hd

/-- A session loses its record if it is the one that is taken for another's. -/
theorem consistent_clientsRemove_iff (h : s.Accounted) (hconsistent : s.Consistent)
    (hs : sessionTable.step (.clientsRemove c) s = some s') :
    s'.Consistent ↔ s.Unambiguous (.clientsRemove c) := by
  obtain ⟨hc, rfl⟩ := step_clientsRemove.1 hs
  obtain ⟨r, -, -, hfind, hcount⟩ := ServerState.exists_clientsRemove (h.exists_active hc)
  refine forall₂_congr fun o ho => ?_
  have hleft := hcount fun r => r.Of o
  rw [ClientRecord.of_not_active (r := { r with active := false }) rfl, hconsistent o ho] at hleft
  rw [hfind]
  cases hr : r.Of o with
  | false =>
    rw [hr] at hleft
    simpa [hr] using hleft
  | true =>
    rw [hr] at hleft
    simp only [if_true, Bool.false_eq_true, if_false] at hleft
    simp only [Option.mem_def, Option.some.injEq, forall_eq', hr, Bool.true_eq_false, iff_false]
    omega

theorem consistent_step_iff {e : SessionEvent} (h : s.Accounted) (hconsistent : s.Consistent)
    (hs : sessionTable.step e s = some s') : s'.Consistent ↔ s.Unambiguous e := by
  cases e with
  | clientsAdd => exact consistent_clientsAdd_iff h hconsistent hs
  | clientsRemove c => exact consistent_clientsRemove_iff h hconsistent hs
  | accept ip port =>
    obtain ⟨_, rfl⟩ := step_accept.1 hs
    exact iff_of_true hconsistent trivial
  | close c =>
    obtain ⟨_, rfl⟩ := step_close.1 hs
    exact iff_of_true (fun d hd => hconsistent d (List.mem_of_mem_erase hd)) trivial
  | descriptors fds =>
    obtain ⟨_, rfl⟩ := step_descriptors.1 hs
    exact iff_of_true hconsistent trivial

end Sessions

/-- In every run whose steps are unambiguous, every session that has been added and not
    closed its descriptor has exactly one record; the first step that is not takes that
    away. In every run, no record is active when all sessions have finished. -/
theorem sessionTable_consistent {s : Sessions} (h : sessionTable.Reachable s) :
    (sessionTable.ReachableBy Sessions.Unambiguous s → s.Consistent ∧
      ∀ e s', sessionTable.step e s = some s' → (s'.Consistent ↔ s.Unambiguous e)) ∧
    (s.Finished → ∀ r ∈ s.state.clients, r.active = false) := by
  refine ⟨fun hs => ?_, (Sessions.accounted h).not_active⟩
  have hboth : s.Accounted ∧ s.Consistent := by
    refine hs.invariant (I := fun s => s.Accounted ∧ s.Consistent) ?_ ?_
    · rintro s h
      refine ⟨Sessions.accounted ⟨s, h, .refl⟩, ?_⟩
      have hrunning : s.running = [] := (List.append_eq_nil_iff.1 h.2.1).2
      rw [Sessions.Consistent, hrunning]
      exact fun c hc => absurd hc List.not_mem_nil
    · rintro s e s' ⟨haccounted, hconsistent⟩ he hstep
      exact ⟨haccounted.step hstep,
        (Sessions.consistent_step_iff haccounted hconsistent hstep).2 he⟩
  exact ⟨hboth.2, fun e s' hstep => Sessions.consistent_step_iff hboth.1 hboth.2 hstep⟩

/-- A server that has just started. -/
def startedServer : Sessions where
  state := { clients := List.replicate MAX_CLIENTS {}, length_clients := List.length_replicate }
  descriptors := [0, 1, 2, 3]

theorem startedServer_init : ∀ s ∈ some startedServer, s ∈ sessionTable.init := by
  rintro _ ⟨⟩
  exact ⟨fun _ hr => by rw [List.eq_of_mem_replicate hr], rfl, rfl⟩

theorem sessionTable_consistent_two :
    (∃ s, sessionTable.ReachableBy Sessions.Unambiguous s ∧
      s.running = [⟨5, "10.0.0.2", 6000⟩, ⟨4, "10.0.0.1", 5000⟩] ∧ s.Consistent) ∧
    ∃ s, sessionTable.Reachable s ∧ s.Finished ∧ ∀ r ∈ s.state.clients, r.active = false := by
  constructor
  · obtain ⟨s, hs, hrunning⟩ := sessionTable.exists_reachableBy_of_run Sessions.Unambiguous
      startedServer_init
      [.accept "10.0.0.1" 5000, .clientsAdd, .accept "10.0.0.2" 6000, .clientsAdd]
      (fun s => s.running = [⟨5, "10.0.0.2", 6000⟩, ⟨4, "10.0.0.1", 5000⟩]) (by decide +kernel)
    exact ⟨s, hs, of_decide_eq_true hrunning, ((sessionTable_consistent hs.reachable).1 hs).1⟩
  · let first : SessionArgs := ⟨4, "10.0.0.1", 5000⟩
    obtain ⟨s, hs, hfinished⟩ := sessionTable.exists_reachableBy_of_run (fun _ _ => True)
      startedServer_init
      [.accept "10.0.0.1" 5000, .clientsAdd, .close first, .clientsRemove first]
      (fun s => s.Finished) (by decide +kernel)
    have hfinished := of_decide_eq_true hfinished
    exact ⟨s, hs, hfinished, (sessionTable_consistent hs).2 hfinished⟩

/-- The descriptor of a session is used again before it removes its record, twice: the
    second time, the new record comes first in the table, and is the one that is removed. -/
theorem not_consistent : ¬∀ s, sessionTable.Reachable s →
    s.Consistent ∧ (s.Finished → ∀ r ∈ s.state.clients, r.active = false) := by
  intro h
  let first : SessionArgs := ⟨4, "10.0.0.1", 5000⟩
  let second : SessionArgs := ⟨4, "10.0.0.2", 6000⟩
  obtain ⟨s, hs, hnot⟩ := sessionTable.exists_reachableBy_of_run (fun _ _ => True)
    startedServer_init
    [.accept "10.0.0.1" 5000, .clientsAdd, .close first,
      .accept "10.0.0.2" 6000, .clientsAdd, .clientsRemove first, .close second,
      .accept "10.0.0.3" 7000, .clientsAdd, .clientsRemove second]
    (fun s => ¬s.Consistent) (by decide +kernel)
  exact of_decide_eq_true hnot (h s hs).1

end HybridFtp
