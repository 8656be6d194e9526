import HybridFtp.Server.Serving
import HybridFtp.Server.Steps
import HybridFtp.Server.Upload
import Mathlib.Logic.Function.Basic

/-!
# Sessions that share a file system

Any number of sessions over the same file system. An upload takes several steps, and
other sessions may take theirs in between: the data channel is opened and the
directories on the way are created, the data is received, and the file is written. Any
other command is one step, its checks and its operation together. The threads of the
server share no lock, so that in a real run two such commands can overlap, one between
the check and the operation of the other; only runs in which they do not are runs of this
machine.

* `Uploading.proceed`: the next step of an upload;
* `sharing`: the machine of the sessions;
* `reaches_alone`: without others in between, a line does what `handleCommand` does.
-/

namespace HybridFtp

/-- How far an upload has got: its data channel is not open yet, is open to a peer, or
    has been read. -/
inductive UploadPhase
  | announced
  | opened (peer : Option Endpoint)
  | received (buf : Bytes)
  deriving DecidableEq

/-- An upload that has been started. -/
structure Uploading where
  destName : String
  appendMode : Bool := false
  /-- By `STOU`. -/
  unique : Bool := false
  phase : UploadPhase := .announced
  deriving DecidableEq

namespace Uploading

/-- The upload that a line starts. -/
def start? (session : SessionState) (fs : Storage) (line : String) : Option Uploading :=
  (upload? session fs line).map fun destName =>
    { destName
      appendMode := executed session line = some .APPE
      unique := executed session line = some .STOU }

/-- What a line does that starts an upload: only `STOU` sends a reply. -/
def announce (session : SessionState) (fs : Storage) (line : String) (u : Uploading) : Turn where
  session := session.given line
  fs := fs
  replies := if u.unique then ["125 FILE: " ++ u.destName ++ "\r\n"] else []

/-- The next step of an upload, and the upload after it unless it is over. -/
def proceed (o : Outcomes) (session : SessionState) (fs : Storage) (u : Uploading) :
    Turn × Option Uploading :=
  let resolvedPath := session.pathManager.resolvePath u.destName
  match u.phase with
  | .announced =>
    match openDataChannel o session with
    | .error reply => (answer session fs reply, none)
    | .ok peer =>
      if ¬session.pathManager.isPathInsideRoot u.destName then
        (answer session fs "550 Access denied.\r\n", none)
      else
        ({ session
           fs := (fs.createDirectories o.directoryPerms resolvedPath.parentPath).2
           replies := if u.unique then []
            else ["150 Opening data connection for file upload.\r\n"] },
          some { u with phase := .opened peer })
  | .opened peer =>
    if peer.isSome ∧ ¬o.knockSent then
      (answer session fs "425 Cannot reach active data endpoint.\r\n", none)
    else
      let session := if peer.isSome then session else session.reset
      match o.received with
      | .completed buf => ({ session, fs, replies := [] }, some { u with phase := .received buf })
      | .failed => (answer session fs "426 Connection closed; transfer aborted.\r\n", none)
      | .aborted => (abortTransfer session fs [], none)
  | .received buf =>
    let (reply, fs) := storeFile o session fs resolvedPath buf u.appendMode
    (answer session fs reply, none)

end Uploading

/-- One of the sessions, with the replies that it has sent. -/
structure Connection where
  session : SessionState
  upload : Option Uploading := none
  replies : List String := []
  ended : Bool := false

/-- The sessions, the file system, and for each `STOU` that has been completed, the last
    one first, the path manager of its session and the name that it has announced. -/
structure Sharing (ι : Type) where
  fs : Storage
  connection : ι → Connection
  completed : List (PathManager × String) := []

/-- A command line for one of the sessions, or the next step of its upload. -/
inductive SharingEvent (ι : Type)
  | line (i : ι) (line : String) (o : Outcomes)
  | proceed (i : ι) (o : Outcomes)

variable {ι : Type} [DecidableEq ι]

namespace Sharing

variable (s : Sharing ι) (i : ι) (turn : Turn) (upload : Option Uploading)

/-- The `STOU` that a turn of session `i` completes, if there is one. -/
def completes : Option (PathManager × String) :=
  (s.connection i).upload.bind fun u =>
    if u.unique = true ∧ turn.replies = ["226 Transfer complete.\r\n"] then
      some ((s.connection i).session.pathManager, u.destName)
    else none

/-- The state after a turn of session `i`. -/
def after : Sharing ι where
  fs := turn.fs
  connection := Function.update s.connection i
    { session := turn.session
      upload
      replies := (s.connection i).replies ++ turn.replies
      ended := turn.quit }
  completed := (s.completes i turn).toList ++ s.completed

end Sharing

section

variable {s : Sharing ι} {i j : ι} {turn : Turn} {upload : Option Uploading}

theorem Sharing.connection_after_self : (s.after i turn upload).connection i =
    { session := turn.session, upload, replies := (s.connection i).replies ++ turn.replies,
      ended := turn.quit } :=
  Function.update_self ..

theorem Sharing.upload_after (s : Sharing ι) (i : ι) (turn : Turn) (upload : Option Uploading) :
    ((s.after i turn upload).connection i).upload = upload := by
  rw [connection_after_self]

theorem Sharing.connection_after_of_ne (h : j ≠ i) :
    (s.after i turn upload).connection j = s.connection j :=
  Function.update_of_ne h ..

end

/-- The machine of sessions whose path managers have found or made the same root
    directory. They take turns: a command other than an upload is over before the next
    session takes a step. -/
def sharing : Machine (Sharing ι) (SharingEvent ι) where
  init := {s | ∃ perms root fs pm, PathManager.create perms root fs = (pm, s.fs) ∧
    s.fs.IsDir pm.rootDirectory ∧ (∀ i, s.connection i = { session := { pathManager := pm } }) ∧
    s.completed = []}
  step
    | .line i line o, s =>
      let c := s.connection i
      if c.ended ∨ c.upload ≠ none then none
      else
        match Uploading.start? c.session s.fs line with
        | some u => some (s.after i (u.announce c.session s.fs line) (some u))
        | none => some (s.after i (handleCommand o c.session s.fs line) none)
    | .proceed i o, s =>
      let c := s.connection i
      c.upload.map fun u =>
        let (turn, upload) := u.proceed o c.session s.fs
        s.after i turn upload

theorem sharing_line_of_some {s : Sharing ι} {i : ι} {line : String} {u : Uploading}
    (hended : (s.connection i).ended = false) (hidle : (s.connection i).upload = none)
    (hstart : Uploading.start? (s.connection i).session s.fs line = some u) (o : Outcomes) :
    sharing.step (.line i line o) s =
      some (s.after i (u.announce (s.connection i).session s.fs line) (some u)) := by
  simp [sharing, hended, hidle, hstart]

theorem sharing_line_of_none {s : Sharing ι} {i : ι} {line : String}
    (hended : (s.connection i).ended = false) (hidle : (s.connection i).upload = none)
    (hstart : Uploading.start? (s.connection i).session s.fs line = none) (o : Outcomes) :
    sharing.step (.line i line o) s =
      some (s.after i (handleCommand o (s.connection i).session s.fs line) none) := by
  simp [sharing, hended, hidle, hstart]

/-- What a step can do. -/
theorem sharing_cases {s s' : Sharing ι} {e : SharingEvent ι} (h : sharing.step e s = some s') :
    (∃ i line o u, e = .line i line o ∧ (s.connection i).ended = false ∧
      (s.connection i).upload = none ∧
      Uploading.start? (s.connection i).session s.fs line = some u ∧
      s' = s.after i (u.announce (s.connection i).session s.fs line) (some u)) ∨
    (∃ i line o, e = .line i line o ∧ (s.connection i).ended = false ∧
      (s.connection i).upload = none ∧
      Uploading.start? (s.connection i).session s.fs line = none ∧
      s' = s.after i (handleCommand o (s.connection i).session s.fs line) none) ∨
    ∃ i o u, e = .proceed i o ∧ (s.connection i).upload = some u ∧
      s' = s.after i (u.proceed o (s.connection i).session s.fs).1
        (u.proceed o (s.connection i).session s.fs).2 := by
  cases e with
  | line i line o =>
    simp only [sharing, Option.ite_none_left_eq_some, not_or, not_not, Bool.not_eq_true] at h
    obtain ⟨⟨hended, hupload⟩, h⟩ := h
    cases hstart : Uploading.start? (s.connection i).session s.fs line with
    | some u =>
      rw [hstart] at h
      exact .inl ⟨i, line, o, u, rfl, hended, hupload, hstart, (Option.some.inj h).symm⟩
    | none =>
      rw [hstart] at h
      exact .inr (.inl ⟨i, line, o, rfl, hended, hupload, hstart, (Option.some.inj h).symm⟩)
  | proceed i o =>
    obtain ⟨u, hu, heq⟩ := Option.map_eq_some_iff.1 h
    exact .inr (.inr ⟨i, o, u, rfl, hu, heq.symm⟩)

/-! ## A line without others in between -/

theorem after_nil (turn : Turn) : turn.after [] = turn := rfl

namespace Uploading

variable {session : SessionState} {fs : Storage} {line : String} {u : Uploading}

/-- A line starts an upload by one of three commands. -/
theorem start?_cases (h : start? session fs line = some u) :
    (executed session line = some .STOR ∧ (CommandParser.parse line).argument ≠ "" ∧
      u = { destName := (CommandParser.parse line).argument }) ∨
    (executed session line = some .APPE ∧ (CommandParser.parse line).argument ≠ "" ∧
      u = { destName := (CommandParser.parse line).argument, appendMode := true }) ∨
    executed session line = some .STOU ∧
      u = { destName := session.pathManager.generateUniqueFilename fs
              (if (CommandParser.parse line).argument = "" then "upload"
              else (CommandParser.parse line).argument),
            unique := true } := by
  rw [start?, Option.map_eq_some_iff] at h
  obtain ⟨name, hname, rfl⟩ := h
  rw [upload?] at hname
  split at hname
  · rename_i hverb
    rw [Option.ite_none_left_eq_some, Option.some.injEq] at hname
    obtain ⟨hargument, rfl⟩ := hname
    simp [hverb, hargument]
  · rename_i hverb
    rw [Option.ite_none_left_eq_some, Option.some.injEq] at hname
    obtain ⟨hargument, rfl⟩ := hname
    simp [hverb, hargument]
  · rename_i hverb
    obtain rfl := Option.some.inj hname
    simp [hverb]
  · cases hname

/-- A line that starts an upload receives a file. -/
theorem handleCommand_of_start? (h : start? session fs line = some u) (o : Outcomes) :
    handleCommand o session fs line =
      .after (u.announce session fs line).replies
        (receiveFileOverDataChannel o (session.given line) fs u.destName u.appendMode
          u.unique) := by
  have hmanager : (session.given line).pathManager = session.pathManager := by
    rcases given_eq session line with heq | heq <;> rw [heq]
  rcases start?_cases h with ⟨hverb, hargument, rfl⟩ | ⟨hverb, hargument, rfl⟩ | ⟨hverb, rfl⟩
  · rw [handleCommand_of_executed o fs hverb, execute, handleStor, requireArgument,
      if_neg hargument, announce, if_neg Bool.false_ne_true, after_nil]
  · rw [handleCommand_of_executed o fs hverb, execute, handleAppe, requireArgument,
      if_neg hargument, announce, if_neg Bool.false_ne_true, after_nil]
  · rw [handleCommand_of_executed o fs hverb, execute, handleStou, hmanager, announce,
      if_pos rfl]

variable (o : Outcomes)

/-- The first step of an upload, on its own. -/
theorem proceed_announced (session : SessionState) (fs : Storage) (h : u.phase = .announced) :
    (u.proceed o session fs).2 = none ∧ (u.proceed o session fs).1 =
        receiveFileOverDataChannel o session fs u.destName u.appendMode u.unique ∨
      ∃ peer, (u.proceed o session fs).2 = some { u with phase := .opened peer } ∧
        receiveFileOverDataChannel o session fs u.destName u.appendMode u.unique =
          .after (u.proceed o session fs).1.replies
            (receiveFileFrom o (u.proceed o session fs).1.session (u.proceed o session fs).1.fs
              peer (session.pathManager.resolvePath u.destName) u.appendMode) ∧
        (u.proceed o session fs).1.session.pathManager = session.pathManager ∧
        (u.proceed o session fs).1.quit = false := by
  rw [proceed, receiveFileOverDataChannel, h]
  cases openDataChannel o session with
  | error reply => exact .inl ⟨rfl, rfl⟩
  | ok peer =>
    dsimp only
    split
    · exact .inl ⟨rfl, rfl⟩
    · exact .inr ⟨peer, rfl, rfl, rfl, rfl⟩

/-- The second one. -/
theorem proceed_opened (session : SessionState) (fs : Storage) {peer : Option Endpoint}
    (h : u.phase = .opened peer) :
    (u.proceed o session fs).2 = none ∧ (u.proceed o session fs).1 =
        receiveFileFrom o session fs peer (session.pathManager.resolvePath u.destName)
          u.appendMode ∨
      ∃ buf, (u.proceed o session fs).2 = some { u with phase := .received buf } ∧
        receiveFileFrom o session fs peer (session.pathManager.resolvePath u.destName)
            u.appendMode =
          .after (u.proceed o session fs).1.replies
            (({ u with phase := .received buf } : Uploading).proceed o
              (u.proceed o session fs).1.session (u.proceed o session fs).1.fs).1 ∧
        (u.proceed o session fs).1.quit = false := by
  rw [proceed, h]
  cases peer with
  | none =>
    simp only [receiveFileFrom, receiveFile]
    cases o.received with
    | completed buf => exact .inr ⟨buf, rfl, rfl, rfl⟩
    | failed => exact .inl ⟨rfl, rfl⟩
    | aborted => exact .inl ⟨rfl, rfl⟩
  | some _ =>
    simp only [receiveFileFrom, receiveFile]
    cases o.knockSent with
    | false => exact .inl ⟨rfl, rfl⟩
    | true =>
      cases o.received with
      | completed buf => exact .inr ⟨buf, rfl, rfl, rfl⟩
      | failed => exact .inl ⟨rfl, rfl⟩
      | aborted => exact .inl ⟨rfl, rfl⟩

/-- The last one. -/
theorem proceed_received (session : SessionState) (fs : Storage) {buf : Bytes}
    (h : u.phase = .received buf) :
    u.proceed o session fs =
      (answer session
          (storeFile o session fs (session.pathManager.resolvePath u.destName) buf u.appendMode).2
          (storeFile o session fs (session.pathManager.resolvePath u.destName) buf u.appendMode).1,
        none) := by
  rw [proceed, h]

end Uploading

section

variable {s : Sharing ι} {i : ι}

/-- The rest of an upload, without others in between, is a turn. -/
def Sharing.Finishes (s : Sharing ι) (i : ι) (o : Outcomes) (turn : Turn) : Prop :=
  ∃ s', sharing.Reaches (fun _ e => e = .proceed i o) s s' ∧ s'.fs = turn.fs ∧
    s'.connection i =
      { session := turn.session
        replies := (s.connection i).replies ++ turn.replies
        ended := turn.quit } ∧
    ∀ j, j ≠ i → s'.connection j = s.connection j

theorem finishes_proceed {o : Outcomes} {u : Uploading} (hu : (s.connection i).upload = some u)
    (hover : (u.proceed o (s.connection i).session s.fs).2 = none) :
    s.Finishes i o (u.proceed o (s.connection i).session s.fs).1 := by
  refine ⟨_, Machine.Reaches.refl.tail rfl (Option.map_eq_some_iff.2 ⟨u, hu, rfl⟩), rfl, ?_,
    fun j hj => Sharing.connection_after_of_ne hj⟩
  rw [Sharing.connection_after_self, hover]

/-- A step of an upload, and then the rest of it. -/
theorem finishes_after {o : Outcomes} {u u' : Uploading} {turn : Turn}
    (hu : (s.connection i).upload = some u)
    (hnext : (u.proceed o (s.connection i).session s.fs).2 = some u')
    (h : (s.after i (u.proceed o (s.connection i).session s.fs).1 (some u')).Finishes i o turn) :
    s.Finishes i o (turn.after (u.proceed o (s.connection i).session s.fs).1.replies) := by
  obtain ⟨s', hreaches, hfs, hself, hothers⟩ := h
  have hstep : sharing.step (.proceed i o) s =
      some (s.after i (u.proceed o (s.connection i).session s.fs).1 (some u')) := by
    refine Option.map_eq_some_iff.2 ⟨u, hu, ?_⟩
    rw [← hnext]
  have hfirst : sharing.Reaches (fun _ e => e = .proceed i o) s
      (s.after i (u.proceed o (s.connection i).session s.fs).1 (some u')) :=
    Machine.Reaches.refl.tail rfl hstep
  refine ⟨s', hfirst.trans hreaches, hfs, ?_, fun j hj => ?_⟩
  · rw [hself, Sharing.connection_after_self]
    dsimp only [Turn.after]
    rw [List.append_assoc]
  · rw [hothers j hj, Sharing.connection_after_of_ne hj]

theorem finishes_received {o : Outcomes} {u : Uploading} {buf : Bytes}
    (hu : (s.connection i).upload = some u) (h : u.phase = .received buf) :
    s.Finishes i o (u.proceed o (s.connection i).session s.fs).1 :=
  finishes_proceed hu (by rw [Uploading.proceed_received o _ _ h])

theorem finishes_opened {o : Outcomes} {u : Uploading} {peer : Option Endpoint}
    (hu : (s.connection i).upload = some u) (h : u.phase = .opened peer) :
    s.Finishes i o (receiveFileFrom o (s.connection i).session s.fs peer
      ((s.connection i).session.pathManager.resolvePath u.destName) u.appendMode) := by
  rcases Uploading.proceed_opened o (s.connection i).session s.fs h with
    ⟨hover, heq⟩ | ⟨buf, hnext, heq, _⟩
  · rw [← heq]
    exact finishes_proceed hu hover
  · rw [heq]
    refine finishes_after hu hnext ?_
    have hfinish := finishes_received (o := o) (s.upload_after i
      (u.proceed o (s.connection i).session s.fs).1 (some { u with phase := .received buf })) rfl
    rwa [Sharing.connection_after_self] at hfinish

theorem finishes_announced {o : Outcomes} {u : Uploading} (hu : (s.connection i).upload = some u)
    (h : u.phase = .announced) :
    s.Finishes i o (receiveFileOverDataChannel o (s.connection i).session s.fs u.destName
      u.appendMode u.unique) := by
  rcases Uploading.proceed_announced o (s.connection i).session s.fs h with
    ⟨hover, heq⟩ | ⟨peer, hnext, heq, hmanager, _⟩
  · rw [← heq]
    exact finishes_proceed hu hover
  · rw [heq, ← hmanager]
    refine finishes_after hu hnext ?_
    have hfinish := finishes_opened (o := o) (s.upload_after i
      (u.proceed o (s.connection i).session s.fs).1 (some { u with phase := .opened peer })) rfl
    rwa [Sharing.connection_after_self] at hfinish

/-- Without others in between, a line does to its session and to the file system what
    `handleCommand` does, and nothing to the others. -/
theorem reaches_alone (s : Sharing ι) (i : ι) (hended : (s.connection i).ended = false)
    (hidle : (s.connection i).upload = none) (line : String) (o : Outcomes) :
    ∃ s', sharing.Reaches (fun _ e => e = .line i line o ∨ e = .proceed i o) s s' ∧
      s'.fs = (handleCommand o (s.connection i).session s.fs line).fs ∧
      s'.connection i =
        { session := (handleCommand o (s.connection i).session s.fs line).session
          replies := (s.connection i).replies ++
            (handleCommand o (s.connection i).session s.fs line).replies
          ended := (handleCommand o (s.connection i).session s.fs line).quit } ∧
      ∀ j, j ≠ i → s'.connection j = s.connection j := by
  cases hstart : Uploading.start? (s.connection i).session s.fs line with
  | none =>
    have hstep := sharing_line_of_none hended hidle hstart o
    exact ⟨_, Machine.Reaches.refl.tail (.inl rfl) hstep, rfl, Sharing.connection_after_self,
      fun j hj => Sharing.connection_after_of_ne hj⟩
  | some u =>
    have hstep := sharing_line_of_some hended hidle hstart o
    have hphase : u.phase = .announced := by
      rcases Uploading.start?_cases hstart with ⟨_, _, rfl⟩ | ⟨_, _, rfl⟩ | ⟨_, rfl⟩ <;> rfl
    -- The command is the announcement, and the phases of the upload after it.
    rw [Uploading.handleCommand_of_start? hstart]
    generalize hturn : u.announce (s.connection i).session s.fs line = turn at hstep ⊢
    obtain ⟨s', hreaches, hfs, hself, hothers⟩ :=
      finishes_announced (o := o) (s.upload_after i turn (some u)) hphase
    have hline : turn.session = (s.connection i).session.given line ∧ turn.fs = s.fs := by
      rw [← hturn]
      exact ⟨rfl, rfl⟩
    rw [Sharing.connection_after_self, Sharing.after, hline.1, hline.2] at hfs hself
    generalize receiveFileOverDataChannel o ((s.connection i).session.given line) s.fs u.destName
      u.appendMode u.unique = rest at hfs hself ⊢
    have hfirst : sharing.Reaches (fun _ e => e = .line i line o ∨ e = .proceed i o) s
        (s.after i turn (some u)) := Machine.Reaches.refl.tail (.inl rfl) hstep
    refine ⟨s', hfirst.trans (hreaches.mono fun _ _ he => .inr he), hfs, ?_, fun j hj => ?_⟩
    · rw [hself]
      dsimp only [Turn.after]
      rw [List.append_assoc]
    · rw [hothers j hj, Sharing.connection_after_of_ne hj]

end

end HybridFtp
