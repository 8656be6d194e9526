import HybridFtp.Server.Alike
import HybridFtp.Server.WorkingDirectory

/-!
# What a session tells of the outside

Two runs of the same command lines, on file systems with the same tree at the root
directory of the session.

* `AlikeRuns`: the sessions are the same, and so is all that the clients have seen;
* `AlikeRuns.step`: kept by a command line that stays inside the root directory;
* `unobservable`: so nothing outside is observed by such lines. The search of `STOU`
  looks outside (`not_unobservable`).
-/

namespace HybridFtp

/-- Only the session changes the file system. -/
def Alone : Serving × List Handled → ServingEvent → Prop
  | _, .command _ _ => True
  | _, .others _ => False

instance : ∀ x e, Decidable (Alone x e)
  | _, .command _ _ => inferInstanceAs (Decidable True)
  | _, .others _ => inferInstanceAs (Decidable False)

/-- And no command line is led out of the root directory. -/
def Inside : Serving × List Handled → ServingEvent → Prop
  | x, .command line _ => StaysInside x.1.session x.1.fs line
  | _, .others _ => False

/-- Two runs, with the same tree at the root directory, that no client can tell apart. -/
structure AlikeRuns (x x' : Serving × List Handled) : Prop where
  session : x'.1.session = x.1.session
  fs : x.1.fs.SameInside x.1.session.pathManager.rootDirectory x'.1.fs
  currentDirectory : x.1.fs.IsDir x.1.session.pathManager.currentDirectory
  answers : x'.2.map Handled.answers = x.2.map Handled.answers

/-! ## The current directory -/

section

variable {o : Outcomes} {session session' : SessionState} {fs fs' : Storage} {argument : String}
  {verb? : Option Verb}

/-- Only `CWD` and `CDUP` go to another directory. -/
theorem pathManager_of_step (h : SessionStep session fs argument verb? session') :
    session'.pathManager = session.pathManager ∨
      (verb? = some .CWD ∨ verb? = some .CDUP) ∧
        session'.pathManager.rootDirectory = session.pathManager.rootDirectory ∧
        fs.IsDir session'.pathManager.currentDirectory := by
  cases h with
  | cwd =>
    rcases session.pathManager.changeDirectory_cases fs argument with heq | hdir
    · exact .inl heq
    · exact .inr ⟨.inl rfl, hdir⟩
  | cdup =>
    rcases session.pathManager.changeToParentDirectory_cases fs with heq | hdir
    · exact .inl heq
    · exact .inr ⟨.inr rfl, hdir⟩
  | same _ | user | pass _ | type _ | mode _ | port _ _ | pasv _ | reset _ | rnfr _ | rnto =>
    exact .inl rfl

theorem storage_of_step (h : StorageStep session fs argument o verb? fs')
    (hverb : verb? = some .CWD ∨ verb? = some .CDUP) : fs' = fs := by
  rcases hverb with rfl | rfl
  · cases h
    rfl
  · cases h
    rfl

/-- No command takes the current directory away. -/
theorem isDir_of_step {l : List String} (hl : l <+: session.pathManager.currentDirectory)
    (h : StorageStep session fs argument o verb? fs') (hdir : fs.IsDir l)
    (hcurrent : fs.IsDir session.pathManager.currentDirectory)
    (heq : l = session.pathManager.rootDirectory ∨ l = session.pathManager.currentDirectory) :
    fs'.IsDir l := by
  cases h with
  | same _ => exact hdir
  | mkd => exact PathManager.createDirectory_isDir hdir _ _
  | rmd => exact PathManager.removeDirectory_isDir hdir heq
  | dele => exact PathManager.deleteFile_isDir hdir
  | rnto _ => exact PathManager.renamePath_isDir hdir hcurrent hl _ _
  | retr _ _ => exact (FileSystem.addsDirectories_createDirectories ..).kept.isDir hdir
  | stor => exact receiveFileOverDataChannel_isDir hdir ..
  | stou => exact receiveFileOverDataChannel_isDir hdir ..
  | appe => exact receiveFileOverDataChannel_isDir hdir ..

/-- The root directory stays the same, and the current directory is there. -/
theorem currentDirectory_of_step {turn : Turn} (h : turn.Step session fs argument o verb?)
    (hcurrent : fs.IsDir session.pathManager.currentDirectory) :
    turn.session.pathManager.rootDirectory = session.pathManager.rootDirectory ∧
      turn.fs.IsDir turn.session.pathManager.currentDirectory := by
  obtain ⟨hsession, hfs⟩ := h
  rcases pathManager_of_step hsession with heq | ⟨hverb, hroot, hdir⟩
  · rw [heq]
    exact ⟨rfl, isDir_of_step List.prefix_rfl hfs hcurrent hcurrent (.inr rfl)⟩
  · -- The file system is the same.
    rw [storage_of_step hfs hverb]
    exact ⟨hroot, hdir⟩

theorem currentDirectory_handleCommand (o : Outcomes) (line : String)
    (hcurrent : fs.IsDir session.pathManager.currentDirectory) :
    (handleCommand o session fs line).session.pathManager.rootDirectory =
        session.pathManager.rootDirectory ∧
      (handleCommand o session fs line).fs.IsDir
        (handleCommand o session fs line).session.pathManager.currentDirectory := by
  rw [← given_pathManager session line] at hcurrent ⊢
  exact currentDirectory_of_step (step_handleCommand o session fs line) hcurrent

end

/-! ## Runs -/

section

variable {x x' y y' : Serving × List Handled} {e : ServingEvent}

theorem recorded_step_cases (h : recorded.step e x = some y) (he : Alone x e) :
    ∃ line o, e = .command line o ∧ y = (x.1.after o line, ⟨x.1, line, o⟩ :: x.2) := by
  match e with
  | .command line o =>
    obtain ⟨s, hs, rfl⟩ := Option.map_eq_some_iff.1 h
    simp only [serving, Option.ite_none_left_eq_some, Option.some.injEq] at hs
    obtain ⟨_, rfl⟩ := hs
    exact ⟨line, o, rfl, rfl⟩
  | .others _ => exact he.elim

theorem alone_of_inside (h : Inside x e) : Alone x e := by
  cases e with
  | command line o => trivial
  | others fs => exact h

/-- Two turns that tell the same lead to states that do. -/
theorem Turn.Alike.alikeRuns {turn turn' : Turn} {root : List String} (h : turn.Alike root turn')
    (hroot : turn.session.pathManager.rootDirectory = root)
    (hcurrent : turn.fs.IsDir turn.session.pathManager.currentDirectory)
    {history history' : List Handled}
    (hanswers : history'.map Handled.answers = history.map Handled.answers) :
    AlikeRuns (⟨turn.session, turn.fs, turn.quit⟩, history)
      (⟨turn'.session, turn'.fs, turn'.quit⟩, history') := by
  refine ⟨h.session, ?_, hcurrent, hanswers⟩
  rw [hroot]
  exact h.fs

/-- A line that stays inside the root directory in both runs tells the same in both. -/
theorem AlikeRuns.step (h : AlikeRuns x x') {o : Outcomes} {line : String}
    (hs : StaysInside x.1.session x.1.fs line) (hs' : StaysInside x'.1.session x'.1.fs line) :
    AlikeRuns (x.1.after o line, ⟨x.1, line, o⟩ :: x.2)
      (x'.1.after o line, ⟨x'.1, line, o⟩ :: x'.2) := by
  obtain ⟨⟨session, fs, ended⟩, history⟩ := x
  obtain ⟨⟨session', fs', ended'⟩, history'⟩ := x'
  obtain ⟨rfl, hfs, hcurrent, hanswers⟩ := h
  have halike := alike_handleCommand hfs hcurrent o hs hs'
  obtain ⟨hroot, hcurrent⟩ := currentDirectory_handleCommand o line hcurrent
  refine halike.alikeRuns hroot hcurrent ?_
  rw [List.map_cons, List.map_cons]
  refine congrArg₂ List.cons ?_ hanswers
  rw [Handled.answers, Handled.answers, Handled.turn, Handled.turn, Serving.turn, Serving.turn,
    halike.replies, halike.data, halike.aborted, halike.quit]

/-- So do all of the same lines, one after the other. -/
theorem AlikeRuns.reaches (h : AlikeRuns x x') (hy : recorded.Reaches Inside x y)
    (hy' : recorded.Reaches Inside x' y') (hx : x.2 = []) (hx' : x'.2 = [])
    (hinput : y'.2.map Handled.input = y.2.map Handled.input) : AlikeRuns y y' := by
  induction hy generalizing y' with
  | refl =>
    cases hy' with
    | refl => exact h
    | tail _ he hstep =>
      obtain ⟨_, _, _, rfl⟩ := recorded_step_cases hstep (alone_of_inside he)
      rw [hx] at hinput
      cases hinput
  | tail _ he hstep ih =>
    obtain ⟨line, o, rfl, rfl⟩ := recorded_step_cases hstep (alone_of_inside he)
    cases hy' with
    | refl =>
      rw [hx'] at hinput
      cases hinput
    | tail hreach he' hstep' =>
      obtain ⟨line', o', rfl, rfl⟩ := recorded_step_cases hstep' (alone_of_inside he')
      obtain ⟨hhead, htail⟩ := List.cons.inj hinput
      obtain ⟨rfl, rfl⟩ := Prod.mk.inj hhead
      exact (ih hreach htail).step he he'

/-- Two sessions that have just been opened, on the same root directory. -/
theorem alikeRuns_of_init {s s' : Serving} (hs : s ∈ serving.init) (hs' : s' ∈ serving.init)
    (hroot : s'.session.pathManager.rootDirectory = s.session.pathManager.rootDirectory)
    (hfs : s.fs.SameInside s.session.pathManager.rootDirectory s'.fs) :
    AlikeRuns (s, []) (s', []) := by
  obtain ⟨_, _, _, hcreate, hsession, _, hdir⟩ := hs
  obtain ⟨_, _, _, hcreate', hsession', _, _⟩ := hs'
  have hcurrent : ∀ {perms root fs} {pm : PathManager} {fs' : Storage},
      PathManager.create perms root fs = (pm, fs') → pm.currentDirectory = pm.rootDirectory := by
    intro perms root fs pm fs' heq
    obtain ⟨rfl, _⟩ := Prod.mk.inj heq
    rfl
  have hpm : s'.session.pathManager = s.session.pathManager := by
    have heq := (hcurrent hcreate').trans (hroot.trans (hcurrent hcreate).symm)
    generalize s.session.pathManager = pm at *
    generalize s'.session.pathManager = pm' at *
    obtain ⟨_, _, _⟩ := pm
    obtain ⟨_, _, _⟩ := pm'
    obtain rfl := hroot
    obtain rfl := heq
    rfl
  refine ⟨?_, hfs, ?_, rfl⟩
  · rw [hsession', hsession, hpm]
  · rw [hcurrent hcreate]
    exact hdir

end

/-- On file systems with the same tree at the root directory, the same command lines get
    the same replies and the same data, as long as none is led out of it. -/
theorem unobservable {s₀ s₀' s s' : Serving} {history history' : List Handled}
    (h₀ : s₀ ∈ serving.init) (h₀' : s₀' ∈ serving.init)
    (hroot : s₀'.session.pathManager.rootDirectory = s₀.session.pathManager.rootDirectory)
    (hfs : s₀.fs.SameInside s₀.session.pathManager.rootDirectory s₀'.fs)
    (h : recorded.Reaches Inside (s₀, []) (s, history))
    (h' : recorded.Reaches Inside (s₀', []) (s', history'))
    (hinput : history'.map Handled.input = history.map Handled.input) :
    history'.map Handled.answers = history.map Handled.answers :=
  ((alikeRuns_of_init h₀ h₀' hroot hfs).reaches h h' rfl rfl hinput).answers

/-- Another file next to the root directory. -/
def secretStorage : Storage where
  attributes := 0o755
  entries := [("srv", .dir 0o755 [("file", .file {})]), ("secret", .file {})]

theorem secretStorage_isDir : (Serving.start ["srv"] secretStorage).fs.IsDir
    (Serving.start ["srv"] secretStorage).session.pathManager.rootDirectory := by decide +kernel

theorem sameRoot_secretStorage :
    (Serving.start ["srv"] secretStorage).session.pathManager.rootDirectory =
      (Serving.start ["srv"] fileStorage).session.pathManager.rootDirectory := by decide +kernel

theorem sameInside_secretStorage : (Serving.start ["srv"] fileStorage).fs.SameInside
    (Serving.start ["srv"] fileStorage).session.pathManager.rootDirectory
    (Serving.start ["srv"] secretStorage).fs :=
  ⟨fileStorage_isDir, rfl⟩

/-- What a run of command lines has handled. -/
theorem input_of_run {inputs : List (String × Outcomes)} {x y : Serving × List Handled}
    (h : recorded.run Alone (inputs.map fun i => .command i.1 i.2) x = some y) :
    y.2.map Handled.input = inputs.reverse ++ x.2.map Handled.input := by
  induction inputs generalizing x with
  | nil =>
    cases h
    rfl
  | cons i inputs ih =>
    rw [List.map_cons, Machine.run, if_pos (show Alone x (.command i.1 i.2) from trivial)] at h
    obtain ⟨z, hz, h⟩ := Option.bind_eq_some_iff.1 h
    obtain ⟨line, o, hevent, rfl⟩ := recorded_step_cases hz trivial
    cases hevent
    rw [ih h, List.map_cons, List.reverse_cons, List.append_assoc]
    rfl

theorem reaches_after {x : Serving × List Handled} {s : Serving} {history : List Handled}
    (h : recorded.Reaches Inside x (s, history)) (hended : s.ended = false) (o : Outcomes)
    {line : String} (hs : StaysInside s.session s.fs line) :
    recorded.Reaches Inside x (s.after o line, ⟨s, line, o⟩ :: history) := by
  refine h.tail (e := .command line o) hs ?_
  refine Option.map_eq_some_iff.2 ⟨s.after o line, if_neg ?_, rfl⟩
  rw [hended]
  exact Bool.false_ne_true

theorem staysInside_of_executed_none {session : SessionState} {line : String}
    (h : executed session line = none) (fs : Storage) : StaysInside session fs line := by
  intro verb hverb
  rw [h] at hverb
  cases hverb

/-- The state of a client that has logged in. -/
def Serving.login (fs : Storage) : Serving :=
  ((Serving.start ["srv"] fs).after {} "USER alice").after {} "PASS secret"

/-- The size of the file is the same on both. -/
theorem unobservable_size : ∃ s s' history history',
    recorded.Reaches Inside (Serving.start ["srv"] fileStorage, []) (s, history) ∧
      recorded.Reaches Inside (Serving.start ["srv"] secretStorage, []) (s', history') ∧
      history'.head?.map (fun p => (p.line, p.turn.replies)) =
        some ("SIZE file", ["213 0\r\n"]) ∧
      history'.map Handled.answers = history.map Handled.answers := by
  have hlogin : ∀ fs ∈ [fileStorage, secretStorage],
      ((Serving.start ["srv"] fs).ended = false ∧
        executed (Serving.start ["srv"] fs).session "USER alice" = none) ∧
      (((Serving.start ["srv"] fs).after {} "USER alice").ended = false ∧
        executed ((Serving.start ["srv"] fs).after {} "USER alice").session "PASS secret" = none) ∧
      (Serving.login fs).ended = false ∧
        executed (Serving.login fs).session "SIZE file" = some .SIZE := by decide +kernel
  have hsees : ∀ fs ∈ [fileStorage, secretStorage],
      ((Serving.login fs).session.given "SIZE file").pathManager.Sees (Serving.login fs).fs
        (((Serving.login fs).session.given "SIZE file").pathManager.resolvePath
          (CommandParser.parse "SIZE file").argument) := by decide +kernel
  have hrun : ∀ fs ∈ [fileStorage, secretStorage], ∃ s earlier,
      recorded.Reaches Inside (Serving.start ["srv"] fs, [])
        (s, ⟨Serving.login fs, "SIZE file", {}⟩ :: earlier) ∧
      earlier.map Handled.input = [("PASS secret", {}), ("USER alice", {})] := by
    intro fs hfs
    obtain ⟨⟨huser, huser'⟩, ⟨hpass, hpass'⟩, hsize, hsize'⟩ := hlogin fs hfs
    refine ⟨_, _, reaches_after (reaches_after (reaches_after .refl huser {}
      (staysInside_of_executed_none huser' _)) hpass {} (staysInside_of_executed_none hpass' _))
      hsize {} ?_, rfl⟩
    intro verb hverb
    obtain rfl := Option.some.inj (hverb.symm.trans hsize')
    exact hsees fs hfs
  have hreplies : ((Serving.login secretStorage).turn {} "SIZE file").replies =
      ["213 0\r\n"] := by decide +kernel
  obtain ⟨s, earlier, hs, hinput⟩ := hrun fileStorage (by simp)
  obtain ⟨s', earlier', hs', hinput'⟩ := hrun secretStorage (by simp)
  have hinputs : (⟨Serving.login secretStorage, "SIZE file", {}⟩ :: earlier').map Handled.input =
      (⟨Serving.login fileStorage, "SIZE file", {}⟩ :: earlier).map Handled.input := by
    rw [List.map_cons, List.map_cons, hinput, hinput']
    rfl
  have hanswers := unobservable (start_mem_init fileStorage_isDir)
    (start_mem_init secretStorage_isDir) sameRoot_secretStorage sameInside_secretStorage hs hs' hinputs
  refine ⟨s, s', _, _, hs, hs', ?_, hanswers⟩
  exact congrArg (fun replies => some ("SIZE file", replies)) hreplies

/-- `STOU` announces another name if there is a file next to the root directory. -/
theorem not_unobservable :
    ¬∀ (s₀ s₀' s s' : Serving) (history history' : List Handled), s₀ ∈ serving.init →
      s₀' ∈ serving.init →
      s₀'.session.pathManager.rootDirectory = s₀.session.pathManager.rootDirectory →
      s₀.fs.SameInside s₀.session.pathManager.rootDirectory s₀'.fs →
      recorded.Reaches Alone (s₀, []) (s, history) →
      recorded.Reaches Alone (s₀', []) (s', history') →
      history'.map Handled.input = history.map Handled.input →
        history'.map Handled.answers = history.map Handled.answers := by
  intro h
  let inputs : List (String × Outcomes) :=
    [("USER alice", {}), ("PASS secret", {}), ("STOU ../secret", {})]
  obtain ⟨⟨s, history⟩, hrun, hs, hfirst⟩ := recorded.exists_reaches_of_run Alone
    (inputs.map fun i => .command i.1 i.2) (s := (Serving.start ["srv"] fileStorage, []))
    (fun x => x.2.head?.bind (fun p => p.turn.replies.head?) = some "125 FILE: ../secret\r\n")
    (by decide +kernel)
  obtain ⟨⟨s', history'⟩, hrun', hs', hfirst'⟩ := recorded.exists_reaches_of_run Alone
    (inputs.map fun i => .command i.1 i.2) (s := (Serving.start ["srv"] secretStorage, []))
    (fun x => x.2.head?.bind (fun p => p.turn.replies.head?) = some "125 FILE: ../secret_1\r\n")
    (by decide +kernel)
  have hanswers := h _ _ s s' history history' (start_mem_init fileStorage_isDir)
    (start_mem_init secretStorage_isDir) sameRoot_secretStorage sameInside_secretStorage hs hs'
    ((input_of_run hrun').trans (input_of_run hrun).symm)
  have hreply : ∀ history : List Handled, history.head?.bind (fun p => p.turn.replies.head?) =
      (history.map Handled.answers).head?.bind fun a => a.replies.head? := by
    intro history
    cases history <;> rfl
  have hfirst := of_decide_eq_true hfirst
  have hfirst' := of_decide_eq_true hfirst'
  rw [hreply] at hfirst hfirst'
  rw [hanswers, hfirst] at hfirst'
  exact absurd hfirst' (by decide)

end HybridFtp
