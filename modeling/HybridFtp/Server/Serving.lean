import HybridFtp.Lib.Machine
import HybridFtp.Server.Session

/-!
# Serving a session

A session as `handle_client_thread` runs it: one command line after the other, until
one of them ends the session, while others may change the file system.

* `serving`, `recorded`: the machine, without and with its history;
* `Serving.start`: a session that has just been opened.
-/

namespace HybridFtp

/-- A session, and the file system. -/
structure Serving where
  session : SessionState
  fs : Storage
  ended : Bool := false

/-- The turn of a command line. -/
def Serving.turn (s : Serving) (o : Outcomes) (line : String) : Turn :=
  handleCommand o s.session s.fs line

/-- A command line and its outcomes, or whatever others do to the file system, as long
    as they leave the root directory where it is. -/
inductive ServingEvent
  | command (line : String) (o : Outcomes)
  | others (fs : Storage)

/-- The machine of a session whose path manager has found or made its root directory.
    Lines without a byte are skipped before; one that starts with a NUL is `""` here. -/
def serving : Machine Serving ServingEvent where
  init := {s | ∃ perms root fs, PathManager.create perms root fs = (s.session.pathManager, s.fs) ∧
    s.session = { pathManager := s.session.pathManager } ∧ ¬s.ended ∧
    s.fs.IsDir s.session.pathManager.rootDirectory}
  step
    | .command line o, s =>
      if s.ended then none
      else
        let turn := s.turn o line
        some { session := turn.session, fs := turn.fs, ended := turn.quit }
    | .others fs, s =>
      if fs.IsDir s.session.pathManager.rootDirectory then some { s with fs } else none

/-- The state after a line. -/
def Serving.after (s : Serving) (o : Outcomes) (line : String) : Serving where
  session := (s.turn o line).session
  fs := (s.turn o line).fs
  ended := (s.turn o line).quit

theorem after_session (s : Serving) (o : Outcomes) (line : String) :
    (s.after o line).session = (handleCommand o s.session s.fs line).session := rfl

/-- A line that has been handled, with the state before. -/
structure Handled where
  before : Serving
  line : String
  o : Outcomes

/-- What the line did. -/
def Handled.turn (p : Handled) : Turn := p.before.turn p.o p.line

/-- The machine of a session that keeps the lines that have been handled, the last one
    first. -/
def recorded : Machine (Serving × List Handled) ServingEvent :=
  serving.recording fun s e =>
    match e with
    | .command line o => some ⟨s, line, o⟩
    | .others _ => none

theorem recorded_after {s : Serving} {history : List Handled}
    (h : recorded.Reachable (s, history)) (hended : ¬s.ended) (o : Outcomes) (line : String) :
    recorded.Reachable (s.after o line, ⟨s, line, o⟩ :: history) := by
  refine h.tail (e := .command line o) trivial ?_
  refine Option.map_eq_some_iff.2 ⟨s.after o line, if_neg hended, rfl⟩

/-- The last line has been handled in a state that was reached before it. -/
theorem recorded_cases {s : Serving} {history : List Handled}
    (h : recorded.Reachable (s, history)) :
    history = [] ∧ s.session = { pathManager := s.session.pathManager } ∨
      ∃ p earlier, history = p :: earlier ∧ recorded.Reachable (p.before, earlier) ∧
        s.session = p.turn.session := by
  have hlast : recorded.Reachable (s, history) ∧
      (history = [] ∧ s.session = { pathManager := s.session.pathManager } ∨
        ∃ p earlier, history = p :: earlier ∧ recorded.Reachable (p.before, earlier) ∧
          s.session = p.turn.session) := by
    refine h.invariant (I := fun s => recorded.Reachable s ∧
      (s.2 = [] ∧ s.1.session = { pathManager := s.1.session.pathManager } ∨
        ∃ p earlier, s.2 = p :: earlier ∧ recorded.Reachable (p.before, earlier) ∧
          s.1.session = p.turn.session)) ?_ ?_
    · intro s hs
      obtain ⟨⟨_, _, _, _, hsession, _⟩, hnil⟩ := id hs
      exact ⟨⟨s, hs, .refl⟩, .inl ⟨hnil, hsession⟩⟩
    · rintro ⟨s, history⟩ e s' ⟨hs, hI⟩ hstep
      refine ⟨hs.tail trivial hstep, ?_⟩
      obtain ⟨t, ht, rfl⟩ := Option.map_eq_some_iff.1 hstep
      match e, ht with
      | .command line o, ht =>
        simp only [serving, Option.ite_none_left_eq_some, Option.some.injEq] at ht
        obtain ⟨_, rfl⟩ := ht
        exact .inr ⟨⟨s, line, o⟩, history, rfl, hs, rfl⟩
      | .others fs, ht =>
        simp only [serving, Option.ite_none_right_eq_some, Option.some.injEq] at ht
        obtain ⟨_, rfl⟩ := ht
        exact hI
  exact hlast.2

/-- A session on a file system, whose root directory is at `root`. -/
def Serving.start (root : List String) (fs : Storage) : Serving :=
  let created := PathManager.create 0o755 { names := root } fs
  { session := { pathManager := created.1 }, fs := created.2 }

theorem start_mem_init {root : List String} {fs : Storage}
    (h : (Serving.start root fs).fs.IsDir (Serving.start root fs).session.pathManager.rootDirectory) :
    Serving.start root fs ∈ serving.init :=
  ⟨0o755, { names := root }, fs, rfl, rfl, Bool.false_ne_true, h⟩

/-- What is reached by a run of a session that has just been opened. -/
theorem exists_reachable_of_run {root : List String} {fs : Storage}
    (h : (Serving.start root fs).fs.IsDir (Serving.start root fs).session.pathManager.rootDirectory)
    (events : List ServingEvent) (P : Serving → Bool)
    (hP : (serving.run (fun _ _ => True) events (Serving.start root fs)).any P = true) :
    ∃ s, serving.Reachable s ∧ P s = true := by
  have hstart : ∀ s ∈ some (Serving.start root fs), s ∈ serving.init := by
    intro s hs
    cases hs
    exact start_mem_init h
  exact serving.exists_reachableBy_of_run (fun _ _ => True) hstart events P hP

/-- What is reached by such a run, with what has been handled. -/
theorem exists_recorded_of_run {root : List String} {fs : Storage}
    (h : (Serving.start root fs).fs.IsDir (Serving.start root fs).session.pathManager.rootDirectory)
    (events : List ServingEvent) (P : Serving × List Handled → Bool)
    (hP : (recorded.run (fun _ _ => True) events (Serving.start root fs, [])).any P = true) :
    ∃ s, recorded.Reachable s ∧ P s = true := by
  have hstart : ∀ s ∈ some (Serving.start root fs, []), s ∈ recorded.init := by
    intro s hs
    cases hs
    exact ⟨start_mem_init h, rfl⟩
  exact recorded.exists_reachableBy_of_run (fun _ _ => True) hstart events P hP

/-- A root directory with a file. -/
def fileStorage : Storage where
  attributes := 0o755
  entries := [("srv", .dir 0o755 [("file", .file {})])]

theorem fileStorage_isDir : (Serving.start ["srv"] fileStorage).fs.IsDir
    (Serving.start ["srv"] fileStorage).session.pathManager.rootDirectory := by decide +kernel

end HybridFtp
