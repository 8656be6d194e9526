import HybridFtp.Common.Sandbox
import HybridFtp.Server.Steps

/-!
# The login gate

What the login keeps closed. An accepted `USER` closes the access, and an accepted
`PASS` behind it opens it.

* `AccessOpen`: the last accepted `USER` has been followed by an accepted `PASS`;
* `Gated`: no file or directory has been asked for, and no transfer, while the access
  was open;
* `login_gate`: a session is logged in while the access is open, and otherwise it cannot
  tell one file system from another, nor change it.
-/

namespace HybridFtp

/-- A line that is a `USER` which has been accepted. -/
def Handled.AcceptsUser (p : Handled) : Prop :=
  lineVerb p.line = some .USER ∧ p.turn.replies = ["331 Username OK, need password.\r\n"]

/-- A line that is a `PASS` which has been accepted. -/
def Handled.AcceptsPass (p : Handled) : Prop :=
  lineVerb p.line = some .PASS ∧ p.turn.replies = ["230 Login successful.\r\n"]

/-- The last accepted `USER` has been followed by an accepted `PASS`. The last line comes
    first. -/
def AccessOpen (history : List Handled) : Prop :=
  ∃ later user earlier, history = later ++ user :: earlier ∧ user.AcceptsUser ∧
    (∀ p ∈ later, ¬p.AcceptsUser) ∧ ∃ p ∈ later, p.AcceptsPass

/-- The commands about files and directories, and the transfers. -/
def Verb.aboutFiles : List Verb :=
  [.PWD, .CWD, .CDUP, .MKD, .RMD, .LIST, .NLST, .STAT, .SIZE, .MDTM, .DELE, .RNFR, .RNTO, .RETR,
    .STOR, .STOU, .APPE, .HASH]

/-- Whenever a command about files and directories has come, the access was closed. -/
def Gated (history : List Handled) : Prop :=
  ∀ later p earlier, history = later ++ p :: earlier →
    ∀ verb ∈ Verb.aboutFiles, lineVerb p.line = some verb → ¬AccessOpen earlier

/-- What has been typed, with what the system and the peer have answered meanwhile. -/
def Handled.input (p : Handled) : String × Outcomes := (p.line, p.o)

/-- What the client gets to see of a turn. -/
structure Answers where
  replies : List String
  data : List Bytes
  aborted : Bool
  quit : Bool

/-- The answers to a line. -/
def Handled.answers (p : Handled) : Answers where
  replies := p.turn.replies
  data := p.turn.data
  aborted := p.turn.aborted
  quit := p.turn.quit

/-- The turn, in another place: with another path manager, and on another file system. -/
def Turn.elsewhere (turn : Turn) (pathManager : PathManager) (fs : Storage) : Turn :=
  { turn with session := { turn.session with pathManager }, fs }

section

variable {s s' : Serving} {p p' : Handled} {history history' earlier : List Handled}

/-! ## The access -/

/-- Only an accepted `USER` and an accepted `PASS` change the state of the login. -/
theorem Handled.loginState_cases (p : Handled) :
    p.AcceptsUser ∧ p.turn.session.loginState = .UsernameAccepted ∨
      p.AcceptsPass ∧ p.before.session.loginState = .UsernameAccepted ∧
        p.turn.session.loginState = .LoggedIn ∨
      ¬p.AcceptsUser ∧ ¬p.AcceptsPass ∧
        p.turn.session.loginState = p.before.session.loginState := by
  obtain ⟨⟨session, fs, ended⟩, line, o⟩ := p
  simp only [Handled.AcceptsUser, Handled.AcceptsPass, Handled.turn, Serving.turn]
  rw [← given_loginState session line]
  by_cases huser : lineVerb line = some .USER
  · rw [handleCommand_of_lineVerb o fs huser]
    generalize session.given line = session'
    rw [dispatch, handleUser, requireArgument]
    split
    · refine .inr (.inr ⟨fun h => ?_, fun h => ?_, rfl⟩)
      · exact absurd h.2 (by simp [answer])
      · exact absurd h.2 (by simp [answer])
    · exact .inl ⟨⟨huser, rfl⟩, rfl⟩
  by_cases hpass : lineVerb line = some .PASS
  · rw [handleCommand_of_lineVerb o fs hpass]
    generalize session.given line = session'
    rw [dispatch, handlePass, requireArgument]
    split
    · refine .inr (.inr ⟨fun h => huser h.1, fun h => ?_, rfl⟩)
      exact absurd h.2 (by simp [answer])
    · split
      · refine .inr (.inr ⟨fun h => huser h.1, fun h => ?_, rfl⟩)
        exact absurd h.2 (by simp [answer])
      · rename_i hlogin
        exact .inr (.inl ⟨⟨hpass, rfl⟩, not_not.1 hlogin, rfl⟩)
  refine .inr (.inr ⟨fun h => huser h.1, fun h => hpass h.1, ?_⟩)
  have hstep := (step_handleCommand o session fs line).1
  generalize session.given line = session' at hstep ⊢
  generalize (handleCommand o session fs line).session = session'' at hstep ⊢
  generalize lineVerb line = verb? at *
  cases hstep with
  | user => exact absurd rfl huser
  | pass _ => exact absurd rfl hpass
  | same _ | type _ | mode _ | port _ _ | pasv _ | reset _ | cwd | cdup | rnfr _ | rnto => rfl

theorem not_accessOpen_of_acceptsUser (h : p.AcceptsUser) : ¬AccessOpen (p :: earlier) := by
  rintro ⟨later, user, rest, heq, _, hnone, q, hq, _⟩
  cases later with
  | nil => cases hq
  | cons r later =>
    obtain ⟨rfl, _⟩ := List.cons.inj heq
    exact hnone p List.mem_cons_self h

/-- Other lines keep the access as it is. -/
theorem accessOpen_cons (huser : ¬p.AcceptsUser) (hpass : ¬p.AcceptsPass) :
    AccessOpen (p :: earlier) ↔ AccessOpen earlier := by
  constructor
  · rintro ⟨later, user, rest, heq, hu, hnone, q, hq, haccepts⟩
    cases later with
    | nil => cases hq
    | cons r later =>
      obtain ⟨rfl, rfl⟩ := List.cons.inj heq
      refine ⟨later, user, rest, rfl, hu, fun q hq => hnone q (List.mem_cons_of_mem _ hq), q, ?_,
        haccepts⟩
      rcases List.mem_cons.1 hq with rfl | hq
      · exact absurd haccepts hpass
      · exact hq
  · rintro ⟨later, user, rest, rfl, hu, hnone, q, hq, haccepts⟩
    refine ⟨p :: later, user, rest, rfl, hu, fun q hq => ?_, q, List.mem_cons_of_mem _ hq, haccepts⟩
    rcases List.mem_cons.1 hq with rfl | hq
    · exact huser
    · exact hnone q hq

/-- A `PASS` opens the access if there has been a `USER`. -/
theorem accessOpen_of_acceptsPass (hpass : p.AcceptsPass)
    (h : ∃ user ∈ earlier, user.AcceptsUser) : AccessOpen (p :: earlier) := by
  have hlast : ∃ later user rest, earlier = later ++ user :: rest ∧ user.AcceptsUser ∧
      ∀ q ∈ later, ¬q.AcceptsUser := by
    induction earlier with
    | nil =>
      obtain ⟨_, hmem, _⟩ := h
      cases hmem
    | cons q earlier ih =>
      by_cases hq : q.AcceptsUser
      · exact ⟨[], q, earlier, rfl, hq, fun _ hmem => by cases hmem⟩
      · obtain ⟨user, hmem, huser⟩ := h
        rcases List.mem_cons.1 hmem with rfl | hmem
        · exact absurd huser hq
        · obtain ⟨later, user, rest, rfl, huser, hnone⟩ := ih ⟨user, hmem, huser⟩
          refine ⟨q :: later, user, rest, rfl, huser, fun r hr => ?_⟩
          rcases List.mem_cons.1 hr with rfl | hr
          · exact hq
          · exact hnone r hr
  obtain ⟨later, user, rest, rfl, huser, hnone⟩ := hlast
  refine ⟨p :: later, user, rest, rfl, huser, fun q hq => ?_, p, List.mem_cons_self, hpass⟩
  rcases List.mem_cons.1 hq with rfl | hq
  · intro hq
    have hverb := hq.1
    rw [hpass.1] at hverb
    cases hverb
  · exact hnone q hq

/-- The state of the login, told from the lines. -/
theorem loginState_of_recorded (h : recorded.Reachable (s, history)) :
    (s.session.loginState ≠ .NotLoggedIn → ∃ user ∈ history, user.AcceptsUser) ∧
      (s.session.loginState = .LoggedIn ↔ AccessOpen history) := by
  induction history generalizing s with
  | nil =>
    obtain ⟨_, hsession⟩ | ⟨_, _, hcons, _⟩ := recorded_cases h
    · rw [hsession]
      refine ⟨fun hne => absurd rfl hne, iff_of_false (fun heq => by cases heq) ?_⟩
      rintro ⟨later, _, _, heq, _⟩
      exact List.append_ne_nil_of_right_ne_nil later (List.cons_ne_nil _ _) heq.symm
    · cases hcons
  | cons p earlier ih =>
    obtain ⟨hnil, _⟩ | ⟨_, _, hcons, hbefore, hsession⟩ := recorded_cases h
    · cases hnil
    obtain ⟨rfl, rfl⟩ := List.cons.inj hcons
    obtain ⟨hsome, hopen⟩ := ih hbefore
    rw [hsession]
    rcases p.loginState_cases with ⟨huser, hlogin⟩ | ⟨hpass, hbefore, hlogin⟩ |
      ⟨huser, hpass, hlogin⟩
    · refine ⟨fun _ => ⟨p, List.mem_cons_self, huser⟩, iff_of_false ?_ ?_⟩
      · rw [hlogin]
        exact fun heq => by cases heq
      · exact not_accessOpen_of_acceptsUser huser
    · obtain ⟨user, hmem, huser⟩ := hsome (by rw [hbefore]; exact fun heq => by cases heq)
      exact ⟨fun _ => ⟨user, List.mem_cons_of_mem _ hmem, huser⟩,
        iff_of_true hlogin (accessOpen_of_acceptsPass hpass ⟨user, hmem, huser⟩)⟩
    · rw [hlogin, accessOpen_cons huser hpass]
      refine ⟨fun hne => ?_, hopen⟩
      obtain ⟨user, hmem, huser⟩ := hsome hne
      exact ⟨user, List.mem_cons_of_mem _ hmem, huser⟩

end

/-! ## The file system -/

section

variable {session : SessionState} {fs fs' : Storage} {argument : String} {pathManager : PathManager}

theorem requireArgument_elsewhere {missing : String} {turn turn' : Turn}
    (h : turn' = turn.elsewhere pathManager fs') :
    requireArgument { session with pathManager } fs' argument missing turn' =
      (requireArgument session fs argument missing turn).elsewhere pathManager fs' := by
  rw [requireArgument, requireArgument]
  split
  · rfl
  · exact h

theorem refuseArgument_elsewhere {name : String} {turn turn' : Turn}
    (h : turn' = turn.elsewhere pathManager fs') :
    refuseArgument { session with pathManager } fs' argument name turn' =
      (refuseArgument session fs argument name turn).elsewhere pathManager fs' := by
  rw [refuseArgument, refuseArgument]
  split
  · rfl
  · exact h

/-- The other commands do the same, wherever they are executed. -/
theorem execute_elsewhere (o : Outcomes) (session : SessionState) (fs fs' : Storage)
    (argument : String) (pathManager : PathManager) {verb : Verb} (h : verb ∉ Verb.aboutFiles) :
    execute o { session with pathManager } fs' argument (some verb) =
      (execute o session fs argument (some verb)).elsewhere pathManager fs' := by
  match verb with
  | .TYPE =>
    rw [execute, execute, handleType, handleType]
    split_ifs
    · rfl
    · rfl
    · rfl
  | .MODE =>
    rw [execute, execute, handleMode, handleMode]
    split_ifs
    · rfl
    · rfl
    · rfl
    · rfl
  | .PORT =>
    refine requireArgument_elsewhere ?_
    split
    · split
      · rfl
      · rfl
    · rfl
  | .PASV =>
    rw [execute, execute, handlePasv, handlePasv]
    split
    · rfl
    · rfl
  | .HELP =>
    rw [execute, execute, handleHelp, handleHelp]
    split
    · rfl
    · dsimp only
      split
      · rfl
      · rfl
  | .ABOR | .USER | .PASS | .QUIT | .NOOP => rfl
  | .PWD | .CWD | .CDUP | .MKD | .RMD | .LIST | .NLST | .STAT | .SIZE | .MDTM | .DELE | .RNFR
  | .RNTO | .RETR | .STOR | .STOU | .APPE | .HASH => exact absurd (by decide) h

theorem dispatch_elsewhere (o : Outcomes) (session : SessionState) (fs fs' : Storage)
    (argument : String) (pathManager : PathManager) {verb? : Option Verb}
    (h : ∀ verb ∈ Verb.aboutFiles, verb? = some verb → session.loginState ≠ .LoggedIn) :
    dispatch o { session with pathManager } fs' argument verb? =
      (dispatch o session fs argument verb?).elsewhere pathManager fs' := by
  by_cases hquit : verb? = some .QUIT
  · subst hquit
    exact refuseArgument_elsewhere rfl
  by_cases hnoop : verb? = some .NOOP
  · subst hnoop
    exact refuseArgument_elsewhere rfl
  by_cases huser : verb? = some .USER
  · subst huser
    exact requireArgument_elsewhere rfl
  by_cases hpass : verb? = some .PASS
  · subst hpass
    refine requireArgument_elsewhere ?_
    split
    · rfl
    · rfl
  rw [dispatch_of_ne o _ fs' argument hquit hnoop huser hpass,
    dispatch_of_ne o session fs argument hquit hnoop huser hpass]
  split
  · rfl
  · rename_i hlogin
    match verb? with
    | none => rfl
    | some verb =>
      exact execute_elsewhere o session fs fs' argument pathManager fun hmem =>
        h verb hmem rfl (not_not.1 hlogin)

/-- A line that asks for no file without the login does the same everywhere. -/
theorem handleCommand_elsewhere (o : Outcomes) (session : SessionState) (fs fs' : Storage)
    (line : String) (pathManager : PathManager)
    (h : ∀ verb ∈ Verb.aboutFiles, lineVerb line = some verb → session.loginState ≠ .LoggedIn) :
    handleCommand o { session with pathManager } fs' line =
      (handleCommand o session fs line).elsewhere pathManager fs' := by
  have hgiven : ({ session with pathManager } : SessionState).given line =
      { session.given line with pathManager } := by
    rw [SessionState.given, SessionState.given]
    split_ifs
    · rfl
    · rfl
  rw [handleCommand_eq, handleCommand_eq, hgiven]
  rw [← given_loginState session line] at h
  generalize session.given line = session' at h ⊢
  split
  · exact dispatch_elsewhere o session' fs fs' _ pathManager h
  · rfl

end

theorem gated_cons {p : Handled} {history : List Handled} :
    Gated (p :: history) ↔
      (∀ verb ∈ Verb.aboutFiles, lineVerb p.line = some verb → ¬AccessOpen history) ∧
        Gated history := by
  constructor
  · intro h
    refine ⟨h [] p history rfl, fun later q earlier heq => h (p :: later) q earlier ?_⟩
    rw [heq]
    rfl
  · rintro ⟨hp, h⟩ later q earlier heq
    cases later with
    | nil =>
      obtain ⟨rfl, rfl⟩ := List.cons.inj heq
      exact hp
    | cons r later =>
      obtain ⟨rfl, rfl⟩ := List.cons.inj heq
      exact h later q earlier rfl

theorem Handled.answers_of_elsewhere {p p' : Handled} {pathManager : PathManager} {fs : Storage}
    (h : p'.turn = p.turn.elsewhere pathManager fs) : p'.answers = p.answers := by
  rw [Handled.answers, Handled.answers, h]
  generalize p.turn = turn
  rfl

/-- What is done while the access is closed depends on what has been typed alone. -/
theorem answers_of_gated {history history' : List Handled} {s s' : Serving}
    (h : recorded.Reachable (s, history)) (h' : recorded.Reachable (s', history'))
    (hgated : Gated history)
    (hinput : history'.map Handled.input = history.map Handled.input) :
    history'.map Handled.answers = history.map Handled.answers ∧
      s'.session = { s.session with pathManager := s'.session.pathManager } ∧
      ∀ p ∈ history, p.turn.fs = p.before.fs ∧
        p.before.session.pathManager = s.session.pathManager := by
  induction history generalizing history' s s' with
  | nil =>
    obtain rfl := List.map_eq_nil_iff.1 hinput
    obtain ⟨_, hsession⟩ | ⟨_, _, hcons, _⟩ := recorded_cases h
    · obtain ⟨_, hsession'⟩ | ⟨_, _, hcons, _⟩ := recorded_cases h'
      · refine ⟨rfl, ?_, fun _ hmem => by cases hmem⟩
        rw [hsession', hsession]
      · cases hcons
    · cases hcons
  | cons p earlier ih =>
    obtain ⟨hnil, _⟩ | ⟨_, _, hcons, hbefore, hsession⟩ := recorded_cases h
    · cases hnil
    obtain ⟨rfl, rfl⟩ := List.cons.inj hcons
    obtain ⟨p', earlier', rfl, hp, hearlier⟩ := List.map_eq_cons_iff.1 hinput
    obtain ⟨hnil, _⟩ | ⟨_, _, hcons, hbefore', hsession'⟩ := recorded_cases h'
    · cases hnil
    obtain ⟨rfl, rfl⟩ := List.cons.inj hcons
    obtain ⟨hclosed, hgated⟩ := gated_cons.1 hgated
    obtain ⟨hanswers, heq, hkept⟩ := ih hbefore hbefore' hgated hearlier
    obtain ⟨hline, ho⟩ := Prod.mk.inj hp
    have hlogin : ∀ verb ∈ Verb.aboutFiles, lineVerb p.line = some verb →
        p.before.session.loginState ≠ .LoggedIn := fun verb hverb hpline hlogin =>
      hclosed verb hverb hpline ((loginState_of_recorded hbefore).2.1 hlogin)
    have hturn' : p'.turn =
        p.turn.elsewhere p'.before.session.pathManager p'.before.fs := by
      rw [Handled.turn, Serving.turn, hline, ho, heq]
      exact handleCommand_elsewhere p.o p.before.session p.before.fs p'.before.fs p.line _ hlogin
    -- The same turn, in the place where it has been taken.
    have hturn : p.turn = p.turn.elsewhere p.before.session.pathManager p.before.fs :=
      handleCommand_elsewhere p.o p.before.session p.before.fs p.before.fs p.line _ hlogin
    have hfs : p.turn.fs = p.before.fs := congrArg Turn.fs hturn
    have hmanager : s.session.pathManager = p.before.session.pathManager := by
      rw [hsession]
      exact congrArg (fun turn : Turn => turn.session.pathManager) hturn
    refine ⟨?_, ?_, ?_⟩
    · rw [List.map_cons, List.map_cons, hanswers, Handled.answers_of_elsewhere hturn']
    · rw [hsession', hsession, hturn']
      generalize p.turn = turn
      rfl
    · intro q hq
      rcases List.mem_cons.1 hq with rfl | hq
      · exact ⟨hfs, hmanager.symm⟩
      · obtain ⟨hfs, heq⟩ := hkept q hq
        exact ⟨hfs, heq.trans hmanager.symm⟩

/-- A session is logged in exactly if its last accepted `USER` has been followed by an
    accepted `PASS`. If nothing about files and directories has been asked for then, two
    sessions with the same lines get the same answers, whatever is on their file systems,
    and do not differ but in their current directory, which has not changed; nor has a
    line changed the file system. -/
theorem login_gate :
    (∀ s history, recorded.Reachable (s, history) →
      (s.session.loginState = .LoggedIn ↔ AccessOpen history)) ∧
    (∀ s history s' history', recorded.Reachable (s, history) →
      recorded.Reachable (s', history') → Gated history →
      history'.map Handled.input = history.map Handled.input →
      history'.map Handled.answers = history.map Handled.answers ∧
        s'.session = { s.session with pathManager := s'.session.pathManager } ∧
        ∀ p ∈ history, p.turn.fs = p.before.fs ∧
          p.before.session.pathManager = s.session.pathManager) :=
  ⟨fun _ _ h => (loginState_of_recorded h).2,
    fun _ _ _ _ h h' hgated hinput => answers_of_gated h h' hgated hinput⟩

/-- Before the login nobody learns which file there is. -/
theorem login_gate_retr :
    (((Serving.start ["srv"] linkedStorage).after {} "USER alice").turn {} "RETR file").replies =
      (((Serving.start ["srv"] fileStorage).after {} "USER alice").turn {} "RETR file").replies := by
  have hstart : ∀ fs : Storage, (Serving.start ["srv"] fs).fs.IsDir
      (Serving.start ["srv"] fs).session.pathManager.rootDirectory →
      recorded.Reachable (Serving.start ["srv"] fs, []) := fun fs h =>
    ⟨_, ⟨start_mem_init h, rfl⟩, .refl⟩
  have hfile := recorded_after (hstart fileStorage fileStorage_isDir) Bool.false_ne_true {}
    "USER alice"
  have hlinked := recorded_after (hstart linkedStorage (by decide +kernel)) Bool.false_ne_true {}
    "USER alice"
  have hfile' := recorded_after hfile (by decide +kernel) {} "RETR file"
  have hlinked' := recorded_after hlinked (by decide +kernel) {} "RETR file"
  have hclosed : ((Serving.start ["srv"] fileStorage).after {} "USER alice").session.loginState ≠
      .LoggedIn := by decide +kernel
  have hgated : Gated [⟨(Serving.start ["srv"] fileStorage).after {} "USER alice", "RETR file", {}⟩,
      ⟨Serving.start ["srv"] fileStorage, "USER alice", {}⟩] := by
    refine gated_cons.2 ⟨fun verb _ _ hopen => hclosed ((login_gate.1 _ _ hfile).2 hopen), ?_⟩
    refine gated_cons.2 ⟨fun verb hverb hline => ?_, fun later p earlier heq => ?_⟩
    · have huser : lineVerb "USER alice" = some .USER := by decide +kernel
      rw [huser] at hline
      cases hline
      exact absurd hverb (by decide)
    · cases later <;> cases heq
  have hanswers := (login_gate.2 _ _ _ _ hfile' hlinked' hgated rfl).1
  exact congrArg Answers.replies (List.cons.inj hanswers).1

end HybridFtp
