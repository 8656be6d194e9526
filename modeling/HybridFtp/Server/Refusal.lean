import HybridFtp.Server.Steps
import HybridFtp.Server.Upload

/-!
# Refused commands

What a command that is refused leaves behind.

* `Turn.Refused`: one of the replies is 4xx or 5xx;
* `SessionState.Forgets`: what the session may lose is its data channel and the name
  that `RNFR` has set;
* `Turn.Harmless`: a refused command makes no other changes but new directories, unless
  it has failed while it wrote to a file;
* `refused_harmless`: nor does a whole run of such commands.
-/

namespace HybridFtp

/-- A reply of 4xx or 5xx. -/
def Refusal (reply : String) : Prop := replyClass reply = some '4' ∨ replyClass reply = some '5'

instance (reply : String) : Decidable (Refusal reply) :=
  inferInstanceAs (Decidable (_ ∨ _))

/-- A command is refused by one of its replies. -/
def Turn.Refused (turn : Turn) : Prop := ∃ reply ∈ turn.replies, Refusal reply

/-- The reply to an upload that has failed while it wrote to the file. -/
def failedWrite : String := "551 Failed to write file.\r\n"

/-- A reply of 1xx to 3xx. -/
def Accepted (reply : String) : Prop := ∃ d ∈ ['1', '2', '3'], replyClass reply = some d

theorem Accepted.lit {d d₁ d₂ : Char} {rest : List Char}
    (h : (['1', '2', '3'].contains d && (d.isDigit && d₁.isDigit && d₂.isDigit)) = true) :
    Accepted (String.ofList (d :: d₁ :: d₂ :: rest)) := by
  simp only [Bool.and_eq_true, List.contains_iff_mem] at h
  refine ⟨d, h.1, ?_⟩
  rw [replyClass, String.toList_ofList]
  exact if_pos ⟨h.2.1.1, h.2.1.2, h.2.2⟩

theorem Accepted.append {start : String} (h : Accepted start) (text : String) :
    Accepted (start ++ text) := by
  obtain ⟨d, hd, h⟩ := h
  exact ⟨d, hd, replyClass_append h text⟩

theorem Accepted.not_refusal {reply : String} (h : Accepted reply) : ¬Refusal reply := by
  obtain ⟨d, hd, h⟩ := h
  rw [Refusal, h, not_or]
  constructor
  · rintro ⟨⟩
    simp at hd
  · rintro ⟨⟩
    simp at hd

/-- The data channel is closed, the name that `RNFR` has set is lost, or both. -/
def SessionState.Forgets (session session' : SessionState) : Prop :=
  ∃ session₁, (session₁ = session ∨ session₁ = session.reset) ∧
    (session' = session₁ ∨ session' = { session₁ with renameFrom := none })

namespace SessionState.Forgets

variable {session session₁ session₂ : SessionState}

theorem refl (session : SessionState) : session.Forgets session :=
  ⟨session, .inl rfl, .inl rfl⟩

theorem of_reset (h : session₁ = session ∨ session₁ = session.reset) : session.Forgets session₁ :=
  ⟨session₁, h, .inl rfl⟩

theorem renameFrom (session : SessionState) :
    session.Forgets { session with renameFrom := none } :=
  ⟨session, .inl rfl, .inr rfl⟩

theorem trans (h : session.Forgets session₁) (h' : session₁.Forgets session₂) :
    session.Forgets session₂ := by
  obtain ⟨s, hs, hs₁⟩ := h
  obtain ⟨s', hs', hs₂⟩ := h'
  rcases hs with rfl | rfl <;> rcases hs₁ with rfl | rfl <;> rcases hs' with rfl | rfl <;>
    rcases hs₂ with rfl | rfl
  all_goals first
    | exact ⟨_, .inl rfl, .inl rfl⟩
    | exact ⟨_, .inl rfl, .inr rfl⟩
    | exact ⟨_, .inr rfl, .inl rfl⟩
    | exact ⟨_, .inr rfl, .inr rfl⟩

end SessionState.Forgets

/-- An operation that fails has done nothing. -/
def Untouched {γ : Type} (c : γ) (operation : Bool × γ) : Prop :=
  operation.1 = false → operation.2 = c

theorem untouched_failed {γ : Type} (c : γ) : Untouched c (false, c) := fun _ => rfl

theorem untouched_done {γ : Type} (c c' : γ) : Untouched c (true, c') := nofun

/-- If the command is refused, and has not failed while it wrote to a file, nothing is
    lost but the data channel and what `RNFR` has set, and all that is new are
    directories. -/
def Turn.Harmless (session : SessionState) (fs : Storage) (turn : Turn) : Prop :=
  turn.Refused → failedWrite ∉ turn.replies →
    session.Forgets turn.session ∧ fs.AddsDirectories turn.fs

section

variable {o : Outcomes} {session session' : SessionState} {fs fs' : Storage}
  {argument reply : String} {turn : Turn}

theorem harmless_answer (reply : String) : (answer session fs reply).Harmless session fs :=
  fun _ _ => ⟨.refl session, .refl fs⟩

/-- A command that succeeds may do anything. -/
theorem harmless_of_accepted (h : Accepted reply) :
    (answer session' fs' reply).Harmless session fs := by
  rintro ⟨reply', hreply', hrefusal⟩
  rw [List.mem_singleton.1 hreply'] at hrefusal
  exact absurd hrefusal h.not_refusal

theorem harmless_requireArgument {missing : String} (h : turn.Harmless session fs) :
    (requireArgument session fs argument missing turn).Harmless session fs := by
  rw [requireArgument]
  split_ifs
  · exact harmless_answer _
  · exact h

theorem harmless_refuseArgument {name : String} (h : turn.Harmless session fs) :
    (refuseArgument session fs argument name turn).Harmless session fs := by
  rw [refuseArgument]
  split_ifs
  · exact harmless_answer _
  · exact h

theorem harmless_changeStorage {missing refused done : String} {operation : Bool × Storage}
    (hdone : Accepted done) (h : Untouched fs operation) :
    (changeStorage session fs argument missing refused done operation).Harmless session fs := by
  refine harmless_requireArgument ?_
  split_ifs with hok
  · exact harmless_of_accepted hdone
  · rw [h (Bool.eq_false_iff.2 hok)]
    exact harmless_answer _

theorem harmless_changeCurrent {refused done : String} {operation : Bool × PathManager}
    (hdone : Accepted done) (h : Untouched session.pathManager operation) :
    (changeCurrent session fs refused done operation).Harmless session fs := by
  rw [changeCurrent]
  split_ifs with hok
  · exact harmless_of_accepted hdone
  · rw [h (Bool.eq_false_iff.2 hok)]
    exact harmless_answer _

end

/-! ## Operations that fail -/

namespace FileSystem

variable {ν δ β : Type} [DecidableEq ν] {fs fs' : FileSystem ν δ β} {p : NormalPath ν}

theorem untouched_createDirectory {attributes : δ} {created : Bool}
    (h : fs.createDirectory attributes p = some (created, fs')) : Untouched fs (created, fs') := by
  rw [createDirectory] at h
  split at h
  · cases h
    exact untouched_done _ _
  · split_ifs at h
    cases h
    exact untouched_failed _

theorem untouched_remove {removed : Bool} (h : fs.remove p = some (removed, fs')) :
    Untouched fs (removed, fs') := by
  rw [remove] at h
  split at h
  · split_ifs at h
    cases h
    exact untouched_done _ _
  · cases h
    exact untouched_failed _
  · cases h
    exact untouched_failed _
  · cases h
  · cases h

end FileSystem

namespace PathManager

variable (pm : PathManager) (fs : Storage)

theorem untouched_changeDirectory (path : String) :
    Untouched pm (pm.changeDirectory fs path) := by
  rw [changeDirectory]
  repeat' split
  · exact untouched_failed _
  · exact untouched_failed _
  · exact untouched_failed _
  · exact untouched_done _ _
  · exact untouched_failed _

theorem untouched_changeToParentDirectory : Untouched pm (pm.changeToParentDirectory fs) := by
  rw [changeToParentDirectory]
  split
  · exact untouched_failed _
  · exact untouched_changeDirectory pm fs _

theorem untouched_createDirectory (perms : Perms) (path : String) :
    Untouched fs (pm.createDirectory fs perms path) := by
  rw [createDirectory]
  dsimp only
  repeat' split
  · exact untouched_failed _
  · exact untouched_failed _
  · exact untouched_failed _
  · exact FileSystem.untouched_createDirectory ‹_›
  · exact untouched_failed _

theorem untouched_removeDirectory (path : String) :
    Untouched fs (pm.removeDirectory fs path) := by
  rw [removeDirectory]
  dsimp only
  repeat' split
  · exact untouched_failed _
  · exact untouched_failed _
  · exact untouched_failed _
  · exact untouched_failed _
  · exact untouched_failed _
  · exact untouched_failed _
  · exact FileSystem.untouched_remove ‹_›
  · exact untouched_failed _

theorem untouched_deleteFile (path : String) : Untouched fs (pm.deleteFile fs path) := by
  rw [deleteFile]
  dsimp only
  repeat' split
  · exact untouched_failed _
  · exact untouched_failed _
  · exact untouched_failed _
  · exact untouched_failed _
  · exact untouched_failed _
  · exact FileSystem.untouched_remove ‹_›
  · exact untouched_failed _

theorem untouched_renamePath (oldPath newPath : String) :
    Untouched fs (pm.renamePath fs oldPath newPath) := by
  rw [renamePath]
  dsimp only
  repeat' split
  · exact untouched_failed _
  · exact untouched_failed _
  · exact untouched_failed _
  · exact untouched_failed _
  · exact untouched_failed _
  · exact untouched_failed _
  · exact untouched_failed _
  · exact untouched_done _ _
  · exact untouched_failed _

end PathManager

/-! ## Commands -/

section

variable {o : Outcomes} {session session₁ : SessionState} {fs fs₁ : Storage} {turn : Turn}
  {opening : List String}

theorem harmless_of_turn (hsession : turn.session = session ∨ turn.session = session.reset)
    (hfs : turn.fs = fs) : turn.Harmless session fs := by
  intro _ _
  rw [hfs]
  exact ⟨.of_reset hsession, .refl fs⟩

theorem Turn.Harmless.of_forgets (h : turn.Harmless session₁ fs₁) (hsession : session.Forgets session₁)
    (hfs : fs.AddsDirectories fs₁) : turn.Harmless session fs := fun hrefused hwrite =>
  ⟨hsession.trans (h hrefused hwrite).1, hfs.trans (h hrefused hwrite).2⟩

theorem harmless_after (ho : ∀ reply ∈ opening, Accepted reply) (h : turn.Harmless session fs) :
    (turn.after opening).Harmless session fs := by
  rintro ⟨reply, hreply, hrefusal⟩ hwrite
  refine h ⟨reply, (List.mem_append.1 hreply).resolve_left fun hopening => ?_, hrefusal⟩
    fun hmem => hwrite (List.mem_append_right _ hmem)
  exact (ho reply hopening).not_refusal hrefusal

theorem harmless_receiveFile (o : Outcomes) (session : SessionState) (fs : Storage)
    (resolvedPath : NormalPath String) (appendMode : Bool) :
    (receiveFile o session fs resolvedPath appendMode).Harmless session fs := by
  rw [receiveFile]
  split
  · dsimp only
    rw [storeFile_eq]
    split
    · exact harmless_answer _
    · dsimp only
      split
      · exact harmless_of_accepted (.lit rfl)
      · exact fun _ hwrite => absurd (List.mem_singleton_self _) hwrite
  · exact harmless_answer _
  · exact harmless_of_turn (.inl rfl) rfl

theorem harmless_receiveFileFrom (o : Outcomes) (session : SessionState) (fs : Storage)
    (peer : Option Endpoint) (resolvedPath : NormalPath String) (appendMode : Bool) :
    (receiveFileFrom o session fs peer resolvedPath appendMode).Harmless session fs := by
  cases peer with
  | some _ =>
    rw [receiveFileFrom]
    split
    · exact harmless_answer _
    · exact harmless_receiveFile o session fs _ _
  | none =>
    exact (harmless_receiveFile o session.reset fs _ _).of_forgets (.of_reset (.inr rfl)) (.refl fs)

theorem harmless_receiveFileOverDataChannel (o : Outcomes) (session : SessionState) (fs : Storage)
    (destName : String) (appendMode skipOpeningReply : Bool) :
    (receiveFileOverDataChannel o session fs destName appendMode skipOpeningReply).Harmless
      session fs := by
  rw [receiveFileOverDataChannel]
  split
  · exact harmless_answer _
  · dsimp only
    split
    · exact harmless_answer _
    · refine harmless_after (fun reply hreply => ?_) ((harmless_receiveFileFrom o session _ _ _ _).of_forgets
        (.refl session) (FileSystem.addsDirectories_createDirectories ..))
      split at hreply
      · cases hreply
      · rw [List.mem_singleton.1 hreply]
        exact .lit rfl

theorem harmless_handleRetr (o : Outcomes) (session : SessionState) (fs : Storage)
    (argument : String) : (handleRetr o session fs argument).Harmless session fs := by
  refine harmless_requireArgument ?_
  split
  · exact harmless_answer _
  · split
    · exact harmless_answer _
    · split
      · exact harmless_answer _
      · obtain ⟨hsession, hfs⟩ := sendFileTo_turn o session _ _ _
        refine harmless_after (fun reply hreply => ?_) ((harmless_of_turn hsession hfs).of_forgets
          (.refl session) (FileSystem.addsDirectories_createDirectories ..))
        rw [List.mem_singleton.1 hreply]
        exact .lit rfl

theorem harmless_handleRnto (session : SessionState) (fs : Storage) (argument : String) :
    (handleRnto session fs argument).Harmless session fs := by
  have hforgets := SessionState.Forgets.renameFrom session
  rw [handleRnto]
  dsimp only
  refine Turn.Harmless.of_forgets ?_ hforgets (.refl fs)
  refine harmless_requireArgument ?_
  split
  · exact harmless_answer _
  · rename_i source _
    have huntouched := session.pathManager.untouched_renamePath fs source argument
    split_ifs with hok
    · exact harmless_of_accepted (.lit rfl)
    · rw [huntouched (Bool.eq_false_iff.2 hok)]
      exact harmless_answer _

theorem harmless_handleType (session : SessionState) (fs : Storage) (argument : String) :
    (handleType session fs argument).Harmless session fs := by
  rw [handleType]
  split_ifs
  · exact harmless_of_accepted (.lit rfl)
  · exact harmless_of_accepted (.lit rfl)
  · exact harmless_answer _

theorem harmless_handleMode (session : SessionState) (fs : Storage) (argument : String) :
    (handleMode session fs argument).Harmless session fs := by
  rw [handleMode]
  split_ifs
  · exact harmless_of_accepted (.lit rfl)
  · exact harmless_of_accepted (.lit rfl)
  · exact harmless_of_accepted (.lit rfl)
  · exact harmless_answer _

theorem harmless_handlePort (session : SessionState) (fs : Storage) (argument : String) :
    (handlePort session fs argument).Harmless session fs := by
  refine harmless_requireArgument ?_
  split
  · split
    · exact harmless_answer _
    · exact harmless_of_accepted (.lit rfl)
  · exact harmless_answer _

theorem harmless_handlePasv (o : Outcomes) (session : SessionState) (fs : Storage) :
    (handlePasv o session fs).Harmless session fs := by
  rw [handlePasv]
  split
  · exact harmless_answer _
  · exact harmless_of_accepted
      (.append (.append (.append (.append (.append (.append (.lit rfl) _) _) _) _) _) _)

/-- `LIST` and `NLST`. -/
theorem harmless_sendListing (o : Outcomes) (session : SessionState) (fs : Storage)
    (refused openingReply : String) (listing : Option String) :
    (sendListing o session fs refused openingReply listing).Harmless session fs := by
  obtain ⟨hsession, hfs⟩ := sendListing_turn o session fs refused openingReply listing
  exact harmless_of_turn hsession hfs

theorem harmless_handleStat (session : SessionState) (fs : Storage) (argument : String) :
    (handleStat session fs argument).Harmless session fs := by
  rw [handleStat]
  split
  · exact harmless_answer _
  · exact harmless_answer _

theorem harmless_handleHelp (session : SessionState) (fs : Storage) (argument : String) :
    (handleHelp session fs argument).Harmless session fs := by
  rw [handleHelp]
  split
  · exact harmless_answer _
  · dsimp only
    split
    · exact harmless_answer _
    · exact harmless_answer _

theorem harmless_handleRnfr (session : SessionState) (fs : Storage) (argument : String) :
    (handleRnfr session fs argument).Harmless session fs := by
  refine harmless_requireArgument ?_
  split
  · exact harmless_answer _
  · exact harmless_of_accepted (.lit rfl)

theorem harmless_handleStou (o : Outcomes) (session : SessionState) (fs : Storage)
    (argument : String) : (handleStou o session fs argument).Harmless session fs := by
  refine harmless_after (fun reply hreply => ?_)
    (harmless_receiveFileOverDataChannel o session fs _ _ _)
  rw [List.mem_singleton.1 hreply]
  exact .append (.append (.lit rfl) _) _

theorem harmless_handleHash (o : Outcomes) (session : SessionState) (fs : Storage)
    (argument : String) : (handleHash o session fs argument).Harmless session fs := by
  refine harmless_requireArgument ?_
  split
  · exact harmless_answer _
  · split
    · exact harmless_answer _
    · dsimp only
      split
      · exact harmless_answer _
      · exact harmless_answer _

theorem harmless_execute (o : Outcomes) (session : SessionState) (fs : Storage)
    (argument : String) (verb? : Option Verb) :
    (execute o session fs argument verb?).Harmless session fs := by
  -- A case for each branch of `execute`, in its order.
  match verb? with
  | some .TYPE => exact harmless_handleType session fs argument
  | some .MODE => exact harmless_handleMode session fs argument
  | some .PORT => exact harmless_handlePort session fs argument
  | some .PASV => exact harmless_handlePasv o session fs
  | some .PWD => exact harmless_refuseArgument (harmless_answer _)
  | some .RMD =>
    exact harmless_changeStorage (.lit rfl) (session.pathManager.untouched_removeDirectory fs _)
  | some .CWD =>
    exact harmless_requireArgument
      (harmless_changeCurrent (.lit rfl) (session.pathManager.untouched_changeDirectory fs _))
  | some .CDUP =>
    exact harmless_refuseArgument
      (harmless_changeCurrent (.lit rfl) (session.pathManager.untouched_changeToParentDirectory fs))
  | some .MKD =>
    exact harmless_changeStorage (.lit rfl) (session.pathManager.untouched_createDirectory fs _ _)
  | some .LIST => exact harmless_sendListing o session fs _ _ _
  | some .NLST => exact harmless_sendListing o session fs _ _ _
  | some .STAT => exact harmless_handleStat session fs argument
  | some .SIZE => exact harmless_requireArgument (harmless_answer _)
  | some .MDTM => exact harmless_requireArgument (harmless_answer _)
  | some .HELP => exact harmless_handleHelp session fs argument
  | some .DELE =>
    exact harmless_changeStorage (.lit rfl) (session.pathManager.untouched_deleteFile fs _)
  | some .RNFR => exact harmless_handleRnfr session fs argument
  | some .RNTO => exact harmless_handleRnto session fs argument
  | some .RETR => exact harmless_handleRetr o session fs argument
  | some .STOR =>
    exact harmless_requireArgument (harmless_receiveFileOverDataChannel o session fs _ _ _)
  | some .STOU => exact harmless_handleStou o session fs argument
  | some .APPE =>
    exact harmless_requireArgument (harmless_receiveFileOverDataChannel o session fs _ _ _)
  | some .HASH => exact harmless_handleHash o session fs argument
  | some .ABOR => exact harmless_of_turn (.inr rfl) rfl
  | some .USER | some .PASS | some .QUIT | some .NOOP | none => exact harmless_answer _

theorem harmless_dispatch (o : Outcomes) (session : SessionState) (fs : Storage)
    (argument : String) (verb? : Option Verb) :
    (dispatch o session fs argument verb?).Harmless session fs := by
  by_cases hquit : verb? = some .QUIT
  · subst hquit
    exact harmless_refuseArgument (harmless_of_turn (.inl rfl) rfl)
  by_cases hnoop : verb? = some .NOOP
  · subst hnoop
    exact harmless_refuseArgument (harmless_answer _)
  by_cases huser : verb? = some .USER
  · subst huser
    exact harmless_requireArgument (harmless_of_accepted (.lit rfl))
  by_cases hpass : verb? = some .PASS
  · subst hpass
    refine harmless_requireArgument ?_
    split
    · exact harmless_answer _
    · exact harmless_of_accepted (.lit rfl)
  rw [dispatch_of_ne o session fs argument hquit hnoop huser hpass]
  split
  · exact harmless_answer _
  · exact harmless_execute o session fs argument verb?

/-- Whatever the line is, whoever sends it, and whatever goes wrong. -/
theorem harmless_handleCommand (o : Outcomes) (session : SessionState) (fs : Storage)
    (line : String) : (handleCommand o session fs line).Harmless session fs := by
  have hgiven : session.Forgets (session.given line) := by
    rcases given_eq session line with heq | heq
    · rw [heq]
      exact .refl session
    · rw [heq]
      exact .renameFrom session
  refine Turn.Harmless.of_forgets ?_ hgiven (.refl fs)
  rw [handleCommand_eq]
  split
  · exact harmless_dispatch o _ fs _ _
  · exact harmless_answer _

end

/-! ## Every run -/

/-- A command that is refused, and has not failed while it wrote to a file. -/
def Serving.Refuses (s : Serving) : ServingEvent → Prop
  | .command line o => (s.turn o line).Refused ∧ failedWrite ∉ (s.turn o line).replies
  | .others _ => False

instance (s : Serving) : DecidablePred s.Refuses
  | .command line o => inferInstanceAs (Decidable
      ((∃ reply ∈ (s.turn o line).replies, Refusal reply) ∧ failedWrite ∉ (s.turn o line).replies))
  | .others _ => inferInstanceAs (Decidable False)

/-- However many commands are refused, one after the other, whatever they are: everything
    in the file system is as it was, and all that is new are directories. The session is
    logged in as before, in the same directory and with the same settings. -/
theorem refused_harmless {s s' : Serving} (hrun : serving.Reaches Serving.Refuses s s') :
    s.session.Forgets s'.session ∧ s.fs.AddsDirectories s'.fs := by
  refine hrun.invariant (I := fun t : Serving => s.session.Forgets t.session ∧
    s.fs.AddsDirectories t.fs) (fun t e t' ⟨hsession, hfs⟩ hrefuses hstep => ?_)
    ⟨.refl _, .refl _⟩
  cases e with
  | command line o =>
    obtain ⟨hrefused, hwrite⟩ := hrefuses
    obtain ⟨_, heq⟩ := Option.ite_none_left_eq_some.1 hstep
    cases heq
    obtain ⟨hsession', hfs'⟩ := harmless_handleCommand o t.session t.fs line hrefused hwrite
    exact ⟨hsession.trans hsession', hfs.trans hfs'⟩
  | others fs => exact hrefuses.elim

/-- A file that is not there, a directory that is not there, a rename of nothing, and an
    upload that fails on the way. -/
def refusedCommands : List ServingEvent :=
  [.command "RETR nothing" {}, .command "CWD nowhere" {}, .command "RNTO other" {},
    .command "STOR new/file" { received := .failed }, .command "ABOR" {}]

/-- Of all these, a new directory is left. -/
theorem refused_harmless_new : ∃ s s' : Serving,
    s'.fs.isDirectory { names := ["srv", "new"] } = some true ∧
      s.session.Forgets s'.session ∧ s.fs.AddsDirectories s'.fs := by
  obtain ⟨s, _, hs⟩ := exists_reachable_of_run fileStorage_isDir
    [.command "USER alice" {}, .command "PASS secret" {}, .command "PASV" {}]
    (fun s => (serving.run Serving.Refuses refusedCommands s).any fun s' =>
      s'.fs.isDirectory { names := ["srv", "new"] } = some true) (by decide +kernel)
  obtain ⟨s', hrun, hdir⟩ := (Option.any_eq_true _ _).1 hs
  exact ⟨s, s', of_decide_eq_true hdir, refused_harmless (Machine.reaches_of_run hrun)⟩

end HybridFtp
