import HybridFtp.Server.Steps

/-!
# Renaming

`RNFR` and `RNTO`, along a session.

* `Handled.Accepts`: a line that is an `RNFR` which has been accepted;
* `pending_of_recorded`: what is to be renamed has been set by the line before;
* `rename_after_rnfr`: a rename follows an accepted `RNFR` at once, and renames what
  that has found. Another `RNTO` needs another `RNFR`.
-/

namespace HybridFtp

/-- The line is an `RNFR` that has been accepted, for a path that could be renamed. -/
structure Handled.Accepts (p : Handled) (source : String) : Prop where
  verb : executed p.before.session p.line = some .RNFR
  loginState : p.before.session.loginState = .LoggedIn
  argument : (CommandParser.parse p.line).argument = source
  canRename : p.before.session.pathManager.canRename p.before.fs source = true
  replies : p.turn.replies = ["350 Requested file action pending RNTO.\r\n"]

/-- What is to be renamed has been found by the last line, in the same directory. -/
def Pending (s : Serving) (history : List Handled) : Prop :=
  ∀ source, s.session.renameFrom = some source → s.session.loginState = .LoggedIn ∧
    ∃ p earlier, history = p :: earlier ∧ p.Accepts source ∧
      s.session.pathManager = p.before.session.pathManager

section

variable {o : Outcomes} {session : SessionState} {fs : Storage} {argument source : String}

theorem renameFrom_handleRnto (session : SessionState) (fs : Storage) (argument : String) :
    (handleRnto session fs argument).session.renameFrom = none := by
  rw [handleRnto]
  dsimp only
  rw [requireArgument]
  split
  · rfl
  · split
    · rfl
    · rfl

/-- `RNFR` sets what is to be renamed if it accepts its argument. -/
theorem handleRnfr_cases (session : SessionState) (fs : Storage) (argument : String) :
    (handleRnfr session fs argument).session = session ∨
      session.pathManager.canRename fs argument = true ∧
        (handleRnfr session fs argument).session = { session with renameFrom := some argument } ∧
        (handleRnfr session fs argument).replies =
          ["350 Requested file action pending RNTO.\r\n"] := by
  rw [handleRnfr, requireArgument]
  split
  · exact .inl rfl
  · split
    · exact .inl rfl
    · rename_i hrename
      exact .inr ⟨not_not.1 hrename, rfl, rfl⟩

/-- What another command does not use up is kept. -/
theorem execute_renameFrom {verb : Verb} (hrnfr : verb ≠ .RNFR) (hrnto : verb ≠ .RNTO) :
    (execute o session fs argument (some verb)).session.renameFrom = session.renameFrom := by
  have hstep := (step_execute o session fs argument (some verb)).1
  generalize (execute o session fs argument (some verb)).session = session' at hstep
  cases hstep with
  | rnfr _ => exact absurd rfl hrnfr
  | rnto => exact absurd rfl hrnto
  | same _ | user | pass _ | type _ | mode _ | port _ _ | pasv _ | reset _ | cwd | cdup => rfl

/-- Only an `RNFR` that is accepted leaves something to be renamed. -/
theorem handleCommand_renameFrom {line : String} (hrnto : lineVerb line = some .RNTO →
      session.renameFrom ≠ none → session.loginState = .LoggedIn)
    (h : (handleCommand o session fs line).session.renameFrom = some source) :
    executed session line = some .RNFR ∧ (CommandParser.parse line).argument = source ∧
      session.pathManager.canRename fs source = true ∧
      (handleCommand o session fs line).session = { session with renameFrom := some source } ∧
      (handleCommand o session fs line).replies =
        ["350 Requested file action pending RNTO.\r\n"] := by
  cases hverb : executed session line with
  | none =>
    obtain ⟨_, username, loginState, heq⟩ := handleCommand_of_executed_none o fs hverb
    rw [heq] at h
    have hline : lineVerb line = some .RNTO := by
      by_contra hne
      rw [given_of_ne session hne] at h
      cases h
    have hsome : session.renameFrom ≠ none := by
      intro hnone
      rcases given_eq session line with hgiven | hgiven
      · rw [hgiven, hnone] at h
        cases h
      · rw [hgiven] at h
        cases h
    -- The `RNTO` would have been executed.
    rw [executed_eq, hline, hrnto hline hsome] at hverb
    cases hverb
  | some verb =>
    obtain ⟨hline, _⟩ := executed_spec hverb
    rw [handleCommand_of_executed o fs hverb] at h ⊢
    by_cases hrnto : verb = .RNTO
    · subst hrnto
      rw [execute, renameFrom_handleRnto] at h
      cases h
    have hne : lineVerb line ≠ some .RNTO := by
      rw [hline]
      exact fun heq => hrnto (Option.some.inj heq)
    have hgiven := given_of_ne session hne
    rw [hgiven] at h ⊢
    by_cases hrnfr : verb = .RNFR
    · subst hrnfr
      rcases handleRnfr_cases { session with renameFrom := none } fs
        (CommandParser.parse line).argument with heq | ⟨hrename, heq, hreplies⟩
      · rw [execute, heq] at h
        cases h
      · rw [execute, heq] at h
        cases h
        exact ⟨rfl, rfl, hrename, heq, hreplies⟩
    · rw [execute_renameFrom hrnfr hrnto] at h
      cases h

/-- What is to be renamed has been found by the line before. -/
theorem pending_of_recorded {s : Serving} {history : List Handled}
    (h : recorded.Reachable (s, history)) : Pending s history := by
  refine Machine.recording_invariant h ?_ ?_
  · rintro s ⟨_, _, _, _, hsession, _⟩ source hsource
    rw [hsession] at hsource
    cases hsource
  · rintro s history (⟨line, o⟩ | fs) s' hpending hstep source hsource
    · simp only [serving, Option.ite_none_left_eq_some, Option.some.injEq] at hstep
      obtain ⟨_, rfl⟩ := hstep
      have hrnto : lineVerb line = some .RNTO → s.session.renameFrom ≠ none →
          s.session.loginState = .LoggedIn := by
        intro _ hsome
        obtain ⟨source, hsource⟩ := Option.ne_none_iff_exists'.1 hsome
        exact (hpending source hsource).1
      obtain ⟨hverb, hargument, hrename, heq, hreplies⟩ := handleCommand_renameFrom hrnto hsource
      have hlogin := (executed_spec hverb).2
      have hsession : (s.turn o line).session = { s.session with renameFrom := some source } := heq
      refine ⟨?_, ⟨s, line, o⟩, history, rfl, ⟨hverb, hlogin, hargument, hrename, hreplies⟩, ?_⟩
      · simp only [hsession, hlogin]
      · simp only [hsession]
    · simp only [serving, Option.ite_none_right_eq_some, Option.some.injEq] at hstep
      obtain ⟨_, rfl⟩ := hstep
      exact hpending source hsource

/-! ## Renames -/

/-- What is not pending is not renamed. -/
theorem handleRnto_of_none (h : session.renameFrom = none) (fs : Storage) (argument : String) :
    (handleRnto session fs argument).fs = fs ∧
      (handleRnto session fs argument).replies ≠ ["250 Rename successful.\r\n"] := by
  rw [handleRnto, h]
  dsimp only
  rw [requireArgument]
  split
  · exact ⟨rfl, by simp [answer]⟩
  · exact ⟨rfl, by simp [answer]⟩

theorem handleRnto_of_some (h : session.renameFrom = some source) (fs : Storage)
    (argument : String) :
    ((handleRnto session fs argument).fs = fs ∧
        (handleRnto session fs argument).replies ≠ ["250 Rename successful.\r\n"]) ∨
      (handleRnto session fs argument).fs =
        (session.pathManager.renamePath fs source argument).2 := by
  rw [handleRnto, h]
  dsimp only
  rw [requireArgument]
  split
  · exact .inl ⟨rfl, by simp [answer]⟩
  · exact .inr rfl

/-- Nothing is renamed by an `RNTO` if nothing is pending. -/
theorem fs_of_renameFrom_none (o : Outcomes) {line : String} (hline : lineVerb line = some .RNTO)
    (h : session.renameFrom = none) : (handleCommand o session fs line).fs = fs := by
  cases hverb : executed session line with
  | none => exact (handleCommand_of_executed_none o fs hverb).1
  | some verb =>
    obtain ⟨hline', _⟩ := executed_spec hverb
    rw [hline] at hline'
    cases hline'
    rw [handleCommand_of_executed o fs hverb, execute]
    refine (handleRnto_of_none ?_ fs _).1
    rcases given_eq session line with heq | heq
    · rw [heq, h]
    · rw [heq]

end

/-- The event is no `RNFR`. -/
def ServingEvent.NotRnfr : ServingEvent → Prop
  | .command line _ => lineVerb line ≠ some .RNFR
  | .others _ => True

/-- Nothing gets pending without an `RNFR`. -/
theorem renameFrom_none_of_reaches {s t : Serving} (h : s.session.renameFrom = none)
    (hst : serving.Reaches (fun _ e => e.NotRnfr) s t) : t.session.renameFrom = none := by
  refine hst.invariant (I := fun s => s.session.renameFrom = none) ?_ h
  rintro s (⟨line, o⟩ | fs) s' hnone hrnfr hstep
  · simp only [serving, Option.ite_none_left_eq_some, Option.some.injEq] at hstep
    obtain ⟨_, rfl⟩ := hstep
    by_contra hsome
    obtain ⟨source, hsource⟩ := Option.ne_none_iff_exists'.1 hsome
    obtain ⟨hverb, _⟩ := handleCommand_renameFrom (fun _ hne => absurd hnone hne) hsource
    exact hrnfr (executed_spec hverb).1
  · simp only [serving, Option.ite_none_right_eq_some, Option.some.injEq] at hstep
    obtain ⟨_, rfl⟩ := hstep
    exact hnone

/-- A rename follows an `RNFR` at once that has been accepted, and renames the path that
    has been found then, in the same current directory. After an `RNTO`, successful or
    not, another one does nothing without another `RNFR`. -/
theorem rename_after_rnfr {s : Serving} {history : List Handled}
    (h : recorded.Reachable (s, history)) :
    (∀ line o, executed s.session line = some .RNTO →
      (s.turn o line).replies = ["250 Rename successful.\r\n"] ∨ (s.turn o line).fs ≠ s.fs →
      ∃ p earlier source, history = p :: earlier ∧ p.Accepts source ∧
        s.session.pathManager = p.before.session.pathManager ∧
        (s.turn o line).fs = (s.session.pathManager.renamePath s.fs source
          (CommandParser.parse line).argument).2) ∧
    (∀ line o, lineVerb line = some .RNTO →
      ∀ t, serving.Reaches (fun _ e => e.NotRnfr) (s.after o line) t →
        ∀ line' o', lineVerb line' = some .RNTO → (t.turn o' line').fs = t.fs) := by
  have hpending := pending_of_recorded h
  refine ⟨fun line o hverb heffect => ?_, fun line o hline t ht line' o' hline' => ?_⟩
  · rw [Serving.turn, handleCommand_of_executed o s.fs hverb, execute] at heffect ⊢
    have hrenames : ¬((handleRnto (s.session.given line) s.fs
        (CommandParser.parse line).argument).fs = s.fs ∧
        (handleRnto (s.session.given line) s.fs (CommandParser.parse line).argument).replies ≠
          ["250 Rename successful.\r\n"]) := by
      rintro ⟨hfs, hreplies⟩
      rcases heffect with heq | hne
      · exact hreplies heq
      · exact hne hfs
    have hsome : ¬(s.session.given line).renameFrom = none := fun hnone =>
      hrenames (handleRnto_of_none hnone s.fs _)
    obtain heq | heq := given_eq s.session line
    swap
    · rw [heq] at hsome
      exact absurd rfl hsome
    rw [heq] at hsome hrenames ⊢
    obtain ⟨source, hsource⟩ := Option.ne_none_iff_exists'.1 hsome
    obtain ⟨_, p, earlier, hhistory, haccepts, hmanager⟩ := hpending source hsource
    refine ⟨p, earlier, source, hhistory, haccepts, hmanager, ?_⟩
    exact (handleRnto_of_some hsource s.fs _).resolve_left hrenames
  · refine fs_of_renameFrom_none o' hline' (renameFrom_none_of_reaches ?_ ht)
    by_contra hsome
    obtain ⟨source, hsource⟩ := Option.ne_none_iff_exists'.1 hsome
    obtain ⟨hverb, _⟩ := handleCommand_renameFrom (fun _ hne => by
      obtain ⟨source, hsource⟩ := Option.ne_none_iff_exists'.1 hne
      exact (hpending source hsource).1) hsource
    rw [(executed_spec hverb).1] at hline
    cases hline

/-- A file that is renamed at once. -/
theorem rename_after_rnfr_file :
    ∃ s p history source, recorded.Reachable (s, p :: history) ∧
      (s.turn {} "RNTO new").replies = ["250 Rename successful.\r\n"] ∧ p.Accepts source := by
  obtain ⟨⟨s, history⟩, hs, hP⟩ := exists_recorded_of_run fileStorage_isDir
    [.command "USER alice" {}, .command "PASS secret" {}, .command "RNFR file" {}]
    (fun s => executed s.1.session "RNTO new" = some .RNTO ∧
      (s.1.turn {} "RNTO new").replies = ["250 Rename successful.\r\n"]) (by decide +kernel)
  obtain ⟨hverb, hreplies⟩ := of_decide_eq_true hP
  obtain ⟨p, earlier, source, rfl, haccepts, _⟩ :=
    (rename_after_rnfr hs).1 "RNTO new" {} hverb (.inl hreplies)
  exact ⟨s, p, earlier, source, hs, hreplies, haccepts⟩

end HybridFtp
