import HybridFtp.Lib.Edits
import HybridFtp.Server.Payload
import HybridFtp.Server.Renaming
import Mathlib.Data.List.ReduceOption

/-!
# What the replies tell of the file system

`MKD`, `RMD`, `DELE` and `RNTO` do what their positive reply tells, to what their path leads
to, and nothing else; and nothing at all otherwise.

* `Handled.Edits`: the edit that a line has been answered for;
* `told_handleCommand`: it is what the line has done;
* `edits_told`: the edits of a run, one after the other, make of the file system before what
  it is afterwards.
-/

namespace HybridFtp

/-! ## What the operations do -/

namespace PathManager

variable (pm : PathManager) (fs : Storage) (path : String)

theorem createDirectory_told (perms : Perms) :
    pm.createDirectory fs perms path = (false, fs) ∨
      ∃ dir n, fs.resolve false { names := (pm.resolvePath path).names } = .absent dir n ∧
        pm.createDirectory fs perms path =
          (true, fs.alter (fun _ => some (.dir perms [])) (dir ++ [n])) := by
  rw [createDirectory]
  dsimp only
  split_ifs with hpath hinside hexists
  · exact .inl rfl
  · exact .inl rfl
  · split
    · rename_i created fs' hcreate
      rw [FileSystem.createDirectory] at hcreate
      split at hcreate
      · rename_i fs'' hmkdir
        obtain ⟨dir, n, habsent, rfl⟩ := FileSystem.mkdir_eq_some_iff.1 hmkdir
        cases hcreate
        exact .inr ⟨dir, n, habsent, rfl⟩
      · simp only [Option.ite_none_right_eq_some, Option.some.injEq, Prod.mk.injEq] at hcreate
        obtain ⟨_, rfl, rfl⟩ := hcreate
        exact .inl rfl
    · exact .inl rfl
  · exact .inl rfl

theorem removeDirectory_told :
    pm.removeDirectory fs path = (false, fs) ∨
      ∃ l, fs.resolve true (pm.resolvePath path) = .found l ∧ fs.IsDir l ∧ l ≠ [] ∧
        fs.names l = [] ∧ pm.removeDirectory fs path = (true, fs.alter (fun _ => none) l) := by
  rw [removeDirectory]
  dsimp only
  split_ifs with hpath hinside
  · exact .inl rfl
  · split
    · exact .inl rfl
    · rename_i q hq
      split_ifs with hwithin hroot htest
      · exact .inl rfl
      · exact .inl rfl
      · rw [not_or, not_not, not_not] at htest
        obtain ⟨l, hl, rfl⟩ := FileSystem.resolve_of_weaklyCanonical hq htest.1
        have hdir := FileSystem.isDir_of_isDirectory hl htest.2
        rw [FileSystem.remove, FileSystem.resolve_false_of_found hl]
        dsimp only
        by_cases hkept : l = [] ∨ fs.IsDir l ∧ fs.names l ≠ []
        · rw [if_pos hkept]
          exact .inl rfl
        · rw [if_neg hkept]
          rw [not_or, not_and, not_not] at hkept
          exact .inr ⟨l, hl, hdir, hkept.1, hkept.2 hdir, rfl⟩
      · exact .inl rfl
  · exact .inl rfl

theorem deleteFile_told :
    pm.deleteFile fs path = (false, fs) ∨
      ∃ l data, fs.resolve true (pm.resolvePath path) = .found l ∧
        fs.node l = some (.file data) ∧ pm.deleteFile fs path = (true, fs.alter (fun _ => none) l) := by
  rw [deleteFile]
  dsimp only
  split_ifs with hpath hinside
  · exact .inl rfl
  · split
    · exact .inl rfl
    · rename_i q hq
      split_ifs with htest hfile
      · exact .inl rfl
      · exact .inl rfl
      · rw [not_or, not_not, not_not] at htest
        obtain ⟨l, hl, rfl⟩ := FileSystem.resolve_of_weaklyCanonical hq htest.2
        obtain ⟨data, hnode⟩ := FileSystem.node_of_isRegularFile hl (not_not.1 hfile)
        have hdir := FileSystem.not_isDir_of_file hnode
        rw [FileSystem.remove, FileSystem.resolve_false_of_found hl]
        dsimp only
        have hkept : ¬(l = [] ∨ fs.IsDir l ∧ fs.names l ≠ []) := by
          rintro (rfl | ⟨hl, _⟩)
          · exact hdir (FileSystem.isDir_nil fs)
          · exact hdir hl
        rw [if_neg hkept]
        exact .inr ⟨l, data, hl, hnode, rfl⟩
  · exact .inl rfl

theorem renamePath_told (newPath : String) :
    pm.renamePath fs path newPath = (false, fs) ∨
      ∃ s ns n d, fs.resolve true (pm.resolvePath path) = .found s ∧
        pm.resolvePath newPath = { names := ns ++ [n] } ∧ fs.LeadsTo ns d ∧ ¬s <+: d ∧
        pm.renamePath fs path newPath = (true, fs.move s (d ++ [n])) := by
  rw [renamePath]
  split
  · exact .inl rfl
  rename_i hargs
  rw [not_or, not_or, not_not] at hargs
  obtain ⟨s, hs, hcanonical, _⟩ := canRename_spec hargs.2.2
  rw [hcanonical]
  dsimp only
  split
  · exact .inl rfl
  split
  · exact .inl rfl
  rename_i hdestination
  split
  · exact .inl rfl
  rename_i hnew
  split
  · exact .inl rfl
  rename_i parent hparent
  split
  · exact .inl rfl
  rename_i htest
  split
  swap
  · exact .inl rfl
  rename_i fs' hrename
  rw [not_or, not_or, not_not, not_not, not_not] at htest
  obtain ⟨d, hd, rfl⟩ := FileSystem.resolve_of_weaklyCanonical hparent htest.2.1
  have hdir := FileSystem.isDir_of_isDirectory hd htest.2.2
  obtain ⟨ns, n, heq⟩ := NormalPath.eq_of_filename fun hnone => hdestination (.inl hnone)
  rw [heq] at hd hrename hnew
  rw [NormalPath.parentPath, if_neg Bool.false_ne_true, List.dropLast_concat] at hd
  have hmissing := FileSystem.pathExists_eq_false_iff.1 (not_not.1 hnew)
  have hsource := fs.resolve_sound true (pm.resolvePath path)
  rw [hs] at hsource
  rcases FileSystem.move_of_rename (FileSystem.resolve_false_of_found hs) ⟨hd, hdir⟩ hrename with
    ⟨rfl, _⟩ | ⟨rfl, habove⟩
  · -- What is renamed is there, but nothing is at the new path.
    rw [FileSystem.LeadsTo.resolve_of_sound ⟨hd, hdir⟩ hsource] at hmissing
    exact absurd hmissing id
  · exact .inr ⟨s, ns, n, d, hs, heq, ⟨hd, hdir⟩, habove, rfl⟩

end PathManager

/-! ## Lines -/

/-- The edit that a line has been answered for, of what its path leads to. -/
def Handled.Edits (p : Handled) (e : Edit String Perms) : Prop :=
  let pathManager := p.before.session.pathManager
  let fs := p.before.fs
  let argument := (CommandParser.parse p.line).argument
  match executed p.before.session p.line with
  | some .MKD => p.turn.replies = ["257 Directory created successfully.\r\n"] ∧
      ∃ dir n, fs.resolve false { names := (pathManager.resolvePath argument).names } =
        .absent dir n ∧ e = .make (dir ++ [n]) p.o.directoryPerms
  | some .RMD => p.turn.replies = ["250 Directory removed successfully.\r\n"] ∧
      ∃ l, fs.resolve true (pathManager.resolvePath argument) = .found l ∧ fs.IsDir l ∧
        fs.names l = [] ∧ e = .unlink l
  | some .DELE => p.turn.replies = ["250 File deleted successfully.\r\n"] ∧
      ∃ l data, fs.resolve true (pathManager.resolvePath argument) = .found l ∧
        fs.node l = some (.file data) ∧ e = .unlink l
  | some .RNTO => p.turn.replies = ["250 Rename successful.\r\n"] ∧
      ∃ source ∈ (p.before.session.given p.line).renameFrom, ∃ s ns n d,
        fs.resolve true (pathManager.resolvePath source) = .found s ∧
        pathManager.resolvePath argument = { names := ns ++ [n] } ∧ fs.LeadsTo ns d ∧
        e = .move s (d ++ [n])
  | _ => False

/-- The line has done the edit, or nothing if there is none. -/
def Handled.Told (p : Handled) : Option (Edit String Perms) → Prop
  | some e => p.Edits e ∧ p.turn.fs.node = e.apply p.before.fs.node
  | none => (∀ e, ¬p.Edits e) ∧ p.turn.fs = p.before.fs

section

variable {p : Handled} {session : SessionState} {argument missing refused done source : String}
  {operation : Bool × Storage} {target : Edit String Perms → Prop}

/-- A command that is answered by a reply of its own if its operation has succeeded. -/
theorem told_changeStorage
    (hturn : p.turn = changeStorage session p.before.fs argument missing refused done operation)
    (hmissing : missing ≠ done) (hrefused : refused ≠ done)
    (hedits : ∀ e, p.Edits e ↔ p.turn.replies = [done] ∧ target e)
    (htold : operation = (false, p.before.fs) ∨ ∃ fs' e, operation = (true, fs') ∧ target e ∧
      fs'.node = e.apply p.before.fs.node) : ∃ e?, p.Told e? := by
  have hnone : p.turn.replies ≠ [done] → p.turn.fs = p.before.fs → p.Told none := fun hne hfs =>
    ⟨fun e he => hne ((hedits e).1 he).1, hfs⟩
  rw [changeStorage, requireArgument] at hturn
  by_cases hempty : argument = ""
  · rw [if_pos hempty] at hturn
    refine ⟨none, hnone ?_ ?_⟩
    · rw [hturn]
      exact fun heq => hmissing (List.singleton_inj.1 heq)
    · rw [hturn]
      rfl
  rw [if_neg hempty] at hturn
  rcases htold with rfl | ⟨fs', e, rfl, htarget, hnode⟩
  · refine ⟨none, hnone ?_ ?_⟩
    · rw [hturn]
      exact fun heq => hrefused (List.singleton_inj.1 heq)
    · rw [hturn]
      rfl
  · refine ⟨some e, (hedits e).2 ⟨?_, htarget⟩, ?_⟩
    · rw [hturn]
      rfl
    · rw [hturn]
      exact hnode

theorem handleRnto_eq (h : session.renameFrom = some source) (fs : Storage) (argument : String) :
    handleRnto session fs argument = changeStorage { session with renameFrom := none } fs argument
      "501 Missing destination path.\r\n" "550 Rename failed or access denied.\r\n"
      "250 Rename successful.\r\n" (session.pathManager.renamePath fs source argument) := by
  rw [handleRnto, h]
  rfl

theorem turn_of_executed {verb : Verb} (hverb : executed p.before.session p.line = some verb) :
    p.turn = execute p.o (p.before.session.given p.line) p.before.fs
      (CommandParser.parse p.line).argument (some verb) :=
  handleCommand_of_executed p.o p.before.fs hverb

theorem told_mkd (hverb : executed p.before.session p.line = some .MKD) : ∃ e?, p.Told e? := by
  have hedits : ∀ e, p.Edits e ↔ p.turn.replies = ["257 Directory created successfully.\r\n"] ∧
      ∃ dir n, p.before.fs.resolve false { names := (p.before.session.pathManager.resolvePath
        (CommandParser.parse p.line).argument).names } = .absent dir n ∧
        e = .make (dir ++ [n]) p.o.directoryPerms := fun e => by rw [Handled.Edits, hverb]
  refine told_changeStorage (turn_of_executed hverb) (by decide) (by decide) hedits ?_
  rw [(given_frame p.before.session p.line).2.2]
  refine (PathManager.createDirectory_told _ _ _ _).imp_right ?_
  rintro ⟨dir, n, habsent, heq⟩
  obtain ⟨hdir, hn⟩ := FileSystem.sound_of_resolve habsent
  exact ⟨_, .make (dir ++ [n]) p.o.directoryPerms, heq, ⟨dir, n, habsent, rfl⟩,
    FileSystem.node_make hdir hn⟩

theorem told_rmd (hverb : executed p.before.session p.line = some .RMD) : ∃ e?, p.Told e? := by
  have hedits : ∀ e, p.Edits e ↔ p.turn.replies = ["250 Directory removed successfully.\r\n"] ∧
      ∃ l, p.before.fs.resolve true (p.before.session.pathManager.resolvePath
        (CommandParser.parse p.line).argument) = .found l ∧ p.before.fs.IsDir l ∧
        p.before.fs.names l = [] ∧ e = .unlink l := fun e => by rw [Handled.Edits, hverb]
  refine told_changeStorage (turn_of_executed hverb) (by decide) (by decide) hedits ?_
  rw [(given_frame p.before.session p.line).2.2]
  refine (PathManager.removeDirectory_told _ _ _).imp_right ?_
  rintro ⟨l, hl, hdir, hne, hempty, heq⟩
  obtain ⟨_, hnode⟩ := FileSystem.isDir_iff.1 hdir
  refine ⟨_, .unlink l, heq, ⟨l, hl, hdir, hempty, rfl⟩,
    FileSystem.node_unlink hne ?_ fun _ => hempty⟩
  rw [hnode]
  exact Option.some_ne_none _

theorem told_dele (hverb : executed p.before.session p.line = some .DELE) : ∃ e?, p.Told e? := by
  have hedits : ∀ e, p.Edits e ↔ p.turn.replies = ["250 File deleted successfully.\r\n"] ∧
      ∃ l data, p.before.fs.resolve true (p.before.session.pathManager.resolvePath
        (CommandParser.parse p.line).argument) = .found l ∧
        p.before.fs.node l = some (.file data) ∧ e = .unlink l := fun e => by
    rw [Handled.Edits, hverb]
  refine told_changeStorage (turn_of_executed hverb) (by decide) (by decide) hedits ?_
  rw [(given_frame p.before.session p.line).2.2]
  refine (PathManager.deleteFile_told _ _ _).imp_right ?_
  rintro ⟨l, data, hl, hnode, heq⟩
  have hdir := FileSystem.not_isDir_of_file hnode
  refine ⟨_, .unlink l, heq, ⟨l, data, hl, hnode, rfl⟩,
    FileSystem.node_unlink ?_ ?_ fun h => absurd h hdir⟩
  · rintro rfl
    exact hdir (FileSystem.isDir_nil _)
  · rw [hnode]
    exact Option.some_ne_none _

theorem told_rnto (hverb : executed p.before.session p.line = some .RNTO) : ∃ e?, p.Told e? := by
  have hturn := turn_of_executed hverb
  have hmanager := (given_frame p.before.session p.line).2.2
  cases hsource : (p.before.session.given p.line).renameFrom with
  | none =>
    refine ⟨none, fun e he => ?_, ?_⟩
    · rw [Handled.Edits, hverb] at he
      obtain ⟨_, source, hsome, _⟩ := he
      rw [hsource] at hsome
      cases hsome
    · rw [hturn]
      exact (handleRnto_of_none hsource _ _).1
  | some source =>
    have hedits : ∀ e, p.Edits e ↔ p.turn.replies = ["250 Rename successful.\r\n"] ∧
        ∃ source ∈ (p.before.session.given p.line).renameFrom, ∃ s ns n d,
          p.before.fs.resolve true (p.before.session.pathManager.resolvePath source) = .found s ∧
          p.before.session.pathManager.resolvePath (CommandParser.parse p.line).argument =
            { names := ns ++ [n] } ∧ p.before.fs.LeadsTo ns d ∧ e = .move s (d ++ [n]) :=
      fun e => by rw [Handled.Edits, hverb]
    refine told_changeStorage (hturn.trans (handleRnto_eq hsource _ _)) (by decide) (by decide)
      hedits ?_
    rw [hmanager]
    refine (PathManager.renamePath_told _ _ _ _).imp_right ?_
    rintro ⟨s, ns, n, d, hs, hpath, hd, habove, heq⟩
    have hsound := FileSystem.sound_of_resolve hs
    exact ⟨_, .move s (d ++ [n]), heq, ⟨source, hsource, s, ns, n, d, hs, hpath, hd, rfl⟩,
      FileSystem.node_move hd.2 habove hsound.1⟩

/-- The commands whose edits are told. -/
def Verb.edits : List Verb := [.MKD, .RMD, .DELE, .RNTO]

theorem not_edits (h : ∀ verb ∈ executed p.before.session p.line, verb ∉ Verb.edits)
    (e : Edit String Perms) : ¬p.Edits e := by
  intro he
  rw [Handled.Edits] at he
  split at he
  · exact h _ ‹_› (by decide)
  · exact h _ ‹_› (by decide)
  · exact h _ ‹_› (by decide)
  · exact h _ ‹_› (by decide)
  · exact he

end

/-- A line that is no transfer of a file does the edit that it is answered for. -/
theorem told_handleCommand (p : Handled) (h : ∀ verb ∈ executed p.before.session p.line,
      verb ∉ [Verb.RETR, .STOR, .STOU, .APPE]) : ∃ e?, p.Told e? := by
  by_cases hedits : ∀ verb ∈ executed p.before.session p.line, verb ∉ Verb.edits
  · refine ⟨none, not_edits hedits, ?_⟩
    cases hverb : executed p.before.session p.line with
    | none => exact (handleCommand_of_executed_none p.o p.before.fs hverb).1
    | some verb =>
      rw [turn_of_executed hverb]
      have hstorage := (step_execute p.o (p.before.session.given p.line) p.before.fs
        (CommandParser.parse p.line).argument (some verb)).2
      generalize (execute p.o (p.before.session.given p.line) p.before.fs
        (CommandParser.parse p.line).argument (some verb)).fs = fs' at hstorage ⊢
      cases hstorage with
      | same => rfl
      | mkd => exact absurd (by decide) (hedits _ hverb)
      | rmd => exact absurd (by decide) (hedits _ hverb)
      | dele => exact absurd (by decide) (hedits _ hverb)
      | rnto => exact absurd (by decide) (hedits _ hverb)
      | retr => exact absurd (by decide) (h _ hverb)
      | stor => exact absurd (by decide) (h _ hverb)
      | stou => exact absurd (by decide) (h _ hverb)
      | appe => exact absurd (by decide) (h _ hverb)
  · obtain ⟨verb, hverb, hmem⟩ : ∃ verb ∈ executed p.before.session p.line, verb ∈ Verb.edits := by
      by_contra hnone
      exact hedits fun verb hverb hmem => hnone ⟨verb, hverb, hmem⟩
    simp only [Verb.edits, List.mem_cons, List.not_mem_nil, or_false] at hmem
    rcases hmem with rfl | rfl | rfl | rfl
    · exact told_mkd hverb
    · exact told_rmd hverb
    · exact told_dele hverb
    · exact told_rnto hverb

/-! ## Runs -/

/-- The line is no transfer of a file. -/
def ServingEvent.NoTransfer (s : Serving) : ServingEvent → Prop
  | .command line _ => ∀ verb ∈ executed s.session line, verb ∉ [Verb.RETR, .STOR, .STOU, .APPE]
  | .others _ => False

instance (s : Serving) : DecidablePred (ServingEvent.NoTransfer s)
  | .command line _ => inferInstanceAs (Decidable (∀ verb ∈ executed s.session line,
      verb ∉ [Verb.RETR, .STOR, .STOU, .APPE]))
  | .others _ => inferInstanceAs (Decidable False)

/-- However many commands a session handles, what its replies have told, one edit after the
    other, is what has become of the file system, and nothing else has changed. -/
theorem edits_told {s t : Serving} {history : List Handled}
    (hrun : recorded.Reaches (fun s e => e.NoTransfer s.1) (s, []) (t, history)) :
    ∃ es : List (Option (Edit String Perms)), List.Forall₂ Handled.Told history es ∧
      t.fs.node = es.reduceOption.foldr Edit.apply s.fs.node := by
  refine hrun.invariant (I := fun t => ∃ es : List (Option (Edit String Perms)),
    List.Forall₂ Handled.Told t.2 es ∧
      t.1.fs.node = es.reduceOption.foldr Edit.apply s.fs.node) ?_ ⟨[], .nil, rfl⟩
  rintro ⟨t, history⟩ e t' ⟨es, htold, hnode⟩ hallowed hstep
  obtain ⟨t', ht', rfl⟩ := Option.map_eq_some_iff.1 hstep
  cases e with
  | others fs => exact absurd hallowed id
  | command line o =>
    simp only [serving, Option.ite_none_left_eq_some, Option.some.injEq] at ht'
    obtain ⟨_, rfl⟩ := ht'
    obtain ⟨e?, he⟩ := told_handleCommand ⟨t, line, o⟩ hallowed
    refine ⟨e? :: es, .cons he htold, ?_⟩
    cases e? with
    | none =>
      rw [List.reduceOption_cons_of_none, ← hnode]
      exact congrArg FileSystem.node he.2
    | some e =>
      rw [List.reduceOption_cons_of_some, List.foldr_cons, ← hnode]
      exact he.2

/-- A file is renamed into a new directory, and both are removed. -/
def directoryCommands : List ServingEvent :=
  [.command "USER alice" {}, .command "PASS secret" {}, .command "MKD new" {},
    .command "RNFR file" {}, .command "RNTO new/name" {}, .command "RMD new" {},
    .command "DELE new/name" {}, .command "RMD new" {}]

theorem edits_told_directory : ∃ t history,
    recorded.Reaches (fun s e => e.NoTransfer s.1) (.start ["srv"] fileStorage, []) (t, history) ∧
      history.length = 8 ∧ t.fs.node ["srv", "file"] = none ∧
      ∃ es : List (Option (Edit String Perms)), List.Forall₂ Handled.Told history es ∧
        t.fs.node = es.reduceOption.foldr Edit.apply (Serving.start ["srv"] fileStorage).fs.node := by
  obtain ⟨⟨t, history⟩, _, hrun, hP⟩ := recorded.exists_reaches_of_run
    (fun s e => e.NoTransfer s.1) directoryCommands
    (fun t => t.2.length = 8 ∧ t.1.fs.node ["srv", "file"] = none)
    (s := (.start ["srv"] fileStorage, [])) (by decide +kernel)
  obtain ⟨hlength, hnode⟩ := of_decide_eq_true hP
  exact ⟨t, history, hrun, hlength, hnode, edits_told hrun⟩

end HybridFtp
