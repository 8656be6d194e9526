import HybridFtp.Client.Delivery
import HybridFtp.Server.Footprint

/-!
# There and back

A file that is sent to the server and later brought back, over all of the system: the
client and its disk, the control connection, the network, the server and its file system,
and others who use it.

* `Dialogue.handled`: the lines that the server handles for a line at the prompt;
* `Deployment.Spares`: an event that leaves a file of the server alone;
* `round_trip`: what comes back is what was sent.
-/

namespace HybridFtp

/-! ## Lines that are handled -/

/-- Some lines, as the session handles them. -/
def Serving.handled (s : Serving) : List String → List Outcomes → List Handled
  | [], _ => []
  | line :: lines, os =>
    if s.ended then []
    else ⟨s, line, os.headD {}⟩ :: (s.after (os.headD {}) line).handled lines os.tail

/-- The lines of some commands of the client. -/
def Serving.handledAll (s : Serving) (os : List Outcomes) : List Exchange → List Handled
  | [] => []
  | e :: es => s.handled (readLines e.command) os ++
      match s.respond os e with
      | some (s, os) => s.handledAll os es
      | none => []

/-- The lines that the server handles for a line at the prompt. -/
def Dialogue.handled (d : Dialogue) (line : String) (o : LineOutcomes) (os : List Outcomes) :
    List Handled :=
  match d.cli.promptLine o line with
  | none => []
  | some (_, cli) =>
    let es := cli.exchanges.drop d.cli.exchanges.length
    d.server.handledAll os es ++
      match d.server.respondAll os es with
      | some (server, os) => server.handled (lateLines o d.cli cli) os
      | none => []

section

variable {I : Serving → Prop} {s s' : Serving} {os os' : List Outcomes}

/-- What each line that is handled keeps holds after all of them. -/
theorem handled_invariant {lines : List String}
    (hstep : ∀ p ∈ s.handled lines os, I p.before → I (p.before.after p.o p.line)) (hs : I s) :
    I (s.handleLines lines os).1 := by
  induction lines generalizing s os with
  | nil => exact hs
  | cons line lines ih =>
    rw [Serving.handled] at hstep
    rw [Serving.handleLines]
    split at hstep
    · rwa [if_pos ‹_›]
    · rw [if_neg ‹_›]
      rw [List.forall_mem_cons] at hstep
      exact ih hstep.2 (hstep.1 hs)

theorem respond_eq {e : Exchange} (h : s.respond os e = some (s', os')) :
    s.handleLines (readLines e.command) os = (s', os') := by
  rw [Serving.respond] at h
  split at h
  · cases h
  · rename_i line lines hlines
    rw [Option.ite_none_left_eq_some, not_or] at h
    rw [hlines, Serving.handleLines, if_neg h.1.1]
    exact Option.some.inj h.2

theorem handledAll_invariant {es : List Exchange}
    (hstep : ∀ p ∈ s.handledAll os es, I p.before → I (p.before.after p.o p.line)) (hs : I s)
    (h : s.respondAll os es = some (s', os')) : I s' := by
  induction es generalizing s os with
  | nil =>
    cases h
    exact hs
  | cons e es ih =>
    obtain ⟨⟨s₁, os₁⟩, h₁, h⟩ := Option.bind_eq_some_iff.1 h
    rw [Serving.handledAll, h₁, List.forall_mem_append] at hstep
    have hfirst := handled_invariant hstep.1 hs
    rw [respond_eq h₁] at hfirst
    exact ih hstep.2 hfirst h

/-- What each line keeps that the server handles for a line at the prompt. -/
theorem prompt_invariant {d d' : Dialogue} {line : String} {o : LineOutcomes}
    (hstep : ∀ p ∈ d.handled line o os, I p.before → I (p.before.after p.o p.line))
    (hd : I d.server) (h : dialogue.step (.prompt line o os) d = some d') : I d'.server := by
  obtain ⟨_, text, server, os', hline, hserver, hafter⟩ := dialogue_prompt h
  rw [Dialogue.handled, hline] at hstep
  dsimp only at hstep
  rw [hserver, List.forall_mem_append] at hstep
  rw [hafter]
  exact handled_invariant hstep.2 (handledAll_invariant hstep.1 hd hserver)

end

/-! ## Events that leave a file alone -/

/-- The line neither deletes the file nor renames it or a directory above it, and it is no
    upload. -/
def Handled.Spares (p : Handled) (l : List String) : Prop :=
  Uploading.start? p.before.session p.before.fs p.line = none ∧
    ∀ verb ∈ executed p.before.session p.line,
      ¬HitBy p.before.session p.before.fs (CommandParser.parse p.line).argument l verb

/-- All lines for a line at the prompt do so, and so do others. What happens to the files of
    the client does not matter. -/
def Deployment.Spares (w : Deployment) (l : List String) : DeploymentEvent → Prop
  | .prompt line o os _ => ∀ p ∈ w.toDialogue.handled line o os, p.Spares l
  | .others fs => w.server.fs.KeepsFile fs l
  | .edits _ => True

/-- The file is kept. -/
theorem Deployment.Spares.node {w w' : Deployment} {e : DeploymentEvent} {l : List String}
    {data : FileData} (h : w.Spares l e) (hnode : w.server.fs.node l = some (.file data))
    (hstep : deployment.step e w = some w') : w'.server.fs.node l = some (.file data) := by
  cases e with
  | prompt line o os room =>
    obtain ⟨d, hd, rfl⟩ := Option.map_eq_some_iff.1 hstep
    refine prompt_invariant (I := fun s => s.fs.node l = some (.file data))
      (fun p hp hp' => ?_) hnode hd
    obtain ⟨hidle, hhit⟩ := h p hp
    exact keepsFile_handleCommand hidle hhit p.o data hp'
  | others fs =>
    obtain ⟨d, hd, rfl⟩ := Option.map_eq_some_iff.1 hstep
    obtain ⟨_, hd⟩ := Option.ite_none_right_eq_some.1 hd
    cases hd
    exact h data hnode
  | edits files =>
    cases hstep
    exact hnode

/-! ## Both ways -/

/-- What the file holds after an upload of some data. -/
def Uploading.whole (u : Uploading) (session : SessionState) (fs : Storage) (data : Bytes) :
    Bytes :=
  (if u.appendMode then
    ((fs.fileAt (session.pathManager.resolvePath u.destName)).map FileData.content).getD []
  else []) ++ data

section

variable {α : Type} [Double α] {w w₁ w₂ w₃ : Deployment} {line line' : String}
  {o o' : LineOutcomes} {os os' : List Outcomes} {room room' : Nat}

/-- The file is there after the upload, and as long as it is spared. -/
theorem node_of_stored {u : Uploading} {content : Bytes} {l : List String}
    (h : u.Stored w.server.session w.server.fs w₁.server.fs content)
    (hstored : w₁.server.fs.resolve true (w.server.session.pathManager.resolvePath u.destName) =
      .found l)
    (hrun : deployment.Reaches (fun w e => w.Faithful α e ∧ w.Spares l e) w₁ w₂) :
    ∃ data, w₂.server.fs.node l = some (.file data) ∧
      data.content = u.whole w.server.session w.server.fs content := by
  obtain ⟨data, hdata, hcontent⟩ := Option.map_eq_some_iff.1 h
  obtain ⟨l', hl', hnode⟩ := FileSystem.fileAt_eq_some_iff.1 hdata
  rw [hstored] at hl'
  cases hl'
  refine ⟨data, ?_, hcontent⟩
  exact hrun.invariant (I := fun w : Deployment => w.server.fs.node l = some (.file data))
    (fun w e w' hw he hstep => he.2.node hw hstep) hnode

/-- A file that has been sent to the server, and is brought back from there, is the one that
    was sent: whatever has been done with other files in between, by the client and by
    others, in whatever modes, and whatever the network has done to the datagrams. Both
    transfers are passive, and all of the file has reached the disk of the server. -/
theorem round_trip (hw : deployment.ReachableBy (Deployment.Faithful α) w)
    (hpassive : w.cli.active = false)
    (hprompt : PromptsFor line [.STOR, .STOU, .APPE])
    (hfaithful : w.Faithful α (.prompt line o os room))
    (hstep : deployment.step (.prompt line o os room) w = some w₁)
    {p : Handled} (hp : w.transfer? line o os = some p)
    (hcomplete : p.turn.replies.getLast? = some transferComplete) (hflushed : p.o.written.Flushed)
    {u : Uploading} (hu : Uploading.start? p.before.session p.before.fs p.line = some u)
    (hspecial : w.server.fs.status (w.server.session.pathManager.resolvePath u.destName) ≠
      some .unknown) {l : List String}
    (hstored : w₁.server.fs.resolve true (w.server.session.pathManager.resolvePath u.destName) =
      .found l)
    (hrun : deployment.Reaches (fun w e => w.Faithful α e ∧ w.Spares l e) w₁ w₂)
    (hpassive' : w₂.cli.active = false)
    (hfaithful' : w₂.Faithful α (.prompt line' o' os' room'))
    (hstep' : deployment.step (.prompt line' o' os' room') w₂ = some w₃)
    (hread : ∀ remoteFile localFile,
      ClientCLI.names (CommandParser.trim line') = some (remoteFile, localFile) →
        w₂.server.fs.resolve true (w₂.server.session.pathManager.resolvePath
          (sentArgument ("RETR " ++ remoteFile))) = .found l)
    (hsmall : ∀ name ∈ ClientCLI.sentName line, ∀ content, w.files name = some content →
      (TransferModeCodec.encode content w.cli.transferMode).length ≤ BUFFER_CAPACITY ∧
      (TransferModeCodec.encode (u.whole w.server.session w.server.fs content)
        w₂.cli.transferMode).length ≤ BUFFER_CAPACITY) :
    ∃ name content, ClientCLI.sentName line = some name ∧ w.files name = some content ∧
      (w₃.files = w₂.files ∨ ∃ remoteFile localFile,
        ClientCLI.names (CommandParser.trim line') = some (remoteFile, localFile) ∧
        w₃.files = Function.update w₂.files localFile
          (some ((u.whole w.server.session w.server.fs content).take room'))) := by
  have hagrees := agrees_of_faithful hw
  have hagrees' : w₂.Agrees := by
    obtain ⟨w₀, hw₀, hreaches⟩ := hw
    refine agrees_of_faithful ⟨w₀, hw₀, (hreaches.tail hfaithful hstep).trans (hrun.mono ?_)⟩
    exact fun _ _ h => h.1
  obtain ⟨name, content, u', hname, hcontent, hu', hstore⟩ := stored_of_prompt hagrees hpassive hprompt
    hfaithful hstep (fun name hname content hcontent => (hsmall name hname content hcontent).1) hp
    hcomplete hflushed
  obtain rfl := Option.some.inj (hu.symm.trans hu')
  -- The file stays where it is until the second line.
  obtain ⟨data, hnode, hdata⟩ := node_of_stored (hstore hspecial) hstored hrun
  have hnamed : ∀ remoteFile localFile,
      ClientCLI.names (CommandParser.trim line') = some (remoteFile, localFile) →
        w₂.server.named remoteFile = some data := fun remoteFile localFile hnames =>
    FileSystem.fileAt_of_resolve (hread remoteFile localFile hnames) hnode
  refine ⟨name, content, hname, hcontent, ?_⟩
  have hfits : ∀ remoteFile localFile file,
      ClientCLI.names (CommandParser.trim line') = some (remoteFile, localFile) →
        w₂.server.named remoteFile = some file →
          (TransferModeCodec.encode file.content w₂.cli.transferMode).length ≤ BUFFER_CAPACITY := by
    intro remoteFile localFile file hnames hfile
    rw [hnamed remoteFile localFile hnames] at hfile
    cases hfile
    rw [hdata]
    exact (hsmall name hname content hcontent).2
  rcases files_of_prompt hagrees' hpassive' hfaithful' hstep' hfits with
    hsame | ⟨_, remoteFile, localFile, file, hnames, hfile, hfiles⟩
  · exact .inl hsame
  · rw [hnamed remoteFile localFile hnames] at hfile
    cases hfile
    rw [hdata] at hfiles
    exact .inr ⟨remoteFile, localFile, hnames, hfiles⟩

end

instance (p : Handled) (l : List String) : Decidable (p.Spares l) :=
  inferInstanceAs (Decidable (_ ∧ _))

/-- A line without a transfer that spares the file, or a change of the files of the client. -/
def Deployment.Quiet (w : Deployment) (l : List String) : DeploymentEvent → Prop
  | .prompt line o os room => w.Plain (.prompt line o os room) ∧
      ∀ p ∈ w.toDialogue.handled line o os, p.Spares l
  | .others _ => False
  | .edits _ => True

instance (w : Deployment) (l : List String) : DecidablePred (w.Quiet l)
  | .prompt line o os room => inferInstanceAs (Decidable (w.Plain (.prompt line o os room) ∧
      ∀ p ∈ w.toDialogue.handled line o os, p.Spares l))
  | .others _ => inferInstanceAs (Decidable False)
  | .edits _ => inferInstanceAs (Decidable True)

theorem Deployment.Quiet.spares {α : Type} [Double α] {w : Deployment} {l : List String}
    {e : DeploymentEvent} (h : w.Quiet l e) : w.Faithful α e ∧ w.Spares l e := by
  cases e with
  | prompt line o os room => exact ⟨h.1.faithful, h.2⟩
  | others fs => exact h.elim
  | edits files => exact ⟨trivial, trivial⟩

/-- The server makes a directory, and the client loses its files. -/
def betweenTransfers : List DeploymentEvent :=
  [.prompt "MKD sub" { ClientCLI.download true with
      answer := .single (.ofLine "257 Directory created successfully." (by decide +kernel))
        (by decide +kernel) } [{}] 0,
    .edits fun _ => none]

/-- What the server receives. -/
def putOutcomes : List Outcomes := [{}, { received := .completed [104, 105] }]

/-- The file is sent, and could be brought back after that. -/
theorem exists_sentFile : ∃ (w w₁ w₂ : Deployment) (p : Handled) (u : Uploading),
    deployment.ReachableBy (Deployment.Faithful ℚ) w ∧ w.files "greeting" = some [104, 105] ∧
      w.cli.active = false ∧ w.Faithful ℚ (.prompt "PUT greeting copy" greetingUpload putOutcomes 10) ∧
      w.cli.transferMode = .Stream ∧
      w.transfer? "PUT greeting copy" greetingUpload putOutcomes = some p ∧
      p.turn.replies.getLast? = some transferComplete ∧ p.o.written.Flushed ∧
      Uploading.start? p.before.session p.before.fs p.line = some u ∧
      w.server.fs.status (w.server.session.pathManager.resolvePath u.destName) ≠ some .unknown ∧
      u.whole w.server.session w.server.fs [104, 105] = [104, 105] ∧
      deployment.step (.prompt "PUT greeting copy" greetingUpload putOutcomes 10) w = some w₁ ∧
      w₁.server.fs.resolve true (w.server.session.pathManager.resolvePath u.destName) =
        .found ["srv", "copy"] ∧
      deployment.Reaches (fun w e => w.Faithful ℚ e ∧ w.Spares ["srv", "copy"] e) w₁ w₂ ∧
      w₂.files "back" = none ∧ w₂.cli.active = false ∧ w₂.cli.transferMode = .Stream ∧
      w₂.SpelledOut (.prompt "GET copy back" greetingDownload [{}, {}]) ∧
      (w₂.transfer? "GET copy back" greetingDownload [{}, {}]).all (fun p =>
        [104, 105] ∈ p.turn.data ∧ p.o.sent = .completed ()) = true ∧
      w₂.server.fs.resolve true (w₂.server.session.pathManager.resolvePath
        (sentArgument ("RETR " ++ "copy"))) = .found ["srv", "copy"] ∧
      ∃ w₃, deployment.step (.prompt "GET copy back" greetingDownload [{}, {}] 10) w₂ = some w₃ ∧
        w₃.files "back" = some [104, 105] := by
  obtain ⟨w, hw, hP⟩ := exists_deployment_of_run
    (fun name => if name = "greeting" then some [104, 105] else none) greetingRun (fun w =>
      w.files "greeting" = some [104, 105] ∧ w.cli.active = false ∧
      w.cli.transferMode = .Stream ∧
      w.SpelledOut (.prompt "PUT greeting copy" greetingUpload putOutcomes) ∧
      (w.transfer? "PUT greeting copy" greetingUpload putOutcomes).any (fun p =>
        p.turn.replies.getLast? = some transferComplete ∧ p.o.received = .completed [104, 105] ∧
        p.o.written.Flushed ∧ (Uploading.start? p.before.session p.before.fs p.line).any (fun u =>
          w.server.fs.status (w.server.session.pathManager.resolvePath u.destName) ≠
            some .unknown ∧
          u.whole w.server.session w.server.fs [104, 105] = [104, 105] ∧
          (deployment.step (.prompt "PUT greeting copy" greetingUpload putOutcomes 10) w).any
            (fun w₁ => w₁.server.fs.resolve true
                (w.server.session.pathManager.resolvePath u.destName) = .found ["srv", "copy"] ∧
              (deployment.run (fun w e => w.Quiet ["srv", "copy"] e) betweenTransfers w₁).any
                (fun w₂ => w₂.files "back" = none ∧ w₂.cli.active = false ∧
                  w₂.cli.transferMode = .Stream ∧
                  w₂.SpelledOut (.prompt "GET copy back" greetingDownload [{}, {}]) ∧
                  (w₂.transfer? "GET copy back" greetingDownload [{}, {}]).all (fun p =>
                    [104, 105] ∈ p.turn.data ∧ p.o.sent = .completed ()) = true ∧
                  w₂.server.fs.resolve true (w₂.server.session.pathManager.resolvePath
                    (sentArgument ("RETR " ++ "copy"))) = .found ["srv", "copy"] ∧
                  (deployment.step (.prompt "GET copy back" greetingDownload [{}, {}] 10) w₂).any
                    (fun w₃ => w₃.files "back" = some [104, 105]) = true) = true) = true) =
          true) = true)
    (by decide +kernel)
  -- The run is evaluated once, for all that is needed of its states.
  simp only [Option.any_eq_true, decide_eq_true_eq] at hP
  obtain ⟨hfile, hpassive, hmode, hspelled, p, hp, ⟨hcomplete, hreceived, hflushed, u, hu, hspecial,
    hwhole, w₁, hstep, hstored, w₂, hrun, hnone, hpassive₂, hmode₂, hspelled₂, hdata, hread, hback⟩⟩ := hP
  have hname : ClientCLI.sentName "PUT greeting copy" = some "greeting" := by decide +kernel
  refine ⟨w, w₁, w₂, p, u, hw, hfile, hpassive, ⟨hspelled, fun _ h => absurd h (by decide +kernel),
    fun _ _ p' hp' buffer hbuffer => ?_, fun name hsent content hcontent => ?_⟩, hmode, hp,
    hcomplete, hflushed, hu, hspecial, hwhole, hstep, hstored,
    (Machine.reaches_of_run hrun).mono fun _ _ h => h.spares, hnone, hpassive₂, hmode₂, hspelled₂, hdata, hread,
    hback⟩
  · obtain rfl := Option.some.inj (hp.symm.trans hp')
    rw [hreceived] at hbuffer
    cases hbuffer
    refine ⟨[104, 105], rfl, ?_⟩
    rw [hmode]
    exact conveys_of_run (by decide +kernel)
  · rw [hname] at hsent
    cases hsent
    cases hcontent
    exact hfile

theorem round_trip_copy : ∃ (w w₂ w₃ : Deployment) (name localFile : String) (content : Bytes),
    ClientCLI.sentName "PUT greeting copy" = some name ∧ w.files name = some content ∧
      w₂.files "back" = none ∧ w₃.files "back" = some [104, 105] ∧
      w₃.files = Function.update w₂.files localFile (some (content.take 10)) := by
  obtain ⟨w, w₁, w₂, p, u, hw, hfile, hpassive, hfaithful, hmode, hp, hcomplete, hflushed, hu,
    hspecial, hwhole, hstep, hstored, hrun, hnone, hpassive₂, hmode₂, hspelled, htransfer, hread, w₃, hstep₃, hback⟩ := exists_sentFile
  have hname : ClientCLI.sentName "PUT greeting copy" = some "greeting" := by decide +kernel
  have hnames : ClientCLI.names (CommandParser.trim "GET copy back") = some ("copy", "back") := by
    decide +kernel
  have hsmall : (TransferModeCodec.encode [104, 105] .Stream).length ≤ BUFFER_CAPACITY := by
    decide +kernel
  have hfaithful₂ : w₂.Faithful ℚ (.prompt "GET copy back" greetingDownload [{}, {}] 10) := by
    refine ⟨hspelled, fun _ _ p hp _ buffer hreceived => ?_, fun _ h => absurd h (by decide +kernel),
      fun name hname => ?_⟩
    · obtain ⟨hdata, hsent⟩ := of_decide_eq_true ((Option.all_eq_true _ _).1 htransfer p hp)
      cases hreceived
      exact ⟨_, hdata, hsent ▸ conveys_of_run (by decide +kernel)⟩
    · have hnone : ClientCLI.sentName "GET copy back" = none := by decide +kernel
      rw [hnone] at hname
      cases hname
  obtain ⟨name, content, hsent, hcontent, hfiles⟩ := round_trip hw hpassive (by decide +kernel)
    hfaithful hstep hp hcomplete hflushed hu hspecial hstored hrun hpassive₂ hfaithful₂ hstep₃
    (fun remoteFile localFile h => by
      rw [hnames] at h
      cases h
      exact hread)
    (fun name hsent content hcontent => by
      rw [hname] at hsent
      cases hsent
      rw [hfile] at hcontent
      cases hcontent
      rw [hwhole, hmode, hmode₂]
      exact ⟨hsmall, hsmall⟩)
  rcases hfiles with hsame | ⟨remoteFile, localFile, _, hfiles⟩
  · -- The file was not there before, and is now.
    rw [hsame, hnone] at hback
    cases hback
  · have hgreeting : content = [104, 105] := by
      rw [hname] at hsent
      cases hsent
      exact (Option.some.inj (hfile.symm.trans hcontent)).symm
    rw [hgreeting, hwhole] at hfiles
    exact ⟨w, w₂, w₃, name, localFile, content, hsent, hcontent, hnone, hback,
      hgreeting ▸ hfiles⟩

end HybridFtp
