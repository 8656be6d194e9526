import HybridFtp.Common.Sandbox
import HybridFtp.Server.FailedUpload
import HybridFtp.Server.Payload

/-!
# What happens to a file

A file stays as it is while any number of sessions take their steps, one command after the
other and uploads in between, unless it is deleted or written to, or it is renamed, or a
directory above it is.

* `Sharing.Hits`: the steps that may do so;
* `keepsFile_step`: all others keep the file;
* `file_stays`: so does a run without such a step;
* `read_back`, `told_back`: what an upload has stored is what a session downloads after it,
  and what `SIZE` and `HASH` are about.
-/

namespace HybridFtp

/-! ## What the changes do to a file -/

namespace PathManager

variable {pm : PathManager} {fs : Storage} {path : String} {l : List String}

/-- The regular file that a path leads to, in the root. -/
theorem regularFile_of_found {data : FileData} (hpath : path ≠ "")
    (hfound : fs.resolve true (pm.resolvePath path) = .found l) (hroot : pm.rootDirectory <+: l)
    (hnode : fs.node l = some (.file data)) : pm.regularFile fs path = some data := by
  have hsound := FileSystem.sound_of_resolve hfound
  have hl := FileSystem.resolve_found hsound
  have hinside : pm.isInsideRoot { names := l } = true := by simpa [isInsideRoot] using hroot
  have htarget : pm.canonicalTarget fs path = some { names := l } := by
    rw [canonicalTarget, FileSystem.weaklyCanonical_of_found hfound]
    exact if_pos ⟨hinside, FileSystem.pathExists_iff.2 ⟨l, hl⟩⟩
  rw [regularFile, if_neg hpath, htarget]
  dsimp only
  rw [if_pos (FileSystem.isRegularFile_iff.2 ⟨l, data, hl, hnode⟩)]
  exact FileSystem.fileAt_of_resolve hl hnode

theorem keepsFile_deleteFile (h : fs.resolve true (pm.resolvePath path) ≠ .found l) :
    fs.KeepsFile (pm.deleteFile fs path).2 l := by
  have hsame := FileSystem.KeepsFile.refl fs l
  rw [deleteFile]
  dsimp only
  split_ifs with hpath hinside
  · exact hsame
  · split
    · exact hsame
    · rename_i q hq
      split_ifs with htest hfile
      · exact hsame
      · exact hsame
      · rw [not_or, not_not, not_not] at htest
        obtain ⟨d, hd, rfl⟩ := FileSystem.resolve_of_weaklyCanonical hq htest.2
        split
        · rename_i removed fs' hremove
          refine FileSystem.keepsFile_remove hremove fun hfound => h ?_
          rw [FileSystem.resolve_false_of_found hd] at hfound
          rw [hd, hfound]
        · exact hsame
  · exact hsame

/-- What is removed by `RMD` is a directory. -/
theorem keepsFile_removeDirectory (pm : PathManager) (fs : Storage) (path : String)
    (l : List String) : fs.KeepsFile (pm.removeDirectory fs path).2 l := by
  have hsame := FileSystem.KeepsFile.refl fs l
  rw [removeDirectory]
  dsimp only
  split_ifs with hpath hinside
  · exact hsame
  · split
    · exact hsame
    · rename_i q hq
      split_ifs with hwithin hroot htest
      · exact hsame
      · exact hsame
      · rw [not_or, not_not, not_not] at htest
        obtain ⟨d, hd, rfl⟩ := FileSystem.resolve_of_weaklyCanonical hq htest.1
        have hdir := FileSystem.isDir_of_isDirectory hd htest.2
        split
        · rename_i removed fs' hremove
          intro data hdata
          refine FileSystem.keepsFile_remove hremove (fun hfound => ?_) data hdata
          rw [FileSystem.resolve_false_of_found hd] at hfound
          cases hfound
          exact FileSystem.not_isDir_of_file hdata hdir
        · exact hsame
      · exact hsame
  · exact hsame

theorem keepsFile_createDirectory (pm : PathManager) (fs : Storage) (perms : Perms)
    (path : String) (l : List String) : fs.KeepsFile (pm.createDirectory fs perms path).2 l := by
  rcases pm.createDirectory_cases fs perms path with heq | ⟨_, _, dir, n, habsent, heq⟩
  · rw [heq]
    exact .refl fs l
  · have hsound := FileSystem.sound_of_resolve habsent
    rw [heq]
    exact (FileSystem.extends_alter _ hsound.2).keepsFile l

theorem keepsFile_renamePath {newPath : String}
    (h : ∀ d, fs.resolve true (pm.resolvePath path) = .found d → ¬d <+: l) :
    fs.KeepsFile (pm.renamePath fs path newPath).2 l := by
  rcases pm.renamePath_cases fs path newPath with
    heq | ⟨s, ns, n, d, _, hs, _, _, hd, _, hmissing, hrename⟩
  · rw [heq]
    exact .refl fs l
  · exact FileSystem.keepsFile_rename (FileSystem.resolve_false_of_found hs) hd hmissing hrename
      (h s hs)

end PathManager

/-! ## Steps that may change a file -/

variable {ι : Type} [DecidableEq ι]

/-- The path leads to the location, or to a directory above it. -/
def LeadsAbove (fs : Storage) (p : NormalPath String) (l : List String) : Prop :=
  ∃ d ∈ l.inits, fs.resolve true p = .found d

instance (fs : Storage) (p : NormalPath String) (l : List String) : Decidable (LeadsAbove fs p l) :=
  inferInstanceAs (Decidable (∃ d ∈ l.inits, fs.resolve true p = .found d))

/-- The command deletes what is at the location, or renames it or a directory above it. -/
def HitBy (session : SessionState) (fs : Storage) (argument : String) (l : List String) :
    Verb → Prop
  | .DELE => fs.resolve true (session.pathManager.resolvePath argument) = .found l
  | .RNTO => ∃ source ∈ session.renameFrom,
      LeadsAbove fs (session.pathManager.resolvePath source) l
  | _ => False

/-- The step deletes what is at the location, or renames it or a directory above it, or it
    is the one by which an upload writes to it. -/
def Sharing.Hits (s : Sharing ι) (l : List String) : SharingEvent ι → Prop
  | .line i line _ => ∃ verb ∈ executed (s.connection i).session line,
      HitBy (s.connection i).session s.fs (CommandParser.parse line).argument l verb
  | .proceed i _ => ∃ u ∈ (s.connection i).upload, (∃ buf, u.phase = .received buf) ∧
      s.fs.resolve true (s.path i u) = .found l

instance (session : SessionState) (fs : Storage) (argument : String) (l : List String) :
    DecidablePred (HitBy session fs argument l) := fun verb => by
  unfold HitBy
  split <;> infer_instance

instance (u : Uploading) : Decidable (∃ buf, u.phase = .received buf) :=
  match _h : u.phase with
  | .received buf => .isTrue ⟨buf, rfl⟩
  | .announced => .isFalse fun ⟨_, heq⟩ => nomatch heq
  | .opened _ => .isFalse fun ⟨_, heq⟩ => nomatch heq

instance (s : Sharing ι) (l : List String) : DecidablePred (s.Hits l)
  | .line i line _ => inferInstanceAs (Decidable (∃ verb ∈ executed (s.connection i).session line,
      HitBy (s.connection i).session s.fs (CommandParser.parse line).argument l verb))
  | .proceed i _ => inferInstanceAs (Decidable (∃ u ∈ (s.connection i).upload,
      (∃ buf, u.phase = .received buf) ∧ s.fs.resolve true (s.path i u) = .found l))

/-- A command that does not hit a file keeps it. -/
theorem keepsFile_handleCommand {session : SessionState} {fs : Storage} {line : String}
    {l : List String} (hidle : Uploading.start? session fs line = none)
    (h : ∀ verb ∈ executed session line,
      ¬HitBy session fs (CommandParser.parse line).argument l verb) (o : Outcomes) :
    fs.KeepsFile (handleCommand o session fs line).fs l := by
  cases hverb : executed session line with
  | none =>
    rw [(handleCommand_of_executed_none o fs hverb).1]
    exact .refl fs l
  | some verb =>
    replace h := h verb hverb
    by_cases hupload : verb ∈ [Verb.STOR, .STOU, .APPE]
    · -- An upload that is not started is refused.
      rw [fs_of_upload_none hverb hupload (Option.map_eq_none_iff.1 hidle)]
      exact .refl fs l
    have hmanager := (given_frame session line).2.2
    -- What `RNFR` has set is kept for `RNTO`, and cancelled by any other command.
    have hrename : ∀ source, (session.given line).renameFrom = some source →
        session.renameFrom = some source := by
      intro source hsource
      rcases given_eq session line with heq | heq
      · rwa [heq] at hsource
      · rw [heq] at hsource
        cases hsource
    rw [handleCommand_of_executed o fs hverb]
    generalize session.given line = session' at hmanager hrename
    have hstorage := (step_execute o session' fs (CommandParser.parse line).argument (some verb)).2
    generalize (execute o session' fs (CommandParser.parse line).argument (some verb)).fs = fs'
      at hstorage ⊢
    cases hstorage with
    | same => exact .refl fs l
    | mkd => exact PathManager.keepsFile_createDirectory _ fs _ _ l
    | rmd => exact PathManager.keepsFile_removeDirectory _ fs _ l
    | dele =>
      rw [hmanager]
      exact PathManager.keepsFile_deleteFile h
    | rnto hsource =>
      rw [hmanager]
      refine PathManager.keepsFile_renamePath fun d hd hprefix => h ?_
      exact ⟨_, hrename _ hsource, d, (List.mem_inits d l).2 hprefix, hd⟩
    | retr => exact (FileSystem.addsDirectories_createDirectories _ _).kept.keepsFile l
    | stor | stou | appe => exact absurd (by decide) hupload

/-- A step that does not hit a file keeps it. -/
theorem keepsFile_step {s s' : Sharing ι} {e : SharingEvent ι} {l : List String}
    (hstep : sharing.step e s = some s') (h : ¬s.Hits l e) : s.fs.KeepsFile s'.fs l := by
  rcases sharing_cases hstep with ⟨i, line, o, u, rfl, _, _, _, rfl⟩ |
    ⟨i, line, o, rfl, _, _, hstart, rfl⟩ | ⟨i, o, u, rfl, hu, rfl⟩
  · exact .refl s.fs l
  · exact keepsFile_handleCommand hstart (fun verb hverb hhit => h ⟨verb, hverb, hhit⟩) o
  · show s.fs.KeepsFile (u.proceed o (s.connection i).session s.fs).1.fs l
    rcases proceed_fs o (s.connection i).session s.fs u with
      ⟨_, heq⟩ | ⟨_, _, heq⟩ | ⟨hphase, write, hwrite⟩
    · rw [heq]
      exact .refl s.fs l
    · rw [heq]
      exact (FileSystem.addsDirectories_createDirectories _ _).kept.keepsFile l
    · exact FileSystem.keepsFile_writeFile hwrite fun hfound => h ⟨u, hu, hphase, hfound⟩

/-- A file stays as it is, whatever sessions do one command after the other, their uploads
    in between, unless one of them deletes it, renames it or a directory above it, or writes
    to it. -/
theorem file_stays {s s' : Sharing ι} {l : List String} {data : FileData}
    (hrun : sharing.Reaches (fun s e => ¬s.Hits l e) s s')
    (hfile : s.fs.node l = some (.file data)) : s'.fs.node l = some (.file data) :=
  hrun.invariant (I := fun s : Sharing ι => s.fs.node l = some (.file data))
    (fun _ _ _ hs hhit hstep => keepsFile_step hstep hhit data hs) hfile

/-- Another file is uploaded and renamed, and a directory is made and removed. -/
def besideFile : List (SharingEvent Bool) :=
  bothLogin ++ (.line false "STOU file" {} :: uploadsByte false 49) ++
    [.line true "RNFR file_1" {}, .line true "RNTO other" {}, .line false "MKD new" {},
      .line true "RMD new" {}, .line true "DELE other" {}]

theorem file_stays_beside : ∃ s' : Sharing Bool,
    sharing.Reaches (fun s e => ¬s.Hits ["srv", "file"] e) .start s' ∧
      s'.fs.node ["srv", "file"] = some (.file {}) := by
  obtain ⟨s', _, hrun, _⟩ := sharing.exists_reaches_of_run (fun s e => ¬s.Hits ["srv", "file"] e)
    besideFile (fun s' => s'.fs.node ["srv", "other"] = none) (s := .start) (by decide +kernel)
  exact ⟨s', hrun, file_stays hrun (by decide +kernel)⟩

/-! ## Reading what has been stored -/

/-- The content of a file after an upload of it has been completed with some data. -/
def uploadedContent (s : Sharing ι) (i : ι) (u : Uploading) (buf : Bytes) : Bytes :=
  let session := (s.connection i).session
  (if u.appendMode then ((s.fs.fileAt (s.path i u)).map FileData.content).getD [] else []) ++
    (TransferModeCodec.decode buf session.transferMode session.transferType).output

/-- The last step of an upload that is answered by 226, if no data is lost after that. -/
theorem fileAt_of_completed {s s' : Sharing ι} {i : ι} {u : Uploading} {buf : Bytes} {o : Outcomes}
    (hu : (s.connection i).upload = some u) (hphase : u.phase = .received buf)
    (hstep : sharing.step (.proceed i o) s = some s')
    (hcomplete : (s'.connection i).replies.getLast? = some transferComplete)
    (hspecial : s.fs.status (s.path i u) ≠ some .unknown) (hflushed : o.written.Flushed) :
    (s'.fs.fileAt (s.path i u)).map FileData.content = some (uploadedContent s i u buf) := by
  obtain ⟨v, hv, rfl⟩ := Option.map_eq_some_iff.1 hstep
  obtain rfl := Option.some.inj (hu.symm.trans hv)
  rw [Uploading.proceed_received o _ _ hphase] at hcomplete ⊢
  dsimp only at hcomplete ⊢
  rw [Sharing.connection_after_self] at hcomplete
  dsimp only [answer] at hcomplete
  rw [List.getLast?_append_of_ne_nil _ (List.cons_ne_nil _ _)] at hcomplete
  obtain ⟨_, hwrite⟩ := storeFile_of_complete hflushed (Option.some.inj hcomplete)
  show (FileSystem.fileAt (storeFile o (s.connection i).session s.fs _ buf u.appendMode).2 _).map
    FileData.content = _
  rw [Sharing.path] at hspecial ⊢
  rw [FileSystem.fileAt_writeFile hwrite hspecial]
  rfl

/-- The file is there after the last step of the upload, and as long as it is not hit. -/
theorem node_of_completed {s s₁ s₂ : Sharing ι} {i : ι} {u : Uploading} {buf : Bytes}
    {o : Outcomes} {l : List String} (hu : (s.connection i).upload = some u)
    (hphase : u.phase = .received buf) (hspecial : s.fs.status (s.path i u) ≠ some .unknown)
    (hflushed : o.written.Flushed) (hstep : sharing.step (.proceed i o) s = some s₁)
    (hcomplete : (s₁.connection i).replies.getLast? = some transferComplete)
    (hstored : s₁.fs.resolve true (s.path i u) = .found l)
    (hrun : sharing.Reaches (fun s e => ¬s.Hits l e) s₁ s₂) :
    ∃ data, s₂.fs.node l = some (.file data) ∧ data.content = uploadedContent s i u buf := by
  obtain ⟨data, hdata, hcontent⟩ := Option.map_eq_some_iff.1
    (fileAt_of_completed hu hphase hstep hcomplete hspecial hflushed)
  obtain ⟨l', hl', hnode⟩ := FileSystem.fileAt_eq_some_iff.1 hdata
  rw [hstored] at hl'
  cases hl'
  exact ⟨data, file_stays hrun hnode, hcontent⟩

/-- What an upload has stored, and not lost when its file was closed, is what any session
    downloads from there, whatever has happened in between, unless it was deleted, renamed or
    written to. -/
theorem read_back {s s₁ s₂ : Sharing ι} {i j : ι} {u : Uploading} {buf : Bytes}
    {o o' : Outcomes} {l : List String} {line : String} {wire : Bytes}
    (hu : (s.connection i).upload = some u) (hphase : u.phase = .received buf)
    (hspecial : s.fs.status (s.path i u) ≠ some .unknown) (hflushed : o.written.Flushed)
    (hstep : sharing.step (.proceed i o) s = some s₁)
    (hcomplete : (s₁.connection i).replies.getLast? = some transferComplete)
    (hstored : s₁.fs.resolve true (s.path i u) = .found l)
    (hrun : sharing.Reaches (fun s e => ¬s.Hits l e) s₁ s₂)
    (hverb : lineVerb line = some .RETR)
    (hread : s₂.fs.resolve true ((s₂.connection j).session.pathManager.resolvePath
      (CommandParser.parse line).argument) = .found l)
    (hwire : wire ∈ (handleCommand o' (s₂.connection j).session s₂.fs line).data) :
    wire = TransferModeCodec.encode (uploadedContent s i u buf)
      (s₂.connection j).session.transferMode := by
  obtain ⟨data, hnode, hcontent⟩ :=
    node_of_completed hu hphase hspecial hflushed hstep hcomplete hstored hrun
  obtain ⟨file, hfile, rfl⟩ := mem_data_retr hverb hwire
  rw [FileSystem.fileAt_of_resolve hread hnode] at hfile
  rw [← Option.some.inj hfile, hcontent]

/-- `SIZE` and `HASH` tell the size and the hash of what has been stored as well. -/
theorem told_back {s s₁ s₂ : Sharing ι} {i j : ι} {u : Uploading} {buf : Bytes}
    {o o' : Outcomes} {l : List String} {line : String}
    (hu : (s.connection i).upload = some u) (hphase : u.phase = .received buf)
    (hspecial : s.fs.status (s.path i u) ≠ some .unknown) (hflushed : o.written.Flushed)
    (hstep : sharing.step (.proceed i o) s = some s₁)
    (hcomplete : (s₁.connection i).replies.getLast? = some transferComplete)
    (hstored : s₁.fs.resolve true (s.path i u) = .found l)
    (hrun : sharing.Reaches (fun s e => ¬s.Hits l e) s₁ s₂)
    (hargument : (CommandParser.parse line).argument ≠ "")
    (hread : s₂.fs.resolve true ((s₂.connection j).session.pathManager.resolvePath
      (CommandParser.parse line).argument) = .found l)
    (hroot : (s₂.connection j).session.pathManager.rootDirectory <+: l) :
    (executed (s₂.connection j).session line = some .SIZE →
      (handleCommand o' (s₂.connection j).session s₂.fs line).replies =
        ["213 " ++ toString (uploadedContent s i u buf).length ++ "\r\n"]) ∧
    (executed (s₂.connection j).session line = some .HASH → o'.readable = true →
      (s₂.connection j).session.pathManager.isPathInsideRoot
        (CommandParser.parse line).argument = true →
      CryptoHash.computeSHA256 o'.SHA256 (uploadedContent s i u buf) ≠ "" →
      (handleCommand o' (s₂.connection j).session s₂.fs line).replies =
        ["213 SHA-256=" ++ CryptoHash.computeSHA256 o'.SHA256 (uploadedContent s i u buf) ++
          "\r\n"]) := by
  obtain ⟨data, hnode, hcontent⟩ :=
    node_of_completed hu hphase hspecial hflushed hstep hcomplete hstored hrun
  have hmanager := (given_frame (s₂.connection j).session line).2.2
  have hfile := PathManager.regularFile_of_found hargument hread hroot hnode
  have hsize : (s₂.connection j).session.pathManager.getFileSize s₂.fs
      (CommandParser.parse line).argument = some data.content.length := by
    rw [PathManager.getFileSize, hfile]
    rfl
  rw [← hcontent]
  -- Both commands look at the file that the path leads to, which is that of the upload.
  refine ⟨fun hverb => ?_, fun hverb hreadable hinside hhash => ?_⟩
  · rw [handleCommand_of_executed o' s₂.fs hverb, execute, handleSize, requireArgument,
      if_neg hargument, tell, hmanager, hsize]
    rfl
  · have hcompute : CryptoHash.computeSHA256FromFile o'.SHA256 s₂.fs o'.readable
        ((s₂.connection j).session.pathManager.resolvePath (CommandParser.parse line).argument) =
        CryptoHash.computeSHA256 o'.SHA256 data.content := by
      rw [CryptoHash.computeSHA256FromFile, FileHandler.readBinaryFile, if_pos hreadable,
        FileSystem.fileAt_of_resolve hread hnode]
      rfl
    rw [handleCommand_of_executed o' s₂.fs hverb, execute, handleHash, requireArgument,
      if_neg hargument, hmanager, if_neg (not_not.2 hinside), hsize,
      if_neg (Option.some_ne_none _), hcompute]
    dsimp only
    rw [if_neg hhash]
    rfl

/-- An upload that has received its byte. -/
def byteReceived : List (SharingEvent Bool) :=
  bothLogin ++ [.line false "STOR file" {}, .proceed false {},
    .proceed false { received := .completed [49] }]

/-- The upload is completed, and the other session makes a directory next to the file. -/
theorem exists_byteStored : ∃ (s s₁ s₂ : Sharing Bool) (u : Uploading),
    (s.connection false).upload = some u ∧ u.phase = .received [49] ∧
      s.fs.status (s.path false u) ≠ some .unknown ∧ uploadedContent s false u [49] = [49] ∧
      sharing.step (.proceed false {}) s = some s₁ ∧
      (s₁.connection false).replies.getLast? = some transferComplete ∧
      s₁.fs.resolve true (s.path false u) = .found ["srv", "file"] ∧
      sharing.Reaches (fun s e => ¬s.Hits ["srv", "file"] e) s₁ s₂ ∧
      s₂.fs.isDirectory { names := ["srv", "beside"] } = some true ∧
      (s₂.connection true).session.loginState = .LoggedIn ∧
      (s₂.connection true).session.pathManager.rootDirectory = ["srv"] ∧
      s₂.fs.resolve true ((s₂.connection true).session.pathManager.resolvePath "file") =
        .found ["srv", "file"] ∧
      (handleCommand {} (s₂.connection true).session s₂.fs "RETR file").data ≠ [] := by
  obtain ⟨s, _, _, hreceived⟩ := sharing.exists_reaches_of_run (fun _ _ => True) byteReceived
    (fun s => (s.connection false).upload.any fun u => u.phase = .received [49] ∧
      s.fs.status (s.path false u) ≠ some .unknown ∧ uploadedContent s false u [49] = [49] ∧
      (sharing.step (.proceed false {}) s).any fun s₁ =>
        (s₁.connection false).replies.getLast? = some transferComplete ∧
        s₁.fs.resolve true (s.path false u) = .found ["srv", "file"] ∧
        (sharing.run (fun s e => ¬s.Hits ["srv", "file"] e)
          [.line true "MKD beside" {}] s₁).any fun s₂ =>
          s₂.fs.isDirectory { names := ["srv", "beside"] } = some true ∧
          (s₂.connection true).session.loginState = .LoggedIn ∧
          (s₂.connection true).session.pathManager.rootDirectory = ["srv"] ∧
          s₂.fs.resolve true ((s₂.connection true).session.pathManager.resolvePath "file") =
            .found ["srv", "file"] ∧
          (handleCommand {} (s₂.connection true).session s₂.fs "RETR file").data ≠ [])
    (s := .start) (by decide +kernel)
  simp only [Option.any_eq_true, decide_eq_true_eq] at hreceived
  obtain ⟨u, hu, hphase, hspecial, hcontent, s₁, hstep, hcomplete, hstored, s₂, hrun, hs₂⟩ :=
    hreceived
  exact ⟨s, s₁, s₂, u, hu, hphase, hspecial, hcontent, hstep, hcomplete, hstored,
    Machine.reaches_of_run hrun, hs₂⟩

/-- What the upload has stored is what the other session reads. -/
theorem read_back_byte : ∃ (s₂ : Sharing Bool) (wire : Bytes),
    wire ∈ (handleCommand {} (s₂.connection true).session s₂.fs "RETR file").data ∧
      s₂.fs.isDirectory { names := ["srv", "beside"] } = some true ∧
      wire = TransferModeCodec.encode [49] (s₂.connection true).session.transferMode := by
  obtain ⟨s, s₁, s₂, u, hu, hphase, hspecial, hcontent, hstep, hcomplete, hstored, hrun, hbeside,
    _, _, hread, hdata⟩ := exists_byteStored
  have hargument : (CommandParser.parse "RETR file").argument = "file" := by decide +kernel
  rw [← hargument] at hread
  obtain ⟨wire, hwire⟩ := List.exists_mem_of_ne_nil _ hdata
  have hflushed : ({} : Outcomes).written.Flushed := trivial
  have hback := read_back hu hphase hspecial hflushed hstep hcomplete hstored hrun
    (by decide +kernel) hread hwire
  rw [hcontent] at hback
  exact ⟨s₂, wire, hwire, hbeside, hback⟩

/-- It is told that the file has one byte. -/
theorem told_back_byte : ∃ s₂ : Sharing Bool,
    s₂.fs.isDirectory { names := ["srv", "beside"] } = some true ∧
      (handleCommand {} (s₂.connection true).session s₂.fs "SIZE file").replies =
        ["213 1\r\n"] := by
  obtain ⟨s, s₁, s₂, u, hu, hphase, hspecial, hcontent, hstep, hcomplete, hstored, hrun, hbeside,
    hlogin, hroot, hread, _⟩ := exists_byteStored
  have hverb : executed (s₂.connection true).session "SIZE file" = some .SIZE := by
    rw [executed_eq, hlogin]
    decide +kernel
  have hroot' : (s₂.connection true).session.pathManager.rootDirectory <+: ["srv", "file"] := by
    rw [hroot]
    decide
  have hargument : (CommandParser.parse "SIZE file").argument = "file" := by decide +kernel
  rw [← hargument] at hread
  have hflushed : ({} : Outcomes).written.Flushed := trivial
  have hsize : executed (s₂.connection true).session "SIZE file" = some .SIZE →
      (handleCommand {} (s₂.connection true).session s₂.fs "SIZE file").replies =
        ["213 " ++ toString (uploadedContent s false u [49]).length ++ "\r\n"] :=
    (told_back hu hphase hspecial hflushed hstep hcomplete
      hstored hrun (by decide +kernel) hread hroot').1
  rw [hcontent] at hsize
  exact ⟨s₂, hbeside, hsize hverb⟩

end HybridFtp
