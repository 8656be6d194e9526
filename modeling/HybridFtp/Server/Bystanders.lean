import HybridFtp.Lib.Unwinding
import HybridFtp.Server.Payload

/-!
# Sessions that only read

A session that changes nothing in the file system is not noticed by the others, whatever
it does in between, one command at a time.

* `Sharing.Reads`: the lines whose commands change nothing;
* `unwinds_reads`: the others and the file system do not depend on them;
* `bystanders`: without them, a run ends with the same file system and the same sessions,
  and these have sent the same replies.
-/

namespace HybridFtp

variable {ι : Type}

/-- The session that an event is about. -/
def SharingEvent.session : SharingEvent ι → ι
  | .line i _ _ => i
  | .proceed i _ => i

variable [DecidableEq ι]

namespace Sharing

/-- A line whose command changes nothing in the file system. -/
def Reads (s : Sharing ι) : SharingEvent ι → Prop
  | .line i line _ => ∀ verb ∈ executed (s.connection i).session line, verb ∉ Verb.changes
  | .proceed _ _ => False

instance (s : Sharing ι) : DecidablePred s.Reads
  | .line i line _ => inferInstanceAs (Decidable
      (∀ verb ∈ executed (s.connection i).session line, verb ∉ Verb.changes))
  | .proceed _ _ => inferInstanceAs (Decidable False)

/-- The sessions of `quiet` only read. -/
def OnlyRead (quiet : ι → Prop) (s : Sharing ι) (e : SharingEvent ι) : Prop :=
  quiet e.session → s.Reads e

instance (quiet : ι → Prop) [DecidablePred quiet] (s : Sharing ι) (e : SharingEvent ι) :
    Decidable (OnlyRead quiet s e) :=
  inferInstanceAs (Decidable (quiet e.session → s.Reads e))

/-- The file system is the same, and so are the sessions but those of `quiet`. -/
structure SameBut (quiet : ι → Prop) (s t : Sharing ι) : Prop where
  fs : t.fs = s.fs
  connection : ∀ i, ¬quiet i → t.connection i = s.connection i
  completed : t.completed = s.completed

variable {quiet : ι → Prop} {s t : Sharing ι} {i : ι}

/-- A turn of the same session on both sides. -/
theorem SameBut.after (h : SameBut quiet s t) (hi : ¬quiet i) (turn : Turn)
    (upload : Option Uploading) :
    SameBut quiet (s.after i turn upload) (t.after i turn upload) := by
  have hself := h.connection i hi
  refine ⟨rfl, fun j hj => ?_, ?_⟩
  · rcases eq_or_ne j i with rfl | hne
    · rw [connection_after_self, connection_after_self, hself]
    · rw [connection_after_of_ne hne, connection_after_of_ne hne, h.connection j hj]
  · show (t.completes i turn).toList ++ t.completed = (s.completes i turn).toList ++ s.completed
    rw [h.completed, completes, completes, hself]

/-- A turn of a quiet session that changes nothing and completes no upload. -/
theorem SameBut.skip (h : SameBut quiet s t) (hi : quiet i) {turn : Turn}
    {upload : Option Uploading} (hfs : turn.fs = s.fs) (hidle : (s.connection i).upload = none) :
    SameBut quiet (s.after i turn upload) t := by
  refine ⟨h.fs.trans hfs.symm, fun j hj => ?_, ?_⟩
  · have hne : j ≠ i := by
      rintro rfl
      exact hj hi
    rw [connection_after_of_ne hne, h.connection j hj]
  · show t.completed = (s.completes i turn).toList ++ s.completed
    rw [completes_of_idle hidle, h.completed]
    rfl

end Sharing

/-- A line that starts an upload does not only read. -/
theorem start?_eq_none_of_reads {session : SessionState} {fs : Storage} {line : String}
    (h : ∀ verb ∈ executed session line, verb ∉ Verb.changes) :
    Uploading.start? session fs line = none := by
  by_contra hne
  obtain ⟨u, hu⟩ := Option.ne_none_iff_exists'.1 hne
  rcases Uploading.start?_cases hu with ⟨hverb, _⟩ | ⟨hverb, _⟩ | ⟨hverb, _⟩
  · exact h _ hverb (by decide)
  · exact h _ hverb (by decide)
  · exact h _ hverb (by decide)

/-- Reading is not noticed, and everything else only depends on the file system and on the
    session itself. -/
theorem unwinds_reads (quiet : ι → Prop) :
    sharing.Unwinds (fun e : SharingEvent ι => quiet e.session) (Sharing.OnlyRead quiet)
      (Sharing.SameBut quiet) where
  skip := by
    intro s s' t e hquiet hread hstep hst
    replace hread := hread hquiet
    rcases sharing_cases hstep with ⟨i, line, o, u, rfl, _, _, hstart, _⟩ |
      ⟨i, line, o, rfl, _, hidle, _, rfl⟩ | ⟨i, o, u, rfl, _⟩
    · rw [start?_eq_none_of_reads hread] at hstart
      cases hstart
    · exact hst.skip hquiet (fs_of_not_changes o _ s.fs hread) hidle
    · exact hread.elim
  follow := by
    intro s s' t e hloud _ hstep hst
    rcases sharing_cases hstep with ⟨i, line, o, u, rfl, hended, hidle, hstart, rfl⟩ |
      ⟨i, line, o, rfl, hended, hidle, hstart, rfl⟩ | ⟨i, o, u, rfl, hu, rfl⟩
    · have hi := hst.connection i hloud
      rw [← hi] at hended hidle hstart ⊢
      rw [← hst.fs] at hstart ⊢
      exact ⟨_, sharing_line_of_some hended hidle hstart o, hst.after hloud _ _⟩
    · have hi := hst.connection i hloud
      rw [← hi] at hended hidle hstart ⊢
      rw [← hst.fs] at hstart ⊢
      exact ⟨_, sharing_line_of_none hended hidle hstart o, hst.after hloud _ _⟩
    · have hi := hst.connection i hloud
      rw [← hi] at hu ⊢
      rw [← hst.fs]
      exact ⟨_, Option.map_eq_some_iff.2 ⟨u, hu, rfl⟩, hst.after hloud _ _⟩

/-- In any run of commands that do not overlap and in which some sessions only read, all
    their lines may be left out: the file system, the other sessions, what these have been
    replied and the uploads that have been completed are the same. -/
theorem bystanders {quiet : ι → Prop} [DecidablePred quiet] {s s' : Sharing ι}
    {es : List (SharingEvent ι)} (h : sharing.run (Sharing.OnlyRead quiet) es s = some s') :
    ∃ t', sharing.run (fun _ _ => True) (es.filter fun e => ¬quiet e.session) s = some t' ∧
      s'.SameBut quiet t' :=
  (unwinds_reads quiet).run ⟨rfl, fun _ _ => rfl, rfl⟩ h

/-- One session makes a directory, while the other lists and downloads. -/
def mkdirAmongReads : List (SharingEvent Bool) :=
  bothLogin ++ [.line true "LIST" {}, .line false "MKD new" {}, .line true "PASV" {},
    .line true "RETR file" {}, .line true "CWD new" {}]

theorem bystanders_mkd : ∃ s' t' : Sharing Bool,
    sharing.run (fun _ _ => True) (mkdirAmongReads.filter fun e => ¬e.session = true) .start =
        some t' ∧
      s'.fs.isDirectory { names := ["srv", "new"] } = some true ∧ s'.SameBut (· = true) t' := by
  obtain ⟨s', hrun, hP⟩ := (Option.any_eq_true _ _).1
    (show (sharing.run (Sharing.OnlyRead (· = true)) mkdirAmongReads .start).any (fun s' =>
      s'.fs.isDirectory { names := ["srv", "new"] } = some true) = true by decide +kernel)
  obtain ⟨t', ht', hsame⟩ := bystanders hrun
  exact ⟨s', t', ht', of_decide_eq_true hP, hsame⟩

end HybridFtp
