import HybridFtp.Client.ControlChannel
import HybridFtp.Common.ListingRecords
import HybridFtp.Server.Session

/-!
# The reply to `STAT`

Listings are records, one in each line, whatever the names of the entries are. Between the
two lines of the reply to `STAT`, none of them ends the reply for the client.

* `statReply`: what the server sends, as a reply of several lines;
* `handleStat_wire`: it does send that;
* `framedListings`: one record for each entry of a directory, and the client reads all of them and
  nothing more.
-/

namespace HybridFtp

open Elements

theorem Terminated.concat {replyCode last : List Char} {lines : List (List Char)}
    (hlines : ∀ line ∈ lines, ¬replyCode ++ [' '] <+: line) (hlast : replyCode ++ [' '] <+: last) :
    Terminated replyCode (lines ++ [last]) := by
  induction lines with
  | nil => exact hlast
  | cons line lines ih =>
    rw [List.forall_mem_cons] at hlines
    cases lines with
    | nil => exact ⟨hlines.1, hlast⟩
    | cons next lines => exact ⟨hlines.1, ih hlines.2⟩

/-! ## Lines -/

/-- What is between the line ends of a text. -/
def splitCrlf : List Char → List (List Char)
  | [] => [[]]
  | '\r' :: '\n' :: text => [] :: splitCrlf text
  | c :: text => (splitCrlf text).modifyHead (c :: ·)

theorem splitCrlf_append {line : List Char} (h : NoBreak line) (text : List Char) :
    splitCrlf (line ++ '\r' :: '\n' :: text) = line :: splitCrlf text := by
  induction line with
  | nil => rw [List.nil_append, splitCrlf]
  | cons c line ih =>
    obtain ⟨hcr, hlf⟩ := h
    rw [List.mem_cons, not_or] at hcr hlf
    rw [List.cons_append, splitCrlf, ih ⟨hcr.2, hlf.2⟩]
    · rfl
    · rintro _ rfl
      exact absurd rfl hcr.1

/-- The lines that a text has been made of, and nothing after them. -/
theorem splitCrlf_wireLines {lines : List (List Char)} (h : ∀ line ∈ lines, NoBreak line) :
    splitCrlf (Reply.wireLines lines) = lines ++ [[]] := by
  induction lines with
  | nil => rfl
  | cons line lines ih =>
    rw [List.forall_mem_cons] at h
    rw [Reply.wireLines_cons, splitCrlf_append h.1, ih h.2]
    rfl

/-- The lines of a text that is made of lines. -/
theorem toList_join_crlf (lines : List String) :
    (String.join (lines.map (· ++ "\r\n"))).toList = Reply.wireLines (lines.map String.toList) := by
  induction lines with
  | nil => rfl
  | cons line lines ih =>
    rw [List.map_cons, String.join_cons, String.toList_append, String.toList_append, ih,
      List.map_cons, Reply.wireLines_cons, List.append_assoc]
    rfl

/-! ## Records -/

/-- A line of a listing: it starts with the name, and so with no code. -/
def IsRecord (line : List Char) : Prop := NoBreak line ∧ "name=".toList <+: line

theorem isRecord_entry {name told : String} (hname : NoBreak name.toList)
    (htold : NoBreak told.toList) : IsRecord ("name=" ++ name ++ ", type=" ++ told).toList := by
  simp only [String.toList_append]
  have hstart : NoBreak ("name=".toList ++ name.toList) :=
    NoBreak.append ⟨by decide, by decide⟩ hname
  refine ⟨(hstart.append ⟨by decide, by decide⟩).append htold, ?_⟩
  rw [List.append_assoc, List.append_assoc]
  exact List.prefix_append _ _

theorem IsRecord.ne_nil {line : List Char} (h : IsRecord line) : line ≠ [] := by
  rintro rfl
  exact absurd (List.prefix_nil.1 h.2) (by decide)

/-- Codes are digits. -/
theorem IsRecord.not_code {line replyCode : List Char} (h : IsRecord line)
    (hcode : replyCode.head? ≠ some 'n') (hne : replyCode ≠ []) : ¬replyCode ++ [' '] <+: line := by
  rintro ⟨rest, rfl⟩
  obtain ⟨rest', h⟩ := h.2
  cases replyCode with
  | nil => exact hne rfl
  | cons d replyCode =>
    refine hcode ?_
    exact congrArg some (List.cons.inj h).1.symm

/-! ## The reply -/

/-- The records of a directory or of a file, between two lines with the code. -/
def statReply (isDirectory : Bool) (records : List (List Char)) (h : ∀ r ∈ records, IsRecord r) :
    Reply where
  first :=
    (if isDirectory then "212-Directory status follows." else "213-File status follows.").toList
  more := records ++ [(if isDirectory then "212 End of status." else "213 End of status.").toList]
  isLine := by
    intro line hline
    rw [List.mem_cons, List.mem_append, List.mem_singleton] at hline
    rcases hline with rfl | hline | rfl
    · cases isDirectory <;> decide
    · exact ⟨(h line hline).ne_nil, (h line hline).1.2⟩
    · cases isDirectory <;> decide
  complete := by
    cases isDirectory
    · exact Terminated.concat (fun line hline => (h line hline).not_code (by decide) (by decide))
        (by decide)
    · exact Terminated.concat (fun line hline => (h line hline).not_code (by decide) (by decide))
        (by decide)

/-- What the server sends for a path with these records. -/
theorem handleStat_wire {session : SessionState} {fs : Storage} {path : String}
    {status : PathManager.PathStatus} (hget : session.pathManager.getStatus fs path = some status)
    {records : List (List Char)} (h : ∀ r ∈ records, IsRecord r)
    (hlisting : status.listing.toList = Reply.wireLines records) :
    (handleStat session fs path).replies =
      [String.ofList (statReply status.isDirectory records h).wire] := by
  have hpath : path ≠ "" := by
    rintro rfl
    cases hget
  have hlines : (statReply status.isDirectory records h).wire =
      (statReply status.isDirectory records h).first ++ '\r' :: '\n' :: (status.listing.toList ++
        ((if status.isDirectory then "212 End of status." else "213 End of status.").toList ++
          ['\r', '\n'])) := by
    rw [Reply.wire, Reply.wireLines_cons, hlisting]
    simp [statReply, Reply.wireLines]
  rw [handleStat, if_neg hpath, hget]
  change [_] = _
  rw [hlines, List.singleton_inj, ← String.toList_inj, String.toList_ofList]
  cases hdir : status.isDirectory <;> simp [statReply, hdir]

namespace PathManager

variable {pm : PathManager} {fs : Storage} {path : String} {target : NormalPath String}

/-- The status of a directory has its records. -/
theorem getStatus_of_directory (h : pm.canonicalTarget fs path = some target)
    (hdir : fs.status target = some .directory) {status : PathStatus}
    (hget : pm.getStatus fs path = some status) :
    status.isDirectory = true ∧ pm.listDirectory fs path = some status.listing := by
  have hpath : path ≠ "" := by
    rintro rfl
    cases hget
  refine ⟨?_, by rw [← listing_getStatus hpath, hget]; rfl⟩
  rw [getStatus, if_neg hpath, h] at hget
  dsimp only at hget
  rw [if_neg fun hother => hother.1 (isDirectory_eq_true_iff.2 hdir),
    Option.map_eq_some_iff] at hget
  obtain ⟨listing, _, rfl⟩ := hget
  exact decide_eq_true (isDirectory_eq_true_iff.2 hdir)

/-- The records of the entries of a directory, in the order of their names. -/
theorem records_of_directory (h : pm.canonicalTarget fs path = some target)
    (hdir : fs.status target = some .directory) {listing : String}
    (hlist : pm.listDirectory fs path = some listing) :
    ∃ records, listing.toList = Reply.wireLines records ∧ (∀ r ∈ records, IsRecord r) ∧
      List.Forall₂ (fun n r => ("name=" ++ sanitizeListingName n ++ ", type=").toList <+: r)
        (sortedNames fs target.names) records := by
  rcases listDirectory_of_directory h hdir with ⟨_, told, hlength, htold, heq⟩ | ⟨_, hnone⟩
  · rw [hlist] at heq
    cases heq
    refine ⟨_, toList_join_crlf _, fun r hr => ?_, ?_⟩
    · rw [List.mem_map] at hr
      obtain ⟨_, hrecord, rfl⟩ := hr
      obtain ⟨⟨n, t⟩, hmem, rfl⟩ := List.mem_map.1 hrecord
      exact isRecord_entry (noBreak_sanitizeListingName n) (htold t (List.of_mem_zip hmem).2)
    · rw [List.map_map, List.forall₂_map_right_iff]
      have hzip := List.map_fst_zip hlength.ge
      conv =>
        arg 2
        rw [← hzip]
      rw [List.forall₂_map_left_iff, List.forall₂_same]
      intro e _
      exact ⟨e.2.toList, String.toList_append.symm⟩
  · rw [hlist] at hnone
    cases hnone

end PathManager

/-! ## Framing -/

/-- The listings of a path have one record for each of the names, in their order, and the
    client reads the whole reply to `STAT` and nothing that follows. -/
structure FramedListings (session : SessionState) (fs : Storage) (path : String)
    (names : List String) : Prop where
  list : ∀ listing, session.pathManager.listDirectory fs path = some listing → ∃ records,
    splitCrlf listing.toList = records ++ [[]] ∧ [] ∉ records ∧
    List.Forall₂
      (fun n r => ("name=" ++ PathManager.sanitizeListingName n ++ ", type=").toList <+: r)
      names records
  nameList : ∀ listing, session.pathManager.listNames fs path = some listing → ∃ records,
    splitCrlf listing.toList = records ++ [[]] ∧ [] ∉ records ∧
    List.Forall₂ (fun n r => (PathManager.sanitizeListingName n).toList = r) names records
  stat : ∀ status, session.pathManager.getStatus fs path = some status →
    ∃ (r : Reply) (records : List (List Char)), (handleStat session fs path).replies = [String.ofList r.wire] ∧
    r.first = "212-Directory status follows.".toList ∧
    r.more = records ++ ["212 End of status.".toList] ∧
    splitCrlf status.listing.toList = records ++ [[]] ∧
    session.pathManager.listDirectory fs path = some status.listing ∧
    ∀ s, recvReply (r.wire ++ s) = (r.text, s)

section

variable {session : SessionState} {fs : Storage} {path : String} {target : NormalPath String}

/-- The listings of a directory are framed, with its names sorted. No entry of a directory
    has an empty name. -/
theorem framedListings (h : session.pathManager.canonicalTarget fs path = some target)
    (hdir : fs.status target = some .directory) (hnames : ∀ n ∈ fs.names target.names, n ≠ "") :
    ∃ names : List String, names.Perm (fs.names target.names) ∧ names.Pairwise (· ≤ ·) ∧
      FramedListings session fs path names := by
  have hperm := PathManager.sortedNames_perm fs target.names
  refine ⟨_, hperm, PathManager.sortedNames_pairwise fs target.names, ?_, ?_, ?_⟩
  · -- `LIST`
    intro listing hlist
    obtain ⟨records, hlines, hrecords, heach⟩ := PathManager.records_of_directory h hdir hlist
    refine ⟨records, ?_, fun hnil => (hrecords _ hnil).ne_nil rfl, heach⟩
    rw [hlines]
    exact splitCrlf_wireLines fun r hr => (hrecords r hr).1
  · -- `NLST`
    intro listing hlist
    rw [PathManager.listNames_of_directory h hdir] at hlist
    cases hlist
    refine ⟨(PathManager.sortedNames fs target.names).map fun n =>
      (PathManager.sanitizeListingName n).toList, ?_, fun hnil => ?_, ?_⟩
    · have hlines := toList_join_crlf
        ((PathManager.sortedNames fs target.names).map PathManager.sanitizeListingName)
      rw [List.map_map, List.map_map] at hlines
      refine (congrArg splitCrlf hlines).trans (splitCrlf_wireLines fun line hline => ?_)
      obtain ⟨n, _, rfl⟩ := List.mem_map.1 hline
      exact PathManager.noBreak_sanitizeListingName n
    · obtain ⟨n, hn, hnil⟩ := List.mem_map.1 hnil
      rw [PathManager.sanitizeListingName, String.toList_map, List.map_eq_nil_iff] at hnil
      exact hnames n (hperm.mem_iff.1 hn) (String.toList_eq_nil_iff.1 hnil)
    · rw [List.forall₂_map_right_iff, List.forall₂_same]
      exact fun _ _ => rfl
  · -- `STAT`
    intro status hget
    obtain ⟨hisDir, hlist⟩ := PathManager.getStatus_of_directory h hdir hget
    obtain ⟨records, hlines, hrecords, _⟩ := PathManager.records_of_directory h hdir hlist
    refine ⟨statReply status.isDirectory records hrecords, records,
      handleStat_wire hget hrecords hlines, by rw [hisDir]; rfl, by rw [hisDir]; rfl, ?_, hlist,
      recvReply_wire _⟩
    rw [hlines]
    exact splitCrlf_wireLines fun r hr => (hrecords r hr).1

end

/-- A root directory with files whose names look like the end of a reply. -/
def repliesStorage : Storage where
  attributes := 0o755
  entries := [("srv", .dir 0o755 [("230 ok", .file {}), ("212 End of status.\r\n", .file {})])]

/-- A session in that root directory. -/
def repliesSession : SessionState where
  pathManager := (PathManager.create 0o755 { names := ["srv"] } repliesStorage).1

theorem framedListings_replies :
    (repliesSession.pathManager.getStatus repliesStorage ".").isSome ∧ ∃ names : List String,
      names.Perm (repliesStorage.names ["srv"]) ∧ names.Pairwise (· ≤ ·) ∧
        FramedListings repliesSession repliesStorage "." names := by
  have htarget : repliesSession.pathManager.canonicalTarget repliesStorage "." =
      some { names := ["srv"] } := by decide +kernel
  have hdir : repliesStorage.status { names := ["srv"] } = some .directory := by decide +kernel
  refine ⟨?_, framedListings htarget hdir (by decide +kernel)⟩
  rw [← Option.isSome_map, PathManager.listing_getStatus (by decide)]
  rcases PathManager.listDirectory_of_directory htarget hdir with ⟨_, _, _, _, heq⟩ | ⟨hnot, _⟩
  · rw [heq]
    rfl
  · exact absurd (by decide +kernel) hnot

end HybridFtp
