import HybridFtp.Client.StatReply
import HybridFtp.Common.CommandParts
import HybridFtp.Common.UniqueName
import HybridFtp.Server.DataChannel
import HybridFtp.Server.Steps
import HybridFtp.Server.Upload

/-!
# The stream of replies

What a session sends over the control connection is a sequence of replies, whatever it is
asked for, so that the client reads all of them one after the other.

* `IsReply`: a text that is a reply, with the ends of its lines; `LineStart`: the
  beginning of one that has one line;
* `Turn.Framed`, `framed_handleCommand`: a command is answered by replies;
* `recvReplies`, `replies_read`: what the client reads of a whole session.
-/

namespace HybridFtp

open Elements

/-- A text within one line. -/
def OneLine (text : String) : Prop := '\n' ∉ text.toList

instance : DecidablePred OneLine := fun text => inferInstanceAs (Decidable ('\n' ∉ text.toList))

theorem OneLine.append {text text' : String} (h : OneLine text) (h' : OneLine text') :
    OneLine (text ++ text') := by
  rw [OneLine, String.toList_append]
  exact List.not_mem_append h h'

theorem OneLine.of_subset {text text' : String} (h : OneLine text) (hsub : text'.toList ⊆ text.toList) :
    OneLine text' :=
  fun hmem => h (hsub hmem)

theorem oneLine_toString (n : Nat) : OneLine (toString n) := (noBreak_toString n).2

/-! ## Replies of one line -/

/-- A text that is a reply. -/
def IsReply (text : String) : Prop := ∃ r : Reply, text = String.ofList r.wire

/-- A text that is a reply of one line. -/
def IsLine (text : String) : Prop := ∃ r : Reply, r.more = [] ∧ text = String.ofList r.wire

theorem IsLine.isReply {text : String} (h : IsLine text) : IsReply text :=
  h.imp fun _ => And.right

/-- What a reply of one line starts with: a code with no hyphen behind it. -/
structure LineStart (text : String) : Prop where
  length : 3 < text.toList.length
  no_hyphen : text.toList[3]? ≠ some '-'
  oneLine : OneLine text

/-- The end of a line, and no other, at the end. -/
def endsLine : List Char → Bool
  | ['\r', '\n'] => true
  | c :: text => c ≠ '\n' && endsLine text
  | [] => false

theorem exists_of_endsLine {text : List Char} (h : endsLine text = true) :
    ∃ line, '\n' ∉ line ∧ text = line ++ ['\r', '\n'] := by
  fun_induction endsLine text with
  | case1 => exact ⟨[], List.not_mem_nil, rfl⟩
  | case2 c text _ ih =>
    rw [Bool.and_eq_true, decide_eq_true_eq] at h
    obtain ⟨line, hline, rfl⟩ := ih h.2
    exact ⟨c :: line, List.not_mem_cons_of_ne_of_not_mem (Ne.symm h.1) hline, rfl⟩
  | case3 => cases h

namespace LineStart

variable {start text : String}

theorem lit {d₁ d₂ d₃ c : Char} {rest : List Char}
    (h : (c ≠ '-' && !(d₁ :: d₂ :: d₃ :: c :: rest).contains '\n') = true) :
    LineStart (String.ofList (d₁ :: d₂ :: d₃ :: c :: rest)) := by
  simp only [Bool.and_eq_true, decide_eq_true_eq, Bool.not_eq_true', Bool.eq_false_iff, ne_eq,
    List.contains_iff_mem] at h
  constructor
  · rw [String.toList_ofList]
    simp only [List.length_cons]
    omega
  · rw [String.toList_ofList]
    simpa using h.1
  · rw [OneLine, String.toList_ofList]
    exact h.2

theorem append (h : LineStart start) (htext : OneLine text) : LineStart (start ++ text) where
  length := by
    rw [String.toList_append, List.length_append]
    exact Nat.lt_add_right _ h.length
  no_hyphen := by
    rw [String.toList_append, List.getElem?_append_left h.length]
    exact h.no_hyphen
  oneLine := h.oneLine.append htext

theorem isLine (h : LineStart start) {line : List Char} (hline : '\n' ∉ line) :
    IsLine (start ++ String.ofList (line ++ ['\r', '\n'])) := by
  have hstart : LineStart (start ++ String.ofList line) :=
    h.append (by rwa [OneLine, String.toList_ofList])
  refine ⟨.ofLine (start ++ String.ofList line)
    ⟨List.ne_nil_of_length_pos (Nat.zero_lt_of_lt hstart.length), hstart.oneLine, hstart.no_hyphen⟩,
    rfl, ?_⟩
  rw [← String.toList_inj]
  simp [Reply.wire, Reply.ofLine]

end LineStart

theorem IsLine.close {start : String} (h : LineStart start) {rest : List Char}
    (hrest : endsLine rest = true) : IsLine (start ++ String.ofList rest) := by
  obtain ⟨line, hline, rfl⟩ := exists_of_endsLine hrest
  exact h.isLine hline

theorem IsLine.lit {d₁ d₂ d₃ c : Char} {rest : List Char}
    (h : ((c ≠ '-' && !([d₁, d₂, d₃, c] : List Char).contains '\n') && endsLine rest) = true) :
    IsLine (String.ofList (d₁ :: d₂ :: d₃ :: c :: rest)) := by
  rw [Bool.and_eq_true] at h
  have hline : IsLine (String.ofList [d₁, d₂, d₃, c] ++ String.ofList rest) := .close (.lit h.1) h.2
  rwa [← String.ofList_append] at hline

theorem IsReply.close {start : String} (h : LineStart start) {rest : List Char}
    (hrest : endsLine rest = true) : IsReply (start ++ String.ofList rest) :=
  (IsLine.close h hrest).isReply

theorem IsReply.lit {d₁ d₂ d₃ c : Char} {rest : List Char}
    (h : ((c ≠ '-' && !([d₁, d₂, d₃, c] : List Char).contains '\n') && endsLine rest) = true) :
    IsReply (String.ofList (d₁ :: d₂ :: d₃ :: c :: rest)) :=
  (IsLine.lit h).isReply

example : IsReply "230 Login successful.\r\n" := .lit rfl

/-! ## Texts within one line -/

theorem OneLine.join {texts : List String} (h : ∀ text ∈ texts, OneLine text) :
    OneLine (String.join texts) := by
  rw [OneLine, String.toList_join, List.mem_flatMap]
  rintro ⟨text, htext, hmem⟩
  exact h text htext hmem

theorem OneLine.intercalate {separator : String} (hsep : OneLine separator) {texts : List String}
    (h : ∀ text ∈ texts, OneLine text) : OneLine (separator.intercalate texts) := by
  induction texts with
  | nil => exact List.not_mem_nil
  | cons text texts ih =>
    rw [List.forall_mem_cons] at h
    cases texts with
    | nil => simpa using h.1
    | cons next texts =>
      rw [String.intercalate_cons_cons]
      exact (h.1.append hsep).append (ih h.2)

theorem oneLine_twoDigits (n : Nat) : OneLine (twoDigits n) := by
  rw [twoDigits]
  split
  · exact OneLine.append (by decide) (oneLine_toString n)
  · exact oneLine_toString n

theorem oneLine_toString_int (n : Int) : OneLine (toString n) := by
  cases n with
  | ofNat n => exact oneLine_toString n
  | negSucc n => exact OneLine.append (by decide) (oneLine_toString (n + 1))

theorem oneLine_putTime (rawTime : Int) : OneLine (putTime rawTime) := by
  rw [putTime]
  exact ((((((oneLine_toString_int _).append (oneLine_twoDigits _)).append
    (oneLine_twoDigits _)).append (oneLine_twoDigits _)).append (oneLine_twoDigits _)).append
    (oneLine_twoDigits _))

theorem oneLine_hexByte (b : UInt8) : OneLine (CryptoHash.hexByte b) := by
  have hdigit : ∀ n < 16, Nat.digitChar n ≠ '\n' := by decide
  have hlt := b.toNat_lt
  rw [OneLine, CryptoHash.hexByte, String.toList_ofList]
  simp only [List.mem_cons, List.not_mem_nil, or_false, not_or]
  exact ⟨(hdigit _ (by omega)).symm, (hdigit _ (by omega)).symm⟩

theorem oneLine_computeSHA256FromFile (SHA256 : Bytes → Bytes) (fs : Storage) (readable : Bool)
    (filepath : NormalPath String) :
    OneLine (CryptoHash.computeSHA256FromFile SHA256 fs readable filepath) := by
  rw [CryptoHash.computeSHA256FromFile]
  split
  · decide
  · refine OneLine.join fun text htext => ?_
    obtain ⟨b, _, rfl⟩ := List.mem_map.1 htext
    exact oneLine_hexByte b

/-- The local address, with commas. -/
theorem oneLine_localAddress (ip : IPv4) :
    OneLine (ip.dotted.map fun c => if c = '.' then ',' else c) := by
  rw [OneLine, String.toList_map, List.mem_map]
  rintro ⟨c, hc, heq⟩
  split_ifs at heq
  · exact absurd heq (by decide)
  · subst heq
    refine OneLine.intercalate (by decide) ?_ hc
    simp only [List.forall_mem_cons]
    exact ⟨oneLine_toString _, oneLine_toString _, oneLine_toString _, oneLine_toString _,
      List.forall_mem_nil _⟩

theorem oneLine_usage (verb : Verb) : OneLine verb.usage := by
  cases verb <;> decide

theorem oneLine_toUpper {text : String} (h : OneLine text) : OneLine (CommandParser.toUpper text) := by
  rw [OneLine, CommandParser.toUpper, String.toList_ofList, List.mem_map]
  rintro ⟨c, hc, heq⟩
  obtain rfl := CommandParser.eq_of_toUpper_of_lt (d := '\n') heq (by decide)
  exact h hc

/-- The argument is a part of the line. -/
theorem oneLine_argument {line : String} (h : OneLine line) :
    OneLine (CommandParser.parse line).argument := by
  rcases CommandParser.parse_cases line with ⟨_, heq⟩ | ⟨p, rfl, heq⟩
  · rw [heq]
    decide
  · rw [heq]
    refine h.of_subset ?_
    rw [CommandParser.CommandParts.command, String.toList_ofList, String.toList_ofList,
      CommandParser.CommandParts.text]
    intro c hc
    simp [hc]

namespace PathManager

variable {baseName : String}

theorem oneLine_splitPath {path : String} (h : OneLine path) :
    OneLine (splitPath path).1 ∧ OneLine (splitPath path).2 := by
  rw [splitPath]
  dsimp only
  have hparent := (List.rdropWhile_prefix (fun c => decide (c ≠ '/')) path.toList).subset
  constructor
  · refine h.of_subset ?_
    rw [String.toList_ofList]
    split_ifs
    · exact List.Subset.trans (List.rdropWhile_prefix _ _).subset hparent
    · exact hparent
    · exact List.Subset.trans (List.take_subset _ _) hparent
  · refine h.of_subset ?_
    rw [String.toList_ofList]
    exact (List.rtakeWhile_suffix _ _).subset

theorem oneLine_splitExtension {filename : String} (h : OneLine filename) :
    OneLine (splitExtension filename).1 ∧ OneLine (splitExtension filename).2 := by
  rw [splitExtension]
  split_ifs
  · exact ⟨h, List.not_mem_nil⟩
  · constructor
    · refine h.of_subset ?_
      rw [String.toList_ofList]
      exact List.Subset.trans (List.dropLast_subset _) (List.rdropWhile_prefix _ _).subset
    · rw [OneLine, String.toList_ofList, List.mem_cons, not_or]
      exact ⟨by decide, fun hmem => h ((List.rtakeWhile_suffix _ _).subset hmem)⟩

theorem oneLine_numbered (h : OneLine baseName) (counter : Nat) :
    OneLine (numbered baseName counter) := by
  obtain ⟨hdir, hfilename⟩ := oneLine_splitPath h
  obtain ⟨hstem, hext⟩ := oneLine_splitExtension hfilename
  have hslash : OneLine "/" := by decide
  have hunderscore : OneLine "_" := by decide
  have hname := ((hstem.append hunderscore).append (oneLine_toString counter)).append hext
  rw [numbered]
  dsimp only
  split_ifs
  · exact hname
  · exact hdir.append hname
  · exact (hdir.append hslash).append hname

theorem oneLine_firstUnique {pm : PathManager} {fs : Storage} (h : OneLine baseName) (fuel counter : Nat)
    {testName : String} (htest : OneLine testName) :
    OneLine (pm.firstUnique fs baseName fuel counter testName) := by
  induction fuel generalizing counter testName with
  | zero => exact htest
  | succ fuel ih =>
    rw [firstUnique]
    split
    · exact ih _ (oneLine_numbered h counter)
    · exact htest

end PathManager

/-! ## Replies of several lines -/

/-- The reply to `HELP`. -/
def helpReply : Reply where
  first := "214-The following commands are recognized:".toList
  more := [" USER PASS QUIT NOOP HELP", " PWD CWD CDUP MKD RMD", " LIST NLST STAT SIZE MDTM",
    " DELE RNFR RNTO", " TYPE MODE PORT PASV", " RETR STOR STOU APPE", " HASH ABOR"].map
      String.toList ++ ["214 End of HELP.".toList]
  isLine := by decide
  complete := Terminated.concat (by decide) (by decide)

theorem isReply_help (session : SessionState) (fs : Storage) (reply : String)
    (h : reply ∈ (handleHelp session fs "").replies) : IsReply reply := by
  refine ⟨helpReply, (List.mem_singleton.1 h).trans ?_⟩
  decide +kernel

/-- The reply to `STAT` without a path. -/
def serverStatusReply (type : TransferType) (mode : TransferMode) : Reply where
  first := "211-Hybrid FTP server status:".toList
  more := [" Server is running",
    " TYPE: " ++ (match type with | .ASCII => "ASCII" | .Binary => "Binary"),
    " MODE: " ++ (match mode with
      | .Stream => "Stream" | .Block => "Block" | .Compressed => "Compressed")].map String.toList ++
    ["211 End of status.".toList]
  isLine := by cases type <;> cases mode <;> decide
  complete := by
    refine Terminated.concat ?_ (by decide)
    cases type <;> cases mode <;> decide

theorem isReply_serverStatus (session : SessionState) (fs : Storage) (reply : String)
    (h : reply ∈ (handleStat session fs "").replies) : IsReply reply := by
  refine ⟨serverStatusReply session.transferType session.transferMode,
    (List.mem_singleton.1 h).trans ?_⟩
  cases session.transferType <;> cases session.transferMode <;> decide +kernel

/-- Whatever there is at the path, its records do not end the reply. -/
theorem isReply_stat {session : SessionState} {fs : Storage} {path : String}
    {status : PathManager.PathStatus} (hget : session.pathManager.getStatus fs path = some status)
    (reply : String) (h : reply ∈ (handleStat session fs path).replies) : IsReply reply := by
  have hpath : path ≠ "" := by
    rintro rfl
    cases hget
  have hlist : session.pathManager.listDirectory fs path = some status.listing := by
    rw [← PathManager.listing_getStatus hpath, hget]
    rfl
  rcases PathManager.listings_cases session.pathManager fs path with ⟨hnone, _⟩ | ⟨hnone, _⟩ |
    ⟨_, entries, hentries, heq, _⟩
  · rw [hlist] at hnone
    cases hnone
  · rw [hlist] at hnone
    cases hnone
  · have hlisting := Option.some.inj (hlist.symm.trans heq)
    have hrecords : ∀ r ∈ entries.map fun e => ("name=" ++ e.1 ++ ", type=" ++ e.2).toList,
        IsRecord r := by
      intro r hr
      obtain ⟨e, he, rfl⟩ := List.mem_map.1 hr
      exact isRecord_entry (hentries e he).1 (hentries e he).2
    have hlines := toList_join_crlf (entries.map fun e => "name=" ++ e.1 ++ ", type=" ++ e.2)
    rw [List.map_map, List.map_map] at hlines
    rw [handleStat_wire hget hrecords ((congrArg String.toList hlisting).trans hlines),
      List.mem_singleton] at h
    exact ⟨_, h⟩

/-! ## Commands -/

/-- A property of every reply that is sent. -/
def Turn.Each (P : String → Prop) (turn : Turn) : Prop := ∀ reply ∈ turn.replies, P reply

/-- What is sent are replies. -/
def Turn.Framed (turn : Turn) : Prop := ∀ reply ∈ turn.replies, IsReply reply

section

variable {o : Outcomes} {session : SessionState} {fs : Storage} {argument reply : String}
  {turn : Turn} {P : String → Prop}

theorem each_answer (h : P reply) : (answer session fs reply).Each P :=
  List.forall_mem_singleton.2 h

theorem each_after {opening : List String} (ho : ∀ reply ∈ opening, P reply)
    (h : turn.Each P) : (turn.after opening).Each P :=
  List.forall_mem_append.2 ⟨ho, h⟩

theorem each_requireArgument {missing : String} (hm : P missing) (h : turn.Each P) :
    (requireArgument session fs argument missing turn).Each P := by
  rw [requireArgument]
  split_ifs
  · exact each_answer hm
  · exact h

theorem framed_answer (h : IsReply reply) : (answer session fs reply).Framed := each_answer h

theorem framed_requireArgument {missing : String} (hm : IsReply missing) (h : turn.Framed) :
    (requireArgument session fs argument missing turn).Framed :=
  each_requireArgument hm h

theorem framed_refuseArgument {name : String} (hname : OneLine name) (h : turn.Framed) :
    (refuseArgument session fs argument name turn).Framed := by
  rw [refuseArgument]
  split_ifs
  · exact framed_answer (.close (.append (.lit rfl) hname) rfl)
  · exact h

theorem framed_changeStorage {missing refused done : String} (hm : IsReply missing)
    (hr : IsReply refused) (hd : IsReply done) (operation : Bool × Storage) :
    (changeStorage session fs argument missing refused done operation).Framed := by
  refine framed_requireArgument hm ?_
  split_ifs
  · exact framed_answer hd
  · exact framed_answer hr

theorem framed_changeCurrent {refused done : String} (hr : IsReply refused) (hd : IsReply done)
    (operation : Bool × PathManager) :
    (changeCurrent session fs refused done operation).Framed := by
  rw [changeCurrent]
  split_ifs
  · exact framed_answer hd
  · exact framed_answer hr

theorem framed_tell {refused : String} {told : Option String} (hr : IsReply refused)
    (ht : ∀ text ∈ told, IsReply text) : (tell session fs refused told).Framed := by
  cases told with
  | none => exact framed_answer hr
  | some text => exact framed_answer (ht text rfl)

theorem isLine_of_openDataChannel (h : openDataChannel o session = .error reply) :
    IsLine reply := by
  rw [openDataChannel] at h
  repeat' split at h
  all_goals cases h
  all_goals exact .lit rfl

end

section

variable {P : String → Prop} (hP : ∀ {reply}, IsLine reply → Final reply → P reply)
  (o : Outcomes) (session : SessionState) (fs : Storage)

include hP

theorem each_abortTransfer : (abortTransfer session fs []).Each P :=
  List.forall_mem_cons.2
    ⟨hP (.lit rfl) (.lit rfl), List.forall_mem_singleton.2 (hP (.lit rfl) (.lit rfl))⟩

theorem each_sendFile (resolvedPath : NormalPath String) :
    (sendFile o session fs resolvedPath).Each P := by
  rw [sendFile]
  split
  · exact each_answer (hP (.lit rfl) (.lit rfl))
  · cases o.sent with
    | completed _ => exact List.forall_mem_singleton.2 (hP (.lit rfl) (.lit rfl))
    | failed => exact List.forall_mem_singleton.2 (hP (.lit rfl) (.lit rfl))
    | aborted => exact each_abortTransfer hP session fs

theorem each_sendFileTo (peer : Option Endpoint) (resolvedPath : NormalPath String) :
    (sendFileTo o session fs peer resolvedPath).Each P := by
  rw [sendFileTo.eq_def]
  split
  · exact each_sendFile hP o session fs resolvedPath
  · split
    · exact each_answer (hP (.lit rfl) (.lit rfl))
    · exact each_sendFile hP o session.reset fs resolvedPath

theorem each_receiveFile (resolvedPath : NormalPath String) (appendMode : Bool) :
    (receiveFile o session fs resolvedPath appendMode).Each P := by
  rw [receiveFile]
  split
  · dsimp only
    refine each_answer ?_
    rw [storeFile_eq]
    split
    · exact hP (.lit rfl) (.lit rfl)
    · dsimp only
      split
      · exact hP (.lit rfl) (.lit rfl)
      · exact hP (.lit rfl) (.lit rfl)
  · exact each_answer (hP (.lit rfl) (.lit rfl))
  · exact each_abortTransfer hP session fs

theorem each_receiveFileFrom (peer : Option Endpoint) (resolvedPath : NormalPath String)
    (appendMode : Bool) : (receiveFileFrom o session fs peer resolvedPath appendMode).Each P := by
  rw [receiveFileFrom.eq_def]
  split
  · split
    · exact each_answer (hP (.lit rfl) (.lit rfl))
    · exact each_receiveFile hP o session fs resolvedPath appendMode
  · exact each_receiveFile hP o session.reset fs resolvedPath appendMode

theorem each_receiveFileOverDataChannel (destName : String) (appendMode skipOpeningReply : Bool)
    (ho : P "150 Opening data connection for file upload.\r\n") :
    (receiveFileOverDataChannel o session fs destName appendMode skipOpeningReply).Each P := by
  rw [receiveFileOverDataChannel]
  split
  · rename_i h
    exact each_answer (hP (isLine_of_openDataChannel h) (final_of_openDataChannel h))
  · dsimp only
    split
    · exact each_answer (hP (.lit rfl) (.lit rfl))
    · refine each_after (fun reply hreply => ?_) (each_receiveFileFrom hP o session _ _ _ _)
      split at hreply
      · cases hreply
      · rw [List.mem_singleton.1 hreply]
        exact ho

theorem each_handleRetr (argument : String)
    (ho : P "150 Opening data connection for file download.\r\n") :
    (handleRetr o session fs argument).Each P := by
  refine each_requireArgument (hP (.lit rfl) (.lit rfl)) ?_
  split
  · exact each_answer (hP (.lit rfl) (.lit rfl))
  · split
    · exact each_answer (hP (.lit rfl) (.lit rfl))
    · split
      · rename_i h
        exact each_answer (hP (isLine_of_openDataChannel h) (final_of_openDataChannel h))
      · exact each_after (List.forall_mem_singleton.2 ho) (each_sendFileTo hP o session _ _ _)

theorem each_sendTextOverDataChannel (text : String) :
    (sendTextOverDataChannel o session fs text).2.Each P := by
  rw [sendTextOverDataChannel]
  split
  · rename_i h
    exact each_answer (hP (isLine_of_openDataChannel h) (final_of_openDataChannel h))
  · exact List.forall_mem_nil _
  · split
    · exact List.forall_mem_nil _
    · exact List.forall_mem_nil _

theorem each_sendListing {unavailable opening : String} (hu : P unavailable) (ho : P opening)
    (listing : Option String) : (sendListing o session fs unavailable opening listing).Each P := by
  rw [sendListing.eq_def]
  split
  · exact each_answer hu
  · split
    · exact each_answer (hP (.lit rfl) (.lit rfl))
    · split
      · exact List.forall_mem_nil _
      · rename_i text _ _
        have hsent := each_sendTextOverDataChannel hP o session fs text
        refine List.forall_mem_append.2 ⟨List.forall_mem_cons.2 ⟨ho, hsent⟩,
          List.forall_mem_singleton.2 ?_⟩
        split
        · exact hP (.lit rfl) (.lit rfl)
        · exact hP (.lit rfl) (.lit rfl)

end

/-- The opening reply of `STOU`, with the name that it has found. -/
theorem isLine_uniqueName (session : SessionState) (fs : Storage) {argument : String}
    (h : OneLine argument) : IsLine ("125 FILE: " ++ uniqueName session fs argument ++ "\r\n") := by
  refine .close (.append (.lit rfl) (PathManager.oneLine_firstUnique ?_ _ _ ?_)) rfl
  · split
    · decide
    · exact h
  · split
    · decide
    · exact h

theorem framed_handlePort (session : SessionState) (fs : Storage) (argument : String) :
    (handlePort session fs argument).Framed := by
  refine framed_requireArgument (.lit rfl) ?_
  split
  · split
    · exact framed_answer (.lit rfl)
    · exact framed_answer (.lit rfl)
  · exact framed_answer (.lit rfl)

theorem framed_handlePasv (o : Outcomes) (session : SessionState) (fs : Storage) :
    (handlePasv o session fs).Framed := by
  have hcomma : OneLine "," := by decide
  rw [handlePasv]
  split
  · exact framed_answer (.lit rfl)
  · rename_i port _
    have hlocal := oneLine_localAddress o.localAddress
    have hhigh : OneLine (toString (port >>> 8)) := oneLine_toString _
    have hlow : OneLine (toString (port &&& 0xFF)) := oneLine_toString _
    have hstart : LineStart "227 Entering Passive Mode (" := .lit rfl
    exact framed_answer
      (.close (((((hstart.append hlocal).append hcomma).append hhigh).append hcomma).append hlow) rfl)

theorem framed_handleStat (session : SessionState) (fs : Storage) (argument : String) :
    (handleStat session fs argument).Framed := by
  by_cases hargument : argument = ""
  · subst hargument
    exact isReply_serverStatus session fs
  · cases hget : session.pathManager.getStatus fs argument with
    | some status => exact isReply_stat hget
    | none =>
      rw [handleStat, if_neg hargument, hget]
      exact framed_answer (.lit rfl)

theorem framed_handleHelp (session : SessionState) (fs : Storage) {argument : String}
    (h : OneLine argument) : (handleHelp session fs argument).Framed := by
  by_cases hargument : argument = ""
  · subst hargument
    exact isReply_help session fs
  · rw [handleHelp, if_neg hargument]
    dsimp only
    split
    · exact framed_answer (.close (.append (.lit rfl) (oneLine_usage _)) rfl)
    · exact framed_answer (.close (.append (.lit rfl) (oneLine_toUpper h)) rfl)

theorem framed_handleHash (o : Outcomes) (session : SessionState) (fs : Storage)
    (argument : String) : (handleHash o session fs argument).Framed := by
  refine framed_requireArgument (.lit rfl) ?_
  split
  · exact framed_answer (.lit rfl)
  · split
    · exact framed_answer (.lit rfl)
    · dsimp only
      split
      · exact framed_answer (.lit rfl)
      · exact framed_answer
          (.close (.append (.lit rfl) (oneLine_computeSHA256FromFile o.SHA256 fs o.readable _)) rfl)

theorem framed_handleRnto (session : SessionState) (fs : Storage) (argument : String) :
    (handleRnto session fs argument).Framed := by
  refine framed_requireArgument (.lit rfl) ?_
  split
  · exact framed_answer (.lit rfl)
  · dsimp only
    split_ifs
    · exact framed_answer (.lit rfl)
    · exact framed_answer (.lit rfl)

theorem framed_execute (o : Outcomes) (session : SessionState) (fs : Storage) {argument : String}
    (h : OneLine argument) {verb? : Option Verb}
    (hpwd : verb? = some .PWD → OneLine (session.pathManager.getCurrentFTPPath fs)) :
    (execute o session fs argument verb?).Framed := by
  have hline : ∀ {reply}, IsLine reply → Final reply → IsReply reply := fun h _ => h.isReply
  -- A case for each branch of `execute`, in its order.
  match verb? with
  | some .TYPE =>
    rw [execute, handleType]
    split_ifs
    all_goals exact framed_answer (.lit rfl)
  | some .MODE =>
    rw [execute, handleMode]
    split_ifs
    all_goals exact framed_answer (.lit rfl)
  | some .PORT => exact framed_handlePort session fs argument
  | some .PASV => exact framed_handlePasv o session fs
  | some .PWD =>
    exact framed_refuseArgument (by decide)
      (framed_answer (.close (.append (.lit rfl) (hpwd rfl)) rfl))
  | some .RMD => exact framed_changeStorage (.lit rfl) (.lit rfl) (.lit rfl) _
  | some .CWD =>
    exact framed_requireArgument (.lit rfl) (framed_changeCurrent (.lit rfl) (.lit rfl) _)
  | some .CDUP =>
    exact framed_refuseArgument (by decide) (framed_changeCurrent (.lit rfl) (.lit rfl) _)
  | some .MKD => exact framed_changeStorage (.lit rfl) (.lit rfl) (.lit rfl) _
  | some .LIST => exact each_sendListing hline o session fs (.lit rfl) (.lit rfl) _
  | some .NLST => exact each_sendListing hline o session fs (.lit rfl) (.lit rfl) _
  | some .STAT => exact framed_handleStat session fs argument
  | some .SIZE =>
    refine framed_requireArgument (.lit rfl) (framed_tell (.lit rfl) fun text htext => ?_)
    obtain ⟨size, _, rfl⟩ := Option.map_eq_some_iff.1 htext
    exact .close (.append (.lit rfl) (oneLine_toString size)) rfl
  | some .MDTM =>
    refine framed_requireArgument (.lit rfl) (framed_tell (.lit rfl) fun text htext => ?_)
    obtain ⟨time, htime, rfl⟩ := Option.map_eq_some_iff.1 htext
    obtain ⟨data, _, rfl⟩ := Option.map_eq_some_iff.1 htime
    exact .close (.append (.lit rfl) (oneLine_putTime _)) rfl
  | some .HELP => exact framed_handleHelp session fs h
  | some .DELE => exact framed_changeStorage (.lit rfl) (.lit rfl) (.lit rfl) _
  | some .RNFR =>
    refine framed_requireArgument (.lit rfl) ?_
    split
    · exact framed_answer (.lit rfl)
    · exact framed_answer (.lit rfl)
  | some .RNTO => exact framed_handleRnto session fs argument
  | some .RETR => exact each_handleRetr hline o session fs argument (.lit rfl)
  | some .STOR =>
    exact each_requireArgument (.lit rfl)
      (each_receiveFileOverDataChannel hline o session fs _ _ _ (.lit rfl))
  | some .STOU =>
    refine each_after (List.forall_mem_singleton.2 ?_)
      (each_receiveFileOverDataChannel hline o session fs _ _ _ (.lit rfl))
    exact (isLine_uniqueName session fs h).isReply
  | some .APPE =>
    exact each_requireArgument (.lit rfl)
      (each_receiveFileOverDataChannel hline o session fs _ _ _ (.lit rfl))
  | some .HASH => exact framed_handleHash o session fs argument
  | some .ABOR => exact each_abortTransfer hline session.reset fs
  | some .USER | some .PASS | some .QUIT | some .NOOP | none => exact framed_answer (.lit rfl)

theorem framed_dispatch (o : Outcomes) (session : SessionState) (fs : Storage) {argument : String}
    (h : OneLine argument) {verb? : Option Verb}
    (hpwd : verb? = some .PWD → OneLine (session.pathManager.getCurrentFTPPath fs)) :
    (dispatch o session fs argument verb?).Framed := by
  rw [dispatch.eq_def]
  split
  · exact framed_refuseArgument (by decide) (List.forall_mem_singleton.2 (.lit rfl))
  · exact framed_refuseArgument (by decide) (framed_answer (.lit rfl))
  · exact framed_requireArgument (.lit rfl) (framed_answer (.lit rfl))
  · refine framed_requireArgument (.lit rfl) ?_
    split
    · exact framed_answer (.lit rfl)
    · exact framed_answer (.lit rfl)
  · split
    · exact framed_answer (.lit rfl)
    · exact framed_execute o session fs h hpwd

/-- Whatever the line is, and whatever the system answers. A path is told as it is. -/
theorem framed_handleCommand (o : Outcomes) (session : SessionState) (fs : Storage) {line : String}
    (h : OneLine line) (hpwd : lineVerb line = some .PWD →
      OneLine (session.pathManager.getCurrentFTPPath fs)) :
    (handleCommand o session fs line).Framed := by
  have hpm : (session.given line).pathManager = session.pathManager := by
    rcases given_eq session line with heq | heq <;> rw [heq]
  rw [handleCommand_eq]
  split
  · refine framed_dispatch o _ fs (oneLine_argument h) fun hverb => ?_
    rw [hpm]
    exact hpwd hverb
  · exact framed_answer (.lit rfl)

/-! ## Whole sessions -/

/-- What the client reads of the next replies, and what follows. -/
def recvReplies : Nat → List Char → List String × List Char
  | 0, stream => ([], stream)
  | n + 1, stream =>
    let (reply, rest) := recvReply stream
    let (replies, rest) := recvReplies n rest
    (reply :: replies, rest)

/-- Replies are read as they have been sent, one by one. -/
theorem recvReplies_wire (rs : List Reply) (rest : List Char) :
    recvReplies rs.length (rs.flatMap Reply.wire ++ rest) = (rs.map Reply.text, rest) := by
  induction rs with
  | nil => rfl
  | cons r rs ih =>
    rw [List.flatMap_cons, List.append_assoc, List.length_cons, recvReplies, recvReply_wire]
    dsimp only
    rw [ih]
    rfl

/-- What a session has sent, after the reply to the connection. -/
def sentReplies (history : List Handled) : List String :=
  "220 Hybrid FTP service ready.\r\n" :: history.reverse.flatMap fun p => p.turn.replies

theorem exists_replies {texts : List String} (h : ∀ text ∈ texts, IsReply text) :
    ∃ rs : List Reply, texts = rs.map fun r => String.ofList r.wire := by
  induction texts with
  | nil => exact ⟨[], rfl⟩
  | cons text texts ih =>
    rw [List.forall_mem_cons] at h
    obtain ⟨r, rfl⟩ := h.1
    obtain ⟨rs, rfl⟩ := ih h.2
    exact ⟨r :: rs, rfl⟩

/-- A line is within one line, and if it asks for the path of the current directory, so is
    that. -/
def Serving.Plain (s : Serving) : ServingEvent → Prop
  | .command line _ => OneLine line ∧ (lineVerb line = some .PWD →
      OneLine (s.session.pathManager.getCurrentFTPPath s.fs))
  | .others _ => True

instance (s : Serving) : DecidablePred s.Plain
  | .command line _ => inferInstanceAs (Decidable (OneLine line ∧ (lineVerb line = some .PWD →
      OneLine (s.session.pathManager.getCurrentFTPPath s.fs))))
  | .others _ => inferInstanceAs (Decidable True)

theorem isReply_of_mem_sentReplies {s : Serving} {history : List Handled}
    (h : recorded.ReachableBy (fun s e => s.1.Plain e) (s, history)) :
    ∀ text ∈ sentReplies history, IsReply text := by
  refine h.invariant (I := fun s => ∀ text ∈ sentReplies s.2, IsReply text) ?_ ?_
  · rintro ⟨s, history⟩ ⟨_, rfl⟩
    exact List.forall_mem_singleton.2 (.lit rfl)
  · rintro ⟨s, history⟩ e s' hI hplain hstep
    obtain ⟨t, ht, rfl⟩ := Option.map_eq_some_iff.1 hstep
    cases e with
    | command line o =>
      have hturn := framed_handleCommand o s.session s.fs hplain.1 hplain.2
      intro text htext
      rw [sentReplies, List.reverse_append, List.flatMap_append] at htext
      rcases List.mem_cons.1 htext with rfl | htext
      · exact hI _ List.mem_cons_self
      · rcases List.mem_append.1 htext with htext | htext
        · exact hI _ (List.mem_cons_of_mem _ htext)
        · exact hturn text (by simpa [Handled.turn, Serving.turn] using htext)
    | others fs => exact hI

/-- The client reads all that a session has sent, one reply after the other, each as it
    has been sent: however many commands there are, whatever they ask for and whatever
    names there are in the file system. -/
theorem replies_read {s : Serving} {history : List Handled}
    (h : recorded.ReachableBy (fun s e => s.1.Plain e) (s, history)) :
    ∃ rs : List Reply, sentReplies history = rs.map (fun r => String.ofList r.wire) ∧
      ∀ rest, recvReplies (sentReplies history).length
        ((sentReplies history).flatMap String.toList ++ rest) = (rs.map Reply.text, rest) := by
  obtain ⟨rs, hrs⟩ := exists_replies (isReply_of_mem_sentReplies h)
  refine ⟨rs, hrs, fun rest => ?_⟩
  have hstream : (sentReplies history).flatMap String.toList = rs.flatMap Reply.wire := by
    rw [hrs, List.flatMap_map]
    simp
  rw [hstream, hrs, List.length_map]
  exact recvReplies_wire rs rest

theorem repliesStorage_isDir : (Serving.start ["srv"] repliesStorage).fs.IsDir
    (Serving.start ["srv"] repliesStorage).session.pathManager.rootDirectory := by decide +kernel

/-- A session in the directory with files whose names look like the end of a reply. -/
def repliesCommands : List ServingEvent :=
  [.command "USER alice" {}, .command "PASS secret" {}, .command "STAT ." {}, .command "PWD" {},
    .command "NLST" {}, .command "STOU 230 ok" {}]

theorem replies_read_names : ∃ s history,
    recorded.ReachableBy (fun s e => s.1.Plain e) (s, history) ∧ (sentReplies history).length = 8 ∧
      ∃ rs : List Reply, sentReplies history = rs.map (fun r => String.ofList r.wire) ∧
        ∀ rest, recvReplies (sentReplies history).length
          ((sentReplies history).flatMap String.toList ++ rest) = (rs.map Reply.text, rest) := by
  have hstart : ∀ s ∈ some (Serving.start ["srv"] repliesStorage, []), s ∈ recorded.init := by
    intro s hs
    cases hs
    exact ⟨start_mem_init repliesStorage_isDir, rfl⟩
  obtain ⟨⟨s, history⟩, hs, hlength⟩ := recorded.exists_reachableBy_of_run (fun s e => s.1.Plain e)
    hstart repliesCommands (fun s => (sentReplies s.2).length = 8) (by decide +kernel)
  exact ⟨s, history, hs, of_decide_eq_true hlength, replies_read hs⟩

end HybridFtp
