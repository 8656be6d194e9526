import HybridFtp.Client.Dialogue

/-!
# The representation of data

The transfer type and mode, on both sides. The client sets what the first two words of a
line say, if the reply to it is a success; the server what it reads as a name and an
argument.

* `setting?`: the setting that a name and an argument stand for;
* `Dialogue.Agrees`: both sides have the same type and mode;
* `lineVerb_of_clientSetting`: what the client sets, the server reads as the same setting,
  or not as one;
* `agrees`: both sides agree as long as a setting that the server reads in a line is there
  in its words, too (`Dialogue.SpelledOut`), and not any longer;
* `not_agrees`: a carriage return in a name is enough.
-/

namespace HybridFtp

open Elements

/-- What `TYPE` and `MODE` set. -/
inductive Setting
  | type (transferType : TransferType)
  | mode (transferMode : TransferMode)
  deriving DecidableEq, Repr

/-- The setting of a name and an argument in upper case. -/
def setting? (name argument : String) : Option Setting :=
  match name, argument with
  | "MODE", "S" => some (.mode .Stream)
  | "MODE", "B" => some (.mode .Block)
  | "MODE", "C" => some (.mode .Compressed)
  | "TYPE", "A" => some (.type .ASCII)
  | "TYPE", "I" => some (.type .Binary)
  | _, _ => none

/-- The setting of the words of a line. -/
def clientSetting (line : String) : Option Setting :=
  let accepted := (words line.toList).map fun word => CommandParser.toUpper (String.ofList word)
  setting? (accepted.getD 0 "") (accepted.getD 1 "")

/-- The setting of the command of a line. -/
def serverSetting (line : String) : Option Setting :=
  setting? (CommandParser.parse line).name (CommandParser.toUpper (CommandParser.parse line).argument)

namespace Setting

/-- What the client remembers of an accepted setting. -/
def applyClient (cli : ClientCLI) : Setting → ClientCLI
  | type transferType => { cli with transferType }
  | mode transferMode => { cli with transferMode }

/-- What the session does. -/
def applyServer (session : SessionState) : Setting → SessionState
  | type transferType => { session with transferType }
  | mode transferMode => { session with transferMode }

/-- The client has the setting. -/
def InForce (cli : ClientCLI) : Setting → Prop
  | type transferType => cli.transferType = transferType
  | mode transferMode => cli.transferMode = transferMode

end Setting

/-- Both sides have the same transfer type and mode. -/
structure Dialogue.Agrees (d : Dialogue) : Prop where
  transferType : d.cli.transferType = d.server.session.transferType
  transferMode : d.cli.transferMode = d.server.session.transferMode

/-- A setting that the server would accept is the one of the words of the line, or is in
    force. -/
def Dialogue.SpelledOut (d : Dialogue) : DialogueEvent → Prop
  | .prompt line _ _ =>
    d.server.session.loginState = .LoggedIn →
      ∀ first ∈ readLines (CommandParser.trim line), ∀ setting ∈ serverSetting first,
        clientSetting (CommandParser.trim line) = some setting ∨ setting.InForce d.cli
  | .others _ => True

/-! ## Settings -/

theorem applyAccepted_eq (cli : ClientCLI) (line : String) :
    cli.applyAccepted line = ((clientSetting line).map (·.applyClient cli)).getD cli := by
  rw [ClientCLI.applyAccepted, clientSetting]
  generalize ((words line.toList).map _).getD 0 "" = name
  generalize ((words line.toList).map _).getD 1 "" = argument
  rw [setting?.eq_def]
  split
  · rfl
  · rfl
  · rfl
  · rfl
  · rfl
  · simp_all

theorem setting?_spec {name argument : String} {setting : Setting}
    (h : setting? name argument = some setting) :
    (name = "TYPE" ∨ name = "MODE") ∧ ∃ c, argument.toList = [c] ∧ c ≠ Char.ofNat 0 := by
  rw [setting?.eq_def] at h
  split at h
  · exact ⟨.inr rfl, 'S', rfl, by decide⟩
  · exact ⟨.inr rfl, 'B', rfl, by decide⟩
  · exact ⟨.inr rfl, 'C', rfl, by decide⟩
  · exact ⟨.inl rfl, 'A', rfl, by decide⟩
  · exact ⟨.inl rfl, 'I', rfl, by decide⟩
  · cases h

/-- A character is its own upper case, or 32 more than that. -/
theorem eq_or_val_eq_of_toUpper {c u : Char} (h : c.toUpper = u) : c = u ∨ c.val = u.val + 32 := by
  delta Char.toUpper at h
  split at h
  · right
    rw [← h]
    show c.val = c.val + ('A'.val - 'a'.val) + 32
    rw [UInt32.add_assoc]
    show c.val = c.val + 0
    rw [UInt32.add_zero]
  · exact .inl h

theorem toUpper_eq_singleton {text : String} {u : Char}
    (h : CommandParser.toUpper text = String.ofList [u]) :
    ∃ c, text = String.ofList [c] ∧ (c = u ∨ c.val = u.val + 32) := by
  have hlist := congrArg String.toList h
  rw [CommandParser.toUpper, String.toList_ofList, String.toList_ofList, List.map_eq_singleton_iff]
    at hlist
  obtain ⟨c, hc, hupper⟩ := hlist
  refine ⟨c, ?_, eq_or_val_eq_of_toUpper hupper⟩
  rw [← hc, String.ofList_toList]

/-- An argument in upper case is one of the two letters. -/
theorem toUpper_eq_iff (text : String) {upper lower : String} {u l : Char} (hu : upper = String.ofList [u])
    (hl : lower = String.ofList [l]) (hlower : l.toUpper = u) (hupper : u.toUpper = u)
    (hval : l.val = u.val + 32) : CommandParser.toUpper text = upper ↔ text = upper ∨ text = lower := by
  subst hu hl
  constructor
  · intro h
    obtain ⟨c, rfl, hc⟩ := toUpper_eq_singleton h
    rcases hc with rfl | hc
    · exact .inl rfl
    · have hcl : c = l := Char.ext (hc.trans hval.symm)
      exact .inr (by rw [hcl])
  · rintro (rfl | rfl)
    · rw [CommandParser.toUpper, String.toList_ofList, List.map_singleton, hupper]
    · rw [CommandParser.toUpper, String.toList_ofList, List.map_singleton, hlower]

theorem setting?_type (argument : String) :
    setting? "TYPE" (CommandParser.toUpper argument) =
      if argument = "A" ∨ argument = "a" then some (.type .ASCII)
      else if argument = "I" ∨ argument = "i" then some (.type .Binary)
      else none := by
  have hA := toUpper_eq_iff argument (u := 'A') (l := 'a') rfl rfl
    (by decide) (by decide) (by decide)
  have hI := toUpper_eq_iff argument (u := 'I') (l := 'i') rfl rfl
    (by decide) (by decide) (by decide)
  simp only [← hA, ← hI]
  generalize CommandParser.toUpper argument = argument
  split_ifs with hascii hbinary
  · rw [hascii]
    rfl
  · rw [hbinary]
    rfl
  · rw [setting?.eq_def]
    split <;> simp_all

theorem setting?_mode (argument : String) :
    setting? "MODE" (CommandParser.toUpper argument) =
      if argument = "S" ∨ argument = "s" then some (.mode .Stream)
      else if argument = "B" ∨ argument = "b" then some (.mode .Block)
      else if argument = "C" ∨ argument = "c" then some (.mode .Compressed)
      else none := by
  have hS := toUpper_eq_iff argument (u := 'S') (l := 's') rfl rfl
    (by decide) (by decide) (by decide)
  have hB := toUpper_eq_iff argument (u := 'B') (l := 'b') rfl rfl
    (by decide) (by decide) (by decide)
  have hC := toUpper_eq_iff argument (u := 'C') (l := 'c') rfl rfl
    (by decide) (by decide) (by decide)
  simp only [← hS, ← hB, ← hC]
  generalize CommandParser.toUpper argument = argument
  split_ifs with hstream hblock hcompressed
  · rw [hstream]
    rfl
  · rw [hblock]
    rfl
  · rw [hcompressed]
    rfl
  · rw [setting?.eq_def]
    split <;> simp_all

/-! ## The server -/

/-- A line sets what it says, with a success, or nothing, without. -/
def Sets (session : SessionState) (setting : Option Setting) (turn : Turn) : Prop :=
  match setting with
  | some setting =>
    turn.session = setting.applyServer session ∧ hasCode turn.firstReply "200" = true
  | none => turn.session = session ∧ hasCode turn.firstReply "200" = false

section

variable {session : SessionState} {fs : Storage} {line : String}

theorem sets_answer_some {setting : Setting} {reply : String}
    (h : hasCode (recvReply reply.toList).1 "200" = true) :
    Sets session (some setting) (answer (setting.applyServer session) fs reply) :=
  ⟨rfl, h⟩

theorem sets_answer_none {reply : String} (h : hasCode (recvReply reply.toList).1 "200" = false) :
    Sets session none (answer session fs reply) :=
  ⟨rfl, h⟩

theorem sets_handleType (session : SessionState) (fs : Storage) (argument : String) :
    Sets session (setting? "TYPE" (CommandParser.toUpper argument))
      (handleType session fs argument) := by
  rw [setting?_type, handleType]
  split_ifs
  · exact sets_answer_some (by decide +kernel)
  · exact sets_answer_some (by decide +kernel)
  · exact sets_answer_none (by decide +kernel)

theorem sets_handleMode (session : SessionState) (fs : Storage) (argument : String) :
    Sets session (setting? "MODE" (CommandParser.toUpper argument))
      (handleMode session fs argument) := by
  rw [setting?_mode, handleMode]
  split_ifs
  · exact sets_answer_some (by decide +kernel)
  · exact sets_answer_some (by decide +kernel)
  · exact sets_answer_some (by decide +kernel)
  · exact sets_answer_none (by decide +kernel)

/-- A line with a setting is one of the two commands. -/
theorem lineVerb_of_serverSetting {setting : Setting} (h : serverSetting line = some setting) :
    lineVerb line = some .TYPE ∨ lineVerb line = some .MODE := by
  obtain ⟨hname, _⟩ := setting?_spec h
  have hne : (CommandParser.parse line).name ≠ "" := by
    rcases hname with hname | hname
    · rw [hname]
      decide
    · rw [hname]
      decide
  rw [lineVerb, if_pos (CommandParser.valid_of_name hne)]
  rcases hname with hname | hname
  · exact .inl (by rw [hname]; rfl)
  · exact .inr (by rw [hname]; rfl)

theorem serverSetting_of_lineVerb_none (h : lineVerb line = none) : serverSetting line = none := by
  by_contra hne
  obtain ⟨setting, heq⟩ := Option.ne_none_iff_exists'.1 hne
  rcases lineVerb_of_serverSetting heq with hverb | hverb
  · rw [h] at hverb
    cases hverb
  · rw [h] at hverb
    cases hverb

theorem name_of_type {name : String} (h : (name, .TYPE) ∈ Verb.table) : name = "TYPE" := by
  simpa [Verb.table] using h

theorem name_of_mode {name : String} (h : (name, .MODE) ∈ Verb.table) : name = "MODE" := by
  simpa [Verb.table] using h

/-- `TYPE` and `MODE` behind the login, and lines that are no commands. -/
theorem sets_handleCommand (o : Outcomes) (session : SessionState) (fs : Storage)
    (h : lineVerb line = none ∨ lineVerb line = some .TYPE ∨ lineVerb line = some .MODE) :
    Sets { session with renameFrom := none }
      (if session.loginState = .LoggedIn then serverSetting line else none)
      (handleCommand o session fs line) := by
  have hgiven : session.given line = { session with renameFrom := none } :=
    given_of_ne session (by rcases h with h | h | h <;> simp [h])
  have hdispatch : dispatch o { session with renameFrom := none } fs
      (CommandParser.parse line).argument (lineVerb line) =
        if session.loginState ≠ .LoggedIn then
          answer { session with renameFrom := none } fs "530 Not logged in.\r\n"
        else execute o { session with renameFrom := none } fs
          (CommandParser.parse line).argument (lineVerb line) := by
    refine dispatch_of_ne o _ fs _ ?_ ?_ ?_ ?_ <;> (rcases h with h | h | h <;> simp [h])
  rw [handleCommand_eq, hgiven, hdispatch]
  generalize { session with renameFrom := none } = session'
  by_cases hlogin : session.loginState = .LoggedIn
  · rw [if_pos hlogin, if_neg (not_not.2 hlogin)]
    rcases h with h | h | h
    · rw [serverSetting_of_lineVerb_none h, h]
      split
      · exact sets_answer_none (by decide +kernel)
      · exact sets_answer_none (by decide +kernel)
    · obtain ⟨hvalid, hmem⟩ := lineVerb_spec h
      rw [if_pos hvalid, serverSetting, h, name_of_type hmem]
      exact sets_handleType ..
    · obtain ⟨hvalid, hmem⟩ := lineVerb_spec h
      rw [if_pos hvalid, serverSetting, h, name_of_mode hmem]
      exact sets_handleMode ..
  · rw [if_neg hlogin, if_pos hlogin]
    split
    · exact sets_answer_none (by decide +kernel)
    · exact sets_answer_none (by decide +kernel)

/-- Other commands set nothing. -/
theorem handleCommand_representation (o : Outcomes) (session : SessionState) (fs : Storage)
    (line : String)
    (htype : lineVerb line ≠ some .TYPE) (hmode : lineVerb line ≠ some .MODE) :
    (handleCommand o session fs line).session.transferType = session.transferType ∧
      (handleCommand o session fs line).session.transferMode = session.transferMode := by
  have hgiven : (session.given line).transferType = session.transferType ∧
      (session.given line).transferMode = session.transferMode := by
    rcases given_eq session line with h | h
    · rw [h]
      exact ⟨rfl, rfl⟩
    · rw [h]
      exact ⟨rfl, rfl⟩
  rw [← hgiven.1, ← hgiven.2]
  have hstep := (step_handleCommand o session fs line).1
  generalize lineVerb line = verb? at hstep htype hmode
  generalize (handleCommand o session fs line).session = session' at hstep ⊢
  clear hgiven
  generalize session.given line = given at hstep ⊢
  cases hstep with
  | type => exact absurd rfl htype
  | mode => exact absurd rfl hmode
  | _ => exact ⟨rfl, rfl⟩

/-! ## Both -/

theorem clientSetting_spec {setting : Setting} (h : clientSetting line = some setting) :
    ∃ w₀ w₁ ws, words line.toList = w₀ :: w₁ :: ws ∧
      setting? (CommandParser.toUpper (String.ofList w₀))
        (CommandParser.toUpper (String.ofList w₁)) = some setting := by
  rw [clientSetting] at h
  match hwords : words line.toList with
  | [] =>
    rw [hwords] at h
    cases h
  | [w] =>
    rw [hwords] at h
    obtain ⟨_, c, hc, _⟩ := setting?_spec h
    cases hc
  | w₀ :: w₁ :: ws =>
    rw [hwords] at h
    exact ⟨w₀, w₁, ws, rfl, h⟩

/-- The two words are those of the setting, but for their letter case. -/
theorem words_of_setting? {w₀ w₁ : List Char} {setting : Setting}
    (h : setting? (CommandParser.toUpper (String.ofList w₀))
      (CommandParser.toUpper (String.ofList w₁)) = some setting) :
    (w₀.length = 4 ∧ ∀ c ∈ w₀, c ≠ Char.ofNat 0) ∧ w₁.length = 1 ∧ ∀ c ∈ w₁, c ≠ Char.ofNat 0 := by
  obtain ⟨hname, c, hc, hnul⟩ := setting?_spec h
  have hlength : ∀ w : List Char, (CommandParser.toUpper (String.ofList w)).toList.length = w.length := by
    intro w
    rw [CommandParser.length_toUpper, String.toList_ofList]
  refine ⟨⟨?_, CommandParser.ne_nul_of_toUpper ?_⟩, ?_, CommandParser.ne_nul_of_toUpper ?_⟩
  · rw [← hlength]
    rcases hname with hname | hname
    · rw [hname]
      rfl
    · rw [hname]
      rfl
  · rcases hname with hname | hname
    · rw [hname]
      decide
    · rw [hname]
      decide
  · rw [← hlength, hc]
    rfl
  · rw [hc]
    simpa using hnul

/-- The name of a command is not longer than the first word of four characters: the server
    takes it for the name, and what follows for the argument. -/
theorem parse_of_words {first : String} {w₀ u : List Char} {ws : List (List Char)}
    (hlength : w₀.length = 4) (hu : u ≠ [])
    (hread : words first.toList = (w₀ ++ u) :: ws ∨ words first.toList = w₀ :: u :: ws)
    {verb : Verb} (hverb : lineVerb first = some verb) :
    (CommandParser.parse first).name = CommandParser.toUpper (String.ofList w₀) ∧
      words (CommandParser.parse first).argument.toList = u :: ws := by
  have htable : ∀ e ∈ Verb.table, e.1.toList.length ≤ 4 ∧ ∀ c ∈ e.1.toList, isSpace c = false := by
    decide
  obtain ⟨hvalid, hmem⟩ := lineVerb_spec hverb
  obtain ⟨hshort, hspace⟩ := htable _ hmem
  obtain ⟨w, hw, _, hwords⟩ := CommandParser.words_of_parse hvalid hspace
  rcases hread with hread | hread
  · rw [hread] at hwords
    obtain ⟨rfl, _⟩ := List.cons.inj hwords
    rw [hw, CommandParser.length_toUpper, String.toList_ofList, List.length_append] at hshort
    have hpos := List.length_pos_of_ne_nil hu
    omega
  · rw [hread] at hwords
    obtain ⟨rfl, hargument⟩ := List.cons.inj hwords
    exact ⟨hw, hargument.symm⟩

/-- What the words of a line set, the server does not read as anything else. -/
theorem lineVerb_of_clientSetting {setting : Setting} (h : clientSetting line = some setting) :
    (lineVerb (String.ofList (readText line.toList)) = none ∨
        lineVerb (String.ofList (readText line.toList)) = some .TYPE ∨
        lineVerb (String.ofList (readText line.toList)) = some .MODE) ∧
      ∀ setting', serverSetting (String.ofList (readText line.toList)) = some setting' →
        setting' = setting := by
  obtain ⟨w₀, w₁, ws, hwords, hsetting⟩ := clientSetting_spec h
  obtain ⟨⟨hlength₀, h₀⟩, hlength₁, h₁⟩ := words_of_setting? hsetting
  obtain ⟨u, ws', hread⟩ := words_readText hwords h₀ h₁
  generalize hfirst : String.ofList (readText line.toList) = first
  have hread' : words first.toList = (w₀ ++ (w₁ ++ u)) :: ws' ∨
      words first.toList = w₀ :: (w₁ ++ u) :: ws' := by
    rw [← hfirst, String.toList_ofList, ← List.append_assoc]
    exact hread
  have hne : w₁ ++ u ≠ [] := by
    intro hnil
    rw [(List.append_eq_nil_iff.1 hnil).1] at hlength₁
    cases hlength₁
  constructor
  · cases hverb : lineVerb first with
    | none => exact .inl rfl
    | some verb =>
      obtain ⟨hw, _⟩ := parse_of_words hlength₀ hne hread' hverb
      obtain ⟨_, hmem⟩ := lineVerb_spec hverb
      rw [hw] at hmem
      rcases (setting?_spec hsetting).1 with h | h
      · rw [h] at hmem
        right; left
        simpa [Verb.table] using hmem
      · rw [h] at hmem
        right; right
        simpa [Verb.table] using hmem
  · intro setting' hsetting'
    have hverb : ∃ verb, lineVerb first = some verb := by
      rcases lineVerb_of_serverSetting hsetting' with h | h
      · exact ⟨_, h⟩
      · exact ⟨_, h⟩
    obtain ⟨verb, hverb⟩ := hverb
    obtain ⟨hw, hargument⟩ := parse_of_words hlength₀ hne hread' hverb
    rw [serverSetting] at hsetting'
    obtain ⟨_, d, hd, _⟩ := setting?_spec hsetting'
    have hlength : (CommandParser.parse first).argument.toList.length = 1 := by
      rw [← CommandParser.length_toUpper, hd]
      rfl
    -- There is room for the second word only.
    obtain ⟨s, rest, heq, _⟩ := exists_of_words hargument
    rw [heq] at hlength
    simp only [List.length_append] at hlength
    have hs : s = [] := List.eq_nil_of_length_eq_zero (by omega)
    have hu : u = [] := List.eq_nil_of_length_eq_zero (by omega)
    have hrest : rest = [] := List.eq_nil_of_length_eq_zero (by omega)
    rw [hs, hu, hrest, List.nil_append, List.append_nil, List.append_nil] at heq
    rw [hw, ← String.ofList_toList (s := (CommandParser.parse first).argument), heq, hsetting] at hsetting'
    exact (Option.some.inj hsetting').symm

/-- What the reply sets, if it is a success. -/
theorem applyReply_representation (cli : ClientCLI) (line reply : String) :
    (cli.applyReply line reply).transferType =
        (if hasCode reply "200" then ((clientSetting line).map (·.applyClient cli)).getD cli
          else cli).transferType ∧
      (cli.applyReply line reply).transferMode =
        (if hasCode reply "200" then ((clientSetting line).map (·.applyClient cli)).getD cli
          else cli).transferMode := by
  rw [ClientCLI.applyReply]
  simp only [applyAccepted_eq]
  cases clientSetting line with
  | none => split_ifs <;> exact ⟨rfl, rfl⟩
  | some setting => cases setting <;> split_ifs <;> exact ⟨rfl, rfl⟩

end

/-! ## Steps -/

/-- The two agree after a command if and only if they set the same. -/
theorem agrees_other_iff {cli : ClientCLI} {session : SessionState} {line first : String}
    (hfirst : first = String.ofList (readText line.toList))
    (htype : cli.transferType = session.transferType)
    (hmode : cli.transferMode = session.transferMode) (o : Outcomes) (fs : Storage) :
    (cli.applyReply line (handleCommand o session fs first).firstReply).transferType =
        (handleCommand o session fs first).session.transferType ∧
      (cli.applyReply line (handleCommand o session fs first).firstReply).transferMode =
        (handleCommand o session fs first).session.transferMode ↔
      (session.loginState = .LoggedIn → ∀ setting ∈ serverSetting first,
        clientSetting line = some setting ∨ setting.InForce cli) := by
  obtain ⟨htype', hmode'⟩ :=
    applyReply_representation cli line (handleCommand o session fs first).firstReply
  rw [htype', hmode']
  by_cases hverb : lineVerb first = none ∨ lineVerb first = some .TYPE ∨ lineVerb first = some .MODE
  · have hsets := sets_handleCommand o session fs hverb
    cases hsetting : (if session.loginState = .LoggedIn then serverSetting first else none) with
    | none =>
      rw [hsetting] at hsets
      obtain ⟨hsession, hcode⟩ := hsets
      rw [hsession, hcode]
      -- The server has read no setting, or is not logged in.
      refine iff_of_true ⟨htype, hmode⟩ fun hlogin setting hserver => ?_
      rw [if_pos hlogin] at hsetting
      rw [hsetting] at hserver
      cases hserver
    | some setting =>
      rw [hsetting] at hsets
      obtain ⟨hsession, hcode⟩ := hsets
      obtain ⟨hlogin, hserver⟩ := Option.ite_none_right_eq_some.1 hsetting
      rw [hsession, hcode, if_pos rfl, hserver]
      cases hclient : clientSetting line with
      | none =>
        -- Then it has to be in force already.
        simp only [Option.mem_some_iff, forall_eq', reduceCtorEq, false_or]
        cases setting with
        | type transferType => exact ⟨fun h _ => h.1, fun h => ⟨h hlogin, hmode⟩⟩
        | mode transferMode => exact ⟨fun h _ => h.2, fun h => ⟨htype, h hlogin⟩⟩
      | some setting' =>
        -- Then it is the same.
        obtain ⟨_, hread⟩ := lineVerb_of_clientSetting hclient
        obtain rfl := hread setting (hfirst ▸ hserver)
        refine iff_of_true ?_ fun _ setting' h => .inl h
        cases setting with
        | type transferType => exact ⟨rfl, hmode⟩
        | mode transferMode => exact ⟨htype, rfl⟩
  · -- Neither of the two sets anything.
    have hclient : clientSetting line = none := by
      by_contra hne
      obtain ⟨setting, hclient⟩ := Option.ne_none_iff_exists'.1 hne
      exact hverb (hfirst ▸ (lineVerb_of_clientSetting hclient).1)
    obtain ⟨htype', hmode'⟩ := handleCommand_representation o session fs first
      (fun h => hverb (.inr (.inl h))) fun h => hverb (.inr (.inr h))
    rw [hclient, htype', hmode']
    refine iff_of_true ?_ fun _ setting hserver => ?_
    · split
      · exact ⟨htype, hmode⟩
      · exact ⟨htype, hmode⟩
    · exact absurd (.inr (lineVerb_of_serverSetting hserver)) hverb

/-- Nothing is set by a line with a data channel of its own. -/
theorem spelledOut_of_ofWord {d : Dialogue} {line : String} {o : LineOutcomes} {os : List Outcomes}
    (hlength : line.toList.length < LINE_SIZE)
    (h : CommandParser.trim line ≠ "" → ClientCLI.PromptVerb.ofWord
      (ClientCLI.toUpperFirstWord (CommandParser.trim line)) ≠ .other) :
    d.SpelledOut (.prompt line o os) := by
  intro _ first hfirst setting hsetting
  by_cases hne : CommandParser.trim line = ""
  · rw [hne] at hfirst
    cases hfirst
  · rw [readLines_trim hlength hne] at hfirst
    obtain rfl := List.mem_singleton.1 hfirst
    have hmem := ClientCLI.mem_dataWords (h hne)
    rw [← (name_of_ofWord (h hne)).2] at hmem
    rcases (setting?_spec hsetting).1 with hname | hname
    · rw [hname] at hmem
      exact absurd hmem (by decide)
    · rw [hname] at hmem
      exact absurd hmem (by decide)

/-- Where the two agree, a line at the prompt keeps them so if and only if what it sets is
    spelled out. -/
theorem agrees_prompt_iff {d d' : Dialogue} {line : String} {o : LineOutcomes} {os : List Outcomes}
    (hd : d.Agrees) (h : dialogue.step (.prompt line o os) d = some d') :
    d'.Agrees ↔ d.SpelledOut (.prompt line o os) := by
  obtain ⟨hlength, hstep⟩ := dialogue_step h
  cases hstep with
  | nothing hword =>
    refine iff_of_true hd (spelledOut_of_ofWord hlength fun hne h => ?_)
    rw [(hword hne).1] at h
    cases h
  | transfer server os' hport hother hasks hserver hd' =>
    refine iff_of_true ?_ (spelledOut_of_ofWord hlength fun _ => hother)
    -- Neither the commands of a transfer nor a late `ABOR` set anything.
    have hkeeps : ∀ line, lineVerb line ≠ some .TYPE → lineVerb line ≠ some .MODE →
        ∀ (s : Serving) o, s.session.transferType = d.cli.transferType ∧
          s.session.transferMode = d.cli.transferMode →
        (s.after o line).session.transferType = d.cli.transferType ∧
          (s.after o line).session.transferMode = d.cli.transferMode := by
      rintro line htype hmode s o ⟨htype', hmode'⟩
      obtain ⟨htype, hmode⟩ := handleCommand_representation o s.session s.fs line htype hmode
      exact ⟨htype.trans htype', hmode.trans hmode'⟩
    obtain ⟨htype, hmode⟩ := asks_invariant (I := fun s =>
      s.session.transferType = d.cli.transferType ∧ s.session.transferMode = d.cli.transferMode)
      hasks hserver hd'
      (fun line hline => hkeeps line (hline.ne (by decide) (by decide))
        (hline.ne (by decide) (by decide)))
      (fun _ _ => hkeeps "ABOR" (by decide +kernel) (by decide +kernel))
      ⟨hd.transferType.symm, hd.transferMode.symm⟩
    exact ⟨hasks.transferType.trans htype.symm, hasks.transferMode.trans hmode.symm⟩
  | port port cli hne hword hsends hasks hcli hexchanges hserver =>
    have hverb : lineVerb (firstLine line) = some .PORT :=
      lineVerb_firstLine (e := ("PORT", .PORT)) (by decide) hword
    refine iff_of_true ?_ (spelledOut_of_ofWord hlength fun _ h => by rw [hword] at h; cases h)
    obtain ⟨htype, hmode⟩ := handleCommand_representation (os.headD {}) d.server.session d.server.fs
      (firstLine line) (by simp [hverb]) (by simp [hverb])
    have hsame : d'.cli.transferType = cli.transferType ∧ d'.cli.transferMode = cli.transferMode := by
      rw [hcli, ClientCLI.afterPort]
      split <;> exact ⟨rfl, rfl⟩
    constructor
    · rw [hsame.1, hasks.transferType, hd.transferType, hserver, after_session, htype]
    · rw [hsame.2, hasks.transferMode, hd.transferMode, hserver, after_session, hmode]
  | other cli hne hother hasks hcli hexchanges hserver =>
    have hfirst : firstLine line = String.ofList (readText (CommandParser.trim line).toList) := rfl
    have hiff := agrees_other_iff hfirst (hasks.transferType.trans hd.transferType)
      (hasks.transferMode.trans hd.transferMode) (os.headD {}) d.server.fs
    have hagrees : d'.Agrees ↔
        (cli.applyReply (CommandParser.trim line) (handleCommand (os.headD {}) d.server.session d.server.fs
          (firstLine line)).firstReply).transferType =
            (handleCommand (os.headD {}) d.server.session d.server.fs (firstLine line)).session.transferType ∧
        (cli.applyReply (CommandParser.trim line) (handleCommand (os.headD {}) d.server.session d.server.fs
          (firstLine line)).firstReply).transferMode =
            (handleCommand (os.headD {}) d.server.session d.server.fs (firstLine line)).session.transferMode := by
      rw [← after_session, ← hserver, ← Serving.turn, ← hcli.transferType, ← hcli.transferMode]
      exact ⟨fun h => ⟨h.transferType, h.transferMode⟩, fun h => ⟨h.1, h.2⟩⟩
    rw [hagrees, hiff, Dialogue.SpelledOut, readLines_trim hlength hne]
    refine imp_congr_right fun _ => ?_
    simp only [List.mem_singleton, forall_eq]
    refine forall_congr' fun setting => imp_congr_right fun _ => or_congr_right ?_
    cases setting with
    | type transferType => exact iff_of_eq (congrArg (· = transferType) hasks.transferType)
    | mode transferMode => exact iff_of_eq (congrArg (· = transferMode) hasks.transferMode)

theorem agrees_step_iff {d d' : Dialogue} {e : DialogueEvent} (hd : d.Agrees)
    (h : dialogue.step e d = some d') : d'.Agrees ↔ d.SpelledOut e := by
  match e, h with
  | .prompt line o os, h => exact agrees_prompt_iff hd h
  | .others fs, h =>
    simp only [dialogue, Option.ite_none_right_eq_some, Option.some.injEq] at h
    obtain ⟨_, rfl⟩ := h
    exact iff_of_true ⟨hd.transferType, hd.transferMode⟩ trivial

/-- The two sides agree on the representation of data as long as what is set is spelled
    out, and not any longer. -/
theorem agrees {d : Dialogue} (h : dialogue.ReachableBy Dialogue.SpelledOut d) :
    d.Agrees ∧ ∀ e d', dialogue.step e d = some d' → (d'.Agrees ↔ d.SpelledOut e) := by
  have hd : d.Agrees := by
    refine h.invariant ?_ fun d e d' hd hspelled hstep => (agrees_step_iff hd hstep).2 hspelled
    rintro d ⟨⟨serverHost, hcli⟩, _, _, _, _, hsession, _⟩
    have htype : d.server.session.transferType = .ASCII ∧ d.server.session.transferMode = .Stream := by
      rw [hsession]
      exact ⟨rfl, rfl⟩
    constructor
    · rw [hcli, htype.1]
    · rw [hcli, htype.2]
  exact ⟨hd, fun e d' hstep => agrees_step_iff hd hstep⟩

instance (setting : Setting) (cli : ClientCLI) : Decidable (setting.InForce cli) :=
  match setting with
  | .type transferType => inferInstanceAs (Decidable (cli.transferType = transferType))
  | .mode transferMode => inferInstanceAs (Decidable (cli.transferMode = transferMode))

instance (d : Dialogue) (e : DialogueEvent) : Decidable (d.SpelledOut e) :=
  match e with
  | .prompt line _ _ => inferInstanceAs (Decidable (d.server.session.loginState = .LoggedIn →
      ∀ first ∈ readLines (CommandParser.trim line), ∀ setting ∈ serverSetting first,
        clientSetting (CommandParser.trim line) = some setting ∨ setting.InForce d.cli))
  | .others _ => inferInstanceAs (Decidable True)

/-- The answer to a type that is set. -/
def typeBinary : Answer :=
  .single (.ofLine "200 Type set to I (Binary)." (by decide +kernel)) (by decide +kernel)

theorem agrees_binary : ∃ d : Dialogue, d.cli.transferType = .Binary ∧ d.Agrees := by
  obtain ⟨d, hd, htype⟩ := exists_dialogue_of_run Dialogue.SpelledOut
    (login ++ [typed " type  i " typeBinary]) (fun d => d.cli.transferType = .Binary)
    (by decide +kernel)
  exact ⟨d, of_decide_eq_true htype, (agrees hd).1⟩

/-- A carriage return in the name of a command hides it from the client only. -/
theorem not_agrees : ¬∀ d, dialogue.Reachable d → d.Agrees := by
  intro h
  obtain ⟨d, hd, htype⟩ := exists_dialogue_of_run (fun _ _ => True)
    (login ++ [typed "TY\rPE I" typeBinary])
    (fun d => d.cli.transferType = .ASCII ∧ d.server.session.transferType = .Binary)
    (by decide +kernel)
  obtain ⟨hcli, hserver⟩ := of_decide_eq_true htype
  have heq := (h d hd).transferType
  rw [hcli, hserver] at heq
  cases heq

end HybridFtp
