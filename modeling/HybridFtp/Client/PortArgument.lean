import HybridFtp.Client.PasvReply

/-!
# The argument of `PORT`

What the two sides take for an endpoint in the argument of a `PORT` command.

* `handlePort_scanned`, `parsePort_scanned`: what they do with six numbers at the start of
  the argument;
* `PlainArgument`: the numbers that are taken for bytes are written as such, with nothing
  around them, and with a port;
* `sameLanguage_iff`: the two sides accept the same arguments if and only if all of them
  are plain.
-/

namespace HybridFtp

open Elements

/-! ## Values -/

/-- The port of two bytes. -/
theorem toNat_bytePort {p1 p2 : UInt32} (h1 : p1 ≤ 255) (h2 : p2 ≤ 255) :
    ((p1 <<< 8) ||| p2).toUInt16.toNat = 256 * p1.toNat + p2.toNat := by
  rw [UInt32.le_iff_toNat_le] at h1 h2
  have hp1 : p1.toNat ≤ 255 := h1
  have hp2 : p2.toNat ≤ 255 := h2
  rw [UInt32.toNat_toUInt16, UInt32.toNat_or, UInt32.toNat_shiftLeft]
  show (p1.toNat <<< 8 % 2 ^ 32 ||| p2.toNat) % 2 ^ 16 = _
  have hlt : p1.toNat * 2 ^ 8 < 2 ^ 32 := by omega
  rw [Nat.shiftLeft_eq, Nat.mod_eq_of_lt hlt, Nat.mul_comm,
    ← Nat.two_pow_add_eq_or_of_lt (show p2.toNat < 2 ^ 8 by omega)]
  omega

namespace ScannedNumber

/-- Digits, as they are. -/
def ofDigits (digits : List Char) (h : IsNumber digits) : ScannedNumber where
  blanks := []
  sign := []
  digits
  isBlank := List.forall_mem_nil _
  isSign := .inl rfl
  isNumber := h

/-- The value of a byte. -/
theorem value_ofDigits {digits : List Char} (h : IsNumber digits) (hbyte : decimal digits ≤ 255) :
    (ofDigits digits h).value = UInt32.ofNat (decimal digits) ∧ (ofDigits digits h).value ≤ 255 ∧
      (ofDigits digits h).value.toNat = decimal digits := by
  have hvalue : (ofDigits digits h).value = UInt32.ofNat (decimal digits) := by
    rw [value]
    show UInt32.ofNat (if decimal digits ≥ 2 ^ 64 then _ else if [] = ['-'] then _ else _) = _
    rw [if_neg (by omega), if_neg (by decide)]
    rfl
  have htoNat : (UInt32.ofNat (decimal digits)).toNat = decimal digits := by
    rw [UInt32.toNat_ofNat']
    omega
  rw [hvalue, UInt32.le_iff_toNat_le, htoNat]
  exact ⟨rfl, hbyte, rfl⟩

end ScannedNumber

/-! ## Six numbers -/

namespace HostPort

variable (e : HostPort)

/-- The address, as the numbers are. -/
def dotted : String :=
  String.intercalate "." ([e.h1, e.h2, e.h3, e.h4].map fun n => toString (decimal n))

/-- The numbers, as they are scanned. -/
def scanned : List ScannedNumber :=
  e.numbers.pmap ScannedNumber.ofDigits e.isNumber_of_mem

theorem length_scanned : e.scanned.length = 6 := rfl

theorem scanned_text : Scanned e.scanned e.text [] :=
  ⟨(List.append_nil _).symm, fun _ h => by cases h⟩

/-- Plain numbers are digits and commas. -/
theorem exists_of_scanned {numbers : List ScannedNumber} (hlength : numbers.length = 6)
    (hplain : ∀ n ∈ numbers, n.Plain) {text : List Char} (h : Scanned numbers text []) :
    ∃ e : HostPort, e.numbers = numbers.map ScannedNumber.digits ∧ text = e.text := by
  have hnumber : ∀ n ∈ numbers.map ScannedNumber.digits, IsNumber n := by
    intro digits hdigits
    obtain ⟨n, _, rfl⟩ := List.mem_map.1 hdigits
    exact n.isNumber
  obtain ⟨e, he⟩ := exists_of_length (by rw [List.length_map, hlength]) hnumber
  refine ⟨e, he, ?_⟩
  rw [h.text_eq, List.append_nil, HostPort.text, he]
  refine congrArg _ (List.map_congr_left fun n hn => ?_)
  rw [ScannedNumber.spelling, (hplain n hn).1, (hplain n hn).2]
  rfl

end HostPort

/-! ## Both sides -/

/-- The comparisons of the code. -/
theorem not_bytes_iff {h1 h2 h3 h4 p1 p2 : UInt32} :
    h1 > 255 ∨ h2 > 255 ∨ h3 > 255 ∨ h4 > 255 ∨ p1 > 255 ∨ p2 > 255 ↔
      ¬∀ v ∈ [h1, h2, h3, h4, p1, p2], v ≤ 255 := by
  simp only [List.forall_mem_cons, not_and_or, UInt32.not_le, gt_iff_lt]
  simp

theorem exists_of_scanNumbers {text rest : List Char} {values : List UInt32}
    (h : scanNumbers 5 text = some (values, rest)) :
    ∃ h1 h2 h3 h4 p1 p2, values = [h1, h2, h3, h4, p1, p2] := by
  obtain ⟨numbers, hlength, _, rfl⟩ := scanNumbers_eq_some_iff.1 h
  exact exists_of_length_six (by rw [List.length_map, hlength])

section

variable (session : SessionState) (fs : Storage) {argument : String} {rest : List Char}
  {h1 h2 h3 h4 p1 p2 : UInt32}

/-- The server takes six numbers at the start of the argument. -/
theorem handlePort_scanned
    (h : scanNumbers 5 argument.toList = some ([h1, h2, h3, h4, p1, p2], rest)) :
    handlePort session fs argument =
      if ∀ v ∈ [h1, h2, h3, h4, p1, p2], v ≤ 255 then
        answer { session with
          activeIP := String.intercalate "." [toString h1, toString h2, toString h3, toString h4]
          activePort := ((p1 <<< 8) ||| p2).toUInt16
          dataMode := .ACTIVE
          passiveSocket := none } fs "200 PORT command successful.\r\n"
      else answer session fs "501 Invalid IP/port values.\r\n" := by
  have hne : argument ≠ "" := by
    rintro rfl
    cases h
  rw [handlePort, requireArgument, if_neg hne, h]
  dsimp only
  by_cases hbytes : ∀ v ∈ [h1, h2, h3, h4, p1, p2], v ≤ 255
  · rw [if_neg (by rwa [not_bytes_iff, not_not]), if_pos hbytes]
  · rw [if_pos (not_bytes_iff.2 hbytes), if_neg hbytes]

theorem handlePort_success_iff :
    (handlePort session fs argument).replies = ["200 PORT command successful.\r\n"] ↔
      ∃ values rest, scanNumbers 5 argument.toList = some (values, rest) ∧
        ∀ v ∈ values, v ≤ 255 := by
  have hrefused : ∀ {reply}, reply ≠ "200 PORT command successful.\r\n" →
      (answer session fs reply).replies ≠ ["200 PORT command successful.\r\n"] :=
    fun hne heq => hne (List.singleton_inj.1 heq)
  cases hscan : scanNumbers 5 argument.toList with
  | none =>
    refine iff_of_false ?_ ?_
    · rw [handlePort, requireArgument, hscan]
      split_ifs
      · exact hrefused (by decide)
      · exact hrefused (by decide)
    · rintro ⟨_, _, h, _⟩
      cases h
  | some scanned =>
    obtain ⟨values, rest⟩ := scanned
    obtain ⟨h1, h2, h3, h4, p1, p2, rfl⟩ := exists_of_scanNumbers hscan
    rw [handlePort_scanned session fs hscan]
    constructor
    · intro h
      split_ifs at h with hbytes
      · exact ⟨_, _, rfl, hbytes⟩
      · exact absurd h (hrefused (by decide))
    · rintro ⟨_, _, heq, hbytes⟩
      cases heq
      rw [if_pos hbytes]
      rfl

end

section

variable {word rest : List Char}

/-- The client takes six numbers with nothing after them, and a port. -/
theorem parsePort_eq_ok_iff {port : UInt16} :
    ClientCLI.parsePort word = .ok port ↔ ∃ h1 h2 h3 h4 p1 p2,
      scanNumbers 5 (word.takeWhile (· ≠ Char.ofNat 0)) = some ([h1, h2, h3, h4, p1, p2], []) ∧
        (∀ v ∈ [h1, h2, h3, h4, p1, p2], v ≤ 255) ∧ ((p1 <<< 8) ||| p2).toUInt16 = port ∧
          port ≠ 0 := by
  constructor
  · intro h
    rw [ClientCLI.parsePort] at h
    split at h
    · rename_i h1 h2 h3 h4 p1 p2 hscan
      by_cases hlarge : h1 > 255 ∨ h2 > 255 ∨ h3 > 255 ∨ h4 > 255 ∨ p1 > 255 ∨ p2 > 255
      · rw [if_pos hlarge] at h
        cases h
      rw [if_neg hlarge] at h
      rw [not_bytes_iff, not_not] at hlarge
      by_cases hzero : ((p1 <<< 8) ||| p2).toUInt16 = 0
      · rw [if_pos hzero] at h
        cases h
      rw [if_neg hzero, Except.ok.injEq] at h
      exact ⟨h1, h2, h3, h4, p1, p2, hscan, hlarge, h, h ▸ hzero⟩
    · cases h
  · rintro ⟨h1, h2, h3, h4, p1, p2, hscan, hbytes, rfl, hzero⟩
    rw [ClientCLI.parsePort, hscan]
    dsimp only
    rw [if_neg (by rwa [not_bytes_iff, not_not]), if_neg hzero]

end

/-! ## The language -/

/-- The argument is the address and the port of these numbers, and nothing else. -/
def IsPortArgument (argument : List Char) (e : HostPort) : Prop :=
  argument = e.text ∧ e.InRange ∧ e.port ≠ 0

/-- The server accepts an argument if and only if the client does, which takes `word` for
    it: they are the address and the port of six numbers, and both know them as such. -/
structure SameLanguage (session : SessionState) (fs : Storage) (argument : String)
    (word : List Char) : Prop where
  agree : (handlePort session fs argument).replies = ["200 PORT command successful.\r\n"] ↔
    ∃ port, ClientCLI.parsePort word = .ok port
  exact : (∃ port, ClientCLI.parsePort word = .ok port) ↔ ∃ e, IsPortArgument argument.toList e
  endpoint : ∀ e, IsPortArgument argument.toList e →
    (handlePort session fs argument).session.activeIP = e.dotted ∧
    (handlePort session fs argument).session.activePort.toNat = e.port ∧
    (scanNumbers 5 word).map Prod.fst = some (e.numbers.map fun n => UInt32.ofNat (decimal n)) ∧
    ∃ port, ClientCLI.parsePort word = .ok port ∧ port.toNat = e.port

/-- Numbers at the start of the argument that are scanned as a byte each are written as
    such, with nothing around them, and with a port. -/
def PlainArgument (argument : List Char) : Prop :=
  ∀ numbers rest, numbers.length = 6 → Scanned numbers argument rest →
    (∀ n ∈ numbers, n.value ≤ 255) →
      (∀ n ∈ numbers, n.Plain ∧ decimal n.digits ≤ 255) ∧ rest = [] ∧
        ∃ n ∈ numbers.drop 4, decimal n.digits ≠ 0

namespace IsPortArgument

variable {argument : List Char} {e : HostPort}

theorem scan (h : IsPortArgument argument e) :
    scanNumbers 5 argument = some (e.numbers.map fun n => UInt32.ofNat (decimal n), []) := by
  rw [scanNumbers_eq_some_iff]
  refine ⟨e.scanned, e.length_scanned, h.1 ▸ e.scanned_text, ?_⟩
  rw [HostPort.scanned, List.map_pmap, ← List.pmap_eq_map e.isNumber_of_mem]
  exact List.pmap_congr_left _ fun n hn hnumber _ =>
    (ScannedNumber.value_ofDigits hnumber (h.2.1 n hn)).1

theorem toNat_value (h : IsPortArgument argument e) {n : List Char} (hn : n ∈ e.numbers) :
    (UInt32.ofNat (decimal n)).toNat = decimal n := by
  have hle := h.2.1 n hn
  rw [UInt32.toNat_ofNat']
  omega

theorem value_le (h : IsPortArgument argument e) :
    ∀ v ∈ e.numbers.map fun n => UInt32.ofNat (decimal n), v ≤ 255 := by
  intro v hv
  obtain ⟨n, hn, rfl⟩ := List.mem_map.1 hv
  rw [UInt32.le_iff_toNat_le, h.toNat_value hn]
  exact h.2.1 n hn

theorem bytePort (h : IsPortArgument argument e) :
    ((UInt32.ofNat (decimal e.p1) <<< 8) ||| UInt32.ofNat (decimal e.p2)).toUInt16.toNat =
      e.port := by
  have hp1 : e.p1 ∈ e.numbers := by simp [HostPort.numbers]
  have hp2 : e.p2 ∈ e.numbers := by simp [HostPort.numbers]
  rw [toNat_bytePort (h.value_le _ (List.mem_map_of_mem hp1))
    (h.value_le _ (List.mem_map_of_mem hp2)),
    h.toNat_value hp1, h.toNat_value hp2, HostPort.port]

/-- No NUL ends it. -/
theorem takeWhile_eq (h : IsPortArgument argument e) :
    argument.takeWhile (· ≠ Char.ofNat 0) = argument := by
  rw [List.takeWhile_eq_self_iff, h.1]
  refine fun c hc => decide_eq_true ?_
  rintro rfl
  exact absurd (e.mem_text hc) (by decide)

/-- What the client takes for the port. -/
theorem parsePort (h : IsPortArgument argument e) :
    ∃ port, ClientCLI.parsePort argument = .ok port ∧ port.toNat = e.port := by
  refine ⟨_, parsePort_eq_ok_iff.2 ⟨_, _, _, _, _, _, ?_, h.value_le, rfl, ?_⟩, h.bytePort⟩
  · rw [h.takeWhile_eq]
    exact h.scan
  · rw [Ne, ← UInt16.toNat_inj, h.bytePort]
    exact h.2.2

end IsPortArgument

/-- What the server does with an address and a port. -/
theorem IsPortArgument.handlePort {argument : String} {e : HostPort}
    (h : IsPortArgument argument.toList e) (session : SessionState) (fs : Storage) :
    (HybridFtp.handlePort session fs argument).session.activeIP = e.dotted ∧
      (HybridFtp.handlePort session fs argument).session.activePort.toNat = e.port := by
  rw [(handlePort_scanned session fs h.scan).trans (if_pos h.value_le)]
  refine ⟨?_, h.bytePort⟩
  show String.intercalate "." ([e.h1, e.h2, e.h3, e.h4].map fun n =>
    toString (UInt32.ofNat (decimal n)).toNat) = _
  refine congrArg (String.intercalate ".") (List.map_congr_left fun n hn => ?_)
  rw [h.toNat_value (List.mem_of_mem_take (show n ∈ e.numbers.take 4 from hn))]

/-- Plain numbers are an address and a port. -/
theorem PlainArgument.exists_isPortArgument {argument : List Char} (h : PlainArgument argument)
    {values : List UInt32} {rest : List Char} (hscan : scanNumbers 5 argument = some (values, rest))
    (hbytes : ∀ v ∈ values, v ≤ 255) : ∃ e, IsPortArgument argument e := by
  obtain ⟨numbers, hlength, hscanned, rfl⟩ := scanNumbers_eq_some_iff.1 hscan
  obtain ⟨hplain, rfl, n, hn, hport⟩ :=
    h numbers rest hlength hscanned fun n hn => hbytes _ (List.mem_map_of_mem hn)
  obtain ⟨e, he, htext⟩ :=
    HostPort.exists_of_scanned hlength (fun n hn => (hplain n hn).1) hscanned
  refine ⟨e, htext, ?_, ?_⟩
  · intro digits hdigits
    rw [he] at hdigits
    obtain ⟨n, hn, rfl⟩ := List.mem_map.1 hdigits
    exact (hplain n hn).2
  · have hmem : n.digits ∈ [e.p1, e.p2] := by
      show n.digits ∈ e.numbers.drop 4
      rw [he, ← List.map_drop]
      exact List.mem_map_of_mem hn
    rw [HostPort.port]
    rcases List.mem_pair.1 hmem with heq | heq
    · rw [heq] at hport
      omega
    · rw [heq] at hport
      omega

/-- An address and a port are plain numbers. -/
theorem IsPortArgument.plainArgument {argument : List Char} {e : HostPort}
    (h : IsPortArgument argument e) : PlainArgument argument := by
  intro numbers rest hlength hscanned _
  obtain ⟨rfl, rfl⟩ := hscanned.eq (h.1 ▸ e.scanned_text) (hlength.trans e.length_scanned.symm)
  refine ⟨fun n hn => ?_, rfl, ?_⟩
  · obtain ⟨digits, hdigits, rfl⟩ := List.mem_pmap.1 hn
    exact ⟨⟨rfl, rfl⟩, h.2.1 digits hdigits⟩
  · have hport := h.2.2
    have hdrop : e.scanned.drop 4 = [e.p1, e.p2].pmap ScannedNumber.ofDigits
        fun n hn => e.isNumber_of_mem n
          (List.mem_of_mem_drop (show n ∈ e.numbers.drop 4 from hn)) := rfl
    rw [hdrop]
    by_cases hp1 : decimal e.p1 = 0
    · refine ⟨_, List.mem_cons_of_mem _ List.mem_cons_self, ?_⟩
      show decimal e.p2 ≠ 0
      rw [HostPort.port] at hport
      omega
    · exact ⟨_, List.mem_cons_self, hp1⟩

section

variable (session : SessionState) (fs : Storage) {argument : String} {word before after : List Char}

theorem sameLanguage_iff_of_word (hword : argument.toList = before ++ (word ++ after))
    (hbefore : ∀ c ∈ before, isSpace c = true) (hafter : ∀ c ∈ after.head?, c.isDigit = false)
    (htext : ∀ e, IsPortArgument argument.toList e → word = argument.toList) :
    SameLanguage session fs argument word ↔ PlainArgument argument.toList := by
  have hclient : ∀ e, IsPortArgument argument.toList e →
      ∃ port, ClientCLI.parsePort word = .ok port ∧ port.toNat = e.port := by
    intro e h
    rw [htext e h]
    exact h.parsePort
  -- What the client accepts, the server accepts as well.
  have hserver : (∃ port, ClientCLI.parsePort word = .ok port) →
      (handlePort session fs argument).replies = ["200 PORT command successful.\r\n"] := by
    rintro ⟨port, hparse⟩
    obtain ⟨h1, h2, h3, h4, p1, p2, hscan, hbytes, _⟩ := parsePort_eq_ok_iff.1 hparse
    have hrest : ∀ c ∈ (word.dropWhile (· ≠ Char.ofNat 0) ++ after).head?, c.isDigit = false := by
      intro c hc
      have hnul := head?_dropWhile (· ≠ Char.ofNat 0) word
      cases hdrop : word.dropWhile (· ≠ Char.ofNat 0) with
      | nil =>
        rw [hdrop] at hc
        exact hafter c hc
      | cons d rest =>
        rw [hdrop] at hc hnul
        cases hc
        have hc : c = Char.ofNat 0 := by simpa using hnul c rfl
        rw [hc]
        decide
    have hargument : argument.toList = before ++
        (word.takeWhile (· ≠ Char.ofNat 0) ++ (word.dropWhile (· ≠ Char.ofNat 0) ++ after)) := by
      rw [hword, ← List.append_assoc (word.takeWhile _), List.takeWhile_append_dropWhile]
    rw [handlePort_success_iff, hargument]
    exact ⟨_, _, scanNumbers_surround hscan hbefore hrest, hbytes⟩
  constructor
  · intro h numbers rest hlength hscanned hbytes
    have hsuccess : (handlePort session fs argument).replies =
        ["200 PORT command successful.\r\n"] := by
      rw [handlePort_success_iff]
      refine ⟨_, _, scanNumbers_eq_some_iff.2 ⟨numbers, hlength, hscanned, rfl⟩, fun v hv => ?_⟩
      obtain ⟨n, hn, rfl⟩ := List.mem_map.1 hv
      exact hbytes n hn
    obtain ⟨e, he⟩ := h.exact.1 (h.agree.1 hsuccess)
    exact he.plainArgument numbers rest hlength hscanned hbytes
  · intro h
    have hexact : (handlePort session fs argument).replies = ["200 PORT command successful.\r\n"] →
        ∃ e, IsPortArgument argument.toList e := by
      intro hsuccess
      obtain ⟨values, rest, hscan, hbytes⟩ := (handlePort_success_iff session fs).1 hsuccess
      exact h.exists_isPortArgument hscan hbytes
    refine ⟨⟨fun hsuccess => ?_, hserver⟩, ⟨fun haccepted => hexact (hserver haccepted), ?_⟩, ?_⟩
    · obtain ⟨e, he⟩ := hexact hsuccess
      obtain ⟨port, hparse, _⟩ := hclient e he
      exact ⟨port, hparse⟩
    · rintro ⟨e, he⟩
      obtain ⟨port, hparse, _⟩ := hclient e he
      exact ⟨port, hparse⟩
    · intro e he
      obtain ⟨hip, hport⟩ := he.handlePort session fs
      refine ⟨hip, hport, ?_, hclient e he⟩
      rw [htext e he, he.scan]
      rfl

end

/-- The word that the client takes for the argument of `PORT`. -/
def argumentWord (argument : String) : List Char :=
  ((words ("PORT " ++ argument).toList)[1]?).getD []

/-- Where that word is. -/
theorem exists_argumentWord (argument : String) : ∃ before after : List Char,
    argument.toList = before ++ (argumentWord argument ++ after) ∧
      (∀ c ∈ before, isSpace c = true) ∧ ∀ c ∈ after.head?, isSpace c = true := by
  have hword : argumentWord argument = ((words argument.toList)[0]?).getD [] := by
    have hline : ("PORT " ++ argument).toList = "PORT".toList ++ ' ' :: argument.toList := by
      rw [String.toList_append]
      rfl
    have hport : words "PORT".toList = ["PORT".toList] := by decide
    rw [argumentWord, hline, words_append_cons (by decide), hport]
    rfl
  rw [hword]
  cases hwords : words argument.toList with
  | nil => exact ⟨argument.toList, [], by simp, isSpace_of_words_nil hwords, by simp⟩
  | cons w ws =>
    obtain ⟨s, rest, htext, hs, _, _, hrest, _⟩ := exists_of_words hwords
    exact ⟨s, rest, by rw [htext, List.append_assoc]; rfl, hs, hrest⟩

/-- Both sides accept the same arguments where the numbers are plain, and only there:
    whether the client takes the word after `PORT` for the argument, or is given it. -/
theorem sameLanguage_iff (session : SessionState) (fs : Storage) (argument : String) :
    (SameLanguage session fs argument (argumentWord argument) ↔ PlainArgument argument.toList) ∧
      (SameLanguage session fs argument argument.toList ↔ PlainArgument argument.toList) := by
  constructor
  · obtain ⟨before, after, htext, hbefore, hafter⟩ := exists_argumentWord argument
    refine sameLanguage_iff_of_word session fs htext hbefore (fun c hc => ?_) fun e he => ?_
    · by_contra hdigit
      rw [Bool.not_eq_false] at hdigit
      exact absurd (hafter c hc) (by rw [isSpace_of_isDigit hdigit]; decide)
    · -- There is no space in an address.
      have hspace : ∀ c ∈ argument.toList, isSpace c ≠ true := by
        intro c hc
        rw [he.1] at hc
        rcases e.mem_text hc with hdigit | rfl
        · rw [isSpace_of_isDigit hdigit]
          decide
        · decide
      rw [htext] at hspace
      have hnil : before = [] := List.eq_nil_iff_forall_not_mem.2 fun c hc =>
        hspace c (List.mem_append_left _ hc) (hbefore c hc)
      have hhead : after.head? = none := Option.eq_none_iff_forall_not_mem.2 fun c hc =>
        hspace c (List.mem_append_right _ (List.mem_append_right _ (List.mem_of_mem_head? hc)))
          (hafter c hc)
      have hnil' : after = [] := List.head?_eq_none_iff.1 hhead
      rw [htext, hnil, hnil', List.append_nil, List.nil_append]
  · exact sameLanguage_iff_of_word session fs (List.append_nil _).symm (List.forall_mem_nil _)
      (fun _ hc => by cases hc) fun _ _ => rfl

/-- The server takes the port 0 and what follows the numbers, unlike the client; and both
    take a sign. -/
theorem not_sameLanguage :
    ((handlePort bareSession bareStorage "1,2,3,4,0,0").replies =
        ["200 PORT command successful.\r\n"] ∧
      ¬SameLanguage bareSession bareStorage "1,2,3,4,0,0" (argumentWord "1,2,3,4,0,0")) ∧
    ((handlePort bareSession bareStorage "1,2,3,4,5,6x").replies =
        ["200 PORT command successful.\r\n"] ∧
      ¬SameLanguage bareSession bareStorage "1,2,3,4,5,6x" (argumentWord "1,2,3,4,5,6x")) ∧
    ClientCLI.parsePort (argumentWord "+1,2,3,4,5,6") = .ok 1286 ∧
      ¬SameLanguage bareSession bareStorage "+1,2,3,4,5,6" (argumentWord "+1,2,3,4,5,6") := by
  have hrefused : ∀ argument,
      (∃ scanned ∈ scanNumbers 5 argument.toList, ∀ v ∈ scanned.1, v ≤ 255) →
      (ClientCLI.parsePort (argumentWord argument)).toOption = none →
      (handlePort bareSession bareStorage argument).replies = ["200 PORT command successful.\r\n"] ∧
        ¬SameLanguage bareSession bareStorage argument (argumentWord argument) := by
    rintro argument ⟨⟨values, rest⟩, hscan, hbytes⟩ hnone
    have hserver := (handlePort_success_iff bareSession bareStorage).2 ⟨values, rest, hscan, hbytes⟩
    refine ⟨hserver, fun h => ?_⟩
    obtain ⟨port, hparse⟩ := h.agree.1 hserver
    rw [hparse] at hnone
    cases hnone
  have hsign : ClientCLI.parsePort (argumentWord "+1,2,3,4,5,6") = .ok 1286 := by decide +kernel
  refine ⟨hrefused _ (by decide +kernel) (by decide +kernel),
    hrefused _ (by decide +kernel) (by decide +kernel), hsign, fun h => ?_⟩
  obtain ⟨e, htext, _⟩ := h.exact.1 ⟨_, hsign⟩
  have hplus : '+' ∈ e.text := by
    rw [← htext]
    decide
  exact absurd (e.mem_text hplus) (by decide)

end HybridFtp
