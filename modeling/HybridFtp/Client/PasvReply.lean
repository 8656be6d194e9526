import HybridFtp.Client.ClientCLI
import HybridFtp.Common.HostPort
import HybridFtp.Server.Session

/-!
# The reply to `PASV`

What the client takes from the reply to `PASV`, and when it is what the reply says.

* `HostPort.First`: the first six numbers in a text; `searchNumbers_eq_some_iff`: they are
  what the regular expression finds;
* `exact_iff`: the port and the address are those of six numbers in the reply, of a byte
  each, unless larger ones come first;
* `parsePasvReply_handlePasv`: what the server sends is read as it is meant.
-/

namespace HybridFtp

open Elements

/-- A root directory without entries. -/
def bareStorage : Storage where
  attributes := 0o755
  entries := []

/-- A session that has just been started in it. -/
def bareSession : SessionState where
  pathManager := (PathManager.create 0o755 { names := [] } bareStorage).1

namespace HostPort

/-- A text starts with these numbers, and the last of them is whole. -/
def StartsAt (e : HostPort) (text : List Char) : Prop :=
  ∃ rest : List Char, text = e.text ++ rest ∧ ∀ c ∈ rest.head?, c.isDigit = false

/-- There are these numbers in a text, and the first and the last of them are whole. -/
def Occurs (e : HostPort) (text : List Char) : Prop :=
  ∃ before after : List Char, text = before ++ after ∧
    (∀ c ∈ before.getLast?, c.isDigit = false) ∧ e.StartsAt after

/-- They are the first six numbers in it. -/
def First (e : HostPort) (text : List Char) : Prop :=
  ∃ after : List Char, after <:+ text ∧ e.StartsAt after ∧
    ∀ (e' : HostPort) (after' : List Char), after' <:+ text → e'.StartsAt after' →
      after'.length ≤ after.length

end HostPort

namespace ClientCLI

/-! ## The regular expression -/

theorem matchNumbers_succ {count : Nat} {text : List Char} {numbers : List (List Char)} :
    matchNumbers (count + 1) text = some numbers ↔
      text.takeWhile Char.isDigit ≠ [] ∧ ∃ rest more, text.dropWhile Char.isDigit = ',' :: rest ∧
        matchNumbers count rest = some more ∧ text.takeWhile Char.isDigit :: more = numbers := by
  conv_lhs => unfold matchNumbers
  generalize text.takeWhile Char.isDigit = digits
  dsimp only
  split_ifs with hempty
  · simp [hempty]
  · cases text.dropWhile Char.isDigit with
    | nil => simp
    | cons c rest =>
      by_cases hc : c = ','
      · subst hc
        simp [hempty]
      · simp [hc]

/-- A match is some numbers at the start of the text, up to the end of the last one. -/
theorem matchNumbers_eq_some_iff {count : Nat} {text : List Char} {numbers : List (List Char)} :
    matchNumbers count text = some numbers ↔ numbers.length = count + 1 ∧
      (∀ n ∈ numbers, IsNumber n) ∧ ∃ rest : List Char,
        text = [','].intercalate numbers ++ rest ∧ ∀ c ∈ rest.head?, c.isDigit = false := by
  induction count generalizing text numbers with
  | zero =>
    rw [matchNumbers]
    constructor
    · intro h
      split_ifs at h with hempty
      cases h
      refine ⟨rfl, List.forall_mem_singleton.2 (isNumber_takeWhile hempty), _, ?_,
        head?_dropWhile Char.isDigit text⟩
      rw [List.intercalate_singleton, List.takeWhile_append_dropWhile]
    · rintro ⟨hlength, hnumber, rest, rfl, hrest⟩
      obtain ⟨n, rfl⟩ := List.length_eq_one_iff.1 hlength
      have hn := hnumber n (List.mem_singleton_self n)
      rw [List.intercalate_singleton, (span_append hn.2 hrest).1, if_neg hn.1]
  | succ count ih =>
    rw [matchNumbers_succ]
    constructor
    · rintro ⟨hempty, rest, more, hdrop, hmore, rfl⟩
      obtain ⟨hlength, hnumber, rest', rfl, hrest'⟩ := ih.1 hmore
      refine ⟨by rw [List.length_cons, hlength],
        List.forall_mem_cons.2 ⟨isNumber_takeWhile hempty, hnumber⟩, rest', ?_, hrest'⟩
      rw [List.intercalate_cons_of_ne_nil (List.ne_nil_of_length_eq_add_one hlength),
        List.append_assoc, List.append_assoc, List.singleton_append, ← hdrop,
        List.takeWhile_append_dropWhile]
    · rintro ⟨hlength, hnumber, rest, rfl, hrest⟩
      obtain ⟨n, more, rfl⟩ := List.exists_cons_of_length_eq_add_one hlength
      rw [List.length_cons, Nat.add_right_cancel_iff] at hlength
      rw [List.forall_mem_cons] at hnumber
      obtain ⟨htake, hdrop⟩ :=
        span_append hnumber.1.2 (head?_comma ([','].intercalate more ++ rest))
      rw [List.intercalate_cons_of_ne_nil (List.ne_nil_of_length_eq_add_one hlength),
        List.append_assoc, List.append_assoc, List.singleton_append, htake, hdrop]
      exact ⟨hnumber.1.1, _, more, rfl, ih.2 ⟨hlength, hnumber.2, rest, rfl, hrest⟩, rfl⟩

theorem matchNumbers_five {text : List Char} {numbers : List (List Char)} :
    matchNumbers 5 text = some numbers ↔ ∃ e : HostPort, e.numbers = numbers ∧ e.StartsAt text := by
  rw [matchNumbers_eq_some_iff]
  constructor
  · rintro ⟨hlength, hnumber, hrest⟩
    obtain ⟨e, rfl⟩ := HostPort.exists_of_length hlength hnumber
    exact ⟨e, rfl, hrest⟩
  · rintro ⟨e, rfl, hrest⟩
    exact ⟨rfl, e.isNumber, hrest⟩

end ClientCLI

namespace HostPort

variable {e e' : HostPort} {text : List Char}

theorem StartsAt.eq (h : e.StartsAt text) (h' : e'.StartsAt text) : e = e' := by
  have hmatch := ClientCLI.matchNumbers_five.2 ⟨e, rfl, h⟩
  rw [ClientCLI.matchNumbers_five.2 ⟨e', rfl, h'⟩] at hmatch
  exact ext_numbers (Option.some.inj hmatch).symm

theorem not_startsAt_nil (e : HostPort) : ¬e.StartsAt [] := fun h => by
  have hmatch := ClientCLI.matchNumbers_five.2 ⟨e, rfl, h⟩
  cases hmatch

theorem StartsAt.first (h : e.StartsAt text) : e.First text :=
  ⟨text, List.suffix_rfl, h, fun _ _ hsuffix _ => hsuffix.length_le⟩

theorem First.startsAt (h : e.First text) (h' : e'.StartsAt text) : e.StartsAt text := by
  obtain ⟨after, hsuffix, hat, hfirst⟩ := h
  rwa [← hsuffix.eq_of_length_le (hfirst e' text List.suffix_rfl h')]

/-- Where no numbers start, the first ones are further on. -/
theorem first_cons {c : Char} (h : ∀ e : HostPort, ¬e.StartsAt (c :: text)) :
    e.First (c :: text) ↔ e.First text := by
  have hsuffix : ∀ (e : HostPort) (after : List Char), e.StartsAt after →
      (after <:+ c :: text ↔ after <:+ text) := by
    intro e after hat
    rw [List.suffix_cons_iff, or_iff_right_iff_imp]
    rintro rfl
    exact absurd hat (h e)
  constructor
  · rintro ⟨after, hafter, hat, hfirst⟩
    exact ⟨after, (hsuffix e after hat).1 hafter, hat, fun e' after' hafter' hat' =>
      hfirst e' after' ((hsuffix e' after' hat').2 hafter') hat'⟩
  · rintro ⟨after, hafter, hat, hfirst⟩
    exact ⟨after, (hsuffix e after hat).2 hafter, hat, fun e' after' hafter' hat' =>
      hfirst e' after' ((hsuffix e' after' hat').1 hafter') hat'⟩

/-- The first of the first six numbers is whole: a digit before it would belong to it. -/
theorem First.occurs (h : e.First text) : e.Occurs text := by
  obtain ⟨after, ⟨before, rfl⟩, hat, hfirst⟩ := h
  refine ⟨before, after, rfl, fun d hd => ?_, hat⟩
  by_contra hdigit
  rw [Bool.not_eq_false] at hdigit
  obtain ⟨before, rfl⟩ := List.getLast?_eq_some_iff.1 hd
  obtain ⟨rest, rfl, hrest⟩ := hat
  have hwider : ∀ n ∈ [d :: e.h1, e.h2, e.h3, e.h4, e.p1, e.p2], IsNumber n := by
    have hnumber := e.isNumber
    rw [List.forall_mem_cons] at hnumber ⊢
    exact ⟨⟨List.cons_ne_nil _ _, List.forall_mem_cons.2 ⟨hdigit, hnumber.1.2⟩⟩, hnumber.2⟩
  have hle := hfirst { e with h1 := d :: e.h1, isNumber := hwider } (d :: (e.text ++ rest))
    ⟨before, by simp⟩ ⟨rest, rfl, hrest⟩
  rw [List.length_cons] at hle
  omega

end HostPort

namespace ClientCLI

/-- The search finds the first match. -/
theorem searchNumbers_eq_some_iff {text : List Char} {numbers : List (List Char)} :
    searchNumbers text = some numbers ↔ ∃ e : HostPort, e.numbers = numbers ∧ e.First text := by
  induction text with
  | nil =>
    refine iff_of_false (Option.some_ne_none _).symm ?_
    rintro ⟨e, _, after, hsuffix, hat, _⟩
    rw [List.suffix_nil.1 hsuffix] at hat
    exact e.not_startsAt_nil hat
  | cons c text ih =>
    rw [searchNumbers]
    cases hmatch : matchNumbers 5 (c :: text) with
    | some numbers' =>
      obtain ⟨e', rfl, hat⟩ := matchNumbers_five.1 hmatch
      rw [Option.orElse_some, Option.some.injEq]
      constructor
      · rintro rfl
        exact ⟨e', rfl, hat.first⟩
      · rintro ⟨e, rfl, hfirst⟩
        rw [hat.eq (hfirst.startsAt hat)]
    | none =>
      have hnot : ∀ e : HostPort, ¬e.StartsAt (c :: text) := by
        intro e hat
        rw [matchNumbers_five.2 ⟨e, rfl, hat⟩] at hmatch
        cases hmatch
      rw [Option.orElse_none, ih]
      exact exists_congr fun e => and_congr_right fun _ => (HostPort.first_cons hnot).symm

theorem first_unique {e e' : HostPort} {text : List Char} (h : e.First text) (h' : e'.First text) :
    e = e' := by
  have hsearch := searchNumbers_eq_some_iff.2 ⟨e, rfl, h⟩
  rw [searchNumbers_eq_some_iff.2 ⟨e', rfl, h'⟩] at hsearch
  exact HostPort.ext_numbers (Option.some.inj hsearch).symm

theorem parsePasvReply_first {reply : String} {e : HostPort} (h : e.First reply.toList)
    (outIP : String) : parsePasvReply reply outIP =
      if decimal e.p1 ≥ 2 ^ 64 ∨ decimal e.p2 ≥ 2 ^ 64 then none
      else
        some ((UInt16.ofNat (decimal e.p1) <<< 8) ||| UInt16.ofNat (decimal e.p2), e.address) := by
  rw [parsePasvReply, searchNumbers_eq_some_iff.2 ⟨e, rfl, h⟩]
  rfl

theorem parsePasvReply_not_first {reply : String} (h : ∀ e : HostPort, ¬e.First reply.toList)
    (outIP : String) : parsePasvReply reply outIP = some (0, outIP) := by
  rw [parsePasvReply]
  cases hsearch : searchNumbers reply.toList with
  | none => rfl
  | some numbers =>
    obtain ⟨e, _, hfirst⟩ := searchNumbers_eq_some_iff.1 hsearch
    exact absurd hfirst (h e)

/-! ## The endpoint -/

/-- What is left of two numbers in the 16 bits of a port. -/
theorem toNat_cutPort (p1 p2 : Nat) :
    ((UInt16.ofNat p1 <<< 8) ||| UInt16.ofNat p2).toNat = 256 * (p1 % 256) ||| p2 % 65536 := by
  rw [UInt16.toNat_or, UInt16.toNat_shiftLeft, UInt16.toNat_ofNat', UInt16.toNat_ofNat']
  show (p1 % 2 ^ 16) <<< 8 % 2 ^ 16 ||| _ = _
  rw [Nat.shiftLeft_eq]
  congr 1
  omega

theorem cutPort_of_le {p1 p2 : Nat} (h1 : p1 ≤ 255) (h2 : p2 ≤ 255) :
    256 * (p1 % 256) ||| p2 % 65536 = 256 * p1 + p2 := by
  rw [Nat.mod_eq_of_lt (by omega), Nat.mod_eq_of_lt (by omega)]
  exact (Nat.two_pow_add_eq_or_of_lt (i := 8) (by omega) p1).symm

theorem cutPort_eq_zero_iff {p1 p2 : Nat} :
    256 * (p1 % 256) ||| p2 % 65536 = 0 ↔ 256 ∣ p1 ∧ 65536 ∣ p2 := by
  rw [Nat.or_eq_zero_iff]
  omega

/-- The client gets an endpoint only if the reply has it: six numbers of a byte each. -/
def Exact (reply outIP : String) : Prop :=
  ∃ port ip, parsePasvReply reply outIP = some (port, ip) ∧
    (port ≠ 0 → ∃ e : HostPort, e.Occurs reply.toList ∧ e.InRange ∧ ip = e.address ∧
      port.toNat = e.port)

/-- The first six numbers in a text, if there are any, can be read, and are a byte each; or
    nothing is left of the port; or what is left is in the text as well. -/
def Readable (text : List Char) : Prop :=
  ∀ e : HostPort, e.First text → (decimal e.p1 < 2 ^ 64 ∧ decimal e.p2 < 2 ^ 64) ∧
    (e.InRange ∨ 256 ∣ decimal e.p1 ∧ 65536 ∣ decimal e.p2 ∨ ∃ e' : HostPort, e'.Occurs text ∧
      e'.InRange ∧ e'.address = e.address ∧
      e'.port = 256 * (decimal e.p1 % 256) ||| decimal e.p2 % 65536)

theorem exact_iff_readable (reply outIP : String) : Exact reply outIP ↔ Readable reply.toList := by
  by_cases hexists : ∃ e : HostPort, e.First reply.toList
  · obtain ⟨e, hfirst⟩ := hexists
    rw [Exact, parsePasvReply_first hfirst]
    constructor
    · rintro ⟨port, ip, hparse, hexact⟩ e' hfirst'
      obtain rfl := first_unique hfirst hfirst'
      split_ifs at hparse with hlarge
      rw [not_or, not_le, not_le] at hlarge
      cases hparse
      refine ⟨hlarge, .inr ?_⟩
      by_cases hport : (UInt16.ofNat (decimal e.p1) <<< 8) ||| UInt16.ofNat (decimal e.p2) = 0
      · rw [← UInt16.toNat_inj, toNat_cutPort] at hport
        exact .inl (cutPort_eq_zero_iff.1 hport)
      · obtain ⟨e', hoccurs, hrange, haddress, hport⟩ := hexact hport
        rw [toNat_cutPort] at hport
        exact .inr ⟨e', hoccurs, hrange, haddress.symm, hport.symm⟩
    · intro h
      obtain ⟨hsmall, hcases⟩ := h e hfirst
      rw [if_neg (by rw [not_or, not_le, not_le]; exact hsmall)]
      refine ⟨_, _, rfl, fun hport => ?_⟩
      rw [Ne, ← UInt16.toNat_inj, toNat_cutPort] at hport
      rw [toNat_cutPort]
      rcases hcases with hrange | hzero | ⟨e', hoccurs, hrange, haddress, hport'⟩
      · exact ⟨e, hfirst.occurs, hrange, rfl, cutPort_of_le (hrange _ (by simp [HostPort.numbers]))
          (hrange _ (by simp [HostPort.numbers]))⟩
      · exact absurd (cutPort_eq_zero_iff.2 hzero) hport
      · exact ⟨e', hoccurs, hrange, haddress.symm, hport'.symm⟩
  · rw [not_exists] at hexists
    refine iff_of_true ⟨0, outIP, parsePasvReply_not_first hexists outIP, fun h => absurd rfl h⟩ ?_
    exact fun e hfirst => absurd hfirst (hexists e)

/-! ## The reply of the server -/

/-- Nothing is found up to where digits end with no comma after them. -/
theorem searchNumbers_digits {digits : List Char} {c : Char}
    (hdigits : ∀ d ∈ digits, d.isDigit = true) (hc : c.isDigit = false) (hcomma : c ≠ ',') (rest : List Char) :
    searchNumbers (digits ++ c :: rest) = searchNumbers rest := by
  have hnone : ∀ digits : List Char, (∀ d ∈ digits, d.isDigit = true) →
      matchNumbers 5 (digits ++ c :: rest) = none := by
    intro digits hdigits
    rw [Option.eq_none_iff_forall_ne_some]
    intro numbers hmatch
    obtain ⟨_, rest', _, hdrop, _⟩ := matchNumbers_succ.1 hmatch
    rw [(span_append hdigits (by simpa using hc)).2] at hdrop
    exact hcomma (List.cons.inj hdrop).1
  induction digits with
  | nil =>
    have hnone : matchNumbers 5 (c :: rest) = none := hnone [] hdigits
    rw [List.nil_append, searchNumbers, hnone]
    rfl
  | cons d digits ih =>
    rw [List.cons_append, searchNumbers, ← List.cons_append, hnone _ hdigits]
    exact ih fun d hd => hdigits d (List.mem_cons_of_mem _ hd)

theorem searchNumbers_letters {letters : List Char}
    (h : ∀ c ∈ letters, c.isDigit = false ∧ c ≠ ',') (rest : List Char) :
    searchNumbers (letters ++ rest) = searchNumbers rest := by
  induction letters with
  | nil => rfl
  | cons c letters ih =>
    rw [List.forall_mem_cons] at h
    rw [← ih h.2]
    exact searchNumbers_digits (List.forall_mem_nil _) h.1.1 h.1.2 _

/-- The numbers of the endpoint that the server opens. -/
def pasvNumbers (ip : IPv4) (port : UInt16) : HostPort where
  h1 := (toString ip.h1).toList
  h2 := (toString ip.h2).toList
  h3 := (toString ip.h3).toList
  h4 := (toString ip.h4).toList
  p1 := (toString (port >>> 8)).toList
  p2 := (toString (port &&& 0xFF)).toList
  isNumber := by
    simp only [List.forall_mem_cons]
    exact ⟨isNumber_toString _, isNumber_toString _, isNumber_toString _, isNumber_toString _,
      isNumber_toString _, isNumber_toString _, List.forall_mem_nil _⟩

theorem address_pasvNumbers (ip : IPv4) (port : UInt16) :
    (pasvNumbers ip port).address = ip.dotted := by
  simp [HostPort.address, pasvNumbers, IPv4.dotted]

theorem decimal_pasvNumbers (ip : IPv4) (port : UInt16) :
    decimal (pasvNumbers ip port).p1 = port.toNat / 256 ∧
      decimal (pasvNumbers ip port).p2 = port.toNat % 256 := by
  have hshift : (port >>> 8).toNat = port.toNat / 256 := by
    rw [UInt16.toNat_shiftRight]
    exact Nat.shiftRight_eq_div_pow _ 8
  have hand : (port &&& 0xFF).toNat = port.toNat % 256 := by
    rw [UInt16.toNat_and]
    exact Nat.and_two_pow_sub_one_eq_mod _ 8
  rw [← hshift, ← hand]
  exact ⟨decimal_toString _, decimal_toString _⟩

theorem cutPort_pasvNumbers (ip : IPv4) (port : UInt16) :
    (UInt16.ofNat (decimal (pasvNumbers ip port).p1) <<< 8) |||
      UInt16.ofNat (decimal (pasvNumbers ip port).p2) = port := by
  obtain ⟨hp1, hp2⟩ := decimal_pasvNumbers ip port
  have hlt := port.toNat_lt
  rw [← UInt16.toNat_inj, toNat_cutPort, hp1, hp2, cutPort_of_le (by omega) (by omega)]
  omega

/-- A dotted address, with commas. -/
theorem toList_map_dotted (ip : IPv4) :
    (ip.dotted.map fun c => if c = '.' then ',' else c).toList =
      [','].intercalate ([ip.h1, ip.h2, ip.h3, ip.h4].map fun h => (toString h).toList) := by
  have hnumber : ∀ h : UInt8, ((toString h).toList.map fun c => if c = '.' then ',' else c) =
      (toString h).toList := by
    intro h
    refine (List.map_congr_left fun c hc => if_neg ?_).trans (List.map_id _)
    rintro rfl
    exact absurd ((isNumber_toString h.toNat).2 _ hc) (by decide)
  rw [IPv4.dotted, String.toList_map, String.toList_intercalate]
  simp [List.intercalate_cons_cons, List.intercalate_singleton, hnumber]

/-- The line that the server sends. -/
theorem handlePasv_line {o : Outcomes} {port : UInt16} (hport : o.udpPort = some port)
    (session : SessionState) (fs : Storage) : ∃ line : String,
      (handlePasv o session fs).replies = [line ++ "\r\n"] ∧
      line.toList = "227 Entering Passive Mode (".toList ++
        ((pasvNumbers o.localAddress port).text ++ [')', '.']) := by
  have htext : (pasvNumbers o.localAddress port).text =
      (o.localAddress.dotted.map fun c => if c = '.' then ',' else c).toList ++
        ',' :: ((toString (port >>> 8)).toList ++ ',' :: (toString (port &&& 0xFF)).toList) := by
    rw [toList_map_dotted, HostPort.text_eq]
    simp [pasvNumbers, List.intercalate_cons_cons]
  rw [handlePasv, hport, htext]
  generalize (o.localAddress.dotted.map fun c => if c = '.' then ',' else c) = ip
  refine ⟨"227 Entering Passive Mode (" ++ ip ++ "," ++ toString (port >>> 8) ++ "," ++
    toString (port &&& 0xFF) ++ ").", ?_, ?_⟩
  · change [_] = [_]
    rw [List.singleton_inj, ← String.toList_inj]
    simp
  · simp only [String.toList_append, List.append_assoc, List.cons_append]
    rfl

/-- The client gets the endpoint that the server opens. -/
theorem parsePasvReply_handlePasv {o : Outcomes} {port : UInt16} (hport : o.udpPort = some port)
    (session : SessionState) (fs : Storage) (outIP : String) (rest : List Char) :
    ∃ reply : String, (handlePasv o session fs).replies = [reply] ∧
      parsePasvReply (recvReply (reply.toList ++ rest)).1 outIP =
        some (port, o.localAddress.dotted) := by
  obtain ⟨line, hreplies, hline⟩ := handlePasv_line hport session fs
  refine ⟨_, hreplies, ?_⟩
  have hread : (recvReply ((line ++ "\r\n").toList ++ rest)).1 = line := by
    have hbreak : '\n' ∉ line.toList := by
      rw [hline]
      refine List.not_mem_append (by decide) (List.not_mem_append (fun h => ?_) (by decide))
      exact absurd (HostPort.mem_text _ h) (by decide)
    have hreply : (line ++ "\r\n").toList =
        (Reply.ofLine line ⟨by simp [hline], hbreak, by simp [hline]⟩).wire := by
      rw [Reply.wire, Reply.wireLines_cons, String.toList_append]
      rfl
    rw [hreply, recvReply_wire]
    simp [Reply.text, Reply.ofLine]
  have hfirst : (pasvNumbers o.localAddress port).First line.toList := by
    have hskip : "227 Entering Passive Mode (".toList =
        '2' :: '2' :: '7' :: ' ' :: "Entering Passive Mode (".toList := rfl
    have hdigits : ∀ rest, searchNumbers ('2' :: '2' :: '7' :: ' ' :: rest) = searchNumbers rest :=
      searchNumbers_digits (show ∀ d ∈ ['2', '2', '7'], d.isDigit = true by decide)
        (show Char.isDigit ' ' = false by decide) (by decide)
    have hat : (pasvNumbers o.localAddress port).StartsAt
        ((pasvNumbers o.localAddress port).text ++ [')', '.']) := ⟨_, rfl, by simp⟩
    have hsearch : searchNumbers line.toList = some (pasvNumbers o.localAddress port).numbers := by
      rw [hline, hskip, List.cons_append, List.cons_append, List.cons_append, List.cons_append,
        hdigits, searchNumbers_letters (by decide)]
      exact searchNumbers_eq_some_iff.2 ⟨_, rfl, hat.first⟩
    obtain ⟨e, he, hfirst⟩ := searchNumbers_eq_some_iff.1 hsearch
    rwa [HostPort.ext_numbers he] at hfirst
  obtain ⟨hp1, hp2⟩ := decimal_pasvNumbers o.localAddress port
  have hlt := port.toNat_lt
  rw [hread, parsePasvReply_first hfirst, cutPort_pasvNumbers, address_pasvNumbers, hp1, hp2,
    if_neg (by omega)]

/-! ## Exactness -/

/-- The client gets nothing but an endpoint that the reply has if and only if the first six
    numbers of it can be read and are a byte each, or what is left of them is no port, or is
    in the reply as well; so it does with what the server sends. -/
theorem exact_iff (reply outIP : String) : (Exact reply outIP ↔ Readable reply.toList) ∧
    ∀ (o : Outcomes) (session : SessionState) (fs : Storage) (port : UInt16) (rest : List Char),
      o.udpPort = some port → port ≠ 0 →
      ∃ sent : String, (handlePasv o session fs).replies = [sent] ∧
        parsePasvReply (recvReply (sent.toList ++ rest)).1 outIP =
          some (port, o.localAddress.dotted) :=
  ⟨exact_iff_readable reply outIP, fun _ session fs _ rest hport _ =>
    parsePasvReply_handlePasv hport session fs outIP rest⟩

theorem exact_pasv : Exact "227 Entering Passive Mode (127,0,0,1,4,0)." "" ∧ ∃ reply : String,
    (handlePasv { udpPort := some 1024 } bareSession bareStorage).replies = [reply] ∧
      parsePasvReply (recvReply (reply.toList ++ [])).1 "" =
        some (1024, IPv4.dotted ⟨127, 0, 0, 1⟩) := by
  refine ⟨(exact_iff _ _).1.2 fun e hfirst => ?_, (exact_iff "" "").2 _ _ _ _ _ rfl (by decide)⟩
  have hsearch := searchNumbers_eq_some_iff.2 ⟨e, rfl, hfirst⟩
  have hnumbers : ∀ numbers ∈
      searchNumbers "227 Entering Passive Mode (127,0,0,1,4,0).".toList, ∀ n ∈ numbers,
        decimal n ≤ 255 := by decide +kernel
  have hrange := hnumbers _ hsearch
  have hp1 := hrange e.p1 (by simp [HostPort.numbers])
  have hp2 := hrange e.p2 (by simp [HostPort.numbers])
  exact ⟨⟨by omega, by omega⟩, .inl hrange⟩

/-- A number beyond a byte is cut, and one beyond 64 bits is an exception. -/
theorem not_exact_large :
    hasCode "227 Entering Passive Mode (1,2,3,4,300,7)." "227" = true ∧
      parsePasvReply "227 Entering Passive Mode (1,2,3,4,300,7)." "" = some (11271, "1.2.3.4") ∧
      ¬Exact "227 Entering Passive Mode (1,2,3,4,300,7)." "" ∧
      parsePasvReply "227 Entering Passive Mode (1,2,3,4,18446744073709551616,7)." "" = none ∧
      ¬Exact "227 Entering Passive Mode (1,2,3,4,18446744073709551616,7)." "" := by
  have hcut : parsePasvReply "227 Entering Passive Mode (1,2,3,4,300,7)." "" =
      some (11271, "1.2.3.4") := by decide +kernel
  have hnone : parsePasvReply "227 Entering Passive Mode (1,2,3,4,18446744073709551616,7)." "" =
      none := by decide +kernel
  refine ⟨by decide +kernel, hcut, ?_, hnone, ?_⟩
  · rintro ⟨port, ip, hparse, hexact⟩
    rw [hcut] at hparse
    cases hparse
    obtain ⟨e, ⟨before, after, htext, _, hat⟩, hrange, _⟩ := hexact (by decide)
    -- No six numbers at any place are a byte each.
    have hlarge : ∀ s ∈ "227 Entering Passive Mode (1,2,3,4,300,7).".toList.tails,
        ∀ numbers ∈ matchNumbers 5 s, ¬∀ n ∈ numbers, decimal n ≤ 255 := by decide +kernel
    exact hlarge after ((List.mem_tails _ _).2 ⟨before, htext.symm⟩) _
      (matchNumbers_five.2 ⟨e, rfl, hat⟩) hrange
  · rintro ⟨port, ip, hparse, _⟩
    rw [hnone] at hparse
    cases hparse

end ClientCLI

end HybridFtp
