import HybridFtp.Lib.Scan
import Mathlib.Data.List.TakeWhile

/-!
# Numbers in a text

What `sscanf` takes for a number, as a grammar.

* `IsNumber`: decimal digits, and the number that they tell;
* `ScannedNumber`: what `%u` accepts, with blanks and a sign before the digits;
* `scanNumbers_eq_some_iff`: scanning finds such numbers with commas between them, in the
  only way to divide the text.
-/

namespace HybridFtp

open Elements

/-! ## Digits -/

/-- Decimal digits, one at least. -/
def IsNumber (digits : List Char) : Prop := digits ≠ [] ∧ ∀ c ∈ digits, c.isDigit = true

instance : DecidablePred IsNumber := fun digits =>
  inferInstanceAs (Decidable (digits ≠ [] ∧ ∀ c ∈ digits, c.isDigit = true))

theorem isNumber_takeWhile {text : List Char} (h : text.takeWhile Char.isDigit ≠ []) :
    IsNumber (text.takeWhile Char.isDigit) :=
  ⟨h, fun _ hc => List.mem_takeWhile_imp hc⟩

theorem isNumber_toString (n : Nat) : IsNumber (toString n).toList := by
  have hlist : (toString n).toList = Nat.toDigits 10 n := by simp
  rw [hlist]
  exact ⟨Nat.toDigits_ne_nil, fun c hc => Nat.isDigit_of_mem_toDigits (by decide) (by decide) hc⟩

/-- A number is what its digits tell. -/
theorem decimal_toString (n : Nat) : decimal (toString n).toList = n := by
  have hlist : (toString n).toList = Nat.toDigits 10 n := by simp
  rw [hlist]
  exact Nat.ofDigitChars_ten_toDigits

theorem isSpace_of_isDigit {c : Char} (h : c.isDigit = true) : isSpace c = false := by
  have hle : 48 ≤ c.toNat := by
    simp only [Char.isDigit, Bool.and_eq_true, decide_eq_true_eq] at h
    exact UInt32.le_iff_toNat_le.1 h.1
  refine decide_eq_false ?_
  rintro (rfl | ⟨_, h13⟩)
  · exact absurd hle (by decide)
  · omega

/-! ## Scanned numbers -/

/-- What `%u` takes for a number. -/
structure ScannedNumber where
  blanks : List Char
  sign : List Char
  digits : List Char
  isBlank : ∀ c ∈ blanks, isSpace c = true
  isSign : sign = [] ∨ sign = ['+'] ∨ sign = ['-']
  isNumber : IsNumber digits

namespace ScannedNumber

variable {n n' : ScannedNumber} {text rest rest' : List Char}

/-- The number, as it is written. -/
def spelling (n : ScannedNumber) : List Char := n.blanks ++ (n.sign ++ n.digits)

/-- A value beyond 64 bits is the largest one, and what does not fit 32 bits is cut. -/
def value (n : ScannedNumber) : UInt32 :=
  UInt32.ofNat (if decimal n.digits ≥ 2 ^ 64 then 2 ^ 64 - 1
    else if n.sign = ['-'] then (2 ^ 64 - decimal n.digits) % 2 ^ 64 else decimal n.digits)

/-- Digits only. -/
def Plain (n : ScannedNumber) : Prop := n.blanks = [] ∧ n.sign = []

theorem head?_digits (n : ScannedNumber) (rest : List Char) :
    ∀ c ∈ (n.digits ++ rest).head?, c.isDigit = true := by
  obtain ⟨hne, hdigit⟩ := n.isNumber
  intro c hc
  cases hdigits : n.digits with
  | nil => exact absurd hdigits hne
  | cons d digits =>
    rw [hdigits] at hc hdigit
    cases hc
    exact hdigit _ List.mem_cons_self

/-- What follows the blanks is no blank. -/
theorem head?_sign (n : ScannedNumber) (rest : List Char) :
    ∀ c ∈ (n.sign ++ (n.digits ++ rest)).head?, isSpace c = false := by
  intro c hc
  rcases n.isSign with h | h | h <;> rw [h] at hc
  · exact isSpace_of_isDigit (n.head?_digits rest c hc)
  · cases hc
    decide
  · cases hc
    decide

/-- What is before the digits is no digit. -/
theorem span_sign (n : ScannedNumber) (rest : List Char) :
    (n.sign ++ (n.digits ++ rest)).takeWhile (!·.isDigit) = n.sign ∧
      (n.sign ++ (n.digits ++ rest)).dropWhile (!·.isDigit) = n.digits ++ rest := by
  refine span_append ?_ fun c hc => by rw [n.head?_digits rest c hc]; rfl
  rcases n.isSign with h | h | h <;> rw [h] <;> decide

theorem spelling_append (n : ScannedNumber) (rest : List Char) :
    n.spelling ++ rest = n.blanks ++ (n.sign ++ (n.digits ++ rest)) := by
  rw [spelling, List.append_assoc, List.append_assoc]

theorem scanUnsigned_spelling (n : ScannedNumber) (hrest : ∀ c ∈ rest.head?, c.isDigit = false) :
    scanUnsigned (n.spelling ++ rest) = some (n.value, rest) := by
  obtain ⟨htake, hdrop⟩ := span_append n.isNumber.2 hrest
  rw [scanUnsigned, spelling_append, (span_append n.isBlank (n.head?_sign rest)).2, value]
  rcases n.isSign with h | h | h
  · -- The digits start with no sign.
    have hsign : ∀ c : Char, c.isDigit = false → (n.digits ++ rest).head? ≠ some c := by
      intro c hc hhead
      rw [n.head?_digits rest c hhead] at hc
      cases hc
    rw [h, List.nil_append]
    simp only [hsign '-' (by decide), hsign '+' (by decide), or_self, if_false, htake, hdrop,
      if_neg n.isNumber.1]
    rfl
  · rw [h]
    simp [htake, hdrop, n.isNumber.1]
  · rw [h]
    simp [htake, hdrop, n.isNumber.1]

theorem exists_of_scanUnsigned {value : UInt32} (h : scanUnsigned text = some (value, rest)) :
    ∃ n : ScannedNumber, text = n.spelling ++ rest ∧ n.value = value ∧
      ∀ c ∈ rest.head?, c.isDigit = false := by
  have hblanks : ∀ c ∈ text.takeWhile isSpace, isSpace c = true :=
    fun _ hc => List.mem_takeWhile_imp hc
  have hsplit : ∃ sign, (sign = [] ∨ sign = ['+'] ∨ sign = ['-']) ∧ ∃ number,
      text.dropWhile isSpace = sign ++ number ∧ number.takeWhile Char.isDigit ≠ [] ∧
        number.dropWhile Char.isDigit = rest := by
    rw [scanUnsigned] at h
    generalize text.dropWhile isSpace = number at h
    dsimp only at h
    by_cases hempty : (if number.head? = some '-' ∨ number.head? = some '+' then number.tail
        else number).takeWhile Char.isDigit = []
    · rw [if_pos hempty] at h
      cases h
    rw [if_neg hempty] at h
    have hrest := (Prod.mk.inj (Option.some.inj h)).2
    split_ifs at hempty hrest with hsign
    · rcases hsign with hminus | hplus
      · obtain ⟨number, rfl⟩ := List.head?_eq_some_iff.1 hminus
        exact ⟨['-'], .inr (.inr rfl), number, rfl, hempty, hrest⟩
      · obtain ⟨number, rfl⟩ := List.head?_eq_some_iff.1 hplus
        exact ⟨['+'], .inr (.inl rfl), number, rfl, hempty, hrest⟩
    · exact ⟨[], .inl rfl, number, rfl, hempty, hrest⟩
  obtain ⟨sign, hsign, number, htext, hdigits, rfl⟩ := hsplit
  have hhead := head?_dropWhile Char.isDigit number
  let n : ScannedNumber :=
    { blanks := text.takeWhile isSpace, sign, digits := number.takeWhile Char.isDigit,
      isBlank := hblanks, isSign := hsign, isNumber := isNumber_takeWhile hdigits }
  have heq : text = n.spelling ++ number.dropWhile Char.isDigit := by
    rw [spelling_append]
    show text = text.takeWhile isSpace ++ (sign ++ (_ ++ _))
    rw [List.takeWhile_append_dropWhile, ← htext, List.takeWhile_append_dropWhile]
  refine ⟨n, heq, ?_, hhead⟩
  rw [heq, n.scanUnsigned_spelling hhead] at h
  cases h
  rfl

/-- There is one way only to divide a text. -/
theorem eq_of_spelling_append (h : n.spelling ++ rest = n'.spelling ++ rest')
    (hrest : ∀ c ∈ rest.head?, c.isDigit = false) (hrest' : ∀ c ∈ rest'.head?, c.isDigit = false) :
    n = n' ∧ rest = rest' := by
  rw [spelling_append, spelling_append] at h
  have hspan := span_append n.isBlank (n.head?_sign rest)
  have hspan' := span_append n'.isBlank (n'.head?_sign rest')
  rw [h] at hspan
  have hblanks : n.blanks = n'.blanks := hspan.1.symm.trans hspan'.1
  have hmore : n.sign ++ (n.digits ++ rest) = n'.sign ++ (n'.digits ++ rest') :=
    hspan.2.symm.trans hspan'.2
  have hsign := (n.span_sign rest).1
  rw [hmore, (n'.span_sign rest').1] at hsign
  rw [← hsign, List.append_cancel_left_eq] at hmore
  have hdigits := span_append n.isNumber.2 hrest
  have hdigits' := span_append n'.isNumber.2 hrest'
  rw [hmore] at hdigits
  have heq : n.digits = n'.digits := hdigits.1.symm.trans hdigits'.1
  refine ⟨?_, hdigits.2.symm.trans hdigits'.2⟩
  cases n
  cases n'
  simp_all

end ScannedNumber

/-! ## Scanned texts -/

/-- Some numbers with commas between them, up to the end of the last one. -/
structure Scanned (numbers : List ScannedNumber) (text rest : List Char) : Prop where
  text_eq : text = [','].intercalate (numbers.map ScannedNumber.spelling) ++ rest
  head?_rest : ∀ c ∈ rest.head?, c.isDigit = false

theorem Scanned.singleton {n : ScannedNumber} {text rest : List Char} :
    Scanned [n] text rest ↔ text = n.spelling ++ rest ∧ ∀ c ∈ rest.head?, c.isDigit = false := by
  have hjoin : [','].intercalate ([n].map ScannedNumber.spelling) = n.spelling :=
    List.intercalate_singleton
  constructor
  · rintro ⟨rfl, hrest⟩
    exact ⟨by rw [hjoin], hrest⟩
  · rintro ⟨rfl, hrest⟩
    exact ⟨by rw [hjoin], hrest⟩

theorem Scanned.cons {n : ScannedNumber} {numbers : List ScannedNumber} (hne : numbers ≠ [])
    {text rest : List Char} : Scanned (n :: numbers) text rest ↔
      ∃ text' : List Char, text = n.spelling ++ ',' :: text' ∧ Scanned numbers text' rest := by
  have hjoin : [','].intercalate ((n :: numbers).map ScannedNumber.spelling) ++ rest =
      n.spelling ++ ',' :: ([','].intercalate (numbers.map ScannedNumber.spelling) ++ rest) := by
    rw [List.map_cons, List.intercalate_cons_of_ne_nil (by simpa using hne), List.append_assoc,
      List.append_assoc]
    rfl
  constructor
  · rintro ⟨rfl, hrest⟩
    exact ⟨_, hjoin, rfl, hrest⟩
  · rintro ⟨text', rfl, rfl, hrest⟩
    exact ⟨hjoin.symm, hrest⟩

/-- There is no digit at the start of what follows a number. -/
theorem head?_comma (text : List Char) : ∀ c ∈ (',' :: text).head?, c.isDigit = false := by
  intro c hc
  cases hc
  decide

theorem scanNumbers_succ {count : Nat} {text rest : List Char} {values : List UInt32} :
    scanNumbers (count + 1) text = some (values, rest) ↔ ∃ value text' values',
      scanUnsigned text = some (value, ',' :: text') ∧
        scanNumbers count text' = some (values', rest) ∧ value :: values' = values := by
  conv_lhs => unfold scanNumbers
  rcases scanUnsigned text with _ | ⟨value, _ | ⟨c, text'⟩⟩
  · simp
  · simp
  · by_cases hc : c = ','
    · subst hc
      simp
    · simp [hc]

/-- Scanning finds the numbers that the text is made of. -/
theorem scanNumbers_eq_some_iff {count : Nat} {text rest : List Char} {values : List UInt32} :
    scanNumbers count text = some (values, rest) ↔ ∃ numbers : List ScannedNumber,
      numbers.length = count + 1 ∧ Scanned numbers text rest ∧
        numbers.map ScannedNumber.value = values := by
  induction count generalizing text values with
  | zero =>
    rw [scanNumbers, Option.map_eq_some_iff]
    constructor
    · rintro ⟨⟨value, rest'⟩, hscan, heq⟩
      cases heq
      obtain ⟨n, htext, rfl, hrest⟩ := ScannedNumber.exists_of_scanUnsigned hscan
      exact ⟨[n], rfl, Scanned.singleton.2 ⟨htext, hrest⟩, rfl⟩
    · rintro ⟨numbers, hlength, hscanned, rfl⟩
      obtain ⟨n, rfl⟩ := List.length_eq_one_iff.1 hlength
      obtain ⟨rfl, hrest⟩ := Scanned.singleton.1 hscanned
      exact ⟨_, n.scanUnsigned_spelling hrest, rfl⟩
  | succ count ih =>
    rw [scanNumbers_succ]
    constructor
    · rintro ⟨value, text', values', hscan, hmore, rfl⟩
      obtain ⟨n, rfl, rfl, _⟩ := ScannedNumber.exists_of_scanUnsigned hscan
      obtain ⟨numbers, hlength, hscanned, rfl⟩ := ih.1 hmore
      exact ⟨n :: numbers, by rw [List.length_cons, hlength],
        (Scanned.cons (List.ne_nil_of_length_eq_add_one hlength)).2 ⟨text', rfl, hscanned⟩, rfl⟩
    · rintro ⟨numbers, hlength, hscanned, rfl⟩
      obtain ⟨n, numbers, rfl⟩ := List.exists_cons_of_length_eq_add_one hlength
      rw [List.length_cons, Nat.add_right_cancel_iff] at hlength
      obtain ⟨text', rfl, hmore⟩ :=
        (Scanned.cons (List.ne_nil_of_length_eq_add_one hlength)).1 hscanned
      exact ⟨n.value, text', _, n.scanUnsigned_spelling (head?_comma text'),
        ih.2 ⟨numbers, hlength, hmore, rfl⟩, rfl⟩

/-- Blanks before the numbers, and what does not go on with digits after them, change
    nothing. -/
theorem scanNumbers_surround {count : Nat} {text before after : List Char} {values : List UInt32}
    (h : scanNumbers count text = some (values, [])) (hbefore : ∀ c ∈ before, isSpace c = true)
    (hafter : ∀ c ∈ after.head?, c.isDigit = false) :
    scanNumbers count (before ++ (text ++ after)) = some (values, after) := by
  obtain ⟨numbers, hlength, hscanned, rfl⟩ := scanNumbers_eq_some_iff.1 h
  obtain ⟨n, numbers, rfl⟩ := List.exists_cons_of_length_eq_add_one hlength
  have hblank : ∀ c ∈ before ++ n.blanks, isSpace c = true :=
    List.forall_mem_append.2 ⟨hbefore, n.isBlank⟩
  rw [scanNumbers_eq_some_iff]
  refine ⟨{ n with blanks := before ++ n.blanks, isBlank := hblank } :: numbers, hlength,
    ⟨?_, hafter⟩, rfl⟩
  rw [hscanned.text_eq, List.append_nil, ← List.append_assoc]
  congr 1
  cases numbers <;> simp [ScannedNumber.spelling, List.intercalate_cons_cons]

/-- A text is made of as many numbers in one way only. -/
theorem Scanned.eq {numbers numbers' : List ScannedNumber} {text rest rest' : List Char}
    (h : Scanned numbers text rest) (h' : Scanned numbers' text rest')
    (hlength : numbers.length = numbers'.length) : numbers = numbers' ∧ rest = rest' := by
  induction numbers generalizing numbers' text with
  | nil =>
    obtain rfl := List.eq_nil_of_length_eq_zero hlength.symm
    exact ⟨rfl, h.text_eq.symm.trans h'.text_eq⟩
  | cons n numbers ih =>
    obtain ⟨n', numbers', rfl⟩ := List.exists_cons_of_length_eq_add_one hlength.symm
    rw [List.length_cons, List.length_cons, Nat.add_right_cancel_iff] at hlength
    by_cases hne : numbers = []
    · obtain rfl := hne
      obtain rfl := List.eq_nil_of_length_eq_zero hlength.symm
      obtain ⟨htext, hrest⟩ := Scanned.singleton.1 h
      obtain ⟨htext', hrest'⟩ := Scanned.singleton.1 h'
      obtain ⟨rfl, rfl⟩ :=
        ScannedNumber.eq_of_spelling_append (htext.symm.trans htext') hrest hrest'
      exact ⟨rfl, rfl⟩
    · have hne' : numbers' ≠ [] := by
        rintro rfl
        exact hne (List.eq_nil_of_length_eq_zero hlength)
      obtain ⟨more, htext, hmore⟩ := (Scanned.cons hne).1 h
      obtain ⟨more', htext', hmore'⟩ := (Scanned.cons hne').1 h'
      obtain ⟨rfl, hrest⟩ := ScannedNumber.eq_of_spelling_append (htext.symm.trans htext')
        (head?_comma _) (head?_comma _)
      obtain rfl := (List.cons.inj hrest).2
      obtain ⟨rfl, rfl⟩ := ih hmore hmore' hlength
      exact ⟨rfl, rfl⟩

end HybridFtp
