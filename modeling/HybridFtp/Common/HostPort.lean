import HybridFtp.Lib.Numbers

/-!
# Addresses and ports in commands and replies

The six numbers `h1,h2,h3,h4,p1,p2` of a `PORT` command and of the reply to `PASV`.

* `HostPort`: six numbers, with the address and the port they stand for;
* `HostPort.InRange`: six numbers of a byte each.
-/

namespace HybridFtp

open Elements

/-- A list of six. -/
theorem exists_of_length_six {α : Type*} : ∀ {l : List α}, l.length = 6 →
    ∃ a1 a2 a3 a4 a5 a6, l = [a1, a2, a3, a4, a5, a6]
  | [a1, a2, a3, a4, a5, a6], _ => ⟨a1, a2, a3, a4, a5, a6, rfl⟩

/-- Six numbers: those of an address and those of a port. -/
structure HostPort where
  h1 : List Char
  h2 : List Char
  h3 : List Char
  h4 : List Char
  p1 : List Char
  p2 : List Char
  isNumber : ∀ n ∈ [h1, h2, h3, h4, p1, p2], IsNumber n

namespace HostPort

variable (e : HostPort)

/-- The six of them, in order. -/
def numbers : List (List Char) := [e.h1, e.h2, e.h3, e.h4, e.p1, e.p2]

theorem isNumber_of_mem : ∀ n ∈ e.numbers, IsNumber n := e.isNumber

/-- The numbers with commas between them. -/
def text : List Char := [','].intercalate e.numbers

/-- A byte each. -/
def InRange : Prop := ∀ n ∈ e.numbers, decimal n ≤ 255

instance : Decidable e.InRange := inferInstanceAs (Decidable (∀ n ∈ e.numbers, decimal n ≤ 255))

/-- The first four, with dots between them. -/
def address : String := String.intercalate "." ([e.h1, e.h2, e.h3, e.h4].map String.ofList)

/-- The last two are the bytes of a port, the high one first. -/
def port : Nat := 256 * decimal e.p1 + decimal e.p2

theorem text_eq : e.text = e.h1 ++ ',' :: (e.h2 ++ ',' :: (e.h3 ++ ',' :: (e.h4 ++ ',' ::
    (e.p1 ++ ',' :: e.p2)))) := by
  simp [text, numbers, List.intercalate_cons_cons]

theorem mem_text {c : Char} (h : c ∈ e.text) : c.isDigit = true ∨ c = ',' := by
  have hnumber := e.isNumber
  simp only [List.forall_mem_cons] at hnumber
  obtain ⟨h1, h2, h3, h4, p1, p2, _⟩ := hnumber
  simp only [text_eq, List.mem_append, List.mem_cons] at h
  rcases h with h | h | h | h | h | h | h | h | h | h | h
  exacts [.inl (h1.2 c h), .inr h, .inl (h2.2 c h), .inr h, .inl (h3.2 c h), .inr h,
    .inl (h4.2 c h), .inr h, .inl (p1.2 c h), .inr h, .inl (p2.2 c h)]

theorem ext_numbers {e e' : HostPort} (h : e.numbers = e'.numbers) : e = e' := by
  cases e
  cases e'
  simp only [numbers, List.cons.injEq] at h
  simp [h]

theorem exists_of_length {numbers : List (List Char)} (hlength : numbers.length = 6)
    (h : ∀ n ∈ numbers, IsNumber n) : ∃ e : HostPort, e.numbers = numbers := by
  obtain ⟨h1, h2, h3, h4, p1, p2, rfl⟩ := exists_of_length_six hlength
  exact ⟨{ h1, h2, h3, h4, p1, p2, isNumber := h }, rfl⟩

end HostPort

end HybridFtp
