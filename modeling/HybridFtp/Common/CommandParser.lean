import Mathlib.Data.List.DropRight

/-!
# The command parser

A command line is the name of a command and its argument, with blanks between and
around them. Strings are strings of bytes: each of their characters stands for one.
-/

namespace HybridFtp

/-- What is read of a command line. -/
structure ParsedCommand where
  name : String := ""
  argument : String := ""
  valid : Bool := false
  deriving DecidableEq, Repr

namespace CommandParser

/-- One of `" \t\r\n"`. -/
def isBlank (c : Char) : Bool := c = ' ' ∨ c = '\t' ∨ c = '\r' ∨ c = '\n'

/-- Without the blanks at both ends. -/
def trim (text : String) : String :=
  String.ofList ((text.toList.dropWhile isBlank).rdropWhile isBlank)

/-- `std::toupper` of each byte. -/
def toUpper (text : String) : String := String.ofList (text.toList.map Char.toUpper)

/-- The name ends at the first space or tab. A line of blanks is not valid. -/
def parse (input : String) : ParsedCommand :=
  let cleanedInput := trim input
  if cleanedInput = "" then {}
  else
    let result : ParsedCommand :=
      match cleanedInput.toList.findIdx? fun c => c = ' ' ∨ c = '\t' with
      | none => { name := toUpper cleanedInput }
      | some separator =>
        { name := toUpper (String.ofList (cleanedInput.toList.take separator))
          argument := trim (String.ofList (cleanedInput.toList.drop (separator + 1))) }
    { result with valid := decide (result.name ≠ "") }

example : parse "  stor\tmy file.txt \r\n" = ⟨"STOR", "my file.txt", true⟩ := by decide +kernel

end CommandParser

end HybridFtp
