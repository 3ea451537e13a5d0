import DeclPrinter.Text.CaseTable
import DeclPrinter.Text.Lines

/-!
# Case at the start of a name

Only the first character of a name ever changes case: a public name starts
with an upper-case letter, a private one with a lower-case letter, and the
words of a file name are capitalised before they are joined into a class
name. One character may become several (`ß` becomes `SS`, `İ` becomes `i`
and a combining dot), so a mapping yields a list.
-/

namespace DeclPrinter.Text

/-- The mapping of one character by a table of runs and one of expansions. -/
def mapCase (runs : List CaseRun) (expansions : List (Nat × List Nat)) (c : Char) : List Char :=
  match runs.find? (·.contains c.toNat) with
  | some run => [Char.ofNat (c.toNat + run.shift).toNat]
  | none =>
    match expansions.lookup c.toNat with
    | some points => points.map Char.ofNat
    | none => [c]

/-- The full upper-case mapping of a character. -/
def upper (c : Char) : List Char :=
  mapCase upperRuns upperExpansions c

/-- The full lower-case mapping of a character. -/
def lower (c : Char) : List Char :=
  mapCase lowerRuns lowerExpansions c

/-- The text with its first character mapped by `f`. -/
def mapFirst (f : Char → List Char) (s : String) : String :=
  match s.toList with
  | [] => ""
  | c :: rest => String.ofList (f c ++ rest)

/-- The name with its first character in upper case. -/
def capitalize (s : String) : String :=
  mapFirst upper s

/-- The name with its first character in lower case. -/
def uncapitalize (s : String) : String :=
  mapFirst lower s

/-- A character between the words of a file name. -/
def isWordBreak (c : Char) : Bool :=
  c == '_' || c == '-' || c == ' ' || c == '.'

/-- The words of a file name, each capitalised, joined into one name:
`hello_world` gives `HelloWorld`. -/
def joinCapitalized (s : String) : String :=
  String.join ((pieces isWordBreak s).map capitalize)

end DeclPrinter.Text
