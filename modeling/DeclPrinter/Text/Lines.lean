/-!
# Cutting text at separators

Two ways to cut text into lines are in use. Output is cut at every newline,
so that each newline starts a new line (`splitLines`). Comments are read as a
sequence of lines that newlines end (`lines`): the newline at the end of the
text starts no line of its own, and a carriage return before a newline
belongs to the line end.
-/

namespace DeclPrinter.Text

/-- The pieces of the text between the characters that `isSeparator` accepts;
`n` separators give `n + 1` pieces, empty ones included. -/
def splitAt (isSeparator : Char → Bool) (s : String) : List String :=
  (s.toList.splitOnP isSeparator).map String.ofList

/-- The non-empty pieces of the text between separators. -/
def pieces (isSeparator : Char → Bool) (s : String) : List String :=
  (splitAt isSeparator s).filter (!·.isEmpty)

/-- The lines that the newlines of the text separate. -/
def splitLines (s : String) : List String :=
  splitAt (· == '\n') s

/-- A line without the carriage return at its end. -/
def dropReturn (line : List Char) : List Char :=
  if line.getLast? == some '\r' then line.dropLast else line

/-- The lines that the newlines of the text end; a last line without a newline
counts when it is not empty. -/
def lines (s : String) : List String :=
  let cut := s.toList.splitOnP (· == '\n')
  let ended := cut.dropLast.map dropReturn
  let last := cut.getLast?.getD []
  (if last.isEmpty then ended else ended ++ [last]).map String.ofList

end DeclPrinter.Text
