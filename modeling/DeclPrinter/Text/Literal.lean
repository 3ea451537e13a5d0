/-!
# Double-quoted string literals

The literal of a text is the same in every target language: the quote and the
backslash are escaped, and so are the three control characters that would
break the line or the column (`\n`, `\r`, `\t`). Every other character stands
for itself.
-/

namespace DeclPrinter.Text

/-- The characters that stand for one character inside a literal. -/
def literalChar (c : Char) : List Char :=
  if c = '"' then ['\\', '"']
  else if c = '\\' then ['\\', '\\']
  else if c = '\n' then ['\\', 'n']
  else if c = '\r' then ['\\', 'r']
  else if c = '\t' then ['\\', 't']
  else [c]

/-- The double-quoted literal that denotes the text. -/
def literal (s : String) : String :=
  String.ofList (['"'] ++ s.toList.flatMap literalChar ++ ['"'])

end DeclPrinter.Text
