import DeclPrinter.Text.HiddenTable

/-!
# Text with every character visible

The inspected form of a text is a double-quoted literal in which each hidden
character (see `Text.HiddenTable`) is written by its code point in
hexadecimal, and the common control characters by their short escapes.
-/

namespace DeclPrinter.Text

/-- A character without a glyph of its own. -/
def isHidden (c : Char) : Bool :=
  hiddenRanges.any fun (first, last) => first ≤ c.toNat && c.toNat ≤ last

/-- The characters that show one character of an inspected text. -/
def inspectedChar (c : Char) : List Char :=
  if c = '"' then ['\\', '"']
  else if c = '\\' then ['\\', '\\']
  else if c = '\n' then ['\\', 'n']
  else if c = '\r' then ['\\', 'r']
  else if c = '\t' then ['\\', 't']
  else if c.toNat = 0 then ['\\', '0']
  else if isHidden c then ['\\', 'u', '\x7b'] ++ Nat.toDigits 16 c.toNat ++ ['\x7d']
  else [c]

/-- The inspected form of a text. -/
def inspected (s : String) : String :=
  String.ofList (['"'] ++ s.toList.flatMap inspectedChar ++ ['"'])

/-- The inspected form of a list of texts: `["a", "b"]`. -/
def inspectedList (items : List String) : String :=
  "[" ++ ", ".intercalate (items.map inspected) ++ "]"

end DeclPrinter.Text
