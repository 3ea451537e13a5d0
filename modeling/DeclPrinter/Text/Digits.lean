/-!
# Digits

Numbers are written in texts by their digits, in a base up to sixteen: code points in escapes, and
the integers of a configuration.
-/

namespace DeclPrinter.Text

/-- A hexadecimal digit. -/
def isHexDigit (c : Char) : Bool :=
  c.isDigit || ('a' ≤ c && c ≤ 'f') || ('A' ≤ c && c ≤ 'F')

/-- The value of a digit in a base up to sixteen. -/
def digitValue (c : Char) : Nat :=
  if c.isDigit then c.toNat - '0'.toNat
  else if 'a' ≤ c then c.toNat - 'a'.toNat + 10
  else c.toNat - 'A'.toNat + 10

/-- The number that digits denote. Other characters among them are passed over. -/
def digitsValue (base : Nat) (digits : List Char) : Nat :=
  (digits.filter isHexDigit).foldl (fun value c => value * base + digitValue c) 0

end DeclPrinter.Text
