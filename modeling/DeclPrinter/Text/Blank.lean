/-!
# White space and trimming

Names and comments are trimmed, and a name made of white space alone counts
as no name. White space is the Unicode property `White_Space`: twenty-five
code points, none of them above U+3000, so the property is written out here
as a test on the code point.
-/

namespace DeclPrinter.Text

/-- A white-space character: a code point with the property `White_Space`. -/
def isBlank (c : Char) : Bool :=
  let n := c.toNat
  (9 ≤ n && n ≤ 13) || n == 0x20 || n == 0x85 || n == 0xA0 || n == 0x1680 ||
    (0x2000 ≤ n && n ≤ 0x200A) || n == 0x2028 || n == 0x2029 || n == 0x202F ||
    n == 0x205F || n == 0x3000

/-! ### Trimming, on characters and on text -/

/-- The characters from the first one that is not white space on. -/
def dropBlankStart (cs : List Char) : List Char :=
  cs.dropWhile isBlank

/-- The characters up to the last one that is not white space. -/
def dropBlankEnd (cs : List Char) : List Char :=
  (cs.reverse.dropWhile isBlank).reverse

/-- The text without the white space at its start. -/
def trimStart (s : String) : String :=
  String.ofList (dropBlankStart s.toList)

/-- The text without the white space at its end. -/
def trimEnd (s : String) : String :=
  String.ofList (dropBlankEnd s.toList)

/-- The text without the white space at either end. -/
def trim (s : String) : String :=
  String.ofList (dropBlankEnd (dropBlankStart s.toList))

/-- A text that holds nothing but white space. -/
def isAllBlank (s : String) : Bool :=
  s.toList.all isBlank

end DeclPrinter.Text
