import DeclPrinter.Text.Digits
import DeclPrinter.Toml.Basic
import DeclPrinter.Toml.Reader

/-!
# The scalars of TOML

Strings in their four spellings, numbers, truth values and points in time. Each reader
follows the grammar of TOML 1.0. A number has to fit: integers have 64 bits with a
sign, and a float must not be too large for double precision.
-/

namespace DeclPrinter.Toml

open Reader
open Text (isHexDigit digitsValue)

/-! ### Characters -/

/-- A blank inside a line. -/
def isBlank (c : Char) : Bool :=
  c == ' ' || c == '\t'

/-- A character that may stand in comments and strings: any but the control
characters, of which only the tab is allowed. -/
def isPlain (c : Char) : Bool :=
  c == '\t' || (32 ≤ c.toNat && c.toNat != 127)

/-- Blanks inside a line, which may be missing. -/
def blanks : Reader Unit :=
  discard (run isBlank)

/-- The end of a line, with or without a carriage return. -/
def newline : Reader Unit :=
  token "\n" <|> token "\r\n"

/-! ### Strings -/

/-- A character by its number, in so many hexadecimal digits. -/
def charByNumber (digits : Nat) : Reader Char := do
  let number := digitsValue 16 (← times digits isHexDigit)
  guard number.isValidChar
  return Char.ofNat number

/-- A character written after a backslash. -/
def escaped : Reader Char := do
  token "\\"
  match ← char fun _ => true with
  | 'b' => return Char.ofNat 8
  | 't' => return '\t'
  | 'n' => return '\n'
  | 'f' => return Char.ofNat 12
  | 'r' => return '\r'
  | '"' => return '"'
  | '\\' => return '\\'
  | 'u' => charByNumber 4
  | 'U' => charByNumber 8
  | _ => failure

/-- A string in double quotes, on one line. -/
def basicString : Reader String := do
  token "\""
  let text ← many (escaped <|> char fun c => isPlain c && c != '"' && c != '\\')
  token "\""
  return String.ofList text

/-- A string in single quotes, on one line and without escapes. -/
def literalString : Reader String := do
  token "'"
  let text ← run fun c => isPlain c && c != '\''
  token "'"
  return String.ofList text

/-- A backslash at the end of a line, and all blanks and ends of lines after it. -/
def continuedLine : Reader (List Char) := do
  token "\\"
  blanks
  newline
  discard (many (discard (run1 isBlank) <|> newline))
  return []

/-- The end of a string in triple quotes. Up to two of the quotes in front of the
closing ones belong to the string. -/
def tripleEnd (quote : Char) : Reader (List Char) :=
  (close 2 <|> close 1) <|> close 0
where
  /-- Closing quotes after so many quotes of text. -/
  close (extra : Nat) : Reader (List Char) :=
    return (← times (extra + 3) (· == quote)).take extra

/-- A quote that does not begin a closing triple. -/
def loneQuote (quote : Char) : Reader Char := fun text =>
  if text.take 3 == List.replicate 3 quote then none else char (· == quote) text

/-- A string in triple quotes: `part` reads what is special to the kind of quote. A
line break right after the opening quotes is left out, any other is a line feed. -/
def tripleString (quote : Char) (part : Reader (List Char)) : Reader String := do
  discard (times 3 (· == quote))
  discard (optional newline)
  let plain := char fun c => isPlain c && c != quote && c != '\\'
  let parts ← many (part <|> List.singleton <$> (plain <|> loneQuote quote) <|>
    newline *> pure ['\n'])
  let last ← tripleEnd quote
  return String.ofList (parts.flatten ++ last)

/-- A string in any of the four spellings. -/
def string : Reader String :=
  tripleString '"' (continuedLine <|> List.singleton <$> escaped) <|> basicString <|>
    tripleString '\'' (token "\\" *> pure ['\\']) <|> literalString

/-! ### Numbers -/

/-- Whether every underscore stands between two digits. -/
def wellSpaced : List Char → Bool
  | [] => false
  | '_' :: _ => false
  | [_] => true
  | _ :: '_' :: rest => wellSpaced rest
  | _ :: rest => wellSpaced rest

/-- Digits, with single underscores between digits. -/
def digits (isDigit : Char → Bool) : Reader (List Char) := do
  let text ← run fun c => isDigit c || c == '_'
  guard (wellSpaced text)
  return text

/-- A plus or minus sign, which may be missing; answers whether it is a minus. -/
def sign : Reader Bool := do
  let mark ← optional (char fun c => c == '+' || c == '-')
  return mark == some '-'

/-- One more than the largest integer. -/
def integerBound : Nat :=
  Nat.pow 2 63

/-- Digits without a sign, behind the mark of their base. -/
def basedInteger (mark : String) (base : Nat) (isDigit : Char → Bool) : Reader Int := do
  token mark
  let value := digitsValue base (← digits isDigit)
  guard (value < integerBound)
  return value

/-- Decimal digits that do not begin with a needless zero. -/
def decimal : Reader (List Char) := do
  let text ← digits Char.isDigit
  guard (text.length == 1 || text.head? != some '0')
  return text

/-- An integer: decimal and with any sign, or without one in base sixteen, eight or two. -/
def integer : Reader Int :=
  basedInteger "0x" 16 isHexDigit <|>
  basedInteger "0o" 8 (fun c => '0' ≤ c && c ≤ '7') <|>
  basedInteger "0b" 2 (fun c => c == '0' || c == '1') <|> do
    let negative ← sign
    let value := digitsValue 10 (← decimal)
    guard (value < integerBound || (negative && value == integerBound))
    return if negative then -value else value

/-- Whether `digits` · 10 ^ `exponent` rounds beyond the largest double: it is at least
half a unit above it. The number of places decides all but the numbers nearby. -/
def exceedsDouble (digits : Nat) (exponent : Int) : Bool :=
  let limit := Nat.pow 2 1024 - Nat.pow 2 970
  let places := (Nat.toDigits 10 digits).length + exponent
  digits != 0 &&
    (309 < places || (places == 309 &&
      limit * Nat.pow 10 (-exponent).toNat ≤ digits * Nat.pow 10 exponent.toNat))

/-- A decimal number with a fraction, an exponent or both. -/
def decimalFloat : Reader Unit := do
  let negative ← sign
  let whole ← decimal
  let fraction ← optional (token "." *> digits Char.isDigit)
  let exponent ← optional do
    discard (char fun c => c == 'e' || c == 'E')
    let below ← sign
    let value : Int := digitsValue 10 (← digits Char.isDigit)
    return if below then -value else value
  guard (fraction.isSome || exponent.isSome)
  let places := fraction.getD []
  let shift : Int := exponent.getD 0 - (places.filter Char.isDigit).length
  guard (negative || !exceedsDouble (digitsValue 10 (whole ++ places)) shift)

/-- A float: a decimal number, an infinity or no number at all. -/
def float : Reader String :=
  String.ofList <$> taken (decimalFloat <|> do
    discard sign
    token "inf" <|> token "nan")

/-- A truth value. -/
def boolean : Reader Bool :=
  token "true" *> pure true <|> token "false" *> pure false

/-! ### Points in time -/

/-- A number of so many digits within bounds. -/
def bounded (count low high : Nat) : Reader Nat := do
  let value := digitsValue 10 (← times count Char.isDigit)
  guard (low ≤ value && value ≤ high)
  return value

/-- The number of days of a month. -/
def daysOfMonth (year month : Nat) : Nat :=
  let leap := year % 4 == 0 && (year % 100 != 0 || year % 400 == 0)
  if month == 2 then (if leap then 29 else 28)
  else if month == 4 || month == 6 || month == 9 || month == 11 then 30
  else 31

/-- A day of the calendar. -/
def day : Reader Unit := do
  let year ← bounded 4 0 9999
  token "-"
  let month ← bounded 2 1 12
  token "-"
  discard (bounded 2 1 (daysOfMonth year month))

/-- A time of the day, to the second or finer. A minute may have a leap second. -/
def clock : Reader Unit := do
  discard (bounded 2 0 23)
  token ":"
  discard (bounded 2 0 59)
  token ":"
  discard (bounded 2 0 60)
  discard (optional (token "." *> run1 Char.isDigit))

/-- The distance from universal time. -/
def offset : Reader Unit :=
  discard (char fun c => c == 'Z' || c == 'z') <|> do
    discard (char fun c => c == '+' || c == '-')
    discard (bounded 2 0 23)
    token ":"
    discard (bounded 2 0 59)

/-- A day, a time of a day, or both, in which case an offset may follow. -/
def time : Reader String :=
  String.ofList <$> taken (clock <|> do
    day
    discard (optional do
      discard (char fun c => c == 'T' || c == 't' || c == ' ')
      clock
      discard (optional offset)))

/-- A value that holds no other. -/
def scalar : Reader Value :=
  .string <$> string <|> .boolean <$> boolean <|> .time <$> time <|>
    .float <$> float <|> .integer <$> integer

end DeclPrinter.Toml
