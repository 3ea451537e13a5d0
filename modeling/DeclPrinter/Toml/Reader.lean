/-!
# Reading from the front of a text

A reader takes what it reads off the front of a list of characters and leaves the
rest, or refuses. Readers are total: `many`, the one that repeats, stops as soon as
nothing is taken.
-/

namespace DeclPrinter.Toml

/-- Takes a value off the front of a text, or refuses the text. -/
abbrev Reader (α : Type) : Type :=
  StateT (List Char) Option α

namespace Reader

/-- The next character, when it is of this class. -/
def char (accepts : Char → Bool) : Reader Char := fun text =>
  match text with
  | c :: rest => if accepts c then some (c, rest) else none
  | [] => none

/-- Exactly these characters. -/
def token (s : String) : Reader Unit :=
  s.toList.forM fun c => discard (char (· == c))

/-- The longest run of characters of this class, which may be empty. -/
def run (accepts : Char → Bool) : Reader (List Char) := fun text =>
  some (text.span accepts)

/-- The longest run of characters of this class, which is not empty. -/
def run1 (accepts : Char → Bool) : Reader (List Char) := do
  let found ← run accepts
  guard (!found.isEmpty)
  return found

/-- Exactly this many characters of this class. -/
def times (count : Nat) (accepts : Char → Bool) : Reader (List Char) :=
  (List.replicate count ()).mapM fun _ => char accepts

/-- The end of the text. -/
def done : Reader Unit := fun text =>
  if text.isEmpty then some ((), text) else none

/-- The values that `reader` takes one after the other, and the rest of the text. It
stops where `reader` refuses or takes nothing. -/
def collect {α : Type} (reader : Reader α) (text : List Char) : List α × List Char :=
  match reader text with
  | none => ([], text)
  | some (value, rest) =>
    if rest.length < text.length then
      let (values, remaining) := collect reader rest
      (value :: values, remaining)
    else ([], text)
termination_by text.length

/-- As many values as there are. -/
def many {α : Type} (reader : Reader α) : Reader (List α) := fun text =>
  some (collect reader text)

/-- One value or more, with separators between them and none after the last. -/
def separated {α : Type} (separator : Reader Unit) (reader : Reader α) : Reader (List α) := do
  let first ← reader
  let others ← many (separator *> reader)
  return first :: others

/-- A reader that reports the characters it has taken. -/
def taken {α : Type} (reader : Reader α) : Reader (List Char) := fun text => do
  let (_, rest) ← reader text
  return (text.take (text.length - rest.length), rest)

/-- The value of a whole text. -/
def whole? {α : Type} (reader : Reader α) (text : String) : Option α :=
  ((reader <* done) text.toList).map (·.1)

end Reader

end DeclPrinter.Toml
