import DeclPrinter.Toml.Scalar

/-!
# The text of TOML documents

A document is read line by line. Each line is blank, adds a member or is a header,
and what it adds goes to the table of the last header.
-/

namespace DeclPrinter.Toml

open Reader

/-- The limit on values within values and on the parts of a key. -/
def nestingLimit : Nat :=
  80

/-- Where a member goes: the keys that lead to its table, and its own key. -/
structure KeyPath where
  parents : List String
  key : String
  deriving DecidableEq, Repr, Inhabited

/-- The text of a comment, up to the end of its line. -/
def comment : Reader Unit := do
  token "#"
  discard (run isPlain)

/-- What may follow on the line of a member or a header. -/
def restOfLine : Reader Unit := do
  blanks
  discard (optional comment)
  newline <|> done

/-- Blanks, ends of lines and comments, as they may stand between the items of an
array. -/
def spacing : Reader Unit :=
  discard (many (discard (run1 isBlank) <|> newline <|> comment))

/-- One part of a key: a bare word or a string. -/
def simpleKey : Reader String :=
  basicString <|> literalString <|>
    String.ofList <$> run1 fun c => c.isAlphanum || c == '-' || c == '_'

/-- A key, of one part or of several between dots. -/
def keyPath : Reader KeyPath := do
  let parts ← separated (token ".") (blanks *> simpleKey <* blanks)
  guard (parts.length < nestingLimit)
  return ⟨parts.dropLast, parts.getLast?.getD ""⟩

/-- A key, the equals sign and a value. -/
def member (value : Reader Value) : Reader (KeyPath × Value) := do
  let path ← keyPath
  token "="
  blanks
  return (path, ← value)

/-- The members of an inline table: no key may be taken twice, nor may a dotted key
lead into a table that is written in full. -/
def inlineMembers (entries : List (KeyPath × Value)) : Option Members :=
  entries.foldlM (fun members (path, value) => members.addAt path.parents path.key value) []

/-- A value, with at most so many values around those at its bottom. -/
def value : Nat → Reader Value
  | 0 => scalar
  | depth + 1 =>
    let array := do
      token "["
      let items ← optional (separated (token ",") (spacing *> value depth <* spacing))
      if items.isSome then discard (optional (token ","))
      spacing
      token "]"
      return Value.array (items.getD [])
    let inlineTable := do
      token "\x7b"
      let entries ← optional (separated (token ",") (member (value depth) <* blanks))
      blanks
      token "\x7d"
      let members ← StateT.lift (inlineMembers (entries.getD []))
      return Value.table .inline members
    array <|> inlineTable <|> scalar

/-- A line that says something. -/
inductive Line where
  /-- Adds a member to the current table. -/
  | entry (path : KeyPath) (value : Value)
  /-- Begins a table. -/
  | header (path : KeyPath)
  /-- Begins one more of the tables under one name. -/
  | element (path : KeyPath)
  deriving Repr, Inhabited

/-- A line, together with the blank lines and comments after it. -/
def line : Reader Line := do
  let said ← element <|> header <|> entry
  restOfLine
  spacing
  return said
where
  /-- A header in double brackets. -/
  element : Reader Line := .element <$> (token "[[" *> keyPath <* token "]]")
  /-- A header in single brackets. -/
  header : Reader Line := .header <$> (token "[" *> keyPath <* token "]")
  /-- A member of the current table. -/
  entry : Reader Line := do
    let (path, value) ← member (value (nestingLimit - 1))
    return .entry path value

/-- All lines of a text, which may begin with a byte order mark. -/
def lines : Reader (List Line) := do
  discard (optional (char (·.toNat == 0xFEFF)))
  spacing
  many line

/-- A document that is being read: what it holds, and the path of the current table. -/
structure Draft where
  members : Members
  current : List String
  deriving Inhabited

/-- What a line does to a document. -/
def Draft.add (draft : Draft) : Line → Option Draft
  | .entry path value => do
    let members ← draft.members.amend .header
      (fun _ inner => inner.addAt path.parents path.key value) draft.current .named
    return { draft with members }
  | .header path =>
    return ⟨← draft.members.begin path.parents path.key, path.parents ++ [path.key]⟩
  | .element path =>
    return ⟨← draft.members.beginElement path.parents path.key, path.parents ++ [path.key]⟩

/-- The members of the document with this text, unless the text is not TOML. -/
def parse? (text : String) : Option Members := do
  let draft ← (← lines.whole? text).foldlM Draft.add ⟨[], []⟩
  return draft.members

end DeclPrinter.Toml
