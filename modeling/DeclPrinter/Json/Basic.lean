/-!
# JSON values and their compact text

Trees, artifacts and declarations have a JSON form. Members keep the order
they are written in, numbers are the small integers that serve as ids, and
the compact text has no space between tokens.
-/

namespace DeclPrinter

/-- A JSON value. -/
inductive Json where
  | null
  | bool (value : Bool)
  | number (value : Int)
  | string (value : String)
  | array (items : List Json)
  | object (members : List (String × Json))
  deriving Repr, Inhabited

namespace Json

/-- The characters that stand for one character inside a JSON string. -/
def stringChar (c : Char) : List Char :=
  if c = '"' then ['\\', '"']
  else if c = '\\' then ['\\', '\\']
  else if c = '\n' then ['\\', 'n']
  else if c = '\r' then ['\\', 'r']
  else if c = '\t' then ['\\', 't']
  else if c.toNat = 8 then ['\\', 'b']
  else if c.toNat = 12 then ['\\', 'f']
  else if c.toNat < 32 then
    ['\\', 'u', '0', '0', Nat.digitChar (c.toNat / 16), Nat.digitChar (c.toNat % 16)]
  else [c]

/-- The text of a JSON string. Control characters are escaped, by a letter where
there is one and by four hexadecimal digits elsewhere. -/
def stringText (s : String) : String :=
  String.ofList (['"'] ++ s.toList.flatMap stringChar ++ ['"'])

mutual

/-- The compact text of a value. -/
def compact : Json → String
  | .null => "null"
  | .bool true => "true"
  | .bool false => "false"
  | .number n => toString n
  | .string s => stringText s
  | .array items => "[" ++ ",".intercalate (compactItems items) ++ "]"
  | .object members => "\x7b" ++ ",".intercalate (compactMembers members) ++ "\x7d"

/-- The compact texts of the items of an array. -/
def compactItems : List Json → List String
  | [] => []
  | item :: rest => item.compact :: compactItems rest

/-- The compact texts of the members of an object. -/
def compactMembers : List (String × Json) → List String
  | [] => []
  | (name, value) :: rest => (stringText name ++ ":" ++ value.compact) :: compactMembers rest

end

/-- A text, or `null` when there is none. -/
def ofString? : Option String → Json
  | some s => .string s
  | none => .null

/-- A list of values of one kind. -/
def ofList {α : Type} (encode : α → Json) (items : List α) : Json :=
  .array (items.map encode)

/-- A value under the name of its alternative. -/
def variant (name : String) (payload : Json) : Json :=
  .object [(name, payload)]

end Json

end DeclPrinter
