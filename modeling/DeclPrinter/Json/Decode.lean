import DeclPrinter.Json.Basic

/-!
# Reading typed values out of JSON

The readers here undo the forms that records and alternatives are written in.
They are lenient in three ways only: a record may have members nobody asks for,
an optional part may be missing as well as `null`, and a record may be given as
an array of all its parts in order. Everything else is refused.
-/

namespace DeclPrinter.Json

/-- How deep values are nested in each other: an upper bound for every reader that
follows the nesting. -/
def nesting : Json → Nat
  | .array items => itemsNesting items + 1
  | .object members => membersNesting members + 1
  | _ => 0
where
  /-- The greatest nesting among the items of an array. -/
  itemsNesting : List Json → Nat
    | [] => 0
    | item :: rest => max item.nesting (itemsNesting rest)
  /-- The greatest nesting among the members of an object. -/
  membersNesting : List (String × Json) → Nat
    | [] => 0
    | (_, value) :: rest => max value.nesting (membersNesting rest)

/-- The text of a string. -/
def asString? : Json → Option String
  | .string s => some s
  | _ => none

/-- The items of an array, each read by `decode`. -/
def asList? {α : Type} (decode : Json → Option α) : Json → Option (List α)
  | .array items => items.mapM decode
  | _ => none

/-- A pair of two values, given as an array of exactly two. -/
def asPair? {α β : Type} (first : Json → Option α) (second : Json → Option β) :
    Json → Option (α × β)
  | .array [a, b] => return (← first a, ← second b)
  | _ => none

/-- The parts of a record in the order of their names: those of an object are found
by name and may be missing, those of an array are all there. -/
def parts? (names : List String) : Json → Option (List (Option Json))
  | .object members => some (names.map fun name => members.lookup name)
  | .array items => if items.length = names.length then some (items.map some) else none
  | _ => none

/-- A part that has to be there. -/
def required {α : Type} (decode : Json → Option α) (part : Option Json) : Option α :=
  part.bind decode

/-- A part that may be missing or `null`. -/
def optional {α : Type} (decode : Json → Option α) : Option Json → Option (Option α)
  | none => some none
  | some .null => some none
  | some value => (decode value).map some

/-- The name of an alternative and its contents: an object with exactly one member,
or a string for an alternative without contents. -/
def variant? : Json → Option (String × Option Json)
  | .string name => some (name, none)
  | .object [(name, payload)] => some (name, some payload)
  | _ => none

/-- Whether the contents of an alternative are those of one that has none. -/
def isUnit : Option Json → Bool
  | none => true
  | some .null => true
  | some _ => false

end DeclPrinter.Json
