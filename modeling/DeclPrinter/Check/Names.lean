import DeclPrinter.Failure
import DeclPrinter.Text.Blank

/-!
# Checks on names

The two questions asked about names all through a tree: is there one, and are they
distinct?
-/

namespace DeclPrinter.Check

/-- A check passes or fails. -/
abbrev Result : Type :=
  Except Failure Unit

/-- Fails if the name is blank. -/
def hasName (name : String) (path : TreePath) (what : NameBearer) : Result :=
  if Text.isAllBlank name then .error (.missingName path what) else .ok ()

/-- The first name that occurs in `seen` or before itself. -/
def firstRepeated? (seen : List String) : List String → Option String
  | [] => none
  | name :: rest => if seen.contains name then some name else firstRepeated? (name :: seen) rest

/-- Fails on the first name that repeats an earlier one. -/
def distinct (names : List String) (path : TreePath) (scope : NameScope) : Result :=
  match firstRepeated? [] names with
  | some name => .error (.duplicateName path scope name)
  | none => .ok ()

end DeclPrinter.Check
