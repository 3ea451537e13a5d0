import DeclPrinter.Writing.Spelling

/-!
# Results in signatures

How the declared results of a func become what its signature returns. Two
conventions are known. Where a language returns several values, the results are
returned as they are, the failure channel among them. Where it returns one value
and throws exceptions, a trailing failure result becomes a `throws` clause, and
several remaining results are bundled into a record named after the func.
-/

namespace DeclPrinter

/-- What a signature returns. -/
inductive Returned where
  /-- No value. -/
  | nothing
  /-- One value of this type. -/
  | single (type : String)
  /-- Several values, each a type or a name with its type. -/
  | tuple (parts : List String)
  /-- A record of its own, with named components. -/
  | record (name : String) (components : List (String × String))
  deriving DecidableEq, Repr, Inhabited

/-- The results of a func as its signature shows them. -/
structure ResultForm where
  /-- What is returned. -/
  returned : Returned
  /-- The type in the `throws` clause, if there is one. -/
  throws : Option String
  deriving DecidableEq, Repr, Inhabited

/-! ### Several values -/

/-- A result as a part of a list of values. -/
def resultPart (place : TreePath) (result : Param) : FileM String := do
  let type ← FileM.spellType result.type place
  return if result.name.isEmpty then type else result.name ++ " " ++ type

/-- What is returned when the results are these parts; a single part stands alone
only if it has no name. -/
def returnsOfParts (haveNames : Bool) : List String → Returned
  | [] => .nothing
  | [part] => if haveNames then .tuple [part] else .single part
  | parts => .tuple parts

/-- The results of a func that are returned as they are. -/
def plainResults (func : Func) (place : TreePath) : FileM ResultForm := do
  let parts ← func.results.mapM (resultPart place)
  return ⟨returnsOfParts (func.results.any (!·.name.isEmpty)) parts, none⟩

/-! ### One value and an exception -/

/-- The convention of one value and exceptions. -/
structure ExceptionStyle where
  /-- The type that the `throws` clause names. -/
  failure : String
  /-- What the name of a record ends in. -/
  suffix : String
  deriving DecidableEq, Repr, Inhabited

namespace ExceptionStyle

/-- The usual convention, which is that of Java: a record is called a result. -/
def standard : ExceptionStyle :=
  ⟨FileM.javaFailure, "Result"⟩

/-- The name of the record for the results of a func. -/
def recordName (convention : ExceptionStyle) (func : String) : String :=
  Text.capitalize func ++ convention.suffix

/-- The name of the component for the result at an index: that of the result, or
else its number, counted from one. -/
def partName (index : Nat) (name : String) : String :=
  if name.isEmpty then "value" ++ toString (index + 1) else name

/-- The results that are returned as values, and whether the others are thrown. -/
def values (func : Func) : List Param × Bool :=
  if func.canFail then (func.leadingResults, true) else (func.results, false)

/-- A result as a component of a record. -/
def component (place : TreePath) (result : Param × Nat) : FileM (String × String) := do
  return (partName result.2 result.1.name, ← FileM.spellType result.1.type place)

/-- What is returned for the results that are values. -/
def returned (convention : ExceptionStyle) (func : String) (place : TreePath) :
    List Param → FileM Returned
  | [] => return .nothing
  | [result] => return .single (← FileM.spellType result.type place)
  | results => do
    return .record (convention.recordName func) (← results.zipIdx.mapM (component place))

/-- The results of a func under the convention. -/
def resultForm (convention : ExceptionStyle) (func : Func) (place : TreePath) :
    FileM ResultForm := do
  let (results, throws) := values func
  return ⟨← convention.returned func.name place results,
    if throws then some convention.failure else none⟩

end ExceptionStyle

end DeclPrinter
