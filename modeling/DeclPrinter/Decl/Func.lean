import DeclPrinter.Decl.Code

/-!
# Funcs, fields and their parts

The declarations that types and files are made of. A parameter and a result are
the same thing, except that a result may leave its name empty.
-/

namespace DeclPrinter

/-- Whether other packages may use a declaration. -/
inductive Visibility where
  | exported
  | hidden
  deriving DecidableEq, Repr, Inhabited

/-- Metadata on a field or a parameter, such as `json:"name,omitempty"`. -/
structure Marker where
  /-- The name of the metadata. -/
  name : String
  /-- Its value, if it has one. -/
  value : Option String
  /-- Further options, each a key with a possibly empty value. -/
  params : List (String × String)
  deriving DecidableEq, Repr, Inhabited

/-- A parameter or a result of a func. -/
structure Param where
  /-- The name; empty for a result without one. -/
  name : String
  /-- The type. -/
  type : TypeExpr
  /-- A comment. -/
  doc : Option String
  /-- Metadata. -/
  markers : List Marker
  deriving DecidableEq, Repr, Inhabited

/-- A field of a struct. -/
structure Field where
  /-- The name. -/
  name : String
  /-- Who may use the field. -/
  visibility : Visibility
  /-- The type. -/
  type : TypeExpr
  /-- A comment. -/
  doc : Option String
  /-- Metadata. -/
  markers : List Marker
  deriving DecidableEq, Repr, Inhabited

/-- A func, a method, or the signature of an interface method. -/
structure Func where
  /-- The name. -/
  name : String
  /-- Who may use the func. -/
  visibility : Visibility
  /-- The name of the receiver; methods only. -/
  receiver : Option String
  /-- The parameters in order. -/
  params : List Param
  /-- The results in order. -/
  results : List Param
  /-- The body. -/
  body : Block
  /-- A comment. -/
  doc : Option String
  deriving Repr, Inhabited, BEq

namespace Func

/-- Whether the last result is the failure channel. -/
def canFail (func : Func) : Bool :=
  func.results.getLast?.any (·.type.isFailureChannel)

/-- The results before the last one. -/
def leadingResults (func : Func) : List Param :=
  func.results.dropLast

end Func

end DeclPrinter
