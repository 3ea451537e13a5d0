import DeclPrinter.Symbol

/-!
# Type expressions

A type expression is written once and spelled per target language: `[]T` or
`List<T>`, `*T` or the boxed name of `T`. The failure channel is a type of its
own, because each language reports failures in its own way.
-/

namespace DeclPrinter

/-- The type of a field, a parameter or a result. -/
inductive TypeExpr where
  /-- A symbol, or the name of a type declared in the tree. -/
  | simple (symbol : Symbol)
  /-- A sequence of elements. -/
  | slice (element : TypeExpr)
  /-- A map from keys to values. -/
  | map (key value : TypeExpr)
  /-- A reference to an element, or none. -/
  | pointer (element : TypeExpr)
  /-- The failure channel: an error value, or an exception. -/
  | failure
  deriving DecidableEq, Repr, Inhabited

namespace TypeExpr

/-- Whether the type is the failure channel. -/
def isFailureChannel : TypeExpr → Bool
  | .failure => true
  | _ => false

end TypeExpr

end DeclPrinter
