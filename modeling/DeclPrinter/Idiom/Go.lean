import DeclPrinter.Idiom.Expander
import DeclPrinter.Text.Literal

/-!
# Idioms in Go

A failure is an `error` value, returned last. Passing one on means returning early,
with a zero value for every result before it and the failure wrapped in a message.
A statement needs no terminator.
-/

namespace DeclPrinter

/-- The built-in Go types whose zero value is the number 0. -/
def goNumberTypes : List String :=
  ["int", "int8", "int16", "int32", "int64", "uint", "uint8", "uint16", "uint32", "uint64",
    "uintptr", "float32", "float64", "complex64", "complex128", "byte", "rune"]

/-- The zero value of a built-in Go type, if the name is one. -/
def goBuiltinZero? (name : String) : Option String :=
  if name == "string" then some "\"\""
  else if name == "bool" then some "false"
  else if name == "any" || name == "error" then some "nil"
  else if goNumberTypes.contains name then some "0"
  else none

/-- The zero value of what a symbol names. -/
def goTargetZero : SymbolTarget → FileM String
  | .declared id => do
    if (← FileM.context).tree.isStruct id then
      return (← FileM.spellDeclared id) ++ "\x7b\x7d"
    else return "nil"
  | .external reference =>
    let builtin :=
      if reference.importPath.isNone && reference.member.isNone then
        goBuiltinZero? reference.localName
      else none
    match builtin with
    | some zero => return zero
    | none => return "*new(" ++ (← FileM.spell reference) ++ ")"

/-- The zero value of a type in Go. -/
def goZero (type : TypeExpr) (place : TreePath) : FileM String :=
  match type with
  | .simple symbol => do goTargetZero (← FileM.meaning symbol place)
  | _ => return "nil"

/-- The return statement that leaves the func of the scope with a failure. -/
def goFailureReturn (scope : IdiomScope) (failure : Code) : FileM Statement := do
  let zeros ← scope.func.leadingResults.mapM fun result => goZero result.type scope.path
  let values := zeros.map fun zero => Segment.text (zero ++ ", ")
  return .code (⟨.text "return " :: values⟩ ++ failure)

/-- The message of a wrapped failure as a format string: each percent sign is doubled,
and the cause follows after a colon. -/
def goWrapFormat (message : String) : String :=
  String.ofList (message.toList.flatMap fun c => if c = '%' then ['%', '%'] else [c]) ++ ": %w"

/-- The failure `err` wrapped in a message. -/
def goWrapped (message : String) : Code :=
  ⟨[.reference (.ofMember "fmt" "fmt" "Errorf"),
    .text ("(" ++ Text.literal (goWrapFormat message) ++ ", err)")]⟩

/-- A fresh failure with a message. -/
def goFailure (message : String) : Code :=
  ⟨[.reference (.ofMember "errors" "errors" "New"), .text ("(" ++ Text.literal message ++ ")")]⟩

/-- An attempt in Go: the call, bound to its names and `err`, and an early return when
`err` is set. -/
def goAttempt (operands : Attempt) (scope : IdiomScope) : FileM (List Statement) := do
  scope.ensureCanFail .attempt
  let onFailure ← goFailureReturn scope (goWrapped operands.message)
  if operands.names.isEmpty then
    let header := Code.ofText "if err := " ++ operands.call ++ Code.ofText "; err != nil"
    return [.block (.headed header [onFailure])]
  else
    let binding := Code.ofText (", ".intercalate operands.names ++ ", err := ") ++ operands.call
    return [.code binding, .block (.headed (.ofText "if err != nil") [onFailure])]

/-- The expanders of Go. -/
def goExpanders : List Expander :=
  [⟨.terminator, fun _ _ => return []⟩,
    ⟨.attempt, fun
      | .attempt operands, scope => goAttempt operands scope
      | _, scope => scope.refuse .attempt .kindMismatch⟩,
    ⟨.fail, fun
      | .fail message, scope => do
        scope.ensureCanFail .fail
        return [← goFailureReturn scope (goFailure message)]
      | _, scope => scope.refuse .fail .kindMismatch⟩]

end DeclPrinter
