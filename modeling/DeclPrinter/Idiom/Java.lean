import DeclPrinter.Idiom.Expander
import DeclPrinter.Text.Literal

/-!
# Idioms in Java

A failure is an exception. Passing one on means catching it and throwing another
that carries the message and the cause. A statement ends in the terminator of the
language.
-/

namespace DeclPrinter

/-- The code that throws a failure with a message and, after it, further arguments. -/
def javaThrow (message arguments : String) : Code :=
  .ofText ("throw new Exception(" ++ Text.literal message ++ arguments ++ ")")

/-- The declaration of the name that an attempt binds, and the start of the assignment
to it; nothing when it binds none. -/
def javaBinding (operands : Attempt) (scope : IdiomScope) : FileM (List Statement × Code) :=
  match operands.names with
  | [] => return ([], ⟨[]⟩)
  | name :: _ =>
    match operands.bindingType with
    | none => scope.refuse .attempt (.missingBindingType name)
    | some type => do
      let spelled ← FileM.spellType type scope.path
      return ([.code (.ofText (spelled ++ " " ++ name)), .terminator], .ofText (name ++ " = "))

/-- An attempt in Java: the declaration of the name it binds, and the call in a block
whose exceptions are caught and thrown again. -/
def javaAttempt (operands : Attempt) (scope : IdiomScope) : FileM (List Statement) := do
  scope.ensureCanFail .attempt
  if operands.names.length > 1 then
    scope.refuse .attempt (.manyNames operands.names.length)
  else
    let (declaration, assignment) ← javaBinding operands scope
    let rethrow :=
      Block.headed (.ofText "catch (Exception e)")
        [.code (javaThrow operands.message ", e"), .terminator]
    let guarded :=
      Block.headed (.ofText "try") [.code (assignment ++ operands.call), .terminator]
    return declaration ++ [.block (guarded.chain rethrow)]

/-- The expanders of Java. -/
def javaExpanders : List Expander :=
  [⟨.terminator, fun _ _ => return [.terminator]⟩,
    ⟨.attempt, fun
      | .attempt operands, scope => javaAttempt operands scope
      | _, scope => scope.refuse .attempt .kindMismatch⟩,
    ⟨.fail, fun
      | .fail message, scope => do
        scope.ensureCanFail .fail
        return [.code (javaThrow message ""), .terminator]
      | _, scope => scope.refuse .fail .kindMismatch⟩]

end DeclPrinter
