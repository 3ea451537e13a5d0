import DeclPrinter.Text.Blank
import DeclPrinter.Text.Lines

/-!
# Documentation comments

A comment may leave out its subject: one that starts with an ellipsis (`...` or
`…`) is completed with the name of what it documents, so that `...does X` on `Foo`
reads `Foo does X`. Any other comment is taken as it is. The comment on a parameter
or a result stands beside the name of it, so there the ellipsis is only dropped.
-/

namespace DeclPrinter.Comment

/-- What follows the ellipsis at the start of a text, if there is one. -/
def afterEllipsis? (text : String) : Option String :=
  match text.toList with
  | '.' :: '.' :: '.' :: rest => some (String.ofList rest)
  | '…' :: rest => some (String.ofList rest)
  | _ => none

/-- The comment on `subject` in full; there is none when it is blank. -/
def complete (subject raw : String) : Option String :=
  let text := Text.trim raw
  if text.isEmpty then none
  else
    match afterEllipsis? text with
    | some rest =>
      if Text.isAllBlank rest then some subject
      else some (subject ++ " " ++ Text.trimStart rest)
    | none => some text

/-- The comment on a parameter or a result, without its ellipsis; there is none
when it is blank. -/
def role (raw : String) : Option String :=
  let text := Text.trim raw
  if text.isEmpty then none else some (Text.trim ((afterEllipsis? text).getD text))

/-- The lines of the comment on `subject`; none when there is no comment. -/
def lines (subject : String) (raw : Option String) : List String :=
  match raw.bind (complete subject) with
  | some text => (Text.lines text).map Text.trimEnd
  | none => []

end DeclPrinter.Comment

namespace DeclPrinter

/-- The comment on a result. -/
structure ResultComment where
  /-- The name of the result, or its type when it has no name. -/
  label : String
  /-- The comment. -/
  text : String
  /-- Whether the result is the failure channel. -/
  failure : Bool
  deriving DecidableEq, Repr, Inhabited

/-- The comment on a func with those on its parameters and results. -/
structure FuncComment where
  /-- The lines of the comment on the func itself. -/
  summary : List String
  /-- The documented parameters in order: name and comment. -/
  params : List (String × String)
  /-- The documented results in order. -/
  results : List ResultComment
  deriving DecidableEq, Repr, Inhabited

namespace FuncComment

/-- Whether there is nothing to write. -/
def isEmpty (doc : FuncComment) : Bool :=
  doc.summary.isEmpty && doc.params.isEmpty && doc.results.isEmpty

/-- Whether a parameter or a result is documented. -/
def documentsParts (doc : FuncComment) : Bool :=
  !doc.params.isEmpty || !doc.results.isEmpty

end FuncComment

end DeclPrinter
