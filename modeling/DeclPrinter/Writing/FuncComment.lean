import DeclPrinter.Comment
import DeclPrinter.Script
import DeclPrinter.Writing.Spelling

/-!
# Comments in a file

The comment on a func is gathered from the func, its parameters and its results; a
result without a name goes by its type, which is spelled as in the file.
-/

namespace DeclPrinter

/-- The documented parameters: name and comment. -/
def paramDocs (params : List Param) : List (String × String) :=
  params.filterMap fun param => (param.doc.bind Comment.role).map (param.name, ·)

/-- The comment on a result, if it is documented. -/
def resultComment? (place : TreePath) (result : Param) : FileM (Option ResultComment) := do
  match result.doc.bind Comment.role with
  | none => return none
  | some text =>
    let label ←
      if result.name.isEmpty then FileM.spellType result.type place else pure result.name
    return some ⟨label, text, result.type.isFailureChannel⟩

/-- The comment on a func that is called `subject` in the file. -/
def funcComment (func : Func) (subject : String) (place : TreePath) : FileM FuncComment := do
  let results ← func.results.mapM (resultComment? place)
  return ⟨Comment.lines subject func.doc, paramDocs func.params, results.filterMap id⟩

/-- The comment on a block, line by line. -/
def blockComment (language : Language) (doc : Option String) : Script :=
  (Comment.lines "" doc).map fun line =>
    .line (language.commentMark ++ " " ++ Text.trimStart line)

end DeclPrinter
