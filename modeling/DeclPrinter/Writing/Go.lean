import DeclPrinter.Columns
import DeclPrinter.Text.Literal
import DeclPrinter.Writing.Body
import DeclPrinter.Writing.Results

/-!
# Go declarations

Types and funcs in Go, laid out as the standard formatter would: the fields of a
struct in columns, methods after their type with a pointer receiver, several results
in parentheses. Comments are line comments above what they document; what a func says
about its parameters and results follows its own comment.
-/

namespace DeclPrinter

/-! ### Comments -/

/-- Line comments, one per line. -/
def goComment (lines : List String) : Script :=
  lines.map fun line => .line (if line.isEmpty then "//" else "// " ++ line)

/-- What is said about a parameter or a result, as a line of a comment. -/
def goRoleLine (role label text : String) : String :=
  Text.trimEnd (role ++ " " ++ quoted label ++ " " ++ text)

/-- The comment on a func, with those on its parameters and results. -/
def goFuncComment (doc : FuncComment) : Script :=
  let params := doc.params.map fun param => goRoleLine "parameter" param.1 param.2
  let results := doc.results.map fun result => goRoleLine "result" result.label result.text
  goComment doc.summary ++ goComment (params ++ results)

/-! ### Package clause and imports -/

/-- The package clause under the documentation of the package. -/
def goPackageClause (package : PackageNode) (doc : Option String) : Script :=
  goComment (Comment.lines ("Package " ++ package.name) doc) ++
    [.line ("package " ++ package.name)]

/-- An import, with the name it is bound to if it is not its own. -/
def goImportSpec (entry : Import) : String :=
  match entry.rebound with
  | some name => name ++ " " ++ Text.literal entry.path
  | none => Text.literal entry.path

/-- The import section: one line for a single import, a list for several. -/
def goImports (imports : Imports) : Script :=
  match imports.listed.map goImportSpec with
  | [] => []
  | [spec] => [.line ("import " ++ spec)]
  | specs => [.line "import (", .indent] ++ specs.map .line ++ [.dedent, .line ")"]

/-! ### Signatures -/

/-- A parameter. -/
def goParam (place : TreePath) (param : Param) : FileM String := do
  return param.name ++ " " ++ (← FileM.spellType param.type place)

/-- What a signature returns, after its parameters. -/
def goReturns : Returned → String
  | .nothing => ""
  | .single type => " " ++ type
  | .tuple parts => " (" ++ ", ".intercalate parts ++ ")"
  | .record name _ => " " ++ name

/-- The parameters and results of a func. -/
def goSignature (func : Func) (place : TreePath) : FileM String := do
  let params ← func.params.mapM (goParam place)
  let results ← plainResults func place
  return "(" ++ ", ".intercalate params ++ ")" ++ goReturns results.returned

/-! ### Funcs -/

/-- The name that stands for the receiver of a method that gives it none: the first
letter of the type. -/
def implicitReceiver (type : String) : String :=
  String.ofList ((Text.uncapitalize type).toList.take 1)

/-- The receiver of a method, in parentheses; nothing for a func that is none. -/
def goReceiver (func : Func) (home : FuncHome) : FileM String := do
  match home with
  | .type id =>
    let nameOfType ← FileM.spellDeclared id
    let context ← FileM.context
    let receiver := func.receiver.getD (implicitReceiver (context.tree.type id).name)
    return "(" ++ receiver ++ " *" ++ nameOfType ++ ") "
  | _ => return ""

/-- A func or a method. -/
def goFunc (registry : Registry) (id : FuncId) : FileM Script := do
  let tree := (← FileM.context).tree
  let func := tree.func id
  let place := tree.funcPath id
  let name := goName func.name func.visibility
  let receiver ← goReceiver func (tree.funcHome id)
  let doc ← funcComment func name place
  let signature ← goSignature func place
  let body ← bodyScript registry func place
  return goFuncComment doc ++
    [.line ("func " ++ receiver ++ name ++ signature ++ " \x7b"), .indent] ++ body ++
    [.dedent, .line "\x7d"]

/-! ### Structs -/

/-- A line of a struct: its comment and its cells. -/
structure FieldRow where
  /-- The lines of the comment above it. -/
  doc : List String
  /-- Name, type and tag. -/
  cells : Columns.Row
  deriving Repr, Inhabited

/-- An option of a tag, after a comma. -/
def goTagOption (param : String × String) : String :=
  "," ++ param.1 ++ (if param.2.isEmpty then "" else "=" ++ param.2)

/-- One key of a struct tag with its value and options. -/
def goTagPart (marker : Marker) : String :=
  let options := String.join (marker.params.map goTagOption)
  marker.name ++ ":\"" ++ marker.value.getD "" ++ options ++ "\""

/-- The struct tag of a field, if it has metadata. -/
def goTag? (markers : List Marker) : Option String :=
  if markers.isEmpty then none else some (quoted (" ".intercalate (markers.map goTagPart)))

/-- The line of a field. -/
def goFieldRow (id : FieldId) : FileM FieldRow := do
  let tree := (← FileM.context).tree
  let field := tree.field id
  let name := goName field.name field.visibility
  let type ← FileM.spellType field.type (tree.fieldPath id)
  return ⟨Comment.lines name field.doc, [name, type] ++ (goTag? field.markers).toList⟩

/-- The lines of fields that are aligned together, under the comment of the first. -/
def goFieldGroup (rows : List FieldRow) : Script :=
  goComment ((rows.head?.map (·.doc)).getD []) ++ (Columns.layOut (rows.map (·.cells))).map .line

/-- The lines of the fields. A comment interrupts the columns, so each documented
field starts a group of its own. -/
def goFieldRows (rows : List FieldRow) : Script :=
  (rows.splitBy fun _ next => next.doc.isEmpty).flatMap goFieldGroup

/-- A struct that is called `name`. -/
def goStruct (type : TypeNode) (name : String) : FileM Script := do
  if type.fields.isEmpty then return [.line ("type " ++ name ++ " struct\x7b\x7d")]
  else
    let rows ← type.fields.mapM goFieldRow
    return [.line ("type " ++ name ++ " struct \x7b"), .indent] ++ goFieldRows rows ++
      [.dedent, .line "\x7d"]

/-! ### Interfaces -/

/-- The signature of an interface method. -/
def goInterfaceMethod (id : FuncId) : FileM Script := do
  let tree := (← FileM.context).tree
  let func := tree.func id
  let place := tree.funcPath id
  let name := goName func.name func.visibility
  let doc ← funcComment func name place
  let signature ← goSignature func place
  return goFuncComment doc ++ [.line (name ++ signature)]

/-- An interface that is called `name`. -/
def goInterface (type : TypeNode) (name : String) : FileM Script := do
  if type.methods.isEmpty then return [.line ("type " ++ name ++ " interface\x7b\x7d")]
  else
    let methods ← type.methods.mapM goInterfaceMethod
    return [.line ("type " ++ name ++ " interface \x7b"), .indent] ++ methods.flatten ++
      [.dedent, .line "\x7d"]

/-! ### Types -/

/-- A type; the methods of a struct follow it. -/
def goTypeScript (registry : Registry) (id : TypeId) : FileM Script := do
  let type := (← FileM.context).tree.type id
  let name := goName type.name type.visibility
  let comment := goComment (Comment.lines name type.doc)
  match type.kind with
  | .struct =>
    let struct ← goStruct type name
    let methods ← type.methods.mapM fun method => return .blank :: (← goFunc registry method)
    return comment ++ struct ++ methods.flatten
  | .interface => return comment ++ (← goInterface type name)

end DeclPrinter
