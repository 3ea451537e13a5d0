import DeclPrinter.Writing.Body
import DeclPrinter.Writing.Results

/-!
# Java declarations

Types and funcs in Java. A file that is one type and nothing else is that type as a
class at top level; any other file is a wrapping class with nested static types and
static methods. A func with several results returns a record, which is declared just
above it and may not take the name of a class around it. Comments are documentation
comments with the usual tags.
-/

namespace DeclPrinter

/-! ### Comments -/

/-- A line inside a documentation comment of several lines. -/
def docCommentLine (line : String) : Step :=
  .line (if line.isEmpty then " *" else " * " ++ line)

/-- A documentation comment. -/
def docComment : List String → Script
  | [] => []
  | [line] => [.line ("/** " ++ line ++ " */")]
  | lines => [.line "/**"] ++ lines.map docCommentLine ++ [.line " */"]

/-- The lines on the results that are returned as values: one is simply what is
returned, several are told apart by their labels. -/
def returnLines : List ResultComment → List String
  | [result] => [Text.trimEnd ("@return " ++ result.text)]
  | results => results.map fun result =>
    Text.trimEnd ("@return \x7b@code " ++ result.label ++ "\x7d " ++ result.text)

/-- The lines of the comment on a func, with those on its parameters and results. -/
def funcCommentLines (doc : FuncComment) : List String :=
  let separator := if doc.documentsParts && !doc.summary.isEmpty then [""] else []
  let params := doc.params.map fun param =>
    Text.trimEnd ("@param " ++ param.1 ++ " " ++ param.2)
  let failures := (doc.results.filter (·.failure)).map fun result =>
    Text.trimEnd ("@throws " ++ FileM.javaFailure ++ " " ++ result.text)
  doc.summary ++ separator ++ params ++ returnLines (doc.results.filter (!·.failure)) ++
    failures

/-! ### Package clause and imports -/

/-- The package clause under the documentation of the package. -/
def javaPackageClause (module : ModuleNode) (package : PackageNode) (doc : Option String) :
    Script :=
  docComment (Comment.lines package.name doc) ++
    [.line ("package " ++ javaPackageName module package ++ ";")]

/-- The import section, one line per import. -/
def javaImports (imports : Imports) : Script :=
  imports.listed.map fun entry => .line ("import " ++ entry.path ++ ";")

/-! ### Methods -/

/-- How a method is declared. -/
inductive MethodForm where
  /-- A method of an object. -/
  | ofObject
  /-- A method of a class. -/
  | ofClass
  /-- A method of an interface, without modifiers and without a body. -/
  | ofInterface
  deriving DecidableEq, Repr, Inhabited

/-- The access modifier with the blank after it; a class at top level cannot be
private. -/
def accessModifier (visibility : Visibility) (topLevel : Bool) : String :=
  match visibility with
  | .exported => "public "
  | .hidden => if topLevel then "" else "private "

/-- The modifiers of a method, each with the blank after it. -/
def methodModifiers (visibility : Visibility) : MethodForm → String
  | .ofInterface => ""
  | .ofObject => accessModifier visibility false
  | .ofClass => accessModifier visibility false ++ "static "

/-- The record that a func called `func` returns, if it returns one: name and
components. Values without names are numbered. -/
def javaRecord? (func : String) : Returned → Option (String × List (String × String))
  | .nothing => none
  | .single _ => none
  | .tuple parts =>
    some (ExceptionStyle.standard.recordName func,
      parts.zipIdx.map fun part => (ExceptionStyle.partName part.2 "", part.1))
  | .record name components => some (name, components)

/-- The type that a func called `func` returns. -/
def javaReturnType (func : String) (returns : Returned) : String :=
  match returns with
  | .nothing => "void"
  | .single type => type
  | _ => ((javaRecord? func returns).map (·.1)).getD "void"

/-- The declaration of a record, and a blank line after it. -/
def javaRecord (kind : MethodForm) (name : String) (components : List (String × String)) :
    Script :=
  let access := if kind = .ofInterface then "" else "public "
  let parts := components.map fun component => component.2 ++ " " ++ component.1
  [.line (access ++ "record " ++ name ++ "(" ++ ", ".intercalate parts ++ ") \x7b\x7d"), .blank]

/-- The classes whose names the record of a func must not take: those around it, and
those declared beside it. -/
def takenClasses (context : FileContext) (home : FuncHome) : List String :=
  let contents := context.contents
  let nameOf (id : TypeId) : String := Dialect.java.nameOfType (context.tree.type id)
  let wrapper :=
    if standsAlone contents.types contents.funcs then [] else [wrappingClass contents.name]
  match home with
  | .type id => wrapper ++ [nameOf id]
  | _ => wrapper ++ contents.types.map nameOf

/-- The record of a func that returns one, or a failure if its name is taken. -/
def javaRecordOf (kind : MethodForm) (home : FuncHome) (place : TreePath) (func : String)
    (returns : Returned) : FileM Script := do
  match javaRecord? func returns with
  | none => return []
  | some (name, components) =>
    if (takenClasses (← FileM.context) home).contains name then
      FileM.fail (.duplicateName place .classes name)
    else return javaRecord kind name components

/-- A parameter. -/
def javaParam (place : TreePath) (param : Param) : FileM String := do
  return (← FileM.spellType param.type place) ++ " " ++ param.name

/-- The line that binds the receiver of a method to its name. -/
def javaReceiver (func : Func) (home : FuncHome) : FileM Script := do
  match func.receiver, home with
  | some receiver, .type id =>
    return [.line ("final " ++ (← FileM.spellDeclared id) ++ " " ++ receiver ++ " = this;")]
  | _, _ => return []

/-- A method, with the record that it returns above it. -/
def javaMethod (registry : Registry) (kind : MethodForm) (id : FuncId) : FileM Script := do
  let tree := (← FileM.context).tree
  let func := tree.func id
  let home := tree.funcHome id
  let place := tree.funcPath id
  let name := Text.uncapitalize func.name
  let results ← ExceptionStyle.standard.resultForm func place
  let record ← javaRecordOf kind home place func.name results.returned
  let doc ← funcComment func name place
  let params ← func.params.mapM (javaParam place)
  let throws := (results.throws.map (" throws " ++ ·)).getD ""
  let head := methodModifiers func.visibility kind ++ javaReturnType func.name results.returned ++
    " " ++ name ++ "(" ++ ", ".intercalate params ++ ")" ++ throws
  let above := record ++ docComment (funcCommentLines doc)
  if kind = .ofInterface then return above ++ [.line (head ++ ";")]
  else
    let receiver ← javaReceiver func home
    let body ← bodyScript registry func place
    return above ++ [.line (head ++ " \x7b"), .indent] ++ receiver ++ body ++
      [.dedent, .line "\x7d"]

/-- A func outside any type is a static method. -/
def javaFunc (registry : Registry) (id : FuncId) : FileM Script := do
  match (← FileM.context).tree.funcHome id with
  | .type _ => javaMethod registry .ofObject id
  | _ => javaMethod registry .ofClass id

/-! ### Types -/

/-- A field. -/
def javaField (id : FieldId) : FileM Script := do
  let tree := (← FileM.context).tree
  let field := tree.field id
  let name := Text.uncapitalize field.name
  let type ← FileM.spellType field.type (tree.fieldPath id)
  return docComment (Comment.lines name field.doc) ++
    [.line (accessModifier field.visibility false ++ type ++ " " ++ name ++ ";")]

/-- The fields that the class of a type has. -/
def javaFields (type : TypeNode) : List FieldId :=
  match type.kind with
  | .struct => type.fields
  | .interface => []

/-- How the methods of a type are declared. -/
def javaMethodForm (type : TypeNode) : MethodForm :=
  match type.kind with
  | .struct => .ofObject
  | .interface => .ofInterface

/-- Scripts with a blank line between each and the next. -/
def separated : List Script → Script
  | [] => []
  | [script] => script
  | script :: rest => script ++ .blank :: separated rest

/-- The members of a type: its fields, then its methods. -/
def javaMembers (registry : Registry) (type : TypeNode) : FileM Script := do
  let fields ← (javaFields type).mapM javaField
  let methods ← type.methods.mapM (javaMethod registry (javaMethodForm type))
  let between := if fields.isEmpty || methods.isEmpty then [] else [Step.blank]
  return fields.flatten ++ between ++ separated methods

/-- A type: a class or an interface, nested and static unless it is the file's only
declaration. -/
def javaTypeScript (registry : Registry) (id : TypeId) : FileM Script := do
  let context ← FileM.context
  let type := context.tree.type id
  let topLevel := standsAlone context.contents.types context.contents.funcs
  let name := Dialect.java.nameOfType type
  let comment := docComment (Comment.lines name type.doc)
  let keyword := match type.kind with
    | .struct => "class"
    | .interface => "interface"
  let head := accessModifier type.visibility topLevel ++ (if topLevel then "" else "static ") ++
    keyword ++ " " ++ name
  if (javaFields type).isEmpty && type.methods.isEmpty then
    return comment ++ [.line (head ++ " \x7b\x7d")]
  else
    let members ← javaMembers registry type
    return comment ++ [.line (head ++ " \x7b"), .indent] ++ members ++ [.dedent, .line "\x7d"]

/-! ### Files -/

/-- Fails if a type of the file would be called like the class that holds it. -/
def checkWrapping (wrapper : String) (types : List TypeId) : FileM Unit := do
  let tree := (← FileM.context).tree
  match types.find? fun id => Dialect.java.nameOfType (tree.type id) == wrapper with
  | some id => FileM.fail (.duplicateName (tree.typePath id) .classes wrapper)
  | none => return ()

/-- The declarations of a file inside the class that holds them. -/
def javaWrapped (registry : Registry) (contents : FileContents) : FileM Script := do
  let wrapper := wrappingClass contents.name
  checkWrapping wrapper contents.types
  let types ← contents.types.mapM (javaTypeScript registry)
  let funcs ← contents.funcs.mapM (javaFunc registry)
  return [.blank, .line ("public final class " ++ wrapper ++ " \x7b"), .indent] ++
    separated (types ++ funcs) ++ [.dedent, .line "\x7d"]

/-- The declarations of a file. -/
def javaScript (registry : Registry) : FileM Script := do
  let contents := (← FileM.context).contents
  match contents.types, contents.funcs with
  | [], [] => return []
  | [type], [] => return .blank :: (← javaTypeScript registry type)
  | _, _ => javaWrapped registry contents

end DeclPrinter
