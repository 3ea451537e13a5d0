import DeclPrinter.Decl.Func
import DeclPrinter.Json.Basic

/-!
# The JSON form of declarations

A record is an object with its parts in order of declaration, an absent part is
`null`, and an alternative is either its name alone or an object whose one
member is the name with the contents. `Decl.FromJson` reads the form back.
-/

namespace DeclPrinter

open Json (ofString? ofList variant)

/-- The JSON form of a reference. -/
def Reference.toJson (reference : Reference) : Json :=
  .object
    [("import", ofString? reference.importPath), ("local", .string reference.localName),
      ("member", ofString? reference.member)]

/-- The JSON form of a type expression. -/
def TypeExpr.toJson : TypeExpr → Json
  | .simple symbol => variant "Simple" (.string symbol.name)
  | .slice element => variant "Slice" element.toJson
  | .map key value => variant "Map" (.array [key.toJson, value.toJson])
  | .pointer element => variant "Pointer" element.toJson
  | .failure => .string "Failure"

/-- The JSON form of a piece of code. -/
def Segment.toJson : Segment → Json
  | .text content => variant "Text" (.string content)
  | .symbol ⟨name⟩ => variant "Symbol" (.string name)
  | .reference target => variant "Ref" target.toJson

/-- The JSON form of code. -/
def Code.toJson (code : Code) : Json :=
  .object [("segments", ofList Segment.toJson code.segments)]

/-- The JSON form of an attempt. -/
def Attempt.toJson (operands : Attempt) : Json :=
  .object
    [("idents", ofList .string operands.names), ("call", operands.call.toJson),
      ("message", .string operands.message),
      ("binding", (operands.bindingType.map TypeExpr.toJson).getD .null)]

/-- The JSON form of an idiom. -/
def Idiom.toJson (idiom : Idiom) : Json :=
  match idiom with
  | .terminator => .string idiom.kind.label
  | .attempt operands => variant idiom.kind.label operands.toJson
  | .fail message => variant idiom.kind.label (.string message)

mutual

/-- The JSON form of a statement. -/
def Statement.toJson : Statement → Json
  | .code code => variant "Code" code.toJson
  | .block block => variant "Block" block.toJson
  | .invoke idiom => variant "Macro" idiom.toJson
  | .terminator => .string "Terminator"

/-- The JSON form of a block. -/
def Block.toJson : Block → Json
  | .mk doc header statements chained =>
    .object
      [("doc", ofString? doc), ("header", (header.map Code.toJson).getD .null),
        ("statements", .array (Statement.listToJson statements)),
        ("chained", Block.clauseToJson chained)]

/-- The JSON forms of statements. -/
def Statement.listToJson : List Statement → List Json
  | [] => []
  | statement :: rest => statement.toJson :: Statement.listToJson rest

/-- The JSON form of a chained clause, if there is one. -/
def Block.clauseToJson : Option Block → Json
  | none => .null
  | some block => block.toJson

end

/-- The JSON form of a visibility. -/
def Visibility.toJson : Visibility → Json
  | .exported => .string "Public"
  | .hidden => .string "Private"

/-- The JSON form of metadata. -/
def Marker.toJson (marker : Marker) : Json :=
  .object
    [("name", .string marker.name), ("value", ofString? marker.value),
      ("params", ofList (fun param => .array [.string param.1, .string param.2]) marker.params)]

/-- The JSON form of a parameter. -/
def Param.toJson (param : Param) : Json :=
  .object
    [("name", .string param.name), ("ty", param.type.toJson), ("doc", ofString? param.doc),
      ("annotations", ofList Marker.toJson param.markers)]

/-- The JSON form of a field. -/
def Field.toJson (field : Field) : Json :=
  .object
    [("name", .string field.name), ("visibility", field.visibility.toJson),
      ("ty", field.type.toJson), ("doc", ofString? field.doc),
      ("annotations", ofList Marker.toJson field.markers)]

/-- The JSON form of a func. -/
def Func.toJson (func : Func) : Json :=
  .object
    [("name", .string func.name), ("visibility", func.visibility.toJson),
      ("receiver", ofString? func.receiver), ("params", ofList Param.toJson func.params),
      ("results", ofList Param.toJson func.results), ("body", func.body.toJson),
      ("doc", ofString? func.doc)]

end DeclPrinter
