import DeclPrinter.Decl.Func
import DeclPrinter.Json.Decode

/-!
# Declarations read from JSON

The readers of the form that `Decl.Json` writes. A value that is not of that form
is refused as a whole. Types, statements and blocks nest, and their readers go down
no deeper than the JSON value does.
-/

namespace DeclPrinter

open Json (asString? asList? asPair? parts? required optional variant? isUnit)

/-- Reads a symbol. -/
def Symbol.ofJson? (json : Json) : Option Symbol :=
  (asString? json).map .mk

/-- Reads a reference. -/
def Reference.ofJson? (json : Json) : Option Reference := do
  match ← parts? ["import", "local", "member"] json with
  | [importPath, localName, member] =>
    return ⟨← optional asString? importPath, ← required asString? localName,
      ← optional asString? member⟩
  | _ => none

/-- Reads a type expression nested at most `depth` deep. -/
def TypeExpr.ofJsonWithin? : Nat → Json → Option TypeExpr
  | 0, _ => none
  | depth + 1, json => do
    match ← variant? json with
    | ("Simple", some payload) => return .simple (← Symbol.ofJson? payload)
    | ("Slice", some payload) => return .slice (← ofJsonWithin? depth payload)
    | ("Map", some payload) =>
      let (key, value) ← asPair? (ofJsonWithin? depth) (ofJsonWithin? depth) payload
      return .map key value
    | ("Pointer", some payload) => return .pointer (← ofJsonWithin? depth payload)
    | ("Failure", payload) => if isUnit payload then some .failure else none
    | _ => none

/-- Reads a type expression. -/
def TypeExpr.ofJson? (json : Json) : Option TypeExpr :=
  ofJsonWithin? (json.nesting + 1) json

/-- Reads a piece of code. -/
def Segment.ofJson? (json : Json) : Option Segment := do
  match ← variant? json with
  | ("Text", some payload) => return .text (← asString? payload)
  | ("Symbol", some payload) => return .symbol (← Symbol.ofJson? payload)
  | ("Ref", some payload) => return .reference (← Reference.ofJson? payload)
  | _ => none

/-- Reads code. -/
def Code.ofJson? (json : Json) : Option Code := do
  match ← parts? ["segments"] json with
  | [segments] => return ⟨← required (asList? Segment.ofJson?) segments⟩
  | _ => none

/-- Reads an attempt. -/
def Attempt.ofJson? (json : Json) : Option Attempt := do
  match ← parts? ["idents", "call", "message", "binding"] json with
  | [names, call, message, bindingType] =>
    return ⟨← required (asList? asString?) names, ← required Code.ofJson? call,
      ← required asString? message, ← optional TypeExpr.ofJson? bindingType⟩
  | _ => none

/-- Reads an idiom. -/
def Idiom.ofJson? (json : Json) : Option Idiom := do
  match ← variant? json with
  | ("Terminator", payload) => if isUnit payload then some .terminator else none
  | ("TryDefine", some payload) => return .attempt (← Attempt.ofJson? payload)
  | ("Fail", some payload) => return .fail (← asString? payload)
  | _ => none

/-- Reads a block nested at most `depth` deep. -/
def Block.ofJsonWithin? : Nat → Json → Option Block
  | 0, _ => none
  | depth + 1, json => do
    let statement (json : Json) : Option Statement := do
      match ← variant? json with
      | ("Code", some payload) => return .code (← Code.ofJson? payload)
      | ("Block", some payload) => return .block (← Block.ofJsonWithin? depth payload)
      | ("Macro", some payload) => return .invoke (← Idiom.ofJson? payload)
      | ("Terminator", payload) => if isUnit payload then some .terminator else none
      | _ => none
    match ← parts? ["doc", "header", "statements", "chained"] json with
    | [doc, header, statements, chained] =>
      return ⟨← optional asString? doc, ← optional Code.ofJson? header,
        ← required (asList? statement) statements,
        ← optional (Block.ofJsonWithin? depth) chained⟩
    | _ => none

/-- Reads a block. -/
def Block.ofJson? (json : Json) : Option Block :=
  ofJsonWithin? (json.nesting + 1) json

/-- Reads a statement. -/
def Statement.ofJson? (json : Json) : Option Statement := do
  let block ← Block.ofJson? (.array [.null, .null, .array [json], .null])
  block.statements.head?

/-- Reads a visibility. -/
def Visibility.ofJson? (json : Json) : Option Visibility := do
  match ← variant? json with
  | ("Public", payload) => if isUnit payload then some .exported else none
  | ("Private", payload) => if isUnit payload then some .hidden else none
  | _ => none

/-- Reads metadata. -/
def Marker.ofJson? (json : Json) : Option Marker := do
  match ← parts? ["name", "value", "params"] json with
  | [name, value, params] =>
    return ⟨← required asString? name, ← optional asString? value,
      ← required (asList? (asPair? asString? asString?)) params⟩
  | _ => none

/-- Reads a parameter. -/
def Param.ofJson? (json : Json) : Option Param := do
  match ← parts? ["name", "ty", "doc", "annotations"] json with
  | [name, type, doc, markers] =>
    return ⟨← required asString? name, ← required TypeExpr.ofJson? type,
      ← optional asString? doc, ← required (asList? Marker.ofJson?) markers⟩
  | _ => none

/-- Reads a field. -/
def Field.ofJson? (json : Json) : Option Field := do
  match ← parts? ["name", "visibility", "ty", "doc", "annotations"] json with
  | [name, visibility, type, doc, markers] =>
    return ⟨← required asString? name, ← required Visibility.ofJson? visibility,
      ← required TypeExpr.ofJson? type, ← optional asString? doc,
      ← required (asList? Marker.ofJson?) markers⟩
  | _ => none

/-- Reads a func. -/
def Func.ofJson? (json : Json) : Option Func := do
  match ← parts? ["name", "visibility", "receiver", "params", "results", "body", "doc"] json with
  | [name, visibility, receiver, params, results, body, doc] =>
    return ⟨← required asString? name, ← required Visibility.ofJson? visibility,
      ← optional asString? receiver, ← required (asList? Param.ofJson?) params,
      ← required (asList? Param.ofJson?) results, ← required Block.ofJson? body,
      ← optional asString? doc⟩
  | _ => none

end DeclPrinter
