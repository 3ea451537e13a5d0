import DeclPrinter.Writing.FileM

/-!
# Spelling references, symbols and types

How a name is written in the file at hand. A symbol names a type of the same
package, a type of another package of the module when it starts with the path of
that package, and otherwise whatever the resolver makes of it. Types are spelled by
the dialect; in Java the elements of collections are classes, so primitive types are
boxed there.
-/

namespace DeclPrinter

namespace FileM

/-- Spells a reference, through the imports once they are settled. -/
def spell (reference : Reference) : FileM String := do
  note reference
  match (← context).imports with
  | some imports => return imports.spell reference
  | none => return reference.select reference.localName

end FileM

/-- What a symbol names. -/
inductive SymbolTarget where
  /-- A type declared in the tree. -/
  | declared (id : TypeId)
  /-- Something that the resolver knows. -/
  | external (reference : Reference)
  deriving DecidableEq, Repr, Inhabited

/-- A symbol of the form `<package path>.<type>`, cut at its last dot. -/
def splitQualified? (name : String) : Option (String × String) :=
  let backwards := name.toList.reverse
  let after := backwards.takeWhile (· != '.')
  match backwards.dropWhile (· != '.') with
  | [] => none
  | _ :: before => some (String.ofList before.reverse, String.ofList after.reverse)

/-- The type declared in the module that a symbol names from inside a package: one
of the package, or one of another package given by its path. -/
def DeclTree.declaredTarget? (tree : DeclTree) (module : ModuleId) (package : PackageId)
    (symbol : Symbol) : Option TypeId :=
  match tree.typeNamed? package symbol.name with
  | some id => some id
  | none => do
    let (path, name) ← splitQualified? symbol.name
    let other ← tree.packageAt? module path
    tree.typeNamed? other name

/-- What a symbol names in a file, if anything. -/
def FileContext.target? (context : FileContext) (symbol : Symbol) : Option SymbolTarget :=
  match context.tree.declaredTarget? context.module context.package symbol with
  | some id => some (.declared id)
  | none => (context.resolver symbol context.language.tag).map .external

namespace FileM

/-- What a symbol names; `place` is where it stands. -/
def meaning (symbol : Symbol) (place : TreePath) : FileM SymbolTarget := do
  let context ← context
  match context.target? symbol with
  | some target => return target
  | none => fail (.unresolvedSymbol place symbol.name context.language.tag)

/-- Spells a type of the tree as it is called from this file. -/
def spellDeclared (id : TypeId) : FileM String := do
  let context ← context
  if context.contents.types.contains id then
    return context.language.nameOfType (context.tree.type id)
  else if context.tree.packageOfType id == context.package then
    return context.language.neighbourTypeName context.tree id
  else
    spell (context.language.typeReference context.tree id)

/-- Spells what a symbol names. -/
def spellSymbol (symbol : Symbol) (place : TreePath) : FileM String := do
  match ← meaning symbol place with
  | .declared id => spellDeclared id
  | .external reference => spell reference

/-- Spells a piece of code. -/
def spellSegment (place : TreePath) : Segment → FileM String
  | .text text => return text
  | .symbol symbol => spellSymbol symbol place
  | .reference reference => spell reference

/-- Spells code. -/
def spellCode (code : Code) (place : TreePath) : FileM String := do
  return String.join (← code.segments.mapM (spellSegment place))

/-! ### Types -/

/-- The class of a Java type: generic arguments are never primitive. -/
def boxedType : String → String
  | "int" => "Integer"
  | "long" => "Long"
  | "double" => "Double"
  | "float" => "Float"
  | "boolean" => "Boolean"
  | "byte" => "Byte"
  | "short" => "Short"
  | "char" => "Character"
  | type => type

/-- Spells a type expression in Go. -/
def goType (place : TreePath) : TypeExpr → FileM String
  | .simple symbol => spellSymbol symbol place
  | .slice element => return "[]" ++ (← goType place element)
  | .map key value => return "map[" ++ (← goType place key) ++ "]" ++ (← goType place value)
  | .pointer element => return "*" ++ (← goType place element)
  | .failure => return "error"

/-- The exception class that failures are thrown as in Java. -/
def javaFailure : String :=
  "Exception"

/-- Spells a type expression in Java. -/
def javaType (place : TreePath) : TypeExpr → FileM String
  | .simple symbol => spellSymbol symbol place
  | .slice element => do
    let list ← spell (.ofImport "java.util.List" "List")
    return list ++ "<" ++ boxedType (← javaType place element) ++ ">"
  | .map key value => do
    let map ← spell (.ofImport "java.util.Map" "Map")
    let key := boxedType (← javaType place key)
    let value := boxedType (← javaType place value)
    return map ++ "<" ++ key ++ ", " ++ value ++ ">"
  | .pointer element => return boxedType (← javaType place element)
  | .failure => return javaFailure

/-- Spells a type expression in the language of the file. -/
def spellType (type : TypeExpr) (place : TreePath) : FileM String := do
  match (← context).language.dialect with
  | .go => goType place type
  | .java => javaType place type

end FileM

end DeclPrinter
