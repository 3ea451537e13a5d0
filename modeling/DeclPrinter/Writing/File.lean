import DeclPrinter.Writing.Go
import DeclPrinter.Writing.Java

/-!
# Whole files

A file is its preamble, the package clause, the imports and the declarations. It is
gone through twice in the same way: first without imports, to note what it refers to,
and then with the imports that follow from the notes.
-/

namespace DeclPrinter

namespace Dialect

/-- The package clause under the documentation of the package. -/
def packageClause (dialect : Dialect) (module : ModuleNode) (package : PackageNode)
    (doc : Option String) : Script :=
  match dialect with
  | .go => goPackageClause package doc
  | .java => javaPackageClause module package doc

/-- The import section. -/
def importSection (dialect : Dialect) (imports : Imports) : Script :=
  match dialect with
  | .go => goImports imports
  | .java => javaImports imports

/-- A type with its members. -/
def typeScript (dialect : Dialect) (registry : Registry) (id : TypeId) : FileM Script :=
  match dialect with
  | .go => goTypeScript registry id
  | .java => javaTypeScript registry id

/-- A func outside any type. -/
def funcScript (dialect : Dialect) (registry : Registry) (id : FuncId) : FileM Script :=
  match dialect with
  | .go => goFunc registry id
  | .java => javaFunc registry id

/-- The declarations of a file one after another, each after a blank line. -/
def plainScript (dialect : Dialect) (registry : Registry) (contents : FileContents) :
    FileM Script := do
  let types ← contents.types.mapM fun id => return .blank :: (← dialect.typeScript registry id)
  let funcs ← contents.funcs.mapM fun id => return .blank :: (← dialect.funcScript registry id)
  return types.flatten ++ funcs.flatten

end Dialect

/-- The declarations of the file, as its language arranges them. -/
def declsScript (registry : Registry) : FileM Script := do
  let context ← FileM.context
  match context.language.derived, context.language.dialect with
  | false, .java => javaScript registry
  | _, dialect => dialect.plainScript registry context.contents

/-- The preamble, verbatim, and a blank line after it; nothing if it is blank. -/
def preambleScript (preamble : Option String) : Script :=
  match preamble with
  | some text => if Text.isAllBlank text then [] else [.verbatim text, .blank]
  | none => []

/-- The import section with a blank line before it; nothing if it is empty or the
imports are not settled yet. -/
def importScript (language : Language) (imports : Option Imports) : Script :=
  match imports with
  | some imports =>
    if imports.listed.isEmpty then [] else .blank :: language.dialect.importSection imports
  | none => []

/-- The whole file. -/
def fileScript (registry : Registry) : FileM Script := do
  let context ← FileM.context
  let module := context.tree.module context.module
  let package := context.tree.package context.package
  let clause := context.language.dialect.packageClause module package context.contents.doc
  let decls ← declsScript registry
  return preambleScript context.contents.preamble ++ clause ++
    importScript context.language context.imports ++ decls

end DeclPrinter
