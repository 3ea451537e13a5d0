import DeclPrinter.Check.Basic
import DeclPrinter.Idiom.Registry
import DeclPrinter.Language.Layout

/-!
# The files of a render

Which files a render writes and where each goes. A package gives a file for each of
its files, one for the funcs that belong to no file, and one for its documentation
when that is not written in a file of its own. The plan lists them in order of
declaration, documentation first and package funcs last.
-/

namespace DeclPrinter

/-- A file to be written, and where. -/
structure PlannedFile where
  /-- The language it is written in. -/
  language : Language
  /-- Its module. -/
  module : ModuleId
  /-- Its package. -/
  package : PackageId
  /-- The directory of the module. -/
  moduleSegments : List String
  /-- The directory of the package, from the top. -/
  dir : List String
  /-- The name of the file there. -/
  leaf : String
  /-- What it holds. -/
  contents : FileContents
  /-- Its path in the tree. -/
  path : TreePath
  deriving Repr, Inhabited

namespace Plan

open Check (PackageComment DocOrigin)

/-- Fails if the render is cancelled. -/
def unlessCancelled (cancelled : Bool) : Except Failure Unit :=
  if cancelled then .error .cancelled else .ok ()

/-- The documentation of a package that goes to a file of its own. -/
def standaloneDoc (language : Language) (doc : Option PackageComment) : Option String :=
  match doc with
  | some ⟨text, .package⟩ => some text
  | some ⟨text, .file _⟩ => if language.docOnFileClause then none else some text
  | none => none

/-- The documentation of a package that is written in a file of the package. -/
def docInFile (language : Language) (doc : Option PackageComment) (file : FileId) : Option String :=
  match doc with
  | some ⟨text, .file source⟩ =>
    if language.docOnFileClause && source == file then some text else none
  | _ => none

/-- The file for the documentation of a package. -/
def docContents (language : Language) (package : PackageNode) (text : String) : FileContents :=
  ⟨language.docFile, [], [], some text, package.preamble⟩

/-- A file of the tree. A preamble of its own takes the place of the package's. -/
def fileContents (tree : DeclTree) (language : Language) (package : PackageNode)
    (doc : Option PackageComment) (id : FileId) : FileContents :=
  let file := tree.file id
  ⟨file.name, file.types, file.funcs, docInFile language doc id,
    file.preamble.orElse fun _ => package.preamble⟩

/-- The file for the funcs that belong to a package and to no file. -/
def funcContents (package : PackageNode) : FileContents :=
  ⟨package.name, [], package.funcs, none, package.preamble⟩

/-- The files of a package. -/
def package (tree : DeclTree) (language : Language) (cancelled : Bool) (module : ModuleId)
    (id : PackageId) : Except Failure (List PlannedFile) := do
  unlessCancelled cancelled
  let doc ← Check.package tree language id
  let node := tree.package id
  let moduleSegments := language.moduleSegments (tree.module module)
  let dir := moduleSegments ++ language.packageSegments (tree.module module) node
  let plan (leaf : String) (path : TreePath) (contents : FileContents) : PlannedFile :=
    ⟨language, module, id, moduleSegments, dir, leaf, contents, path⟩
  let ownPath := (tree.packagePath id).below .file
  let docs := (standaloneDoc language doc).toList.map fun text =>
    plan language.docFile (ownPath language.docFile) (docContents language node text)
  let files ← node.files.mapM fun file => do
    unlessCancelled cancelled
    let contents := fileContents tree language node doc file
    return plan (language.sourceName tree contents) (tree.filePath file) contents
  let funcs :=
    if node.funcs.isEmpty then []
    else
      let contents := funcContents node
      [plan (language.sourceName tree contents) (ownPath node.name) contents]
  return docs ++ files ++ funcs

/-- The files of a module. -/
def module (tree : DeclTree) (registry : Registry) (cancelled : Bool) (id : ModuleId) :
    Except Failure (List PlannedFile) := do
  let node := tree.module id
  match registry.language? node.language with
  | none => .error (.unsupportedLanguage (tree.modulePath id) node.language)
  | some language =>
    Check.module tree id
    return (← node.packages.mapM (package tree language cancelled id)).flatten

/-- The files of a project. -/
def project (tree : DeclTree) (registry : Registry) (cancelled : Bool) :
    Except Failure (List PlannedFile) := do
  Check.project tree
  return (← tree.project.modules.mapM (module tree registry cancelled)).flatten

end Plan

end DeclPrinter
