import DeclPrinter.Check.Cycle
import DeclPrinter.Check.Names
import DeclPrinter.Language.Naming

/-!
# Checks on a tree

What a tree must satisfy before it is rendered. A failed check on the project, a
module or a package ends the render. The checks on the declarations of one file
concern that file alone.

Names of declarations are compared as the target language declares them, so that two
names that differ in the tree may still collide.
-/

namespace DeclPrinter.Check

/-! ### Project and module -/

/-- The project and its modules have names, and no two modules share a path. -/
def project (tree : DeclTree) : Result := do
  hasName tree.project.name tree.projectPath .project
  tree.project.modules.forM fun id => hasName (tree.module id).path (tree.modulePath id) .module
  distinct (tree.project.modules.map fun id => (tree.module id).path) tree.projectPath .module

/-- The packages of a module have names, and no two share a path. -/
def module (tree : DeclTree) (id : ModuleId) : Result := do
  let packages := (tree.module id).packages
  packages.forM fun package =>
    hasName (tree.package package).name (tree.packagePath package) .package
  distinct (packages.map fun package => (tree.package package).path) (tree.modulePath id) .package

/-! ### Package documentation -/

/-- Where the documentation of a package comes from. -/
inductive DocOrigin where
  | package
  | file (id : FileId)
  deriving DecidableEq, Repr, Inhabited

/-- The documentation of a package. -/
structure PackageComment where
  /-- The text, trimmed. -/
  text : String
  /-- The first that gives it. -/
  source : DocOrigin
  deriving DecidableEq, Repr, Inhabited

/-- A comment trimmed, unless it is blank. -/
def docText? (doc : Option String) : Option String :=
  (doc.map Text.trim).filter (!·.isEmpty)

/-- A source in a message. -/
def DocOrigin.carrier (tree : DeclTree) (package : PackageId) : DocOrigin → DocCarrier
  | .package => .package (tree.package package).name
  | .file id => .file (tree.file id).name

/-- The documentation that a package gets: from itself, then from its files. -/
def docOrigins (tree : DeclTree) (id : PackageId) : List PackageComment :=
  let own :=
    ((docText? (tree.package id).doc).map fun text => PackageComment.mk text .package).toList
  let ofFile (file : FileId) : Option PackageComment :=
    (docText? (tree.file file).doc).map fun text => ⟨text, .file file⟩
  own ++ (tree.package id).files.filterMap ofFile

/-- The documentation of a package, if it has any; all that give it have to agree. -/
def packageComment (tree : DeclTree) (id : PackageId) : Except Failure (Option PackageComment) :=
  match docOrigins tree id with
  | [] => .ok none
  | first :: rest =>
    match rest.find? (·.text != first.text) with
    | none => .ok (some first)
    | some other =>
      .error (.conflictingPackageDoc (tree.packagePath id) (first.source.carrier tree id)
        (other.source.carrier tree id))

/-! ### Package -/

/-- The names of the files of a package, and of the file that its own funcs go to. -/
def fileNames (tree : DeclTree) (id : PackageId) : List String :=
  let node := tree.package id
  let own := if node.funcs.isEmpty then [] else [node.name]
  (node.files.map fun file => (tree.file file).name) ++ own

/-- What the types of a package are called. -/
def typeNames (tree : DeclTree) (language : Language) (id : PackageId) : List String :=
  (tree.typesIn id).map fun type =>
    let node := tree.type type
    language.printedName node.kind.stepKind node.name node.visibility

/-- What the funcs of a package are called. -/
def funcNames (tree : DeclTree) (language : Language) (id : PackageId) : List String :=
  (tree.funcsIn id).map fun func =>
    language.printedName .func (tree.func func).name (tree.func func).visibility

/-- No struct of the package holds itself by value. -/
def finiteStructs (tree : DeclTree) (id : PackageId) : Result :=
  match valueCycle? tree id with
  | none => .ok ()
  | some cycle =>
    .error (.valueCycle (tree.typePath (cycle.headD default))
      (cycle.map fun type => (tree.type type).name))

/-- The checks on a package as a whole; yields its documentation. -/
def package (tree : DeclTree) (language : Language) (id : PackageId) :
    Except Failure (Option PackageComment) := do
  let path := tree.packagePath id
  (tree.package id).files.forM fun file => hasName (tree.file file).name (tree.filePath file) .file
  distinct (fileNames tree id) path .file
  distinct (typeNames tree language id) path .type
  distinct (funcNames tree language id) path .func
  finiteStructs tree id
  packageComment tree id

/-! ### Declarations -/

/-- A method of an interface has no body. -/
def interfaceMethod (tree : DeclTree) (id : FuncId) : Result :=
  let body := (tree.func id).body
  if !body.isEmpty || body.doc.isSome || body.header.isSome || body.chained.isSome then
    .error (.invalidDecl (tree.funcPath id) (.interfaceBody (tree.func id).name))
  else .ok ()

/-- An interface has no fields, and its methods have no bodies. -/
def interface (tree : DeclTree) (id : TypeId) : Result :=
  let node := tree.type id
  match node.fields with
  | field :: _ => .error (.invalidDecl (tree.fieldPath field) (.interfaceField node.name))
  | [] => node.methods.forM (interfaceMethod tree)

/-- Only a method has a receiver. -/
def receiver (tree : DeclTree) (id : FuncId) : Result :=
  match (tree.func id).receiver, tree.funcHome id with
  | none, _ => .ok ()
  | some _, .type _ => .ok ()
  | some name, _ => .error (.invalidDecl (tree.funcPath id) (.strayReceiver name))

/-- A func body is only statements. -/
def bodyShape (tree : DeclTree) (id : FuncId) : Result :=
  let body := (tree.func id).body
  if body.header.isSome || body.chained.isSome then
    .error (.invalidDecl (tree.funcPath id) .bodyShape)
  else .ok ()

/-- Either all results have names or none has. -/
def resultNames (tree : DeclTree) (id : FuncId) : Result :=
  let results := (tree.func id).results
  if results.any (!·.name.isEmpty) && results.any (·.name.isEmpty) then
    .error (.mixedResultNames (tree.funcPath id))
  else .ok ()

/-- The names of the parameters and of the results that have names. -/
def signatureNames (func : Func) : List String :=
  ((func.params ++ func.results).map (·.name)).filter (!·.isEmpty)

/-- The checks on a func or a method. -/
def func (tree : DeclTree) (id : FuncId) : Result := do
  let node := tree.func id
  let path := tree.funcPath id
  hasName node.name path .func
  receiver tree id
  bodyShape tree id
  node.params.zipIdx.forM fun param =>
    hasName param.1.name (path.below .param (toString param.2)) .parameter
  resultNames tree id
  distinct (signatureNames node) path .parameter

/-- What the fields of a type are called. -/
def fieldNames (tree : DeclTree) (language : Language) (id : TypeId) : List String :=
  (tree.type id).fields.map fun field =>
    language.printedName .field (tree.field field).name (tree.field field).visibility

/-- What the methods of a type are called. -/
def methodNames (tree : DeclTree) (language : Language) (id : TypeId) : List String :=
  (tree.type id).methods.map fun method =>
    language.printedName .method (tree.func method).name (tree.func method).visibility

/-- The checks on a type with its members. -/
def type (tree : DeclTree) (language : Language) (id : TypeId) : Result := do
  let node := tree.type id
  let path := tree.typePath id
  hasName node.name path .type
  if node.kind = .interface then interface tree id
  node.fields.forM fun field => hasName (tree.field field).name (tree.fieldPath field) .field
  distinct (fieldNames tree language id) path .field
  distinct (methodNames tree language id) path .method
  node.methods.forM (func tree)

/-- The checks on the declarations of one file. -/
def declarations (tree : DeclTree) (language : Language) (types : List TypeId)
    (funcs : List FuncId) : Result := do
  types.forM (type tree language)
  funcs.forM (func tree)

end DeclPrinter.Check
