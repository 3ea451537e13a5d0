import DeclPrinter.Tree.Path
import DeclPrinter.Tree.Basic

/-!
# Questions to a declaration tree

Which types a package declares, what a name stands for in it, and the path from
the project down to a node.
-/

namespace DeclPrinter

/-- The kind that a type has in paths. -/
def TypeForm.stepKind : TypeForm → StepKind
  | .struct => .struct
  | .interface => .interface

namespace DeclTree

/-- The package that a type is declared in. -/
def packageOfType (tree : DeclTree) (id : TypeId) : PackageId :=
  (tree.file (tree.type id).file).package

/-- The types of a package, file by file in order of declaration. -/
def typesIn (tree : DeclTree) (id : PackageId) : List TypeId :=
  (tree.package id).files.flatMap fun file => (tree.file file).types

/-- The funcs of a package: those of its files, then its own. -/
def funcsIn (tree : DeclTree) (id : PackageId) : List FuncId :=
  ((tree.package id).files.flatMap fun file => (tree.file file).funcs) ++ (tree.package id).funcs

/-- The first type of that name in a package. -/
def typeNamed? (tree : DeclTree) (package : PackageId) (name : String) : Option TypeId :=
  (tree.typesIn package).find? fun id => (tree.type id).name == name

/-- The first package of that path in a module. -/
def packageAt? (tree : DeclTree) (module : ModuleId) (path : String) : Option PackageId :=
  (tree.module module).packages.find? fun id => (tree.package id).path == path

/-- Whether a type is a struct. -/
def isStruct (tree : DeclTree) (id : TypeId) : Bool :=
  (tree.type id).kind == .struct

/-! ### Paths -/

/-- The path of the project. -/
def projectPath (tree : DeclTree) : TreePath :=
  .ofProject tree.project.name

/-- The path of a module. -/
def modulePath (tree : DeclTree) (id : ModuleId) : TreePath :=
  tree.projectPath.below .module (tree.module id).path

/-- The path of a package; the package at the root of its module, which has no
path of its own there, goes by its name. -/
def packagePath (tree : DeclTree) (id : PackageId) : TreePath :=
  let node := tree.package id
  (tree.modulePath node.module).below .package (if node.path.isEmpty then node.name else node.path)

/-- The path of a file. -/
def filePath (tree : DeclTree) (id : FileId) : TreePath :=
  let node := tree.file id
  (tree.packagePath node.package).below .file node.name

/-- The path of a type. -/
def typePath (tree : DeclTree) (id : TypeId) : TreePath :=
  let node := tree.type id
  (tree.filePath node.file).below node.kind.stepKind node.name

/-- The path of a func, below the file, the package or the type it belongs to. -/
def funcPath (tree : DeclTree) (id : FuncId) : TreePath :=
  let name := (tree.func id).name
  match tree.funcHome id with
  | .file file => (tree.filePath file).below .func name
  | .package package => (tree.packagePath package).below .func name
  | .type type => (tree.typePath type).below .method name

/-- The path of a field. -/
def fieldPath (tree : DeclTree) (id : FieldId) : TreePath :=
  (tree.typePath (tree.fieldHome id)).below .field (tree.field id).name

end DeclTree

/-- Any node of a tree. -/
inductive TreeNode where
  | project
  | module (id : ModuleId)
  | package (id : PackageId)
  | file (id : FileId)
  | type (id : TypeId)
  | func (id : FuncId)
  | field (id : FieldId)
  deriving DecidableEq, Repr, Inhabited

/-- The path of a node. -/
def DeclTree.path (tree : DeclTree) : TreeNode → TreePath
  | .project => tree.projectPath
  | .module id => tree.modulePath id
  | .package id => tree.packagePath id
  | .file id => tree.filePath id
  | .type id => tree.typePath id
  | .func id => tree.funcPath id
  | .field id => tree.fieldPath id

end DeclPrinter
