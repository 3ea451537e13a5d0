import DeclPrinter.Decl.Json
import DeclPrinter.Tree.Query

/-!
# The JSON form of a declaration tree

Every array of the tree is written out in full, so nodes that no parent lists
any more are still in it. An id is written as its index.
-/

namespace DeclPrinter

open Json (ofString? ofList variant)

/-- The JSON form of an index. -/
def Json.ofIndex (index : Nat) : Json :=
  .number index

/-- The JSON form of the project node. -/
def ProjectNode.toJson (node : ProjectNode) : Json :=
  .object
    [("name", .string node.name),
      ("modules", ofList (fun id : ModuleId => .ofIndex id.index) node.modules)]

/-- The JSON form of a module. -/
def ModuleNode.toJson (node : ModuleNode) : Json :=
  .object
    [("path", .string node.path), ("language", .string node.language),
      ("packages", ofList (fun id : PackageId => .ofIndex id.index) node.packages)]

/-- The JSON form of a package. -/
def PackageNode.toJson (node : PackageNode) : Json :=
  .object
    [("module", .ofIndex node.module.index), ("path", .string node.path),
      ("name", .string node.name), ("doc", ofString? node.doc),
      ("preamble", ofString? node.preamble),
      ("files", ofList (fun id : FileId => .ofIndex id.index) node.files),
      ("funcs", ofList (fun id : FuncId => .ofIndex id.index) node.funcs)]

/-- The JSON form of a file. -/
def FileNode.toJson (node : FileNode) : Json :=
  .object
    [("package", .ofIndex node.package.index), ("name", .string node.name),
      ("preamble", ofString? node.preamble), ("doc", ofString? node.doc),
      ("types", ofList (fun id : TypeId => .ofIndex id.index) node.types),
      ("funcs", ofList (fun id : FuncId => .ofIndex id.index) node.funcs)]

/-- The JSON form of a type. -/
def TypeNode.toJson (node : TypeNode) : Json :=
  .object
    [("file", .ofIndex node.file.index),
      ("kind", .string node.kind.stepKind.label), ("name", .string node.name),
      ("visibility", node.visibility.toJson), ("doc", ofString? node.doc),
      ("fields", ofList (fun id : FieldId => .ofIndex id.index) node.fields),
      ("methods", ofList (fun id : FuncId => .ofIndex id.index) node.methods)]

/-- The JSON form of the place where a func is declared. -/
def FuncHome.toJson : FuncHome → Json
  | .file id => variant "File" (.ofIndex id.index)
  | .package id => variant "Package" (.ofIndex id.index)
  | .type id => variant "Type" (.ofIndex id.index)

/-- The JSON form of a tree. -/
def DeclTree.toJson (tree : DeclTree) : Json :=
  .object
    [("project", tree.project.toJson),
      ("modules", ofList ModuleNode.toJson tree.modules.toList),
      ("packages", ofList PackageNode.toJson tree.packages.toList),
      ("files", ofList FileNode.toJson tree.files.toList),
      ("types", ofList TypeNode.toJson tree.types.toList),
      ("funcs", ofList Func.toJson tree.funcs.toList),
      ("func_owners", ofList FuncHome.toJson tree.funcHomes.toList),
      ("fields", ofList Field.toJson tree.fields.toList),
      ("field_owners", ofList (fun id : TypeId => .ofIndex id.index) tree.fieldHomes.toList)]

end DeclPrinter
