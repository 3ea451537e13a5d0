import DeclPrinter.Decl.Func

/-!
# Declaration trees

A tree holds a project: modules of packages of files, the types and funcs that
files declare, and the fields and methods of types. The nodes of each kind are
kept in one array and named by their index in it, the id. A node lists its
children by id and records its parent by id, so that both directions of a
question ("what is in it?", "where is it?") are answered by a look-up.

A tree grows by the `add` functions, each of which appends one node to its array
and its id to one list of its parent; nothing else changes. An id outside its
array names an empty node.
-/

namespace DeclPrinter

/-! ### Ids -/

/-- A module of the tree. -/
structure ModuleId where
  /-- The index among the modules. -/
  index : Nat
  deriving DecidableEq, Repr, Inhabited

/-- A package of the tree. -/
structure PackageId where
  /-- The index among the packages. -/
  index : Nat
  deriving DecidableEq, Repr, Inhabited

/-- A file of the tree. -/
structure FileId where
  /-- The index among the files. -/
  index : Nat
  deriving DecidableEq, Repr, Inhabited

/-- A type of the tree. -/
structure TypeId where
  /-- The index among the types. -/
  index : Nat
  deriving DecidableEq, Repr, Inhabited

/-- A func of the tree. -/
structure FuncId where
  /-- The index among the funcs. -/
  index : Nat
  deriving DecidableEq, Repr, Inhabited

/-- A field of the tree. -/
structure FieldId where
  /-- The index among the fields. -/
  index : Nat
  deriving DecidableEq, Repr, Inhabited

/-! ### Nodes -/

/-- The root of the tree. -/
structure ProjectNode where
  /-- The name of the project. -/
  name : String
  /-- Its modules in order. -/
  modules : List ModuleId
  deriving Repr, Inhabited, BEq

/-- A module: packages under one import path, in one target language. -/
structure ModuleNode where
  /-- The import path of the module. -/
  path : String
  /-- The tag of the target language. -/
  language : String
  /-- Its packages in order. -/
  packages : List PackageId
  deriving Repr, Inhabited, BEq

/-- A package: files in one directory. -/
structure PackageNode where
  /-- The module it is in. -/
  module : ModuleId
  /-- The import path below the module; empty for the module's own package. -/
  path : String
  /-- The name of the package. -/
  name : String
  /-- The package comment. -/
  doc : Option String
  /-- What stands at the top of files that have no preamble of their own. -/
  preamble : Option String
  /-- Its files in order. -/
  files : List FileId
  /-- Funcs that belong to the package and to no file. -/
  funcs : List FuncId
  deriving Repr, Inhabited, BEq

/-- A source file. -/
structure FileNode where
  /-- The package it is in. -/
  package : PackageId
  /-- The name, without an extension. -/
  name : String
  /-- What stands at the top of the file. -/
  preamble : Option String
  /-- A comment on the package, given by this file. -/
  doc : Option String
  /-- Its types in order. -/
  types : List TypeId
  /-- Its funcs in order. -/
  funcs : List FuncId
  deriving Repr, Inhabited, BEq

/-- What a type declaration declares. -/
inductive TypeForm where
  | struct
  | interface
  deriving DecidableEq, Repr, Inhabited

/-- A type declaration. -/
structure TypeNode where
  /-- The file it is in. -/
  file : FileId
  /-- Struct or interface. -/
  kind : TypeForm
  /-- The name. -/
  name : String
  /-- Who may use the type. -/
  visibility : Visibility
  /-- A comment. -/
  doc : Option String
  /-- Its fields in order; a struct's only. -/
  fields : List FieldId
  /-- The methods of a struct, or the method signatures of an interface. -/
  methods : List FuncId
  deriving Repr, Inhabited, BEq

/-- Where a func is declared. -/
inductive FuncHome where
  | file (id : FileId)
  | package (id : PackageId)
  | type (id : TypeId)
  deriving DecidableEq, Repr, Inhabited

/-! ### The tree -/

/-- A project with all its declarations. -/
structure DeclTree where
  /-- The root. -/
  project : ProjectNode
  /-- All modules. -/
  modules : Array ModuleNode
  /-- All packages. -/
  packages : Array PackageNode
  /-- All files. -/
  files : Array FileNode
  /-- All types. -/
  types : Array TypeNode
  /-- All funcs. -/
  funcs : Array Func
  /-- Where each func is declared. -/
  funcHomes : Array FuncHome
  /-- All fields. -/
  fields : Array Field
  /-- The type that each field belongs to. -/
  fieldHomes : Array TypeId
  deriving Repr, Inhabited, BEq

namespace DeclTree

/-- A project without modules. -/
def empty (name : String) : DeclTree where
  project := ⟨name, []⟩
  modules := #[]
  packages := #[]
  files := #[]
  types := #[]
  funcs := #[]
  funcHomes := #[]
  fields := #[]
  fieldHomes := #[]

/-! ### Looking up nodes -/

/-- The module of an id. -/
def module (tree : DeclTree) (id : ModuleId) : ModuleNode :=
  tree.modules.getD id.index default

/-- The package of an id. -/
def package (tree : DeclTree) (id : PackageId) : PackageNode :=
  tree.packages.getD id.index default

/-- The file of an id. -/
def file (tree : DeclTree) (id : FileId) : FileNode :=
  tree.files.getD id.index default

/-- The type of an id. -/
def type (tree : DeclTree) (id : TypeId) : TypeNode :=
  tree.types.getD id.index default

/-- The func of an id. -/
def func (tree : DeclTree) (id : FuncId) : Func :=
  tree.funcs.getD id.index default

/-- Where the func of an id is declared. -/
def funcHome (tree : DeclTree) (id : FuncId) : FuncHome :=
  tree.funcHomes.getD id.index default

/-- The field of an id. -/
def field (tree : DeclTree) (id : FieldId) : Field :=
  tree.fields.getD id.index default

/-- The type that the field of an id belongs to. -/
def fieldHome (tree : DeclTree) (id : FieldId) : TypeId :=
  tree.fieldHomes.getD id.index default

/-! ### Changing nodes -/

/-- Changes the package of an id. -/
def modifyPackage (tree : DeclTree) (id : PackageId) (f : PackageNode → PackageNode) : DeclTree :=
  { tree with packages := tree.packages.modify id.index f }

/-- Changes the file of an id. -/
def modifyFile (tree : DeclTree) (id : FileId) (f : FileNode → FileNode) : DeclTree :=
  { tree with files := tree.files.modify id.index f }

/-- Changes the type of an id. -/
def modifyType (tree : DeclTree) (id : TypeId) (f : TypeNode → TypeNode) : DeclTree :=
  { tree with types := tree.types.modify id.index f }

/-! ### Adding nodes

Each function yields the id of the new node and the grown tree. -/

/-- Adds a module to the project. -/
def addModule (tree : DeclTree) (path language : String) : ModuleId × DeclTree :=
  let id : ModuleId := ⟨tree.modules.size⟩
  (id, { tree with
    modules := tree.modules.push ⟨path, language, []⟩
    project := { tree.project with modules := tree.project.modules ++ [id] } })

/-- Adds a package to a module. -/
def addPackage (tree : DeclTree) (module : ModuleId) (path name : String) :
    PackageId × DeclTree :=
  let id : PackageId := ⟨tree.packages.size⟩
  (id, { tree with
    packages := tree.packages.push ⟨module, path, name, none, none, [], []⟩
    modules := tree.modules.modify module.index fun node =>
      { node with packages := node.packages ++ [id] } })

/-- Adds a file to a package. -/
def addFile (tree : DeclTree) (package : PackageId) (name : String) : FileId × DeclTree :=
  let id : FileId := ⟨tree.files.size⟩
  (id, { tree with
    files := tree.files.push ⟨package, name, none, none, [], []⟩
    packages := tree.packages.modify package.index fun node =>
      { node with files := node.files ++ [id] } })

/-- Adds an exported type without members to a file. -/
def addType (tree : DeclTree) (file : FileId) (kind : TypeForm) (name : String) :
    TypeId × DeclTree :=
  let id : TypeId := ⟨tree.types.size⟩
  (id, { tree with
    types := tree.types.push ⟨file, kind, name, .exported, none, [], []⟩
    files := tree.files.modify file.index fun node =>
      { node with types := node.types ++ [id] } })

/-- Adds a field to a type. -/
def addField (tree : DeclTree) (home : TypeId) (field : Field) : FieldId × DeclTree :=
  let id : FieldId := ⟨tree.fields.size⟩
  (id, { tree with
    fields := tree.fields.push field
    fieldHomes := tree.fieldHomes.push home
    types := tree.types.modify home.index fun node =>
      { node with fields := node.fields ++ [id] } })

/-- Appends a func to the funcs, with its home; no node lists it yet. -/
def appendFunc (tree : DeclTree) (home : FuncHome) (func : Func) : DeclTree :=
  { tree with
    funcs := tree.funcs.push func
    funcHomes := tree.funcHomes.push home }

/-- Adds a method to a type. -/
def addMethod (tree : DeclTree) (home : TypeId) (func : Func) : FuncId × DeclTree :=
  let id : FuncId := ⟨tree.funcs.size⟩
  (id, (tree.appendFunc (.type home) func).modifyType home fun node =>
    { node with methods := node.methods ++ [id] })

/-- Adds a func to a file. -/
def addFunc (tree : DeclTree) (file : FileId) (func : Func) : FuncId × DeclTree :=
  let id : FuncId := ⟨tree.funcs.size⟩
  (id, (tree.appendFunc (.file file) func).modifyFile file fun node =>
    { node with funcs := node.funcs ++ [id] })

/-- Adds a func to a package. -/
def addPackageFunc (tree : DeclTree) (package : PackageId) (func : Func) : FuncId × DeclTree :=
  let id : FuncId := ⟨tree.funcs.size⟩
  (id, (tree.appendFunc (.package package) func).modifyPackage package fun node =>
    { node with funcs := node.funcs ++ [id] })

end DeclTree

end DeclPrinter
