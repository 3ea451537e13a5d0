import DeclPrinter.Proofs.Tree.Homed
import DeclPrinter.Proofs.Tree.Linked

/-!
# Growing a tree step by step

A tree grows by additions, each of which puts one node below another (`Addition`). In a tree that
grew that way (`DeclTree.Raised`), also with changes to nodes in between that move none and list
nothing new, the lists that nodes keep and the homes that nodes record agree at all levels
(`DeclTree.Arranged`): nodes are linked and funcs are at home.

What one addition keeps and what one change keeps is said for each level (`Linked.add`, `Homed.add`,
`Arranged.add`), and a single induction along the growth puts it together (`Raised.arranged`).
-/

namespace DeclPrinter

/-- What can be added to a tree, each with the node below which it goes. -/
inductive Addition where
  | module (path language : String)
  | package (module : ModuleId) (path name : String)
  | file (package : PackageId) (name : String)
  | type (file : FileId) (kind : TypeForm) (name : String)
  | field (home : TypeId) (field : Field)
  | method (home : TypeId) (func : Func)
  | func (file : FileId) (func : Func)
  | packageFunc (package : PackageId) (func : Func)
  deriving Repr

namespace DeclTree

variable {tree : DeclTree}

/-- The tree with a node more. -/
def add (tree : DeclTree) : Addition → DeclTree
  | .module path language => (tree.addModule path language).2
  | .package module path name => (tree.addPackage module path name).2
  | .file package name => (tree.addFile package name).2
  | .type file kind name => (tree.addType file kind name).2
  | .field home field => (tree.addField home field).2
  | .method home func => (tree.addMethod home func).2
  | .func file func => (tree.addFunc file func).2
  | .packageFunc package func => (tree.addPackageFunc package func).2

/-- The tree after additions, one after another. -/
def addAll (tree : DeclTree) (additions : List Addition) : DeclTree :=
  additions.foldl add tree

/-! ### Packages, files and types -/

namespace Linked

/-- **An addition keeps the nodes linked.** -/
theorem add (h : tree.Linked) (addition : Addition) : (tree.add addition).Linked := by
  -- A new node is a child for the links to it and a parent, with nothing listed, for those below.
  cases addition with
  | module path language => exact ⟨h.packages.addParent rfl, h.files, h.types⟩
  | package module path name =>
    exact ⟨h.packages.addChild rfl fun _ => List.map_append, h.files.addParent rfl, h.types⟩
  | file package name =>
    exact ⟨h.packages.modifyChild _ fun _ => rfl, h.files.addChild rfl fun _ => List.map_append,
      h.types.addParent rfl⟩
  | type file kind name =>
    exact ⟨h.packages, h.files.modifyChild _ fun _ => rfl,
      h.types.addChild rfl fun _ => List.map_append⟩
  | field home field => exact ⟨h.packages, h.files, h.types.modifyChild _ fun _ => rfl⟩
  | method home func => exact ⟨h.packages, h.files, h.types.modifyChild _ fun _ => rfl⟩
  | func file func =>
    exact ⟨h.packages, h.files.modifyChild _ fun _ => rfl,
      h.types.modifyParent _ fun _ => List.Subset.refl _⟩
  | packageFunc package func =>
    exact ⟨h.packages.modifyChild _ fun _ => rfl,
      h.files.modifyParent _ fun _ => List.Subset.refl _, h.types⟩

theorem modifyPackage (h : tree.Linked) (id : PackageId) {f : PackageNode → PackageNode}
    (hmodule : ∀ node, (f node).module = node.module)
    (hfiles : ∀ node, (f node).files ⊆ node.files) : (tree.modifyPackage id f).Linked where
  packages := h.packages.modifyChild _ fun node => congrArg ModuleId.index (hmodule node)
  files := h.files.modifyParent _ fun node => List.map_subset _ (hfiles node)
  types := h.types

theorem modifyFile (h : tree.Linked) (id : FileId) {f : FileNode → FileNode}
    (hpackage : ∀ node, (f node).package = node.package)
    (htypes : ∀ node, (f node).types ⊆ node.types) : (tree.modifyFile id f).Linked where
  packages := h.packages
  files := h.files.modifyChild _ fun node => congrArg PackageId.index (hpackage node)
  types := h.types.modifyParent _ fun node => List.map_subset _ (htypes node)

theorem modifyType (h : tree.Linked) (id : TypeId) {f : TypeNode → TypeNode}
    (hfile : ∀ node, (f node).file = node.file) : (tree.modifyType id f).Linked where
  packages := h.packages
  files := h.files
  types := h.types.modifyChild _ fun node => congrArg FileId.index (hfile node)

end Linked

/-! ### Funcs -/

namespace Homed

/-- **An addition keeps funcs at home.** -/
theorem add (h : tree.Homed) (addition : Addition) : (tree.add addition).Homed := by
  cases addition with
  | module path language => exact ⟨h.size_eq, h.types, h.files, h.packages⟩
  | package module path name => exact ⟨h.size_eq, h.types, h.files, h.packages.addParent rfl⟩
  | file package name =>
    exact ⟨h.size_eq, h.types, h.files.addParent rfl,
      h.packages.modifyParent _ fun _ => List.Subset.refl _⟩
  | type file kind name =>
    exact ⟨h.size_eq, h.types.addParent rfl,
      h.files.modifyParent _ fun _ => List.Subset.refl _, h.packages⟩
  | field home field =>
    exact ⟨h.size_eq, h.types.modifyParent _ fun _ => List.Subset.refl _, h.files, h.packages⟩
  -- A func is listed by one parent, and by none of the two other kinds.
  | method home func =>
    exact ⟨h.size_push _ _, h.types.addFunc _ fun node => h.append_size node.methods,
      h.files.push _, h.packages.push _⟩
  | func file func =>
    exact ⟨h.size_push _ _, h.types.push _,
      h.files.addFunc _ fun node => h.append_size node.funcs, h.packages.push _⟩
  | packageFunc package func =>
    exact ⟨h.size_push _ _, h.types.push _, h.files.push _,
      h.packages.addFunc _ fun node => h.append_size node.funcs⟩

theorem modifyPackage (h : tree.Homed) (id : PackageId) {f : PackageNode → PackageNode}
    (hfuncs : ∀ node, (f node).funcs ⊆ node.funcs) : (tree.modifyPackage id f).Homed :=
  ⟨h.size_eq, h.types, h.files, h.packages.modifyParent _ hfuncs⟩

theorem modifyFile (h : tree.Homed) (id : FileId) {f : FileNode → FileNode}
    (hfuncs : ∀ node, (f node).funcs ⊆ node.funcs) : (tree.modifyFile id f).Homed :=
  ⟨h.size_eq, h.types, h.files.modifyParent _ hfuncs, h.packages⟩

theorem modifyType (h : tree.Homed) (id : TypeId) {f : TypeNode → TypeNode}
    (hmethods : ∀ node, (f node).methods ⊆ node.methods) : (tree.modifyType id f).Homed :=
  ⟨h.size_eq, h.types.modifyParent _ hmethods, h.files, h.packages⟩

end Homed

/-! ### All levels -/

/-- At all levels, what a node lists is there and records the node that lists it. -/
structure Arranged (tree : DeclTree) : Prop where
  /-- The project lists modules that are there. -/
  modules : ∀ id ∈ tree.project.modules, id.index < tree.modules.size
  /-- Packages, files and types. -/
  linked : tree.Linked
  /-- Funcs. -/
  homed : tree.Homed
  /-- Every field has a home. -/
  fields_size : tree.fieldHomes.size = tree.fields.size
  /-- Fields record the type that lists them. -/
  fields : Links tree.types tree.fieldHomes (·.fields.map (·.index)) (·.index)

namespace Arranged

theorem empty (name : String) : (DeclTree.empty name).Arranged where
  modules := fun _ hid => by cases hid
  linked := ⟨.empty rfl, .empty rfl, .empty rfl⟩
  homed := ⟨rfl, .empty rfl, .empty rfl, .empty rfl⟩
  fields_size := rfl
  fields := .empty rfl

/-- The modules that the project lists are there after an addition. -/
theorem modules_add (h : ∀ id ∈ tree.project.modules, id.index < tree.modules.size)
    (addition : Addition) :
    ∀ id ∈ (tree.add addition).project.modules, id.index < (tree.add addition).modules.size := by
  intro id hid
  cases addition with
  | module path language =>
    show id.index < (Array.push _ _).size
    rw [Array.size_push]
    rcases List.mem_append.mp hid with hold | hnew
    · exact Nat.lt_succ_of_lt (h id hold)
    · rw [List.mem_singleton.mp hnew]
      exact Nat.lt_succ_self _
  | package module path name =>
    show id.index < (Array.modify _ _ _).size
    rw [Array.size_modify]
    exact h id hid
  | _ => exact h id hid

/-- Fields record the type that lists them after an addition. -/
theorem fields_add (hsize : tree.fieldHomes.size = tree.fields.size)
    (hfields : Links tree.types tree.fieldHomes (·.fields.map (·.index)) (·.index))
    (addition : Addition) :
    (tree.add addition).fieldHomes.size = (tree.add addition).fields.size ∧
      Links (tree.add addition).types (tree.add addition).fieldHomes (·.fields.map (·.index))
        (·.index) := by
  cases addition with
  | type file kind name => exact ⟨hsize, hfields.addParent rfl⟩
  | field home field =>
    refine ⟨?_, hfields.addChild rfl fun node => ?_⟩
    · show (Array.push _ _).size = (Array.push _ _).size
      rw [Array.size_push, Array.size_push, hsize]
    · -- The new home has the index of the new field.
      rw [List.map_append, hsize]
      rfl
  | method home func => exact ⟨hsize, hfields.modifyParent _ fun _ => List.Subset.refl _⟩
  | _ => exact ⟨hsize, hfields⟩

/-- **An addition keeps the tree arranged.** -/
theorem add (h : tree.Arranged) (addition : Addition) : (tree.add addition).Arranged :=
  have hfields := fields_add h.fields_size h.fields addition
  ⟨modules_add h.modules addition, h.linked.add addition, h.homed.add addition, hfields.1,
    hfields.2⟩

end Arranged

/-- A tree that grows by additions, and by changes to nodes that move none and list nothing new. -/
inductive Raised : DeclTree → Prop where
  | empty (name : String) : Raised (empty name)
  | add {tree : DeclTree} (h : Raised tree) (addition : Addition) : Raised (tree.add addition)
  | modifyPackage {tree : DeclTree} (h : Raised tree) (id : PackageId)
      (f : PackageNode → PackageNode) (hmodule : ∀ node, (f node).module = node.module)
      (hfiles : ∀ node, (f node).files ⊆ node.files)
      (hfuncs : ∀ node, (f node).funcs ⊆ node.funcs) : Raised (tree.modifyPackage id f)
  | modifyFile {tree : DeclTree} (h : Raised tree) (id : FileId) (f : FileNode → FileNode)
      (hpackage : ∀ node, (f node).package = node.package)
      (htypes : ∀ node, (f node).types ⊆ node.types)
      (hfuncs : ∀ node, (f node).funcs ⊆ node.funcs) : Raised (tree.modifyFile id f)
  | modifyType {tree : DeclTree} (h : Raised tree) (id : TypeId) (f : TypeNode → TypeNode)
      (hfile : ∀ node, (f node).file = node.file)
      (hfields : ∀ node, (f node).fields ⊆ node.fields)
      (hmethods : ∀ node, (f node).methods ⊆ node.methods) : Raised (tree.modifyType id f)

namespace Raised

/-- Adding nodes one after another raises the tree. -/
theorem foldl {α : Type} {items : List α} {add : DeclTree → α → DeclTree}
    (hadd : ∀ tree item, Raised tree → Raised (add tree item)) (h : Raised tree) :
    Raised (items.foldl add tree) := by
  induction items generalizing tree with
  | nil => exact h
  | cons item rest ih => exact ih (hadd tree item h)

theorem addAll (h : Raised tree) (additions : List Addition) : Raised (tree.addAll additions) :=
  foldl (fun _ addition htree => htree.add addition) h

/-- **A tree that grew by additions is arranged.** -/
theorem arranged (h : Raised tree) : tree.Arranged := by
  induction h with
  | empty name => exact .empty name
  | add _ addition ih => exact ih.add addition
  | modifyPackage _ id f hmodule hfiles hfuncs ih =>
    exact ⟨ih.modules, ih.linked.modifyPackage id hmodule hfiles,
      ih.homed.modifyPackage id hfuncs, ih.fields_size, ih.fields⟩
  | modifyFile _ id f hpackage htypes hfuncs ih =>
    exact ⟨ih.modules, ih.linked.modifyFile id hpackage htypes,
      ih.homed.modifyFile id hfuncs, ih.fields_size, ih.fields⟩
  | modifyType _ id f hfile hfields hmethods ih =>
    exact ⟨ih.modules, ih.linked.modifyType id hfile, ih.homed.modifyType id hmethods,
      ih.fields_size, ih.fields.modifyParent _ fun node => List.map_subset _ (hfields node)⟩

end Raised

/-! ### A file of one type -/

/-- A module `com.acme` with a file `store` in its package `lib`. The file has one type, with
fields of these names, methods of these names and these results, and funcs of these names. -/
def ofMembers (language type : String) (fields methods : List String) (results : List Param)
    (funcs : List String) : DeclTree :=
  let func (name : String) (results : List Param) : Func :=
    ⟨name, .exported, none, [], results, .empty, none⟩
  let (module, tree) := (DeclTree.empty "demo").addModule "com.acme" language
  let (package, tree) := tree.addPackage module "lib" "lib"
  let (file, tree) := tree.addFile package "store"
  let (id, tree) := tree.addType file .struct type
  let tree := fields.foldl (fun tree name =>
    (tree.addField id ⟨name, .exported, .simple ⟨"string"⟩, none, []⟩).2) tree
  let tree := methods.foldl (fun tree name => (tree.addMethod id (func name results)).2) tree
  funcs.foldl (fun tree name => (tree.addFunc file (func name [])).2) tree

theorem raised_ofMembers (language type : String) (fields methods : List String)
    (results : List Param) (funcs : List String) :
    (ofMembers language type fields methods results funcs).Raised := by
  have htype := ((((Raised.empty "demo").add (.module "com.acme" language)).add
    (.package ⟨0⟩ "lib" "lib")).add (.file ⟨0⟩ "store")).add (.type ⟨0⟩ .struct type)
  refine Raised.foldl (fun _ _ h => h.add (.func _ _)) ?_
  refine Raised.foldl (fun _ _ h => h.add (.method _ _)) ?_
  exact Raised.foldl (fun _ _ h => h.add (.field _ _)) htype

end DeclTree

end DeclPrinter
