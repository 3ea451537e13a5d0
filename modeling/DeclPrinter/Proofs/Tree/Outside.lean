import DeclPrinter.Proofs.Tree.Part

/-!
# Additions outside a module

An addition changes one node, the one below which it puts another, and makes the arrays of nodes
longer. So additions that go elsewhere leave what is below a module as it is
(`sameWithin_addAll`), even where they give new nodes the names of old ones.
-/

namespace DeclPrinter

/-- The node below which the addition puts another. -/
def Addition.parent : Addition → TreeNode
  | .module _ _ => .project
  | .package home _ _ => .module home
  | .file home _ => .package home
  | .type home _ _ => .file home
  | .field home _ => .type home
  | .method home _ => .type home
  | .func home _ => .file home
  | .packageFunc home _ => .package home

/-- The module that the addition is to, unless it is a new module itself. -/
def Addition.module? (tree : DeclTree) : Addition → Option ModuleId
  | .module _ _ => none
  | .package home _ _ => some home
  | .file home _ => some (tree.package home).module
  | .type home _ _ => some (tree.package (tree.file home).package).module
  | .field home _ => some (tree.package (tree.packageOfType home)).module
  | .method home _ => some (tree.package (tree.packageOfType home)).module
  | .func home _ => some (tree.package (tree.file home).package).module
  | .packageFunc home _ => some (tree.package home).module

namespace DeclTree

/-- None of the additions, one after another, is to the module. -/
def AllOutside (module : ModuleId) : DeclTree → List Addition → Prop
  | _, [] => True
  | tree, addition :: rest =>
    addition.module? tree ≠ some module ∧ AllOutside module (tree.add addition) rest

/-- The tree has the node. -/
def Has (tree : DeclTree) : TreeNode → Prop
  | .project => True
  | .module id => id.index < tree.modules.size
  | .package id => id.index < tree.packages.size
  | .file id => id.index < tree.files.size
  | .type id => id.index < tree.types.size
  | .func id => id.index < tree.funcs.size ∧ id.index < tree.funcHomes.size
  | .field id => id.index < tree.fields.size ∧ id.index < tree.fieldHomes.size

variable {tree current : DeclTree} {part : TreeNode → Prop} {module : ModuleId}
  {addition : Addition} {node : TreeNode}

/-! ### Nodes that are there -/

/-- What an arranged tree lists is there. -/
theorem Arranged.has_of_mem_children (h : tree.Arranged) {parent : TreeNode}
    (hnode : node ∈ tree.children parent) : tree.Has node := by
  have hfunc {func : FuncId} (hsize : func.index < tree.funcHomes.size) : tree.Has (.func func) :=
    ⟨h.homed.size_eq ▸ hsize, hsize⟩
  -- Packages, files and types are linked to their parents, and funcs are at home with theirs.
  cases parent with
  | project =>
    obtain ⟨id, hid, rfl⟩ := List.mem_map.mp hnode
    exact h.modules id hid
  | module id =>
    obtain ⟨package, hpackage, rfl⟩ := List.mem_map.mp hnode
    exact (h.linked.packages id.index package.index (List.mem_map_of_mem hpackage)).1
  | package id =>
    rcases List.mem_append.mp hnode with hnode | hnode
    · obtain ⟨file, hfile, rfl⟩ := List.mem_map.mp hnode
      exact (h.linked.files id.index file.index (List.mem_map_of_mem hfile)).1
    · obtain ⟨func, hmem, rfl⟩ := List.mem_map.mp hnode
      exact hfunc (h.homed.packages id.index func hmem).1
  | file id =>
    rcases List.mem_append.mp hnode with hnode | hnode
    · obtain ⟨type, htype, rfl⟩ := List.mem_map.mp hnode
      exact (h.linked.types id.index type.index (List.mem_map_of_mem htype)).1
    · obtain ⟨func, hmem, rfl⟩ := List.mem_map.mp hnode
      exact hfunc (h.homed.files id.index func hmem).1
  | type id =>
    rcases List.mem_append.mp hnode with hnode | hnode
    · obtain ⟨field, hfield, rfl⟩ := List.mem_map.mp hnode
      have hsize := (h.fields id.index field.index (List.mem_map_of_mem hfield)).1
      exact ⟨h.fields_size ▸ hsize, hsize⟩
    · obtain ⟨func, hmem, rfl⟩ := List.mem_map.mp hnode
      exact hfunc (h.homed.types id.index func hmem).1
  | func id => cases hnode
  | field id => cases hnode

theorem Arranged.has_of_within (h : tree.Arranged) (hmodule : module ∈ tree.project.modules)
    (hnode : tree.within module node) : tree.Has node := by
  rcases hnode.cases_tail with rfl | ⟨parent, _, hchild⟩
  · exact h.modules module hmodule
  · exact h.has_of_mem_children hchild

/-- An addition takes no node away. -/
theorem has_add (h : tree.Has node) (addition : Addition) : (tree.add addition).Has node := by
  cases addition <;> cases node <;>
    simp only [Has, add, addModule, addPackage, addFile, addType, addField, addMethod, addFunc,
      addPackageFunc, appendFunc, modifyType, modifyFile, modifyPackage, Array.size_push,
      Array.size_modify] at h ⊢ <;> omega

/-! ### Nodes that stay as they are -/

theorem getD_push_of_lt {α : Type} [Inhabited α] {items : Array α} {index : Nat}
    (h : index < items.size) (item : α) :
    (items.push item).getD index default = items.getD index default := by
  rw [Links.getD_push, if_neg (Nat.ne_of_lt h)]

/-- An item is as it was when something holds of its index that does not hold of the place where
the items were changed. -/
theorem getD_modify_of_not {α : Type} [Inhabited α] (P : Nat → Prop) (items : Array α)
    {index place : Nat} (hindex : P index) (hplace : ¬ P place) (f : α → α) :
    (items.modify place f).getD index default = items.getD index default := by
  have hne : index ≠ place := by
    rintro rfl
    exact hplace hindex
  rw [Links.getD_modify, if_neg fun hboth => hne hboth.1]

/-- **An addition outside a part leaves it as it is.** -/
theorem sameWithin_add (hhas : ∀ node, part node → tree.Has node)
    (houtside : ¬ part addition.parent) : SameWithin part tree (tree.add addition) := by
  -- Of the nodes of the part none is new, and none is the parent.
  have hsame := SameWithin.refl part tree
  have hmodules (place : Nat) (h : ¬ part (.module ⟨place⟩)) (f : ModuleNode → ModuleNode)
      {id : ModuleId} (hid : part (.module id)) :=
    getD_modify_of_not (fun index => part (.module ⟨index⟩)) tree.modules hid h f
  have hpackages (place : Nat) (h : ¬ part (.package ⟨place⟩)) (f : PackageNode → PackageNode)
      {id : PackageId} (hid : part (.package id)) :=
    getD_modify_of_not (fun index => part (.package ⟨index⟩)) tree.packages hid h f
  have hfiles (place : Nat) (h : ¬ part (.file ⟨place⟩)) (f : FileNode → FileNode)
      {id : FileId} (hid : part (.file id)) :=
    getD_modify_of_not (fun index => part (.file ⟨index⟩)) tree.files hid h f
  have htypes (place : Nat) (h : ¬ part (.type ⟨place⟩)) (f : TypeNode → TypeNode)
      {id : TypeId} (hid : part (.type id)) :=
    getD_modify_of_not (fun index => part (.type ⟨index⟩)) tree.types hid h f
  cases addition with
  | module path language =>
    exact { hsame with module := fun hid => getD_push_of_lt (hhas _ hid) _ }
  | package module path name =>
    exact { hsame with
      module := hmodules _ houtside _
      package := fun hid => getD_push_of_lt (hhas _ hid) _ }
  | file package name =>
    exact { hsame with
      package := hpackages _ houtside _
      file := fun hid => getD_push_of_lt (hhas _ hid) _ }
  | type file kind name =>
    exact { hsame with
      file := hfiles _ houtside _
      type := fun hid => getD_push_of_lt (hhas _ hid) _ }
  | field home field =>
    exact { hsame with
      type := htypes _ houtside _
      field := fun hid => getD_push_of_lt (hhas _ hid).1 _
      fieldHome := fun hid => getD_push_of_lt (hhas _ hid).2 _ }
  | method home func =>
    exact { hsame with
      type := htypes _ houtside _
      func := fun hid => getD_push_of_lt (hhas _ hid).1 _
      funcHome := fun hid => getD_push_of_lt (hhas _ hid).2 _ }
  | func file func =>
    exact { hsame with
      file := hfiles _ houtside _
      func := fun hid => getD_push_of_lt (hhas _ hid).1 _
      funcHome := fun hid => getD_push_of_lt (hhas _ hid).2 _ }
  | packageFunc package func =>
    exact { hsame with
      package := hpackages _ houtside _
      func := fun hid => getD_push_of_lt (hhas _ hid).1 _
      funcHome := fun hid => getD_push_of_lt (hhas _ hid).2 _ }

/-! ### Many additions -/

/-- An addition below a node of the module is to the module, also when other additions came
before. -/
theorem module?_of_within (h : tree.Arranged)
    (hsame : SameWithin (tree.within module) tree current)
    (hparent : tree.within module addition.parent) : addition.module? current = some module := by
  have hclosed := h.closed_within module
  -- Up from a node of the module, its package is one of the module.
  have hpackage {id : PackageId} (hid : tree.within module (.package id)) :
      some (current.package id).module = some module := by
    rw [hsame.package hid, eq_of_within (hclosed.module_of_package hid)]
  have hfile {id : FileId} (hid : tree.within module (.file id)) :
      some (current.package (current.file id).package).module = some module := by
    rw [hsame.file hid]
    exact hpackage (hclosed.package_of_file hid)
  have htype {id : TypeId} (hid : tree.within module (.type id)) :
      some (current.package (current.packageOfType id)).module = some module := by
    unfold packageOfType
    rw [hsame.type hid]
    exact hfile (hclosed.file_of_type hid)
  cases addition with
  | module path language => exact absurd hparent not_within_project
  | package other path name => exact congrArg some (eq_of_within hparent)
  | file package name => exact hpackage hparent
  | type file kind name => exact hfile hparent
  | field home field => exact htype hparent
  | method home func => exact htype hparent
  | func file func => exact hfile hparent
  | packageFunc package func => exact hpackage hparent

theorem SameWithin.trans {other : DeclTree} (h : SameWithin part tree current)
    (hrest : SameWithin part current other) : SameWithin part tree other where
  project := hrest.project.trans h.project
  module := fun hid => (hrest.module hid).trans (h.module hid)
  package := fun hid => (hrest.package hid).trans (h.package hid)
  file := fun hid => (hrest.file hid).trans (h.file hid)
  type := fun hid => (hrest.type hid).trans (h.type hid)
  func := fun hid => (hrest.func hid).trans (h.func hid)
  funcHome := fun hid => (hrest.funcHome hid).trans (h.funcHome hid)
  field := fun hid => (hrest.field hid).trans (h.field hid)
  fieldHome := fun hid => (hrest.fieldHome hid).trans (h.fieldHome hid)

/-- **Additions that are not to a module leave what is below it as it is.** -/
theorem sameWithin_addAll (h : tree.Arranged) (hmodule : module ∈ tree.project.modules)
    {additions : List Addition} (houtside : AllOutside module tree additions) :
    SameWithin (tree.within module) tree (tree.addAll additions) := by
  -- From one addition to the next the old part is there and unchanged, though the tree grew.
  suffices hgeneral : ∀ current, SameWithin (tree.within module) tree current →
      (∀ node, tree.within module node → current.Has node) → AllOutside module current additions →
      SameWithin (tree.within module) tree (current.addAll additions) from
    hgeneral tree (.refl _ _) (fun _ hnode => h.has_of_within hmodule hnode) houtside
  clear houtside
  induction additions with
  | nil =>
    intro current hsame _ _
    exact hsame
  | cons addition rest ih =>
    rintro current hsame hhas ⟨hfirst, hrest⟩
    have hparent : ¬ tree.within module addition.parent :=
      fun hparent => hfirst (module?_of_within h hsame hparent)
    exact ih (current.add addition) (hsame.trans (sameWithin_add hhas hparent))
      (fun node hnode => has_add (hhas node hnode) addition) hrest

/-- Additions take no module from the project. -/
theorem mem_modules_addAll (h : module ∈ tree.project.modules) (additions : List Addition) :
    module ∈ (tree.addAll additions).project.modules := by
  induction additions generalizing tree with
  | nil => exact h
  | cons addition rest ih =>
    refine ih ?_
    cases addition with
    | module path language => exact List.mem_append_left _ h
    | _ => exact h

end DeclTree

end DeclPrinter
