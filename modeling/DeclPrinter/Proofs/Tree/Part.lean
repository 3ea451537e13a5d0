import DeclPrinter.Proofs.Tree.Additions
import DeclPrinter.Proofs.Tree.Markers
import DeclPrinter.Writing.Spelling
import Mathlib.Data.List.Find
import Mathlib.Logic.Relation

/-!
# Parts of a tree

A part of a tree is a set of its nodes. It is closed when it has, with every node, what the node
lists and the node that it records as its home (`DeclTree.Closed`). Two trees may have a part in
common (`SameWithin`), or have it in common but for metadata and for what is in bodies
(`AlikeWithin`), and differ everywhere else: a question about a node of a closed part then has the
same answer in both, and the answer is in the part again.

In an arranged tree what is below a module is such a part (`closed_within`).
-/

namespace DeclPrinter

/-- The node that a func is at home in. -/
def FuncHome.node : FuncHome → TreeNode
  | .file id => .file id
  | .package id => .package id
  | .type id => .type id

namespace DeclTree

/-- The nodes that a node lists. -/
def children (tree : DeclTree) : TreeNode → List TreeNode
  | .project => tree.project.modules.map .module
  | .module id => (tree.module id).packages.map .package
  | .package id => (tree.package id).files.map .file ++ (tree.package id).funcs.map .func
  | .file id => (tree.file id).types.map .type ++ (tree.file id).funcs.map .func
  | .type id => (tree.type id).fields.map .field ++ (tree.type id).methods.map .func
  | .func _ => []
  | .field _ => []

/-- The node that a node below a module records as the one it is in. -/
def home? (tree : DeclTree) : TreeNode → Option TreeNode
  | .project => none
  | .module _ => none
  | .package id => some (.module (tree.package id).module)
  | .file id => some (.package (tree.file id).package)
  | .type id => some (.file (tree.type id).file)
  | .func id => some (tree.funcHome id).node
  | .field id => some (.type (tree.fieldHome id))

/-- The part has with a node what the node lists, and where it is. -/
structure Closed (tree : DeclTree) (part : TreeNode → Prop) : Prop where
  children : ∀ {node}, part node → ∀ child ∈ tree.children node, part child
  home : ∀ {node}, part node → ∀ home ∈ tree.home? node, part home

/-- The trees have the part in common, and the name of the project. -/
structure SameWithin (part : TreeNode → Prop) (tree other : DeclTree) : Prop where
  project : other.project.name = tree.project.name
  module : ∀ {id}, part (.module id) → other.module id = tree.module id
  package : ∀ {id}, part (.package id) → other.package id = tree.package id
  file : ∀ {id}, part (.file id) → other.file id = tree.file id
  type : ∀ {id}, part (.type id) → other.type id = tree.type id
  func : ∀ {id}, part (.func id) → other.func id = tree.func id
  funcHome : ∀ {id}, part (.func id) → other.funcHome id = tree.funcHome id
  field : ∀ {id}, part (.field id) → other.field id = tree.field id
  fieldHome : ∀ {id}, part (.field id) → other.fieldHome id = tree.fieldHome id

/-- The trees have the part in common but for metadata and for what is in bodies. -/
structure AlikeWithin (part : TreeNode → Prop) (tree other : DeclTree) : Prop where
  project : other.project.name = tree.project.name
  module : ∀ {id}, part (.module id) → other.module id = tree.module id
  package : ∀ {id}, part (.package id) → other.package id = tree.package id
  file : ∀ {id}, part (.file id) → other.file id = tree.file id
  type : ∀ {id}, part (.type id) → other.type id = tree.type id
  func : ∀ {id}, part (.func id) → (other.func id).hollow = (tree.func id).hollow
  funcHome : ∀ {id}, part (.func id) → other.funcHome id = tree.funcHome id
  field : ∀ {id}, part (.field id) → (other.field id).unmarked = (tree.field id).unmarked
  fieldHome : ∀ {id}, part (.field id) → other.fieldHome id = tree.fieldHome id

variable {tree other : DeclTree} {part : TreeNode → Prop}

theorem SameWithin.alike (h : SameWithin part tree other) : AlikeWithin part tree other where
  project := h.project
  module := h.module
  package := h.package
  file := h.file
  type := h.type
  func := fun hid => congrArg Func.hollow (h.func hid)
  funcHome := h.funcHome
  field := fun hid => congrArg Field.unmarked (h.field hid)
  fieldHome := h.fieldHome

/-- Trees that differ in metadata and in what is in bodies are alike in all their nodes. -/
theorem AlikeWithin.of_hollow (h : other.hollow = tree.hollow) :
    AlikeWithin (fun _ => True) tree other where
  project := (congrArg (·.project.name) h :)
  module := fun {id} _ => (congrArg (DeclTree.module · id) h :)
  package := fun {id} _ => (congrArg (DeclTree.package · id) h :)
  file := fun {id} _ => (congrArg (DeclTree.file · id) h :)
  type := fun {id} _ => (congrArg (DeclTree.type · id) h :)
  func := fun {id} _ => by rw [← func_hollow, h, func_hollow]
  funcHome := fun {id} _ => (congrArg (DeclTree.funcHome · id) h :)
  field := fun {id} _ => by rw [← field_hollow, h, field_hollow]
  fieldHome := fun {id} _ => (congrArg (DeclTree.fieldHome · id) h :)

/-- Every node is in the part of all nodes. -/
theorem closed_all (tree : DeclTree) : tree.Closed fun _ => True :=
  ⟨fun _ _ _ => trivial, fun _ _ _ => trivial⟩

theorem SameWithin.refl (part : TreeNode → Prop) (tree : DeclTree) : SameWithin part tree tree := by
  constructor <;> intros <;> rfl

namespace Closed

variable (h : tree.Closed part)

include h

theorem package_of_module {id : ModuleId} (hid : part (.module id)) {package : PackageId}
    (hpackage : package ∈ (tree.module id).packages) : part (.package package) :=
  h.children hid _ (List.mem_map_of_mem hpackage)

theorem file_of_package {id : PackageId} (hid : part (.package id)) {file : FileId}
    (hfile : file ∈ (tree.package id).files) : part (.file file) :=
  h.children hid _ (List.mem_append_left _ (List.mem_map_of_mem hfile))

theorem func_of_package {id : PackageId} (hid : part (.package id)) {func : FuncId}
    (hfunc : func ∈ (tree.package id).funcs) : part (.func func) :=
  h.children hid _ (List.mem_append_right _ (List.mem_map_of_mem hfunc))

theorem type_of_file {id : FileId} (hid : part (.file id)) {type : TypeId}
    (htype : type ∈ (tree.file id).types) : part (.type type) :=
  h.children hid _ (List.mem_append_left _ (List.mem_map_of_mem htype))

theorem func_of_file {id : FileId} (hid : part (.file id)) {func : FuncId}
    (hfunc : func ∈ (tree.file id).funcs) : part (.func func) :=
  h.children hid _ (List.mem_append_right _ (List.mem_map_of_mem hfunc))

theorem field_of_type {id : TypeId} (hid : part (.type id)) {field : FieldId}
    (hfield : field ∈ (tree.type id).fields) : part (.field field) :=
  h.children hid _ (List.mem_append_left _ (List.mem_map_of_mem hfield))

theorem func_of_type {id : TypeId} (hid : part (.type id)) {func : FuncId}
    (hfunc : func ∈ (tree.type id).methods) : part (.func func) :=
  h.children hid _ (List.mem_append_right _ (List.mem_map_of_mem hfunc))

theorem module_of_package {id : PackageId} (hid : part (.package id)) :
    part (.module (tree.package id).module) :=
  h.home hid _ rfl

theorem package_of_file {id : FileId} (hid : part (.file id)) :
    part (.package (tree.file id).package) :=
  h.home hid _ rfl

theorem file_of_type {id : TypeId} (hid : part (.type id)) : part (.file (tree.type id).file) :=
  h.home hid _ rfl

theorem home_of_func {id : FuncId} (hid : part (.func id)) : part (tree.funcHome id).node :=
  h.home hid _ rfl

theorem type_of_field {id : FieldId} (hid : part (.field id)) :
    part (.type (tree.fieldHome id)) :=
  h.home hid _ rfl

/-- The types of a package are in the part. -/
theorem of_mem_typesIn {id : PackageId} (hid : part (.package id)) {type : TypeId}
    (htype : type ∈ tree.typesIn id) : part (.type type) := by
  obtain ⟨file, hfile, htype⟩ := List.mem_flatMap.mp htype
  exact h.type_of_file (h.file_of_package hid hfile) htype

theorem of_typeNamed? {id : PackageId} (hid : part (.package id)) {name : String} {type : TypeId}
    (htype : tree.typeNamed? id name = some type) : part (.type type) :=
  h.of_mem_typesIn hid (List.mem_of_find?_eq_some htype)

theorem of_packageAt? {id : ModuleId} (hid : part (.module id)) {path : String}
    {package : PackageId} (hpackage : tree.packageAt? id path = some package) :
    part (.package package) :=
  h.package_of_module hid (List.mem_of_find?_eq_some hpackage)

/-- **What a symbol names** from inside the part is in it. -/
theorem of_declaredTarget? {module : ModuleId} (hmodule : part (.module module))
    {package : PackageId} (hpackage : part (.package package)) {symbol : Symbol} {type : TypeId}
    (htype : tree.declaredTarget? module package symbol = some type) : part (.type type) := by
  unfold declaredTarget? at htype
  split at htype
  · rename_i own hown
    obtain rfl := Option.some.inj htype
    exact h.of_typeNamed? hpackage hown
  · obtain ⟨cut, _, htype⟩ := Option.bind_eq_some_iff.mp htype
    obtain ⟨found, hfound, htype⟩ := Option.bind_eq_some_iff.mp htype
    exact h.of_typeNamed? (h.of_packageAt? hmodule hfound) htype

end Closed

/-! ### Questions inside a part -/

namespace AlikeWithin

section

variable (h : AlikeWithin part tree other)

include h

theorem func_name {id : FuncId} (hid : part (.func id)) :
    (other.func id).name = (tree.func id).name :=
  (congrArg Func.name (h.func hid) :)

theorem func_visibility {id : FuncId} (hid : part (.func id)) :
    (other.func id).visibility = (tree.func id).visibility :=
  (congrArg Func.visibility (h.func hid) :)

theorem func_receiver {id : FuncId} (hid : part (.func id)) :
    (other.func id).receiver = (tree.func id).receiver :=
  (congrArg Func.receiver (h.func hid) :)

theorem func_body_doc {id : FuncId} (hid : part (.func id)) :
    (other.func id).body.doc = (tree.func id).body.doc :=
  (congrArg (·.body.doc) (h.func hid) :)

theorem func_body_header {id : FuncId} (hid : part (.func id)) :
    (other.func id).body.header = (tree.func id).body.header :=
  (congrArg (·.body.header) (h.func hid) :)

theorem func_body_chained {id : FuncId} (hid : part (.func id)) :
    (other.func id).body.chained.isSome = (tree.func id).body.chained.isSome := by
  simpa [Func.hollow, Func.unmarked, Block.hollow] using
    congrArg (·.body.chained.isSome) (h.func hid)

theorem field_name {id : FieldId} (hid : part (.field id)) :
    (other.field id).name = (tree.field id).name :=
  (congrArg Field.name (h.field hid) :)

theorem field_visibility {id : FieldId} (hid : part (.field id)) :
    (other.field id).visibility = (tree.field id).visibility :=
  (congrArg Field.visibility (h.field hid) :)

theorem field_type {id : FieldId} (hid : part (.field id)) :
    (other.field id).type = (tree.field id).type :=
  (congrArg Field.type (h.field hid) :)

theorem field_doc {id : FieldId} (hid : part (.field id)) :
    (other.field id).doc = (tree.field id).doc :=
  (congrArg Field.doc (h.field hid) :)

end

variable (h : AlikeWithin part tree other) (hclosed : tree.Closed part)

include h hclosed

theorem typesIn {id : PackageId} (hid : part (.package id)) :
    other.typesIn id = tree.typesIn id := by
  unfold DeclTree.typesIn
  rw [h.package hid]
  refine List.flatMap_congr fun file hfile => ?_
  rw [h.file (hclosed.file_of_package hid hfile)]

theorem typeNamed? {id : PackageId} (hid : part (.package id)) (name : String) :
    other.typeNamed? id name = tree.typeNamed? id name := by
  unfold DeclTree.typeNamed?
  rw [h.typesIn hclosed hid]
  refine List.find?_congr fun type htype => ?_
  rw [h.type (hclosed.of_mem_typesIn hid htype)]

theorem packageAt? {id : ModuleId} (hid : part (.module id)) (path : String) :
    other.packageAt? id path = tree.packageAt? id path := by
  unfold DeclTree.packageAt?
  rw [h.module hid]
  refine List.find?_congr fun package hpackage => ?_
  rw [h.package (hclosed.package_of_module hid hpackage)]

/-- **A symbol names the same type** in both trees, whatever else they have. -/
theorem declaredTarget? {module : ModuleId} (hmodule : part (.module module))
    {package : PackageId} (hpackage : part (.package package)) (symbol : Symbol) :
    other.declaredTarget? module package symbol = tree.declaredTarget? module package symbol := by
  unfold DeclTree.declaredTarget?
  rw [h.typeNamed? hclosed hpackage]
  split
  · rfl
  · refine Option.bind_congr fun cut _ => ?_
    dsimp only
    rw [h.packageAt? hclosed hmodule]
    refine Option.bind_congr fun found hfound => ?_
    exact h.typeNamed? hclosed (hclosed.of_packageAt? hmodule hfound) _

theorem packageOfType {id : TypeId} (hid : part (.type id)) :
    other.packageOfType id = tree.packageOfType id := by
  unfold DeclTree.packageOfType
  rw [h.type hid, h.file (hclosed.file_of_type hid)]

theorem neighbourTypeName {id : TypeId} (hid : part (.type id)) (language : Language) :
    language.neighbourTypeName other id = language.neighbourTypeName tree id := by
  unfold Language.neighbourTypeName Dialect.neighbourTypeName
  rw [h.type hid]
  dsimp only
  rw [h.file (hclosed.file_of_type hid)]

theorem typeReference {id : TypeId} (hid : part (.type id)) (language : Language) :
    language.typeReference other id = language.typeReference tree id := by
  have hfile := hclosed.file_of_type hid
  have hpackage := hclosed.package_of_file hfile
  unfold Language.typeReference Dialect.typeReference
  rw [h.type hid]
  dsimp only
  rw [h.file hfile, h.package hpackage, h.module (hclosed.module_of_package hpackage)]

/-! ### Paths -/

omit hclosed in
theorem modulePath {id : ModuleId} (hid : part (.module id)) :
    other.modulePath id = tree.modulePath id := by
  unfold DeclTree.modulePath projectPath
  rw [h.module hid, h.project]

theorem packagePath {id : PackageId} (hid : part (.package id)) :
    other.packagePath id = tree.packagePath id := by
  unfold DeclTree.packagePath
  rw [h.package hid]
  dsimp only
  rw [h.modulePath (hclosed.module_of_package hid)]

theorem filePath {id : FileId} (hid : part (.file id)) : other.filePath id = tree.filePath id := by
  unfold DeclTree.filePath
  rw [h.file hid]
  dsimp only
  rw [h.packagePath hclosed (hclosed.package_of_file hid)]

theorem typePath {id : TypeId} (hid : part (.type id)) : other.typePath id = tree.typePath id := by
  unfold DeclTree.typePath
  rw [h.type hid]
  dsimp only
  rw [h.filePath hclosed (hclosed.file_of_type hid)]

theorem funcPath {id : FuncId} (hid : part (.func id)) : other.funcPath id = tree.funcPath id := by
  have hhome := hclosed.home_of_func hid
  unfold DeclTree.funcPath
  rw [h.func_name hid, h.funcHome hid]
  cases hfunc : tree.funcHome id with
  | file file =>
    rw [hfunc] at hhome
    dsimp only
    rw [h.filePath hclosed hhome]
  | package package =>
    rw [hfunc] at hhome
    dsimp only
    rw [h.packagePath hclosed hhome]
  | type type =>
    rw [hfunc] at hhome
    dsimp only
    rw [h.typePath hclosed hhome]

theorem fieldPath {id : FieldId} (hid : part (.field id)) :
    other.fieldPath id = tree.fieldPath id := by
  unfold DeclTree.fieldPath
  rw [h.field_name hid, h.fieldHome hid, h.typePath hclosed (hclosed.type_of_field hid)]

end AlikeWithin

/-! ### What is below a module -/

/-- The node is the module or below it. -/
def within (tree : DeclTree) (module : ModuleId) : TreeNode → Prop :=
  Relation.ReflTransGen (fun parent child => child ∈ tree.children parent) (.module module)

/-- A node that another lists records it, except that a module records nothing. -/
theorem Arranged.home?_of_mem_children (h : tree.Arranged) {parent child : TreeNode}
    (hchild : child ∈ tree.children parent) :
    tree.home? child = some parent ∨ parent = .project := by
  -- Packages, files and types are linked to their parents, and funcs are at home with theirs.
  cases parent with
  | project => exact .inr rfl
  | module id =>
    obtain ⟨package, hpackage, rfl⟩ := List.mem_map.mp hchild
    exact .inl (congrArg (some ∘ TreeNode.module) (h.linked.package_module hpackage))
  | package id =>
    rcases List.mem_append.mp hchild with hchild | hchild
    · obtain ⟨file, hfile, rfl⟩ := List.mem_map.mp hchild
      exact .inl (congrArg (some ∘ TreeNode.package) (h.linked.file_package hfile))
    · obtain ⟨func, hfunc, rfl⟩ := List.mem_map.mp hchild
      exact .inl (congrArg (some ∘ FuncHome.node) (h.homed.funcHome_package hfunc))
  | file id =>
    rcases List.mem_append.mp hchild with hchild | hchild
    · obtain ⟨type, htype, rfl⟩ := List.mem_map.mp hchild
      exact .inl (congrArg (some ∘ TreeNode.file) (h.linked.type_file htype))
    · obtain ⟨func, hfunc, rfl⟩ := List.mem_map.mp hchild
      exact .inl (congrArg (some ∘ FuncHome.node) (h.homed.funcHome_file hfunc))
  | type id =>
    rcases List.mem_append.mp hchild with hchild | hchild
    · obtain ⟨field, hfield, rfl⟩ := List.mem_map.mp hchild
      have hhome := (h.fields id.index field.index (List.mem_map_of_mem hfield)).2
      exact .inl (congrArg (some ∘ TreeNode.type) (congrArg TypeId.mk hhome))
    · obtain ⟨func, hfunc, rfl⟩ := List.mem_map.mp hchild
      exact .inl (congrArg (some ∘ FuncHome.node) (h.homed.funcHome_method hfunc))
  | func id => cases hchild
  | field id => cases hchild

/-- **What is below a module of an arranged tree** is closed. -/
theorem Arranged.closed_within (h : tree.Arranged) (module : ModuleId) :
    tree.Closed (tree.within module) where
  children := fun hnode child hchild => hnode.tail hchild
  home := by
    intro node hnode home hhome
    cases hnode with
    | refl => cases hhome
    | @tail parent _ hparent hchild =>
      rcases h.home?_of_mem_children hchild with hown | rfl
      · obtain rfl := Option.some.inj (hown.symm.trans hhome)
        exact hparent
      · -- The project lists modules, and these record nothing.
        obtain ⟨id, _, rfl⟩ := List.mem_map.mp hchild
        cases hhome

theorem not_within_project {module : ModuleId} : ¬ tree.within module .project := by
  intro h
  rcases h.cases_tail with heq | ⟨parent, _, hchild⟩
  · cases heq
  · cases parent <;> simp [children] at hchild

/-- The only module at or below a module is itself. -/
theorem eq_of_within {module id : ModuleId} (h : tree.within module (.module id)) :
    id = module := by
  rcases h.cases_tail with heq | ⟨parent, hparent, hchild⟩
  · exact TreeNode.module.inj heq
  · cases parent with
    | project => exact absurd hparent not_within_project
    | _ => simp [children] at hchild

end DeclTree

end DeclPrinter
