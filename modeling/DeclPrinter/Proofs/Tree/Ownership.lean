import DeclPrinter.Proofs.Tree.Outside

/-!
# Every node has one owner

What a tree keeps of a node is its record (`NodeRecord`). An addition makes one record, puts the id
of the new node at the end of one list in the record of the parent, and leaves all other records as
they are (`DeclTree.grows_add`). Everything else is drawn from that: in a tree that is assembled by
additions, each below a node that was given before, every node but the project is listed once by the
node that it records as its owner, and by no other (`DeclTree.Assembled.owned`).
-/

namespace DeclPrinter

/-! ### Records -/

/-- What a tree keeps of a node. The homes of funcs and fields stand in tables of their own. -/
inductive NodeRecord where
  | project (node : ProjectNode)
  | module (node : ModuleNode)
  | package (node : PackageNode)
  | file (node : FileNode)
  | type (node : TypeNode)
  | func (func : Func) (home : FuncHome)
  | field (field : Field) (home : TypeId)

namespace NodeRecord

/-- The node that the record says it is in. A module says nothing, and is in the project. -/
def owner? : NodeRecord → Option TreeNode
  | .project _ => none
  | .module _ => some .project
  | .package node => some (.module node.module)
  | .file node => some (.package node.package)
  | .type node => some (.file node.file)
  | .func _ home => some home.node
  | .field _ home => some (.type home)

/-- The nodes that the record lists. -/
def listed : NodeRecord → List TreeNode
  | .project node => node.modules.map .module
  | .module node => node.packages.map .package
  | .package node => node.files.map .file ++ node.funcs.map .func
  | .file node => node.types.map .type ++ node.funcs.map .func
  | .type node => node.fields.map .field ++ node.methods.map .func
  | .func _ _ => []
  | .field _ _ => []

/-- The record with a node more in the list for nodes of that kind, if it has such a list. -/
def append : NodeRecord → TreeNode → NodeRecord
  | .project node, .module id => .project { node with modules := node.modules ++ [id] }
  | .module node, .package id => .module { node with packages := node.packages ++ [id] }
  | .package node, .file id => .package { node with files := node.files ++ [id] }
  | .package node, .func id => .package { node with funcs := node.funcs ++ [id] }
  | .file node, .type id => .file { node with types := node.types ++ [id] }
  | .file node, .func id => .file { node with funcs := node.funcs ++ [id] }
  | .type node, .field id => .type { node with fields := node.fields ++ [id] }
  | .type node, .func id => .type { node with methods := node.methods ++ [id] }
  | record, _ => record

@[simp]
theorem owner?_append (record : NodeRecord) (node : TreeNode) :
    (record.append node).owner? = record.owner? := by
  cases record <;> cases node <;> rfl

end NodeRecord

/-- The record of the node that an addition makes. -/
def Addition.record : Addition → NodeRecord
  | .module path language => .module ⟨path, language, []⟩
  | .package home path name => .package ⟨home, path, name, none, none, [], []⟩
  | .file home name => .file ⟨home, name, none, none, [], []⟩
  | .type home kind name => .type ⟨home, kind, name, .exported, none, [], []⟩
  | .field home new => .field new home
  | .method home new => .func new (.type home)
  | .func home new => .func new (.file home)
  | .packageFunc home new => .func new (.package home)

/-- A new node lists nothing and is in the parent. -/
theorem Addition.owner?_record (addition : Addition) :
    addition.record.owner? = some addition.parent ∧ addition.record.listed = [] := by
  cases addition <;> exact ⟨rfl, rfl⟩

namespace DeclTree

variable {tree next : DeclTree} {addition : Addition} {node parent new : TreeNode}
  {own : NodeRecord}

/-- What the tree keeps of a node. -/
def record (tree : DeclTree) : TreeNode → NodeRecord
  | .project => .project tree.project
  | .module id => .module (tree.module id)
  | .package id => .package (tree.package id)
  | .file id => .file (tree.file id)
  | .type id => .type (tree.type id)
  | .func id => .func (tree.func id) (tree.funcHome id)
  | .field id => .field (tree.field id) (tree.fieldHome id)

theorem children_eq_listed (tree : DeclTree) (node : TreeNode) :
    tree.children node = (tree.record node).listed := by
  cases node <;> rfl

/-- The id that an addition to the tree gives. -/
def added (tree : DeclTree) : Addition → TreeNode
  | .module path language => .module (tree.addModule path language).1
  | .package home path name => .package (tree.addPackage home path name).1
  | .file home name => .file (tree.addFile home name).1
  | .type home kind name => .type (tree.addType home kind name).1
  | .field home field => .field (tree.addField home field).1
  | .method home func => .func (tree.addMethod home func).1
  | .func home func => .func (tree.addFunc home func).1
  | .packageFunc home func => .func (tree.addPackageFunc home func).1

/-! ### One addition -/

/-- There is a home for each func and each field. -/
structure HasHomes (tree : DeclTree) : Prop where
  funcs : tree.funcHomes.size = tree.funcs.size
  fields : tree.fieldHomes.size = tree.fields.size

/-- The second tree has one node more, with this record, which the parent lists last; else it is
the first. -/
structure Grows (tree next : DeclTree) (parent new : TreeNode) (own : NodeRecord) : Prop where
  fresh : ¬ tree.Has new
  has_iff : ∀ node, next.Has node ↔ tree.Has node ∨ node = new
  record_new : next.record new = own
  record_parent : next.record parent = (tree.record parent).append new
  record_other : ∀ node, tree.Has node → node ≠ parent → next.record node = tree.record node

theorem HasHomes.add (h : tree.HasHomes) (addition : Addition) :
    (tree.add addition).HasHomes := by
  obtain ⟨hfuncs, hfields⟩ := h
  constructor <;> cases addition <;>
    simp [DeclTree.add, addModule, addPackage, addFile, addType, addField, addMethod, addFunc,
      addPackageFunc, appendFunc, modifyType, modifyFile, modifyPackage, hfuncs, hfields]

theorem has_add_iff (h : tree.HasHomes) (addition : Addition) (node : TreeNode) :
    (tree.add addition).Has node ↔ tree.Has node ∨ node = tree.added addition := by
  obtain ⟨hfuncs, hfields⟩ := h
  rcases node with _ | ⟨⟨index⟩⟩ | ⟨⟨index⟩⟩ | ⟨⟨index⟩⟩ | ⟨⟨index⟩⟩ | ⟨⟨index⟩⟩ | ⟨⟨index⟩⟩ <;>
    cases addition <;>
    simp [Has, DeclTree.add, added, addModule, addPackage, addFile, addType, addField, addMethod,
      addFunc, addPackageFunc, appendFunc, modifyType, modifyFile, modifyPackage, hfuncs,
      hfields] <;> omega

theorem not_has_added (tree : DeclTree) (addition : Addition) :
    ¬ tree.Has (tree.added addition) := by
  cases addition <;>
    simp [Has, added, addModule, addPackage, addFile, addType, addField, addMethod, addFunc,
      addPackageFunc]

theorem SameWithin.record_eq {part : TreeNode → Prop} (h : SameWithin part tree next)
    (hnode : part node) (hproject : node ≠ .project) : next.record node = tree.record node := by
  cases node with
  | project => exact absurd rfl hproject
  | module id => exact congrArg NodeRecord.module (h.module hnode)
  | package id => exact congrArg NodeRecord.package (h.package hnode)
  | file id => exact congrArg NodeRecord.file (h.file hnode)
  | type id => exact congrArg NodeRecord.type (h.type hnode)
  | func id => exact congrArg₂ NodeRecord.func (h.func hnode) (h.funcHome hnode)
  | field id => exact congrArg₂ NodeRecord.field (h.field hnode) (h.fieldHome hnode)

theorem getD_push_size {α : Type} [Inhabited α] {items : Array α} {index : Nat}
    (h : index = items.size) (item : α) : (items.push item).getD index default = item := by
  rw [Links.getD_push, if_pos h]

theorem getD_modify_self {α : Type} [Inhabited α] {items : Array α} {index : Nat}
    (h : index < items.size) (f : α → α) :
    (items.modify index f).getD index default = f (items.getD index default) := by
  rw [Links.getD_modify, if_pos ⟨rfl, h⟩]

theorem record_added (h : tree.HasHomes) (addition : Addition) :
    (tree.add addition).record (tree.added addition) = addition.record := by
  cases addition with
  | module path language => exact congrArg NodeRecord.module (getD_push_size rfl _)
  | package home path name => exact congrArg NodeRecord.package (getD_push_size rfl _)
  | file home name => exact congrArg NodeRecord.file (getD_push_size rfl _)
  | type home kind name => exact congrArg NodeRecord.type (getD_push_size rfl _)
  | field home new =>
    -- The record of a field and its home are kept in two arrays of one size.
    exact congrArg₂ NodeRecord.field (getD_push_size rfl _) (getD_push_size h.fields.symm _)
  | method home new =>
    exact congrArg₂ NodeRecord.func (getD_push_size rfl _) (getD_push_size h.funcs.symm _)
  | func home new =>
    exact congrArg₂ NodeRecord.func (getD_push_size rfl _) (getD_push_size h.funcs.symm _)
  | packageFunc home new =>
    exact congrArg₂ NodeRecord.func (getD_push_size rfl _) (getD_push_size h.funcs.symm _)

theorem record_parent (hparent : tree.Has addition.parent) :
    (tree.add addition).record addition.parent =
      (tree.record addition.parent).append (tree.added addition) := by
  cases addition with
  | module path language => rfl
  | package home path name => exact congrArg NodeRecord.module (getD_modify_self hparent _)
  | file home name => exact congrArg NodeRecord.package (getD_modify_self hparent _)
  | type home kind name => exact congrArg NodeRecord.file (getD_modify_self hparent _)
  | field home new => exact congrArg NodeRecord.type (getD_modify_self hparent _)
  | method home new => exact congrArg NodeRecord.type (getD_modify_self hparent _)
  | func home new => exact congrArg NodeRecord.file (getD_modify_self hparent _)
  | packageFunc home new => exact congrArg NodeRecord.package (getD_modify_self hparent _)

theorem record_other (hnode : tree.Has node) (hne : node ≠ addition.parent) :
    (tree.add addition).record node = tree.record node := by
  by_cases hproject : node = .project
  · subst hproject
    cases addition with
    | module path language => exact absurd rfl hne
    | _ => rfl
  · let part : TreeNode → Prop := fun other => tree.Has other ∧ other ≠ addition.parent
    have hsame : SameWithin part tree (tree.add addition) :=
      sameWithin_add (fun _ hboth => hboth.1) (fun hboth => hboth.2 rfl)
    exact hsame.record_eq ⟨hnode, hne⟩ hproject

/-- **An addition makes one node,** and changes nothing but the list of its parent. -/
theorem grows_add (h : tree.HasHomes) (hparent : tree.Has addition.parent) :
    Grows tree (tree.add addition) addition.parent (tree.added addition) addition.record where
  fresh := tree.not_has_added addition
  has_iff := has_add_iff h addition
  record_new := record_added h addition
  record_parent := record_parent hparent
  record_other := fun _ hnode hne => record_other hnode hne

/-- The list at the end of which the new node goes is one of those of its parent. -/
theorem listed_append (tree : DeclTree) (addition : Addition) :
    ((tree.record addition.parent).append (tree.added addition)).listed.Perm
      (tree.added addition :: (tree.record addition.parent).listed) := by
  -- In a record with two lists, the first goes on in the middle of all that is listed.
  have hfirst {α β : Type} (before : List α) (after : List β) (f : α → TreeNode) (g : β → TreeNode)
      (id : α) : ((before ++ [id]).map f ++ after.map g).Perm
        (f id :: (before.map f ++ after.map g)) := by
    rw [List.map_append, List.append_assoc]
    exact List.perm_middle
  have hlast {α : Type} (above : List TreeNode) (before : List α) (f : α → TreeNode) (id : α) :
      (above ++ (before ++ [id]).map f).Perm (f id :: (above ++ before.map f)) := by
    rw [List.map_append, ← List.append_assoc]
    exact List.perm_append_singleton _ _
  cases addition with
  | module path language => exact hlast [] _ _ _
  | package home path name => exact hlast [] _ _ _
  | file home name => exact hfirst _ _ _ _ _
  | type home kind name => exact hfirst _ _ _ _ _
  | field home new => exact hfirst _ _ _ _ _
  | method home new => exact hlast _ _ _ _
  | func home new => exact hlast _ _ _ _
  | packageFunc home new => exact hlast _ _ _ _

/-! ### Ownership -/

/-- Every node but the project is listed once by the node that it records as its owner, and by no
other node; and all that is listed is there. -/
structure Owned (tree : DeclTree) : Prop where
  homes : tree.HasHomes
  has_of_listed : ∀ owner, tree.Has owner → ∀ node ∈ tree.children owner, tree.Has node
  exists_owner : ∀ node, tree.Has node → node ≠ .project →
    ∃ owner, (tree.record node).owner? = some owner ∧ tree.Has owner ∧
      ∀ other, tree.Has other → (tree.children other).count node = if other = owner then 1 else 0

theorem owned_empty (name : String) : (empty name).Owned where
  homes := ⟨rfl, rfl⟩
  has_of_listed := by
    intro owner howner node hnode
    cases owner <;> cases hnode
  exists_owner := by
    intro node hnode hproject
    cases node <;> simp [Has, empty] at hnode hproject

/-- **A node more keeps ownership.** -/
theorem Owned.grows (h : tree.Owned) (hgrows : Grows tree next parent new own)
    (hparent : tree.Has parent) (howner : own.owner? = some parent) (hlisted : own.listed = [])
    (happend : ((tree.record parent).append new).listed.Perm
      (new :: (tree.record parent).listed)) (hhomes : next.HasHomes) : next.Owned := by
  have hproject : new ≠ .project := by
    rintro rfl
    exact hgrows.fresh trivial
  have hnone : next.children new = [] := by
    rw [children_eq_listed, hgrows.record_new, hlisted]
  have hlist : (next.children parent).Perm (new :: tree.children parent) := by
    rw [children_eq_listed, hgrows.record_parent, children_eq_listed]
    exact happend
  have hsame {other : TreeNode} (hother : tree.Has other) (hne : other ≠ parent) :
      next.children other = tree.children other := by
    rw [children_eq_listed, hgrows.record_other other hother hne, children_eq_listed]
  have hrecorded {node : TreeNode} (hnode : tree.Has node) :
      (next.record node).owner? = (tree.record node).owner? := by
    by_cases hne : node = parent
    · rw [hne, hgrows.record_parent, NodeRecord.owner?_append]
    · rw [hgrows.record_other node hnode hne]
  refine ⟨hhomes, ?_, ?_⟩
  · intro owner howner node hnode
    refine (hgrows.has_iff node).mpr ?_
    rcases (hgrows.has_iff owner).mp howner with hold | rfl
    · by_cases hne : owner = parent
      · subst hne
        rcases List.mem_cons.mp (hlist.mem_iff.mp hnode) with rfl | hmem
        · exact .inr rfl
        · exact .inl (h.has_of_listed owner hold node hmem)
      · rw [hsame hold hne] at hnode
        exact .inl (h.has_of_listed owner hold node hnode)
    · rw [hnone] at hnode
      cases hnode
  · intro node hnode hnot
    rcases (hgrows.has_iff node).mp hnode with hold | rfl
    · -- A node that was there is listed where it was.
      obtain ⟨owner, hrecord, hthere, hcount⟩ := h.exists_owner node hold hnot
      have hne : node ≠ new := by
        rintro rfl
        exact hgrows.fresh hold
      refine ⟨owner, (hrecorded hold).trans hrecord, (hgrows.has_iff owner).mpr (.inl hthere), ?_⟩
      intro other hother
      rcases (hgrows.has_iff other).mp hother with hbefore | rfl
      · by_cases heq : other = parent
        · rw [← hcount other hbefore, heq, hlist.count_eq, List.count_cons_of_ne hne.symm]
        · rw [hsame hbefore heq, hcount other hbefore]
      · have hfresh : other ≠ owner := by
          rintro rfl
          exact hgrows.fresh hthere
        rw [hnone, if_neg hfresh, List.count_nil]
    · -- The new node was listed nowhere before.
      have habsent {other : TreeNode} (hother : tree.Has other) :
          (tree.children other).count node = 0 :=
        List.count_eq_zero.mpr fun hmem => hgrows.fresh (h.has_of_listed other hother node hmem)
      refine ⟨parent, ?_, (hgrows.has_iff parent).mpr (.inl hparent), ?_⟩
      · rw [hgrows.record_new, howner]
      · intro other hother
        rcases (hgrows.has_iff other).mp hother with hbefore | rfl
        · by_cases heq : other = parent
          · rw [if_pos heq, heq, hlist.count_eq, List.count_cons_self, habsent hparent]
          · rw [hsame hbefore heq, if_neg heq, habsent hbefore]
        · have hfresh : other ≠ parent := by
            rintro rfl
            exact hgrows.fresh hparent
          rw [hnone, if_neg hfresh, List.count_nil]

/-- The node is the project or below it. -/
def inProject (tree : DeclTree) : TreeNode → Prop :=
  Relation.ReflTransGen (fun parent child => child ∈ tree.children parent) .project

/-- From the project a walk along what nodes list comes to every node. -/
theorem Owned.inProject (h : tree.Owned) (hnode : tree.Has node) : tree.inProject node := by
  have hstep {node owner : TreeNode} (hnode : tree.Has node)
      (howner : (tree.record node).owner? = some owner)
      (hreached : tree.Has owner → tree.inProject owner) : tree.inProject node := by
    have hproject : node ≠ .project := by
      rintro rfl
      cases howner
    obtain ⟨_, hrecord, hthere, hcount⟩ := h.exists_owner node hnode hproject
    obtain rfl := Option.some.inj (howner.symm.trans hrecord)
    have hone := hcount owner hthere
    rw [if_pos rfl] at hone
    exact (hreached hthere).tail (List.count_pos_iff.mp (hone ▸ Nat.one_pos))
  -- The kinds of nodes from the top down: the owner of a node is always of an earlier kind.
  have hmodule {id : ModuleId} (hid : tree.Has (.module id)) : tree.inProject (.module id) :=
    hstep hid rfl fun _ => .refl
  have hpackage {id : PackageId} (hid : tree.Has (.package id)) : tree.inProject (.package id) :=
    hstep hid rfl hmodule
  have hfile {id : FileId} (hid : tree.Has (.file id)) : tree.inProject (.file id) :=
    hstep hid rfl hpackage
  have htype {id : TypeId} (hid : tree.Has (.type id)) : tree.inProject (.type id) :=
    hstep hid rfl hfile
  cases node with
  | project => exact .refl
  | module id => exact hmodule hnode
  | package id => exact hpackage hnode
  | file id => exact hfile hnode
  | type id => exact htype hnode
  | func id =>
    have hhome : tree.Has (tree.funcHome id).node → tree.inProject (tree.funcHome id).node := by
      cases tree.funcHome id with
      | file home => exact hfile
      | package home => exact hpackage
      | type home => exact htype
    exact hstep hnode rfl hhome
  | field id => exact hstep hnode rfl htype

/-! ### Trees that are assembled -/

/-- A tree that is assembled by additions, with the nodes that were given on the way. What an
addition puts a node below was given before. -/
inductive Assembled : DeclTree → List TreeNode → Prop where
  | empty (name : String) : Assembled (empty name) [.project]
  | add {tree : DeclTree} {nodes : List TreeNode} (h : Assembled tree nodes) (addition : Addition)
      (hparent : addition.parent ∈ nodes) :
      Assembled (tree.add addition) (nodes ++ [tree.added addition])

variable {nodes : List TreeNode}

theorem Assembled.owned (h : Assembled tree nodes) :
    tree.Owned ∧ ∀ node, tree.Has node ↔ node ∈ nodes := by
  induction h with
  | empty name =>
    refine ⟨owned_empty name, fun node => ?_⟩
    cases node <;> simp [Has, DeclTree.empty]
  | @add tree nodes _ addition hparent ih =>
    obtain ⟨howned, hnodes⟩ := ih
    have hthere := (hnodes _).mpr hparent
    have hgrows := grows_add howned.homes hthere
    obtain ⟨howner, hlisted⟩ := addition.owner?_record
    refine ⟨howned.grows hgrows hthere howner hlisted (tree.listed_append addition)
      (howned.homes.add addition), fun node => ?_⟩
    rw [hgrows.has_iff, hnodes, List.mem_append, List.mem_singleton]

/-- **Ownership is a tree.** Take a tree that is assembled by additions, each below a node that an
earlier one gave. Its nodes are those that were given. Every node but the project is listed once,
by the node that it records as its owner; nothing is listed that is not there, and there is a home
for each func and each field. So all nodes are below the project. Any further addition below one of
the nodes makes one new node and puts it at the end of one list of its parent, and no other record
changes. -/
theorem ownership_of_assembled (h : Assembled tree nodes) :
    tree.Owned ∧ (∀ node, tree.Has node ↔ node ∈ nodes) ∧
      (∀ node ∈ nodes, tree.inProject node) ∧
      ∀ addition, addition.parent ∈ nodes →
        Grows tree (tree.add addition) addition.parent (tree.added addition) addition.record := by
  obtain ⟨howned, hnodes⟩ := h.owned
  refine ⟨howned, hnodes, ?_, ?_⟩
  · intro node hnode
    exact howned.inProject ((hnodes node).mpr hnode)
  · intro addition hparent
    exact grows_add howned.homes ((hnodes _).mpr hparent)

/-- A store with a field, a method, a func in its file and a func in its package: the three funcs
have three kinds of owners. -/
theorem ownership_of_store :
    let load : Func := ⟨"load", .exported, none, [], [], .empty, none⟩
    let tree := (empty "demo").addAll
      [.module "com.acme" "java", .package ⟨0⟩ "lib" "lib", .file ⟨0⟩ "store",
        .type ⟨0⟩ .struct "Store", .field ⟨0⟩ ⟨"id", .exported, .simple ⟨"string"⟩, none, []⟩,
        .method ⟨0⟩ load, .func ⟨0⟩ load, .packageFunc ⟨0⟩ load]
    let nodes : List TreeNode := [.project, .module ⟨0⟩, .package ⟨0⟩, .file ⟨0⟩, .type ⟨0⟩,
      .field ⟨0⟩, .func ⟨0⟩, .func ⟨1⟩, .func ⟨2⟩]
    Assembled tree nodes ∧ tree.Owned ∧ (∀ node ∈ nodes, tree.inProject node) ∧
      tree.children (.type ⟨0⟩) = [.field ⟨0⟩, .func ⟨0⟩] ∧
      tree.children (.file ⟨0⟩) = [.type ⟨0⟩, .func ⟨1⟩] ∧
      tree.children (.package ⟨0⟩) = [.file ⟨0⟩, .func ⟨2⟩] := by
  intro load tree nodes
  have hassembled : Assembled tree nodes :=
    ((((((((Assembled.empty "demo").add (.module "com.acme" "java") (by decide)).add
      (.package ⟨0⟩ "lib" "lib") (by decide)).add (.file ⟨0⟩ "store") (by decide)).add
      (.type ⟨0⟩ .struct "Store") (by decide)).add
      (.field ⟨0⟩ ⟨"id", .exported, .simple ⟨"string"⟩, none, []⟩) (by decide)).add
      (.method ⟨0⟩ load) (by decide)).add (.func ⟨0⟩ load) (by decide)).add
      (.packageFunc ⟨0⟩ load) (by decide)
  obtain ⟨howned, _, hinProject, _⟩ := ownership_of_assembled hassembled
  exact ⟨hassembled, howned, hinProject, rfl, rfl, rfl⟩

end DeclTree

end DeclPrinter
