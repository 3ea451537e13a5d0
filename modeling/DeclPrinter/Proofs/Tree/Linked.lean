import DeclPrinter.Tree.Basic
import Mathlib.Data.List.Basic

/-!
# What a node lists points back to it

A module lists its packages, a package its files and a file its types, and each of these records
the node that it is in. In a linked tree the two agree (`DeclTree.Linked`), so that a type is
declared in one place only (`Linked.declares_unique`).

The argument is the same at each of the three levels, so it is made once, for arrays of parents
and children (`Links`).
-/

namespace DeclPrinter

/-- The children that parents list are there, and record the parents that list them. -/
def Links {Parent Child : Type} [Inhabited Parent] [Inhabited Child] (parents : Array Parent)
    (children : Array Child) (listed : Parent → List Nat) (home : Child → Nat) : Prop :=
  ∀ parent, ∀ child ∈ listed (parents.getD parent default),
    child < children.size ∧ home (children.getD child default) = parent

namespace Links

variable {Parent Child : Type} [Inhabited Parent] [Inhabited Child] {parents : Array Parent}
  {children : Array Child} {listed : Parent → List Nat} {home : Child → Nat}

theorem getD_push {α : Type} (items : Array α) (item other : α) (index : Nat) :
    (items.push item).getD index other =
      if index = items.size then item else items.getD index other := by
  simp only [Array.getD_eq_getD_getElem?, Array.getElem?_push]
  split <;> rfl

theorem getD_modify {α : Type} (items : Array α) (f : α → α) (other : α) (place index : Nat) :
    (items.modify place f).getD index other =
      if index = place ∧ index < items.size then f (items.getD index other)
      else items.getD index other := by
  simp only [Array.getD_eq_getD_getElem?, Array.getElem?_modify]
  by_cases hplace : index = place
  · subst hplace
    by_cases hsize : index < items.size
    · simp [hsize]
    · simp [hsize]
  · simp [hplace, Ne.symm hplace]

theorem empty (hlisted : listed default = []) :
    Links (#[] : Array Parent) (#[] : Array Child) listed home := by
  intro parent child hchild
  have hnone : (#[] : Array Parent).getD parent default = default := rfl
  rw [hnone, hlisted] at hchild
  cases hchild

/-- A new child, listed by the parent that it records. -/
theorem addChild (h : Links parents children listed home) {parent : Nat} {child : Child}
    {f : Parent → Parent} (hhome : home child = parent)
    (hlisted : ∀ node, listed (f node) = listed node ++ [children.size]) :
    Links (parents.modify parent f) (children.push child) listed home := by
  -- The children that were listed before are where they were.
  have hold : ∀ other, ∀ index ∈ listed (parents.getD other default),
      index < (children.push child).size ∧
        home ((children.push child).getD index default) = other := by
    intro other index hindex
    obtain ⟨hsize, hback⟩ := h other index hindex
    rw [getD_push, if_neg (Nat.ne_of_lt hsize), Array.size_push]
    exact ⟨Nat.lt_succ_of_lt hsize, hback⟩
  intro other index hindex
  rw [getD_modify] at hindex
  split at hindex
  · rename_i hplace
    rw [hlisted] at hindex
    rcases List.mem_append.mp hindex with hindex | hindex
    · exact hold other index hindex
    · rw [List.mem_singleton.mp hindex, getD_push, if_pos rfl, Array.size_push, hplace.1]
      exact ⟨Nat.lt_succ_self _, hhome⟩
  · exact hold other index hindex

/-- A new parent without children. -/
theorem addParent (h : Links parents children listed home) {node : Parent}
    (hlisted : listed node = []) : Links (parents.push node) children listed home := by
  intro parent child hchild
  rw [getD_push] at hchild
  split at hchild
  · rw [hlisted] at hchild
    cases hchild
  · exact h parent child hchild

/-- A parent that lists nothing new. -/
theorem modifyParent (h : Links parents children listed home) (place : Nat) {f : Parent → Parent}
    (hlisted : ∀ node, listed (f node) ⊆ listed node) :
    Links (parents.modify place f) children listed home := by
  intro parent child hchild
  rw [getD_modify] at hchild
  split at hchild
  · exact h parent child (hlisted _ hchild)
  · exact h parent child hchild

/-- A child that stays where it is. -/
theorem modifyChild (h : Links parents children listed home) (place : Nat) {f : Child → Child}
    (hhome : ∀ node, home (f node) = home node) :
    Links parents (children.modify place f) listed home := by
  intro parent child hchild
  obtain ⟨hsize, hback⟩ := h parent child hchild
  refine ⟨by rwa [Array.size_modify], ?_⟩
  rw [getD_modify, ← hback]
  by_cases hplace : child = place ∧ child < children.size
  · rw [if_pos hplace, hhome]
  · rw [if_neg hplace]

end Links

namespace DeclTree

variable {tree : DeclTree}

/-- What the nodes of a tree list points back to them. -/
structure Linked (tree : DeclTree) : Prop where
  /-- Packages record the module that lists them. -/
  packages : Links tree.modules tree.packages (·.packages.map (·.index)) (·.module.index)
  /-- Files record the package that lists them. -/
  files : Links tree.packages tree.files (·.files.map (·.index)) (·.package.index)
  /-- Types record the file that lists them. -/
  types : Links tree.files tree.types (·.types.map (·.index)) (·.file.index)

namespace Linked

theorem package_module (h : tree.Linked) {module : ModuleId} {package : PackageId}
    (hpackage : package ∈ (tree.module module).packages) :
    (tree.package package).module = module := by
  have hindex := (h.packages module.index package.index (List.mem_map_of_mem hpackage)).2
  exact congrArg ModuleId.mk hindex

theorem file_package (h : tree.Linked) {package : PackageId} {file : FileId}
    (hfile : file ∈ (tree.package package).files) : (tree.file file).package = package := by
  have hindex := (h.files package.index file.index (List.mem_map_of_mem hfile)).2
  exact congrArg PackageId.mk hindex

theorem type_file (h : tree.Linked) {file : FileId} {type : TypeId}
    (htype : type ∈ (tree.file file).types) : (tree.type type).file = file := by
  have hindex := (h.types file.index type.index (List.mem_map_of_mem htype)).2
  exact congrArg FileId.mk hindex

end Linked

/-- The project has the module, this the package, this the file, and there the type is
declared. -/
structure Declares (tree : DeclTree) (module : ModuleId) (package : PackageId) (file : FileId)
    (type : TypeId) : Prop where
  /-- The module is one of the project. -/
  module_mem : module ∈ tree.project.modules
  /-- The package is one of the module. -/
  package_mem : package ∈ (tree.module module).packages
  /-- The file is one of the package. -/
  file_mem : file ∈ (tree.package package).files
  /-- The type is one of the file. -/
  type_mem : type ∈ (tree.file file).types

/-- A type is declared in one place only. -/
theorem Linked.declares_unique (h : tree.Linked) {module other : ModuleId}
    {package otherPackage : PackageId} {file otherFile : FileId} {type : TypeId}
    (hfirst : tree.Declares module package file type)
    (hsecond : tree.Declares other otherPackage otherFile type) :
    module = other ∧ package = otherPackage ∧ file = otherFile := by
  have hfile : file = otherFile :=
    (h.type_file hfirst.type_mem).symm.trans (h.type_file hsecond.type_mem)
  subst hfile
  have hpackage : package = otherPackage :=
    (h.file_package hfirst.file_mem).symm.trans (h.file_package hsecond.file_mem)
  subst hpackage
  have hmodule : module = other :=
    (h.package_module hfirst.package_mem).symm.trans (h.package_module hsecond.package_mem)
  exact ⟨hmodule, rfl, rfl⟩

end DeclTree

end DeclPrinter
