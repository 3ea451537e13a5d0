import DeclPrinter.Proofs.Tree.Linked

/-!
# Funcs are at home where they are listed

A func is listed by the type, the file or the package that it was added to, and records which of
these it is. In a tree where funcs are at home the two agree (`DeclTree.Homed`). There is one list
of homes for three kinds of parents, so what keeps it in order is said once, for parents of any kind
(`Homes`).
-/

namespace DeclPrinter

/-- The funcs that parents list are there, and at home with the parent that lists them. -/
def Homes {Parent : Type} [Inhabited Parent] (parents : Array Parent) (homes : Array FuncHome)
    (listed : Parent → List FuncId) (own : Nat → FuncHome) : Prop :=
  ∀ parent, ∀ func ∈ listed (parents.getD parent default),
    func.index < homes.size ∧ homes.getD func.index default = own parent

namespace Homes

open Links

variable {Parent : Type} [Inhabited Parent] {parents : Array Parent} {homes : Array FuncHome}
  {listed : Parent → List FuncId} {own : Nat → FuncHome}

theorem empty (hlisted : listed default = []) :
    Homes (#[] : Array Parent) #[] listed own := by
  intro parent func hfunc
  have hnone : (#[] : Array Parent).getD parent default = default := rfl
  rw [hnone, hlisted] at hfunc
  cases hfunc

/-- A new func that none of the parents lists. -/
theorem push (h : Homes parents homes listed own) (home : FuncHome) :
    Homes parents (homes.push home) listed own := by
  intro parent func hfunc
  obtain ⟨hsize, hhome⟩ := h parent func hfunc
  rw [getD_push, if_neg (Nat.ne_of_lt hsize), Array.size_push]
  exact ⟨Nat.lt_succ_of_lt hsize, hhome⟩

/-- A new func, listed by the parent where it is at home. -/
theorem addFunc (h : Homes parents homes listed own) (parent : Nat) {f : Parent → Parent}
    (hlisted : ∀ node, listed (f node) = listed node ++ [⟨homes.size⟩]) :
    Homes (parents.modify parent f) (homes.push (own parent)) listed own := by
  -- The funcs that were listed before are where they were.
  have hold := h.push (own parent)
  intro other func hfunc
  rw [getD_modify] at hfunc
  split at hfunc
  · rename_i hplace
    rw [hlisted] at hfunc
    rcases List.mem_append.mp hfunc with hfunc | hfunc
    · exact hold other func hfunc
    · rw [List.mem_singleton.mp hfunc, getD_push, if_pos rfl, Array.size_push, hplace.1]
      exact ⟨Nat.lt_succ_self _, rfl⟩
  · exact hold other func hfunc

theorem addParent (h : Homes parents homes listed own) {node : Parent}
    (hlisted : listed node = []) : Homes (parents.push node) homes listed own := by
  intro parent func hfunc
  rw [getD_push] at hfunc
  split at hfunc
  · rw [hlisted] at hfunc
    cases hfunc
  · exact h parent func hfunc

theorem modifyParent (h : Homes parents homes listed own) (place : Nat) {f : Parent → Parent}
    (hlisted : ∀ node, listed (f node) ⊆ listed node) :
    Homes (parents.modify place f) homes listed own := by
  intro parent func hfunc
  rw [getD_modify] at hfunc
  split at hfunc
  · exact h parent func (hlisted _ hfunc)
  · exact h parent func hfunc

end Homes

namespace DeclTree

variable {tree : DeclTree}

/-- Funcs are at home where they are listed. -/
structure Homed (tree : DeclTree) : Prop where
  /-- Every func has a home. -/
  size_eq : tree.funcHomes.size = tree.funcs.size
  /-- Methods are at home in their type. -/
  types : Homes tree.types tree.funcHomes (·.methods) fun index => .type ⟨index⟩
  /-- Funcs of a file are at home there. -/
  files : Homes tree.files tree.funcHomes (·.funcs) fun index => .file ⟨index⟩
  /-- Funcs of a package are at home there. -/
  packages : Homes tree.packages tree.funcHomes (·.funcs) fun index => .package ⟨index⟩

namespace Homed

theorem funcHome_method (h : tree.Homed) {type : TypeId} {func : FuncId}
    (hfunc : func ∈ (tree.type type).methods) : tree.funcHome func = .type type :=
  (h.types type.index func hfunc).2

theorem funcHome_file (h : tree.Homed) {file : FileId} {func : FuncId}
    (hfunc : func ∈ (tree.file file).funcs) : tree.funcHome func = .file file :=
  (h.files file.index func hfunc).2

theorem funcHome_package (h : tree.Homed) {package : PackageId} {func : FuncId}
    (hfunc : func ∈ (tree.package package).funcs) : tree.funcHome func = .package package :=
  (h.packages package.index func hfunc).2

theorem append_size (h : tree.Homed) (funcs : List FuncId) :
    funcs ++ [⟨tree.funcs.size⟩] = funcs ++ [⟨tree.funcHomes.size⟩] := by
  rw [h.size_eq]

theorem size_push (h : tree.Homed) (home : FuncHome) (func : Func) :
    (tree.funcHomes.push home).size = (tree.funcs.push func).size := by
  rw [Array.size_push, Array.size_push, h.size_eq]

end Homed

end DeclTree

end DeclPrinter
