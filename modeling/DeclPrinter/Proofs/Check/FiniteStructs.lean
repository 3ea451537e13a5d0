import DeclPrinter.Proofs.Check.Cycle
import DeclPrinter.Proofs.Render.Run

/-!
# Structs that pass the check

The check on value cycles reads the type of a field as the name of a type of the package. When
a file is written the same symbol may also name a type by the path of its package
(`DeclTree.declaredTarget?`), and nothing keeps a package from using its own path. So two
relations between the structs of a package matter: what is checked (`heldStructs`) and what is
written (`HoldsByValue`).

What is checked has no cycle (`not_leadsTo_of_package_ok`). Hence a cycle in what is written has
a step that the check does not see, and that is a field with a path in its type
(`exists_holdsByPath_of_cycle`). There are such cycles: a struct may name itself by the path of
its package.
-/

namespace DeclPrinter.Check

variable {tree : DeclTree} {module : ModuleId} {package : PackageId}

/-- As a file of the package is written, a field of the one struct has the other as its type. -/
def HoldsByValue (tree : DeclTree) (module : ModuleId) (package : PackageId)
    (holder held : TypeId) : Prop :=
  holder ∈ structsOf tree package ∧ held ∈ structsOf tree package ∧
    ∃ field ∈ (tree.type holder).fields, ∃ symbol, (tree.field field).type = .simple symbol ∧
      tree.declaredTarget? module package symbol = some held

/-- The field that makes one struct hold the other names it by the path of a package, and its
name as a whole is not that of a type. -/
def HoldsByPath (tree : DeclTree) (module : ModuleId) (package : PackageId)
    (holder held : TypeId) : Prop :=
  ∃ field ∈ (tree.type holder).fields, ∃ symbol path name other,
    (tree.field field).type = .simple symbol ∧
      tree.typeNamed? package symbol.name = none ∧
      splitQualified? symbol.name = some (path, name) ∧
      tree.packageAt? module path = some other ∧ tree.typeNamed? other name = some held

/-! ### What is checked -/

theorem mem_structsOf {id : TypeId} :
    id ∈ structsOf tree package ↔ id ∈ tree.typesIn package ∧ tree.isStruct id = true :=
  List.mem_filter

theorem mem_typesIn_of_typeNamed? {name : String} {id : TypeId}
    (h : tree.typeNamed? package name = some id) : id ∈ tree.typesIn package :=
  List.mem_of_find?_eq_some h

/-- A struct holds the structs that its fields name. -/
theorem mem_heldStructs {holder held : TypeId} :
    held ∈ heldStructs tree package holder ↔
      ∃ field ∈ (tree.type holder).fields, ∃ symbol, (tree.field field).type = .simple symbol ∧
        tree.typeNamed? package symbol.name = some held ∧ tree.isStruct held = true := by
  have hfield (field : FieldId) : heldStruct? tree package field = some held ↔
      ∃ symbol, (tree.field field).type = .simple symbol ∧
        tree.typeNamed? package symbol.name = some held ∧ tree.isStruct held = true := by
    unfold heldStruct?
    cases (tree.field field).type <;> simp [Option.filter_eq_some_iff]
  rw [heldStructs, List.mem_filterMap]
  simp only [hfield]

theorem heldStructs_subset (holder : TypeId) :
    heldStructs tree package holder ⊆ structsOf tree package := by
  intro held hheld
  obtain ⟨_, _, symbol, _, hnamed, hstruct⟩ := mem_heldStructs.mp hheld
  exact mem_structsOf.mpr ⟨mem_typesIn_of_typeNamed? hnamed, hstruct⟩

/-- A package that passes its checks has passed that on its structs. -/
theorem valueCycle?_of_package_ok {language : Language} {doc : Option PackageComment}
    (h : Check.package tree language package = .ok doc) : valueCycle? tree package = none := by
  obtain ⟨_, _, h⟩ := bind_eq_ok.mp h
  obtain ⟨_, _, h⟩ := bind_eq_ok.mp h
  obtain ⟨_, _, h⟩ := bind_eq_ok.mp h
  obtain ⟨_, _, h⟩ := bind_eq_ok.mp h
  obtain ⟨_, hstructs, _⟩ := bind_eq_ok.mp h
  unfold finiteStructs at hstructs
  split at hstructs
  · assumption
  · cases hstructs

/-- **No struct of a package that passes the check leads to itself,** as the check reads its
fields. -/
theorem not_leadsTo_of_package_ok {language : Language} {doc : Option PackageComment}
    (h : Check.package tree language package = .ok doc) {struct : TypeId}
    (hstruct : struct ∈ structsOf tree package) :
    ¬ LeadsTo (heldStructs tree package) struct struct :=
  not_leadsTo_of_cycle?_eq_none (fun holder _ => heldStructs_subset holder)
    (valueCycle?_of_package_ok h) hstruct

/-! ### What is written -/

/-- When a cycle of one relation is none of another, it has a step that the other lacks. -/
theorem exists_step_of_cycle {α : Type} {wide narrow : α → α → Prop} {a : α}
    (hcycle : Relation.TransGen wide a a) (hnone : ¬ Relation.TransGen narrow a a) :
    ∃ b c, Relation.ReflTransGen wide a b ∧ wide b c ∧ Relation.ReflTransGen wide c a ∧
      ¬ narrow b c := by
  by_contra hall
  push Not at hall
  -- If every step of the cycle were one of the other relation, so would be the cycle.
  have hnarrow : ∀ b, Relation.TransGen wide a b → Relation.ReflTransGen wide b a →
      Relation.TransGen narrow a b := by
    intro b hreach
    induction hreach with
    | single hstep =>
      intro hback
      exact .single (hall _ _ .refl hstep hback)
    | tail hreach hstep ih =>
      intro hback
      have hearlier := ih (.head hstep hback)
      exact hearlier.tail (hall _ _ hreach.to_reflTransGen hstep hback)
  exact hnone (hnarrow a hcycle .refl)

/-- What is written and not checked is a name with a path. -/
theorem HoldsByValue.holdsByPath {holder held : TypeId}
    (h : HoldsByValue tree module package holder held)
    (hunseen : held ∉ heldStructs tree package holder) :
    HoldsByPath tree module package holder held := by
  obtain ⟨_, hheld, field, hfield, symbol, htype, htarget⟩ := h
  have hplain : tree.typeNamed? package symbol.name = none := by
    rcases hnamed : tree.typeNamed? package symbol.name with _ | id
    · rfl
    · -- A name of its own would have been seen, since it comes first for the writer too.
      rw [DeclTree.declaredTarget?, hnamed] at htarget
      cases htarget
      exact absurd (mem_heldStructs.mpr
        ⟨field, hfield, symbol, htype, hnamed, (mem_structsOf.mp hheld).2⟩) hunseen
  rw [DeclTree.declaredTarget?, hplain] at htarget
  obtain ⟨⟨path, name⟩, hsplit, htarget⟩ := Option.bind_eq_some_iff.mp htarget
  obtain ⟨other, hother, hnamed⟩ := Option.bind_eq_some_iff.mp htarget
  exact ⟨field, hfield, symbol, path, name, other, htype, hplain, hsplit, hother, hnamed⟩

/-- Every cycle of structs of an accepted package, as their fields are written, has a step that
is due to a field with a path in its type. -/
theorem exists_holdsByPath_of_cycle {language : Language} {doc : Option PackageComment}
    (h : Check.package tree language package = .ok doc) {struct : TypeId}
    (hcycle : Relation.TransGen (HoldsByValue tree module package) struct struct) :
    ∃ holder held, Relation.ReflTransGen (HoldsByValue tree module package) struct holder ∧
      HoldsByValue tree module package holder held ∧
      Relation.ReflTransGen (HoldsByValue tree module package) held struct ∧
      HoldsByPath tree module package holder held := by
  have hstruct : struct ∈ structsOf tree package := by
    obtain ⟨_, hstep, _⟩ := Relation.TransGen.head'_iff.mp hcycle
    exact hstep.1
  obtain ⟨holder, held, hto, hstep, hback, hunseen⟩ :=
    exists_step_of_cycle hcycle (not_leadsTo_of_package_ok h hstruct)
  exact ⟨holder, held, hto, hstep, hback, hstep.holdsByPath hunseen⟩

/-- **When the structs of an accepted package are finite.** No struct holds itself by value, as
fields are written, exactly if no struct that is named by a path leads back to the one that names
it so. In particular this is so where no field has the path of a package in its type. -/
theorem finite_iff_of_package_ok (tree : DeclTree) (language : Language) (module : ModuleId)
    (package : PackageId) (doc : Option PackageComment)
    (h : Check.package tree language package = .ok doc) :
    (∀ struct, ¬ Relation.TransGen (HoldsByValue tree module package) struct struct) ↔
      ∀ holder held, HoldsByValue tree module package holder held →
        HoldsByPath tree module package holder held →
        ¬ Relation.ReflTransGen (HoldsByValue tree module package) held holder := by
  constructor
  · intro hfinite holder held hstep _ hback
    exact hfinite holder (Relation.TransGen.head' hstep hback)
  · -- A cycle that the check missed has a step by path, and that struct leads back.
    intro hpaths struct hcycle
    obtain ⟨holder, held, hto, hstep, hback, hpath⟩ := exists_holdsByPath_of_cycle h hcycle
    exact hpaths holder held hstep hpath (hback.trans hto)

/-! ### Two packages -/

/-- A Go package `lib` with these structs in one file, each given by its name and its fields, and
these by their names and the symbols that are their types. -/
def ofStructs (structs : List (String × List (String × String))) : RenderJob where
  tree :=
    let (module, tree) := (DeclTree.empty "demo").addModule "example.com/app" "go"
    let (package, tree) := tree.addPackage module "lib" "lib"
    let (file, tree) := tree.addFile package "types"
    structs.foldl (fun tree struct =>
      let (type, tree) := tree.addType file .struct struct.1
      struct.2.foldl (fun tree field =>
        (tree.addField type ⟨field.1, .exported, .simple ⟨field.2⟩, none, []⟩).2) tree) tree
  registry := .standard
  resolver := ReferenceTable.standard.lookup
  options := .standard

/-- A package may name its own structs by its path as long as they lead nowhere. -/
theorem finite_iff_of_package_ok_chain :
    let tree := (ofStructs [("Outer", [("Inner", "lib.Inner")]), ("Inner", [])]).tree
    Check.package tree .go ⟨0⟩ = .ok none ∧ HoldsByPath tree ⟨0⟩ ⟨0⟩ ⟨0⟩ ⟨1⟩ ∧
      ∀ struct, ¬ Relation.TransGen (HoldsByValue tree ⟨0⟩ ⟨0⟩) struct struct := by
  intro tree
  have hok : Check.package tree .go ⟨0⟩ = .ok none := by decide +kernel
  have hpath : HoldsByPath tree ⟨0⟩ ⟨0⟩ ⟨0⟩ ⟨1⟩ :=
    ⟨⟨0⟩, by decide +kernel, ⟨"lib.Inner"⟩, "lib", "Inner", ⟨0⟩, by decide +kernel,
      by decide +kernel, by decide +kernel, by decide +kernel, by decide +kernel⟩
  -- The second struct has no fields, so only the first holds anything.
  have honly : ∀ holder held, HoldsByValue tree ⟨0⟩ ⟨0⟩ holder held →
      holder = ⟨0⟩ ∧ held = ⟨1⟩ := by
    rintro holder held ⟨hholder, _, field, hfield, symbol, htype, htarget⟩
    have hstructs : structsOf tree ⟨0⟩ = [⟨0⟩, ⟨1⟩] := by decide +kernel
    rw [hstructs, List.mem_pair] at hholder
    rcases hholder with rfl | rfl
    · have hfields : (tree.type ⟨0⟩).fields = [⟨0⟩] := by decide +kernel
      rw [hfields, List.mem_singleton] at hfield
      subst hfield
      have hinner : (tree.field ⟨0⟩).type = .simple ⟨"lib.Inner"⟩ := by decide +kernel
      have htargetInner : tree.declaredTarget? ⟨0⟩ ⟨0⟩ ⟨"lib.Inner"⟩ = some ⟨1⟩ := by
        decide +kernel
      rw [hinner] at htype
      cases htype
      rw [htargetInner] at htarget
      exact ⟨rfl, (Option.some.inj htarget).symm⟩
    · have hfields : (tree.type ⟨1⟩).fields = [] := by decide +kernel
      rw [hfields] at hfield
      cases hfield
  refine ⟨hok, hpath, (finite_iff_of_package_ok tree .go ⟨0⟩ ⟨0⟩ none hok).mpr ?_⟩
  intro holder held hstep _ hback
  obtain ⟨rfl, rfl⟩ := honly holder held hstep
  rcases hback.cases_head with heq | ⟨middle, hnext, _⟩
  · cases heq
  · cases (honly _ _ hnext).1

/-- **A struct that is accepted and holds itself.** It names itself by the path of its package,
and the file is written with the struct as the type of its own field. -/
theorem node_holds_itself :
    let job := ofStructs [("Node", [("Next", "lib.Node")])]
    (Check.package job.tree .go ⟨0⟩).isOk = true ∧
      Relation.TransGen (HoldsByValue job.tree ⟨0⟩ ⟨0⟩) ⟨0⟩ ⟨0⟩ ∧
      job.render.toOption.map (fun rendering => rendering.artifact.leaves.map (·.2.content)) =
        some ["package lib\n\ntype Node struct \x7b\n\tNext Node\n\x7d\n"] := by
  refine ⟨by decide +kernel, .single ⟨by decide +kernel, by decide +kernel, ⟨0⟩, ?_⟩,
    by decide +kernel⟩
  exact ⟨by decide +kernel, ⟨"lib.Node"⟩, by decide +kernel, by decide +kernel⟩

end DeclPrinter.Check
