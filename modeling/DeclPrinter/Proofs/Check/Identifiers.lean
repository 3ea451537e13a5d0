import DeclPrinter.Proofs.Check.Names
import DeclPrinter.Proofs.Tree.Additions
import DeclPrinter.Proofs.Writing.Outline

/-!
# The names that are checked are those that are printed

The checks compare declarations by what they will be called in the target language. They and the
functions that write declarations each choose the case of a name for themselves, and choose it
alike (`printedName_type`, `printedName_field`, `printedName_func`). So in a package that passes
its checks no two declarations of a kind are called the same where they are written
(`distinctByKind_of_checks`).

Nothing is said of two declarations of different kinds.
-/

namespace DeclPrinter

open FileM

variable {tree : DeclTree} {language : Language} {package : PackageId}

/-! ### One choice of case -/

theorem printedName_type (hderived : language.derived = false) (id : TypeId) :
    let type := tree.type id
    language.printedName type.kind.stepKind type.name type.visibility =
      language.dialect.identifier tree (.type id) := by
  intro type
  rw [Language.printedName, hderived]
  cases language.dialect with
  | go => rfl
  | java =>
    -- In Java a class and an interface are called alike.
    rcases hkind : type.kind with _ | _ <;> rfl

theorem printedName_field (hderived : language.derived = false) (id : FieldId) :
    let field := tree.field id
    language.printedName .field field.name field.visibility =
      language.dialect.identifier tree (.field id) := by
  intro field
  rw [Language.printedName, hderived]
  cases language.dialect with
  | go => rfl
  | java => rfl

/-- Funcs and methods are called alike. -/
theorem printedName_func (hderived : language.derived = false) {kind : StepKind}
    (hkind : kind = .func ∨ kind = .method) (id : FuncId) :
    let func := tree.func id
    language.printedName kind func.name func.visibility =
      language.dialect.identifier tree (.func id) := by
  intro func
  rw [Language.printedName, hderived]
  cases language.dialect with
  | go => rfl
  | java => rcases hkind with rfl | rfl <;> rfl

/-! ### Packages -/

/-- No two types of the package are called the same in the dialect, no two funcs are, and in none
of its types two fields or two methods are. -/
structure DistinctByKind (dialect : Dialect) (tree : DeclTree) (package : PackageId) : Prop where
  types : ((tree.typesIn package).map fun id => dialect.identifier tree (.type id)).Nodup
  funcs : ((tree.funcsIn package).map fun id => dialect.identifier tree (.func id)).Nodup
  fields : ∀ type ∈ tree.typesIn package,
    ((tree.type type).fields.map fun id => dialect.identifier tree (.field id)).Nodup
  methods : ∀ type ∈ tree.typesIn package,
    ((tree.type type).methods.map fun id => dialect.identifier tree (.func id)).Nodup

/-- **The checks keep the names of each kind apart.** -/
theorem distinctByKind_of_checks (hderived : language.derived = false)
    {doc : Option Check.PackageComment} (hpackage : Check.package tree language package = .ok doc)
    (hfiles : ∀ file ∈ (tree.package package).files, Check.declarations tree language
      (tree.file file).types (tree.file file).funcs = .ok ()) :
    DistinctByKind language.dialect tree package := by
  obtain ⟨htypes, hfuncs⟩ := Check.names_of_package_ok hpackage
  have hmembers : ∀ type ∈ tree.typesIn package, (Check.fieldNames tree language type).Nodup ∧
      (Check.methodNames tree language type).Nodup := by
    intro type htype
    obtain ⟨file, hfile, hmem⟩ := List.mem_flatMap.mp htype
    exact Check.names_of_declarations_ok (hfiles file hfile) type hmem
  -- What is checked are the printed names, by which the declarations are called.
  constructor
  · simpa only [Check.typeNames, printedName_type hderived] using htypes
  · simpa only [Check.funcNames, printedName_func hderived (.inl rfl)] using hfuncs
  · intro type htype
    have hfields := (hmembers type htype).1
    simpa only [Check.fieldNames, printedName_field hderived] using hfields
  · intro type htype
    have hmethods := (hmembers type htype).2
    simpa only [Check.methodNames, printedName_func hderived (.inr rfl)] using hmethods

/-- **The names that are checked are those that are printed.** In a package that passes its checks
no two declarations of a kind are called the same, and whatever of it is written into a file has,
for each declaration and in their order, a line on which it is called by that name. -/
theorem printed_names_nodup (hderived : language.derived = false)
    {doc : Option Check.PackageComment} (hpackage : Check.package tree language package = .ok doc)
    (hfiles : ∀ file ∈ (tree.package package).files, Check.declarations tree language
      (tree.file file).types (tree.file file).funcs = .ok ()) :
    DistinctByKind language.dialect tree package ∧
      ∀ c registry script, c.tree = tree → c.language = language →
        (fileScript registry).Yields c script →
        Lists (Opens tree language.dialect) (fileDeclarations tree c.contents) script := by
  refine ⟨distinctByKind_of_checks hderived hpackage hfiles, ?_⟩
  rintro c registry script rfl rfl h
  exact outlines_fileScript hderived h

/-- In Java the type `row` is called `Row`, and the func `Open` is called `open`. -/
theorem printed_names_nodup_row :
    let tree := DeclTree.ofMembers "java" "row" ["first", "Second"] ["load"] [] ["Open"]
    ∃ doc, Check.package tree .java ⟨0⟩ = .ok doc ∧ DistinctByKind .java tree ⟨0⟩ ∧
      (fileDeclarations tree ⟨"store", [⟨0⟩], [⟨1⟩], none, none⟩).map
        (Dialect.java.identifier tree) = ["Row", "first", "second", "load", "open"] := by
  intro tree
  have hchecked : (Check.package tree .java ⟨0⟩).isOk = true := by decide +kernel
  have hfiles : ∀ file ∈ (tree.package ⟨0⟩).files, Check.declarations tree .java
      (tree.file file).types (tree.file file).funcs = .ok () := by decide +kernel
  rcases hpackage : Check.package tree .java ⟨0⟩ with failure | doc
  · rw [hpackage] at hchecked
    cases hchecked
  · have hderived : Language.java.derived = false := rfl
    obtain ⟨hdistinct, _⟩ := printed_names_nodup hderived hpackage hfiles
    exact ⟨doc, rfl, hdistinct, by decide +kernel⟩

end DeclPrinter
