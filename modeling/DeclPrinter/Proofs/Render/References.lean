import DeclPrinter.Proofs.Check.FiniteStructs
import DeclPrinter.Proofs.Render.Plan
import DeclPrinter.Proofs.Text.Pieces
import DeclPrinter.Proofs.Tree.Additions
import DeclPrinter.Proofs.Writing.Printed

/-!
# References lead to what they name

How a type is referred to is made up from the tree alone. Where it is written is decided at two
other places: in the plan, which names directories and files, and in the file itself. Both read
the same nodes as the reference, those that are above the type, hence they agree: the import path
of a Go type leads to the directory of its file (`RenderJob.goAgrees`), that of a Java type to the
class that its file is (`RenderJob.javaAgrees`), and what is selected from it is what is declared
there. A file that names the type is one of its module, and calls it by the one of its names that
is good there (`RenderJob.calls_of_spellSymbol`).
-/

namespace DeclPrinter

open FileM

section Names

variable {tree : DeclTree} {language : Language} {module : ModuleId} {package : PackageId}
  {file : FileId} {id : TypeId}

/-! ### What a reference is made of -/

/-- **The import path of a Go package leads to its directory.** -/
theorem pathDirs_goImportPath (module : ModuleNode) (package : PackageNode) :
    pathDirs (goImportPath module package) = pathDirs module.path ++ pathDirs package.path := by
  unfold goImportPath
  split
  · rename_i hempty
    have hnone : pathDirs package.path = [] := by
      rw [String.isEmpty_iff.mp hempty]
      exact Text.pieces_empty
    rw [hnone, List.append_nil]
  · exact Text.pieces_append rfl rfl

theorem typeReference_of_go (hlinked : tree.Linked)
    (hdeclared : tree.Declares module package file id) (hgo : language.dialect = .go) :
    language.typeReference tree id =
      .ofMember (goImportPath (tree.module module) (tree.package package))
        (tree.package package).name (Dialect.go.nameOfType (tree.type id)) := by
  unfold Language.typeReference Dialect.typeReference
  dsimp only
  rw [hgo, hlinked.type_file hdeclared.type_mem, hlinked.file_package hdeclared.file_mem,
    hlinked.package_module hdeclared.package_mem]

/-- A type that stands alone is imported itself. -/
theorem typeReference_of_standsAlone (hlinked : tree.Linked)
    (hdeclared : tree.Declares module package file id) (hjava : language.dialect = .java)
    (halone : standsAlone (tree.file file).types (tree.file file).funcs = true) :
    language.typeReference tree id =
      .ofImport (javaPackageName (tree.module module) (tree.package package) ++ "." ++
        Dialect.java.nameOfType (tree.type id)) (Dialect.java.nameOfType (tree.type id)) := by
  unfold Language.typeReference Dialect.typeReference
  dsimp only
  rw [hjava, hlinked.type_file hdeclared.type_mem, hlinked.file_package hdeclared.file_mem,
    hlinked.package_module hdeclared.package_mem]
  exact if_pos halone

/-- Of any other type the class that holds it is imported. -/
theorem typeReference_of_wrapped (hlinked : tree.Linked)
    (hdeclared : tree.Declares module package file id) (hjava : language.dialect = .java)
    (hwrapped : standsAlone (tree.file file).types (tree.file file).funcs = false) :
    language.typeReference tree id =
      .ofMember (javaPackageName (tree.module module) (tree.package package) ++ "." ++
        wrappingClass (tree.file file).name) (wrappingClass (tree.file file).name)
        (Dialect.java.nameOfType (tree.type id)) := by
  unfold Language.typeReference Dialect.typeReference
  dsimp only
  rw [hjava, hlinked.type_file hdeclared.type_mem, hlinked.file_package hdeclared.file_mem,
    hlinked.package_module hdeclared.package_mem]
  exact if_neg (by simp [hwrapped])

/-- A Java reference imports a class from the package, and what it ends in is the type. -/
theorem typeReference_parts (hlinked : tree.Linked)
    (hdeclared : tree.Declares module package file id) (hjava : language.dialect = .java) :
    let reference := language.typeReference tree id
    reference.importPath = some (javaPackageName (tree.module module) (tree.package package) ++
        "." ++ reference.localName) ∧
      reference.member.getD reference.localName = Dialect.java.nameOfType (tree.type id) := by
  intro reference
  -- A type alone in its file is the class of the file, and any other is a member of it.
  rcases halone : standsAlone (tree.file file).types (tree.file file).funcs with _ | _
  · have hreference : reference = _ := typeReference_of_wrapped hlinked hdeclared hjava halone
    rw [hreference]
    exact ⟨rfl, rfl⟩
  · have hreference : reference = _ := typeReference_of_standsAlone hlinked hdeclared hjava halone
    rw [hreference]
    exact ⟨rfl, rfl⟩

/-- What neighbours call a Java type is what is selected from the same class by others. -/
theorem neighbourTypeName_of_java (hlinked : tree.Linked)
    (hdeclared : tree.Declares module package file id) (hjava : language.dialect = .java)
    (hderived : language.derived = false) :
    let reference := language.typeReference tree id
    language.neighbourTypeName tree id = reference.select reference.localName := by
  intro reference
  unfold Language.neighbourTypeName Dialect.neighbourTypeName
  dsimp only
  rw [hderived, hjava, hlinked.type_file hdeclared.type_mem]
  rcases halone : standsAlone (tree.file file).types (tree.file file).funcs with _ | _
  · have hreference := typeReference_of_wrapped hlinked hdeclared hjava halone
    simp [reference, hreference, Reference.select, Reference.ofMember]
  · have hreference := typeReference_of_standsAlone hlinked hdeclared hjava halone
    simp [reference, hreference, Reference.select, Reference.ofImport]

/-- A Java file is called after the class that is imported from it. -/
theorem fileStem_of_java (hlinked : tree.Linked)
    (hdeclared : tree.Declares module package file id) (hjava : language.dialect = .java)
    (doc : Option Check.PackageComment) :
    let contents := Plan.fileContents tree language (tree.package package) doc file
    Dialect.java.fileStem tree contents = (language.typeReference tree id).localName := by
  intro contents
  have htypes : contents.types = (tree.file file).types := rfl
  have hfuncs : contents.funcs = (tree.file file).funcs := rfl
  unfold Dialect.fileStem
  dsimp only
  rw [htypes, hfuncs]
  rcases halone : standsAlone (tree.file file).types (tree.file file).funcs with _ | _
  · -- The class is around the declarations of the file and called after it.
    rw [typeReference_of_wrapped hlinked hdeclared hjava halone]
    split
    · rename_i type hone hnone
      have hstands := standsAlone_iff.mpr ⟨type, hone, hnone⟩
      rw [halone] at hstands
      cases hstands
    · rfl
  · -- The only type of the file is the class.
    rw [typeReference_of_standsAlone hlinked hdeclared hjava halone]
    obtain ⟨type, hone, hnone⟩ := standsAlone_iff.mp halone
    have hid := hdeclared.type_mem
    rw [hone, List.mem_singleton] at hid
    rw [hone, hnone, hid]
    rfl

/-! ### What a symbol names -/

/-- A symbol names a type of the module in which it stands. -/
theorem exists_declares_of_declaredTarget? {symbol : Symbol}
    (hmodule : module ∈ tree.project.modules) (hpackage : package ∈ (tree.module module).packages)
    (h : tree.declaredTarget? module package symbol = some id) :
    ∃ other file, tree.Declares module other file id := by
  have htypes : ∃ other ∈ (tree.module module).packages, id ∈ tree.typesIn other := by
    unfold DeclTree.declaredTarget? at h
    split at h
    · -- The package itself has a type of the name.
      rename_i found hfound
      obtain rfl := Option.some.inj h
      exact ⟨package, hpackage, Check.mem_typesIn_of_typeNamed? hfound⟩
    · -- The name is qualified by the path of a package of the module, which has the type.
      obtain ⟨⟨path, name⟩, _, h⟩ := Option.bind_eq_some_iff.mp h
      obtain ⟨other, hother, hnamed⟩ := Option.bind_eq_some_iff.mp h
      exact ⟨other, List.mem_of_find?_eq_some hother, Check.mem_typesIn_of_typeNamed? hnamed⟩
  obtain ⟨other, hother, hid⟩ := htypes
  obtain ⟨file, hfile, hid⟩ := List.mem_flatMap.mp hid
  exact ⟨other, file, hmodule, hother, hfile, hid⟩

theorem FileContext.declaredTarget?_of_target? {c : FileContext} {symbol : Symbol}
    (h : c.target? symbol = some (.declared id)) :
    c.tree.declaredTarget? c.module c.package symbol = some id := by
  unfold target? at h
  split at h
  · rename_i found hfound
    cases h
    exact hfound
  · obtain ⟨_, _, h⟩ := Option.map_eq_some_iff.mp h
    cases h

/-- A symbol that names a type of the tree is spelled as that type is called. -/
theorem yields_spellSymbol_of_declared {c : FileContext} {symbol : Symbol} {place : TreePath}
    {call : String} (htarget : c.target? symbol = some (.declared id)) :
    (spellSymbol symbol place).Yields c call ↔ (spellDeclared id).Yields c call := by
  -- A symbol has one meaning in a file.
  have hmeaning : (meaning symbol place).Yields c (.declared id) := by
    refine yields_context_bind.mpr ?_
    rw [htarget]
    exact yields_pure.mpr rfl
  constructor
  · intro h
    obtain ⟨target, htarget, h⟩ := yields_bind.mp h
    have heq : target = .declared id := Except.ok.inj (htarget.symm.trans hmeaning)
    subst heq
    exact h
  · intro h
    exact yields_bind.mpr ⟨.declared id, hmeaning, h⟩

end Names

namespace RenderJob

variable {job : RenderJob} {language : Language} {module : ModuleId} {package : PackageId}
  {file : FileId} {id : TypeId} {doc : Option Check.PackageComment}

/-- The reference to a Go type leads to where it is printed. -/
structure GoAgrees (job : RenderJob) (unit : PlannedFile) (id : TypeId) (reference : Reference) :
    Prop where
  /-- The import path is that of the directory. -/
  dir : reference.importPath.map pathDirs = some unit.dir
  /-- What is selected is the name by which the type is declared. -/
  member : ∃ name, reference.member = some name ∧
    ∀ script, (fileScript job.registry).Yields (job.writingContext unit) script →
      DeclaredAt 0 (goTypeHeads name (job.tree.type id).kind) script

/-- The reference to a Java type, and what its neighbours call it, lead to where it is printed, in
a package of this name. -/
structure JavaAgrees (job : RenderJob) (unit : PlannedFile) (id : TypeId) (reference : Reference)
    (neighbour packageName : String) : Prop where
  /-- The unit is called after the class that is imported. -/
  leaf : unit.leaf = reference.localName ++ ".java"
  /-- It says that it is in the package. -/
  clause : DeclaredAt 0 ["package " ++ packageName ++ ";"] (fileTop (job.writingContext unit))
  /-- It is the class. -/
  file : ∀ script, (fileScript job.registry).Yields (job.writingContext unit) script →
    JavaFile (job.writingContext unit) reference.localName script
  /-- The class is imported from the package. -/
  importPath : reference.importPath = some (packageName ++ "." ++ reference.localName)
  /-- What the reference ends in is the type. -/
  name : reference.member.getD reference.localName =
    Dialect.java.nameOfType (job.tree.type id)
  /-- Something is selected exactly if the type is in the class and is not the class itself. -/
  nested : ∀ script, (fileScript job.registry).Yields (job.writingContext unit) script →
    DeclaredAt (if reference.member.isSome then 1 else 0)
      (classHeads (javaTypeHead (job.tree.type id) reference.member.isNone)) script
  /-- Neighbours select the same. -/
  neighbour : neighbour = reference.select reference.localName

/-- How a file calls the type that is printed in this unit. -/
inductive Calls (job : RenderJob) (unit user : PlannedFile) (id : TypeId) : String → Prop where
  | own (h : user = unit) : Calls job unit user id (unit.language.nameOfType (job.tree.type id))
  | neighbour (h : user.package = unit.package) (hother : user ≠ unit) :
      Calls job unit user id (unit.language.neighbourTypeName job.tree id)
  | reference (h : user.module = unit.module) (hother : user.package ≠ unit.package) :
      Calls job unit user id ((job.imports user).spell (unit.language.typeReference job.tree id))

/-! ### Where the type is printed -/

theorem goAgrees (hlinked : job.tree.Linked)
    (hdeclared : job.tree.Declares module package file id) (hgo : language.dialect = .go) :
    GoAgrees job (Plan.treeFile job.tree language module package doc file) id
      (language.typeReference job.tree id) := by
  rw [typeReference_of_go hlinked hdeclared hgo]
  constructor
  · show some (pathDirs _) = some _
    rw [pathDirs_goImportPath]
    simp [Plan.treeFile, Plan.inPackage, Language.moduleSegments, Language.packageSegments, hgo,
      Dialect.packageSegments]
  · exact ⟨_, rfl, fun script hscript => declaredAt_of_go hgo hdeclared.type_mem hscript⟩

theorem javaAgrees (hlinked : job.tree.Linked)
    (hdeclared : job.tree.Declares module package file id) (hjava : language.dialect = .java)
    (hderived : language.derived = false) :
    let reference := language.typeReference job.tree id
    JavaAgrees job (Plan.treeFile job.tree language module package doc file) id reference
      (language.neighbourTypeName job.tree id)
      (javaPackageName (job.tree.module module) (job.tree.package package)) := by
  intro reference
  let unit := Plan.treeFile job.tree language module package doc file
  -- A type that is the class itself, and one in a class that holds it.
  have hprinted : ∀ script, (fileScript job.registry).Yields (job.writingContext unit) script →
      JavaFile (job.writingContext unit) reference.localName script ∧
        DeclaredAt (if reference.member.isSome then 1 else 0)
          (classHeads (javaTypeHead (job.tree.type id) reference.member.isNone)) script := by
    intro script hscript
    rcases halone : standsAlone (job.tree.file file).types (job.tree.file file).funcs with _ | _
    · have hreference : reference = _ := typeReference_of_wrapped hlinked hdeclared hjava halone
      rw [hreference]
      exact javaFile_of_wrapped hjava hderived halone hdeclared.type_mem hscript
    · have hreference : reference = _ :=
        typeReference_of_standsAlone hlinked hdeclared hjava halone
      rw [hreference]
      obtain ⟨type, hone, hnone⟩ := standsAlone_iff.mp halone
      have hid := hdeclared.type_mem
      rw [hone, List.mem_singleton] at hid
      subst hid
      exact javaFile_of_standsAlone hjava hderived hone hnone hscript
  have hleaf : unit.leaf = reference.localName ++ ".java" := by
    show language.sourceName job.tree unit.contents = _
    have hstem : Dialect.java.fileStem job.tree unit.contents = reference.localName :=
      fileStem_of_java hlinked hdeclared hjava doc
    rw [Language.sourceName, Dialect.sourceName, hjava, hstem, String.append_assoc]
    rfl
  have hparts := typeReference_parts hlinked hdeclared hjava
  have hclause := declaredAt_fileTop_of_java (c := job.writingContext unit) hjava
  exact {
    leaf := hleaf
    clause := hclause
    file := fun script hscript => (hprinted script hscript).1
    importPath := hparts.1
    name := hparts.2
    nested := fun script hscript => (hprinted script hscript).2
    neighbour := neighbourTypeName_of_java hlinked hdeclared hjava hderived }

/-! ### Who names the type -/

variable {plan : List PlannedFile} {user : PlannedFile} {symbol : Symbol} {place : TreePath}
  {call : String}

/-- **A file that names a type is one of its module,** and calls it by the name that is good
there. -/
theorem calls_of_spellSymbol (hlinked : job.tree.Linked)
    (hplan : Plan.project job.tree job.registry job.options.cancelled = .ok plan)
    (hdeclared : job.tree.Declares module package file id)
    (hlanguage : job.registry.language? (job.tree.module module).language = some language)
    (hdoc : Check.package job.tree language package = .ok doc) (huser : user ∈ plan)
    (htarget : (job.context user).target? symbol = some (.declared id))
    (h : (spellSymbol symbol place).Yields (job.writingContext user) call) :
    Calls job (Plan.treeFile job.tree language module package doc file) user id call := by
  obtain ⟨own, hown, ownLanguage, hownLanguage, ownPackage, hownPackage, ownDoc, hownDoc,
    hplanned⟩ := (Plan.mem_project_iff hplan user).mp huser
  obtain ⟨huserLanguage, huserModule, huserPackage⟩ := hplanned.home
  -- The type is one of the module of the file, so both are in the same language.
  have hnamed := FileContext.declaredTarget?_of_target? htarget
  have hmodule : own = module := by
    change job.tree.declaredTarget? user.module user.package symbol = some id at hnamed
    rw [huserModule, huserPackage] at hnamed
    obtain ⟨_, _, hother⟩ := exists_declares_of_declaredTarget? hown hownPackage hnamed
    exact (hlinked.declares_unique hother hdeclared).1
  subst hmodule
  have hsame : ownLanguage = language := Option.some.inj (hownLanguage.symm.trans hlanguage)
  subst hsame
  have hpackageOfType : job.tree.packageOfType id = package := by
    rw [DeclTree.packageOfType, hlinked.type_file hdeclared.type_mem,
      hlinked.file_package hdeclared.file_mem]
  have hwriting : (job.writingContext user).target? symbol = some (.declared id) := htarget
  have h := (yields_spellSymbol_of_declared hwriting).mp h
  have himports : (job.writingContext user).imports = some (job.imports user) := rfl
  have hwritten : (job.writingContext user).language = ownLanguage := huserLanguage
  unfold spellDeclared at h
  have h := yields_context_bind.mp h
  split at h
  · rename_i hid
    rw [← yields_pure.mp h]
    -- Only one file is planned for that in which the type is declared.
    obtain ⟨source, hsource, htype, hfile⟩ :=
      hplanned.exists_treeFile (List.contains_iff_mem.mp hid)
    obtain ⟨_, rfl, rfl⟩ := hlinked.declares_unique ⟨hown, hownPackage, hsource, htype⟩ hdeclared
    rw [hdoc] at hownDoc
    cases hownDoc
    rw [hwritten]
    exact .own hfile
  · rename_i hid
    have hother : user ≠ Plan.treeFile job.tree ownLanguage own package doc file := by
      intro hfile
      refine hid (List.contains_iff_mem.mpr ?_)
      rw [hfile]
      exact hdeclared.type_mem
    split at h
    · rename_i hpackage
      rw [← yields_pure.mp h]
      have hpackage : package = user.package := by
        rw [← hpackageOfType]
        exact eq_of_beq hpackage
      rw [hwritten]
      exact .neighbour hpackage.symm hother
    · rename_i hpackage
      rw [← (yields_spell himports).mp h]
      rw [hwritten]
      refine .reference huserModule fun hpackages => hpackage ?_
      rw [beq_iff_eq]
      exact hpackageOfType.trans hpackages.symm

/-- **References agree with the layout.** A type that is declared in a file of a planned project
is printed in the unit that is planned for the file. In Go the import path of a reference to it
leads to the directory of the unit, and what is selected is what the type is declared as there.
In Java the import is a class in the package of the unit: the class that the unit is, and after
which it is called. From it the type is selected exactly if it is printed in the class, by other
packages and by neighbours alike. A file that names the type calls it by the reference, if it is
of another package, and by what neighbours call it, if it is another of the same package.

Of the tree it is asked that what a node lists is at home there, as in each tree that grew by
additions (`DeclTree.Raised.arranged`). -/
theorem references_agree (job : RenderJob) (plan : List PlannedFile) (hlinked : job.tree.Linked)
    (hplan : Plan.project job.tree job.registry job.options.cancelled = .ok plan)
    (module : ModuleId) (package : PackageId) (file : FileId) (id : TypeId)
    (hdeclared : job.tree.Declares module package file id) :
    ∃ language doc, job.registry.language? (job.tree.module module).language = some language ∧
      let unit := Plan.treeFile job.tree language module package doc file
      let reference := language.typeReference job.tree id
      unit ∈ plan ∧
      (language.dialect = .go → GoAgrees job unit id reference) ∧
      (language.dialect = .java → language.derived = false →
        JavaAgrees job unit id reference (language.neighbourTypeName job.tree id)
          (javaPackageName (job.tree.module module) (job.tree.package package))) ∧
      ∀ user ∈ plan, ∀ symbol place call,
        (job.context user).target? symbol = some (.declared id) →
        (spellSymbol symbol place).Yields (job.writingContext user) call →
        Calls job unit user id call := by
  obtain ⟨language, hlanguage, doc, hdoc⟩ :=
    Plan.exists_of_project_eq_ok hplan hdeclared.module_mem hdeclared.package_mem
  refine ⟨language, doc, hlanguage, ?_, fun hgo => goAgrees hlinked hdeclared hgo,
    fun hjava hderived => javaAgrees hlinked hdeclared hjava hderived,
    fun user huser symbol place call htarget h => ?_⟩
  · -- The file is a source file of a package that is planned.
    refine (Plan.mem_project_iff hplan _).mpr ⟨module, hdeclared.module_mem, language, hlanguage,
      package, hdeclared.package_mem, doc, hdoc, ?_⟩
    exact .file file hdeclared.file_mem
  · exact calls_of_spellSymbol hlinked hplan hdeclared hlanguage hdoc huser htarget h

/-- A module with a file `store` of two types in its package `db`, and a file `main` in its package
`app` whose one type has the first of them as a field. -/
def ofStore (language : String) : RenderJob where
  tree :=
    let (module, tree) := (DeclTree.empty "demo").addModule "com/acme" language
    let (package, tree) := tree.addPackage module "db" "db"
    let (file, tree) := tree.addFile package "store"
    let tree := (tree.addType file .struct "row").2
    let tree := (tree.addType file .struct "table").2
    let (package, tree) := tree.addPackage module "app" "app"
    let (file, tree) := tree.addFile package "main"
    let (type, tree) := tree.addType file .struct "main"
    (tree.addField type ⟨"first", .exported, .simple ⟨"db.row"⟩, none, []⟩).2
  registry := .standard
  resolver := ReferenceTable.standard.lookup
  options := .standard

theorem raised_ofStore (language : String) : (ofStore language).tree.Raised :=
  ((((((((((DeclTree.Raised.empty "demo").add (.module "com/acme" language)).add
    (.package ⟨0⟩ "db" "db")).add (.file ⟨0⟩ "store")).add (.type ⟨0⟩ .struct "row")).add
    (.type ⟨0⟩ .struct "table")).add (.package ⟨0⟩ "app" "app")).add (.file ⟨1⟩ "main")).add
    (.type ⟨1⟩ .struct "main")).add
    (.field ⟨2⟩ ⟨"first", .exported, .simple ⟨"db.row"⟩, none, []⟩))

/-- In Java the type `row` is in the class `Store`. -/
theorem references_agree_store :
    let job := ofStore "java"
    let store := "package com.acme.db;\n\npublic final class Store \x7b\n" ++
      "    public static class Row \x7b\x7d\n\n    public static class Table \x7b\x7d\n\x7d\n"
    let main := "package com.acme.app;\n\nimport com.acme.db.Store;\n\n" ++
      "public class Main \x7b\n    public Store.Row first;\n\x7d\n"
    job.render.toOption.map (fun rendering => rendering.artifact.leaves.map (·.2.content)) =
        some [store, main] ∧
      job.tree.Declares ⟨0⟩ ⟨0⟩ ⟨0⟩ ⟨0⟩ ∧
      ∃ plan doc, Plan.project job.tree job.registry job.options.cancelled = .ok plan ∧
        Plan.treeFile job.tree .java ⟨0⟩ ⟨0⟩ doc ⟨0⟩ ∈ plan ∧
        JavaAgrees job (Plan.treeFile job.tree .java ⟨0⟩ ⟨0⟩ doc ⟨0⟩) ⟨0⟩
          (.ofMember "com.acme.db.Store" "Store" "Row") "Store.Row" "com.acme.db" := by
  intro job store main
  have hdeclared : job.tree.Declares ⟨0⟩ ⟨0⟩ ⟨0⟩ ⟨0⟩ :=
    ⟨by decide +kernel, by decide +kernel, by decide +kernel, by decide +kernel⟩
  have hplanned : (Plan.project job.tree job.registry job.options.cancelled).isOk = true := by
    decide +kernel
  rcases hplan : Plan.project job.tree job.registry job.options.cancelled with failure | plan
  · rw [hplan] at hplanned
    cases hplanned
  obtain ⟨language, doc, hlanguage, hunit, _, hjava, _⟩ :=
    references_agree job plan (raised_ofStore "java").arranged.linked hplan ⟨0⟩ ⟨0⟩ ⟨0⟩ ⟨0⟩
      hdeclared
  have hregistered : job.registry.language? (job.tree.module ⟨0⟩).language = some .java := by
    decide +kernel
  -- What the type is called is computed, and the theorem says what it is printed as.
  obtain rfl := Option.some.inj (hregistered.symm.trans hlanguage)
  have hreference : Language.java.typeReference job.tree ⟨0⟩ =
      .ofMember "com.acme.db.Store" "Store" "Row" := by decide +kernel
  have hneighbour : Language.java.neighbourTypeName job.tree ⟨0⟩ = "Store.Row" := by
    decide +kernel
  have hname : javaPackageName (job.tree.module ⟨0⟩) (job.tree.package ⟨0⟩) = "com.acme.db" := by
    decide +kernel
  have hagrees := hjava rfl rfl
  rw [hreference, hneighbour, hname] at hagrees
  exact ⟨by decide +kernel, hdeclared, plan, doc, rfl, hunit, hagrees⟩

end RenderJob

end DeclPrinter
