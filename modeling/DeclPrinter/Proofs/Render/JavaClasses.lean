import DeclPrinter.Proofs.Check.Identifiers
import DeclPrinter.Proofs.Render.Plan
import DeclPrinter.Proofs.Render.Run
import DeclPrinter.Proofs.Writing.JavaClasses

/-!
# Java classes that clash

A Java file that has a text passed all checks on the names of classes, those on its package
before it was planned and those that are made as it is written. They leave one clash
(`javaClasses_wellScoped_iff`): the record of a func is called by the func's name in upper case,
while funcs are compared by their names in lower case, and two names may differ in the one and
agree in the other (`javaClasses_clash`).
-/

namespace DeclPrinter

open FileM

namespace Plan

variable {tree : DeclTree} {language : Language} {module : ModuleId} {package : PackageId}
  {doc : Option Check.PackageComment} {file : PlannedFile}

/-- A planned file has funcs where they are at home. -/
theorem Planned.homedIn (h : Planned tree language module package doc file)
    (hhomed : tree.Homed) : HomedIn tree file.contents := by
  refine ⟨fun type _ id hid => hhomed.funcHome_method hid, ?_⟩
  intro id hid type
  cases h with
  | doc => cases hid
  | file source _ =>
    rw [hhomed.funcHome_file hid]
    exact FuncHome.noConfusion
  | funcs =>
    rw [hhomed.funcHome_package hid]
    exact FuncHome.noConfusion

/-- The types of a planned file are called differently. -/
theorem Planned.nodup_types (h : Planned tree language module package doc file)
    (hderived : language.derived = false)
    (hchecked : Check.package tree language package = .ok doc) :
    (file.contents.types.map fun id => language.dialect.identifier tree (.type id)).Nodup := by
  -- In the whole package they are, so in each of its files.
  have hall := (Check.names_of_package_ok hchecked).1
  simp only [Check.typeNames, printedName_type hderived, DeclTree.typesIn,
    List.map_flatMap] at hall
  cases h with
  | doc => exact List.nodup_nil
  | file source hsource => exact (List.nodup_flatMap.mp hall).1 source hsource
  | funcs => exact List.nodup_nil

end Plan

namespace RenderJob

/-- **In a Java file only records beside each other can clash.** The text of a planned file is
what stands above its declarations, and then its classes. These are well scoped, with no class
called like one around it or beside it, exactly if the records of the methods of each type are
called differently, and so are those of the funcs of the file. That funcs are at home where they
are listed holds of each tree that grew by additions (`DeclTree.Raised.arranged`). -/
theorem javaClasses_wellScoped_iff (job : RenderJob) (plan : List PlannedFile)
    (hhomed : job.tree.Homed)
    (hplan : Plan.project job.tree job.registry job.options.cancelled = .ok plan)
    {file : PlannedFile} (hfile : file ∈ plan) (hjava : file.language.dialect = .java)
    (hderived : file.language.derived = false) {text : String}
    (h : (job.writeText file).1 = .ok text) :
    (∃ decls, text = Script.text (fileTop (job.writingContext file) ++ decls)
        (job.indentUnit file.language) ∧
      Members (fileClasses job.tree file.contents) decls) ∧
    ((∀ printed ∈ fileClasses job.tree file.contents, printed.WellScoped []) ↔
      (∀ type ∈ file.contents.types,
        (recordsOf job.tree (job.tree.type type).methods).Nodup) ∧
      (recordsOf job.tree file.contents.funcs).Nodup) := by
  obtain ⟨module, _, language, _, package, _, doc, hchecked, hplanned⟩ :=
    (Plan.mem_project_iff hplan file).mp hfile
  obtain ⟨rfl, _, _⟩ := hplanned.home
  -- Types are apart because the package was checked, classes around others as they were written.
  have htypes := hplanned.nodup_types hderived hchecked
  rw [hjava] at htypes
  obtain ⟨script, hscript, rfl⟩ := exists_script_of_writeText h
  obtain ⟨decls, hdecls, rfl⟩ := yields_fileScript hscript
  obtain ⟨hmembers, hkept⟩ := members_javaScript (yields_declsScript_of_java hjava hderived hdecls)
  exact ⟨⟨decls, rfl, hmembers⟩,
    wellScoped_fileClasses_iff hkept (hplanned.homedIn hhomed) htypes⟩

/-- Two results, which a method returns as a record. -/
def twoResults : List Param :=
  [⟨"", .simple ⟨"int"⟩, none, []⟩, ⟨"", .simple ⟨"string"⟩, none, []⟩]

/-- A type with the records of two methods in it. -/
theorem javaClasses_wellScoped_iff_store :
    let tree := DeclTree.ofMembers "java" "Store" [] ["load", "save"] twoResults []
    let file := Plan.treeFile tree .java ⟨0⟩ ⟨0⟩ none ⟨0⟩
    recordsOf tree (tree.type ⟨0⟩).methods = ["LoadResult", "SaveResult"] ∧
      (∃ decls, Members (fileClasses tree file.contents) decls) ∧
      ∀ printed ∈ fileClasses tree file.contents, printed.WellScoped [] := by
  intro tree file
  have hrecords : recordsOf tree (tree.type ⟨0⟩).methods = ["LoadResult", "SaveResult"] := by
    decide +kernel
  have hplanned : (Plan.project tree (ofTree tree).registry false).isOk = true := by
    decide +kernel
  rcases hplan : Plan.project tree (ofTree tree).registry false with failure | plan
  · rw [hplan] at hplanned
    cases hplanned
  have hfile : file ∈ plan := by
    have hlanguage : (ofTree tree).registry.language? (tree.module ⟨0⟩).language = some .java := by
      decide +kernel
    have hchecked : Check.package tree .java ⟨0⟩ = .ok none := by decide +kernel
    exact (Plan.mem_project_iff hplan file).mpr ⟨⟨0⟩, by decide +kernel, .java, hlanguage, ⟨0⟩,
      by decide +kernel, none, hchecked, .file ⟨0⟩ (by decide +kernel)⟩
  have hwritten : ((ofTree tree).writeText file).1.isOk = true := by decide +kernel
  rcases htext : ((ofTree tree).writeText file).1 with failure | text
  · rw [htext] at hwritten
    cases hwritten
  obtain ⟨⟨decls, _, hmembers⟩, hwell⟩ := javaClasses_wellScoped_iff (ofTree tree) plan
    (DeclTree.raised_ofMembers ..).arranged.homed hplan hfile rfl rfl htext
  refine ⟨hrecords, ⟨decls, hmembers⟩, hwell.mpr ⟨?_, by decide +kernel⟩⟩
  decide +kernel

/-- **Names that differ in lower case and agree in upper case.** The methods `id` and `\u0131d`,
which starts with a dotless i, both return a record `IdResult`. -/
theorem javaClasses_clash :
    let tree := DeclTree.ofMembers "java" "Store" [] ["id", "\u0131d"] twoResults []
    (ofTree tree).render.toOption.map (fun rendering =>
        (rendering.diagnostics, rendering.artifact.leaves.map (·.2.content))) =
      some ([], ["package com.acme.lib;\n\npublic class Store \x7b\n" ++
        "    public record IdResult(int value1, String value2) \x7b\x7d\n\n" ++
        "    public IdResult id() \x7b\n    \x7d\n\n" ++
        "    public record IdResult(int value1, String value2) \x7b\x7d\n\n" ++
        "    public IdResult \u0131d() \x7b\n    \x7d\n\x7d\n"]) ∧
      ¬ (typeClass tree ⟨0⟩).WellScoped [] := by
  intro tree
  refine ⟨by decide +kernel, ?_⟩
  intro h
  have hrecords : ¬ (recordsOf tree (tree.type ⟨0⟩).methods).Nodup := by decide +kernel
  exact hrecords (PrintedClass.wellScoped_records_iff.mp h).1

end RenderJob

end DeclPrinter
