import DeclPrinter.Proofs.Check.Identifiers
import DeclPrinter.Proofs.Render.Merge

/-!
# Go scopes

Go has one scope for all that a package declares, and one for the fields and methods of a struct.
In what renders without diagnostics every file has passed its checks and has a text
(`exists_text_of_render`). The checks compare names kind by kind, so two declarations that are
called the same in one scope are of different kinds: a func has the name of a type, or a method
that of a field (`goScopes_nodup_iff`). Both can happen (`goScopes_clash`).
-/

namespace DeclPrinter

open FileM

/-- What a package declares at the top of its files. -/
def packageScope (tree : DeclTree) (package : PackageId) : List Declaration :=
  (tree.typesIn package).map .type ++ (tree.funcsIn package).map .func

/-- What a type has as members. -/
def memberScope (tree : DeclTree) (type : TypeId) : List Declaration :=
  (tree.type type).fields.map .field ++ (tree.type type).methods.map .func

/-- Lists that each have distinct names have them together exactly if no name is in both. -/
theorem nodup_names_append_iff {first second : List Declaration} {name : Declaration → String}
    (hfirst : (first.map name).Nodup) (hsecond : (second.map name).Nodup) :
    ((first ++ second).map name).Nodup ↔
      ∀ decl ∈ first, ∀ other ∈ second, name decl ≠ name other := by
  rw [List.map_append, List.nodup_append, List.forall_mem_map]
  constructor
  · rintro ⟨_, _, hdisjoint⟩ decl hdecl other hother
    exact hdisjoint decl hdecl _ (List.mem_map_of_mem hother)
  · intro hdisjoint
    refine ⟨hfirst, hsecond, fun decl hdecl => ?_⟩
    rw [List.forall_mem_map]
    exact hdisjoint decl hdecl

namespace DistinctByKind

variable {dialect : Dialect} {tree : DeclTree} {package : PackageId}

/-- **A package that keeps its kinds apart** has a scope without clashes exactly if no func is
called like a type. -/
theorem nodup_packageScope_iff (h : DistinctByKind dialect tree package) :
    ((packageScope tree package).map (dialect.identifier tree)).Nodup ↔
      ∀ type ∈ tree.typesIn package, ∀ func ∈ tree.funcsIn package,
        dialect.identifier tree (.type type) ≠ dialect.identifier tree (.func func) := by
  have htypes := h.types
  have hfuncs := h.funcs
  rw [← Function.comp_def, ← List.map_map] at htypes hfuncs
  rw [packageScope, nodup_names_append_iff htypes hfuncs]
  simp only [List.forall_mem_map]

/-- A type of it has members without clashes exactly if no method is called like a field. -/
theorem nodup_memberScope_iff (h : DistinctByKind dialect tree package) {type : TypeId}
    (htype : type ∈ tree.typesIn package) :
    ((memberScope tree type).map (dialect.identifier tree)).Nodup ↔
      ∀ field ∈ (tree.type type).fields, ∀ method ∈ (tree.type type).methods,
        dialect.identifier tree (.field field) ≠ dialect.identifier tree (.func method) := by
  have hfields := h.fields type htype
  have hmethods := h.methods type htype
  rw [← Function.comp_def, ← List.map_map] at hfields hmethods
  rw [memberScope, nodup_names_append_iff hfields hmethods]
  simp only [List.forall_mem_map]

end DistinctByKind

namespace RenderJob

variable {job : RenderJob} {rendering : Rendering}

/-- **A render without diagnostics** has planned its files, and each of them has passed its checks
and has a text. -/
theorem exists_text_of_render (h : job.render = .ok rendering)
    (hnone : rendering.diagnostics = []) :
    ∃ plan, Plan.project job.tree job.registry job.options.cancelled = .ok plan ∧
      ∀ file ∈ plan, Check.declarations job.tree file.language file.contents.types
          file.contents.funcs = .ok () ∧ ∃ text, (job.writeText file).1 = .ok text := by
  obtain ⟨plan, hplan, _, hmerge⟩ := job.render_eq_ok.mp h
  have hdiagnostics := (Rendering.holds_of_foldlM hmerge).diagnostics_eq
  rw [hnone] at hdiagnostics
  refine ⟨plan, hplan, ?_⟩
  intro file hfile
  -- A file that failed a check or has no text would have given a diagnostic.
  have hfailure : FileResult.failure? (job.entry file) = none :=
    List.filterMap_eq_nil_iff.mp hdiagnostics.symm _ (List.mem_map_of_mem hfile)
  unfold FileResult.failure? entry runFile at hfailure
  rw [if_neg Bool.false_ne_true] at hfailure
  rcases hchecked : Check.declarations job.tree file.language file.contents.types
      file.contents.funcs with failure | _
  · rw [hchecked] at hfailure
    cases hfailure
  · rw [hchecked] at hfailure
    rcases htext : (job.writeText file).1 with failure | text
    · rw [htext] at hfailure
      cases hfailure
    · exact ⟨rfl, text, rfl⟩

/-- **Go scopes clash across kinds only.** In a Go package that renders without diagnostics, what
the package declares is called differently exactly if no func is called like a type, and what a
type of it has as members exactly if no method is called like a field. These are the names by
which the texts of all files of the module call what they declare. -/
theorem goScopes_nodup_iff (job : RenderJob) (rendering : Rendering)
    (h : job.render = .ok rendering) (hnone : rendering.diagnostics = [])
    {module : ModuleId} (hmodule : module ∈ job.tree.project.modules) {language : Language}
    (hlanguage : job.registry.language? (job.tree.module module).language = some language)
    (hgo : language.dialect = .go) (hderived : language.derived = false) {package : PackageId}
    (hpackage : package ∈ (job.tree.module module).packages) :
    let identifier := Dialect.go.identifier job.tree
    (((packageScope job.tree package).map identifier).Nodup ↔
      ∀ type ∈ job.tree.typesIn package, ∀ func ∈ job.tree.funcsIn package,
        identifier (.type type) ≠ identifier (.func func)) ∧
    (∀ type ∈ job.tree.typesIn package,
      (((memberScope job.tree type).map identifier).Nodup ↔
        ∀ field ∈ (job.tree.type type).fields, ∀ method ∈ (job.tree.type type).methods,
          identifier (.field field) ≠ identifier (.func method))) ∧
    ∃ plan, Plan.project job.tree job.registry job.options.cancelled = .ok plan ∧
      ∀ file ∈ plan, file.module = module → ∃ script,
        (job.writeText file).1 = .ok (script.text (job.indentUnit file.language)) ∧
        Lists (Opens job.tree .go) (fileDeclarations job.tree file.contents) script := by
  intro identifier
  obtain ⟨plan, hplan, hfiles⟩ := exists_text_of_render h hnone
  obtain ⟨other, hother, doc, hdoc⟩ := Plan.exists_of_project_eq_ok hplan hmodule hpackage
  obtain rfl := Option.some.inj (hlanguage.symm.trans hother)
  have hdistinct : DistinctByKind .go job.tree package := by
    rw [← hgo]
    refine distinctByKind_of_checks hderived hdoc fun file hfile => ?_
    have hplanned : Plan.treeFile job.tree language module package doc file ∈ plan :=
      (Plan.mem_project_iff hplan _).mpr
        ⟨module, hmodule, language, hlanguage, package, hpackage, doc, hdoc, .file file hfile⟩
    exact (hfiles _ hplanned).1
  refine ⟨hdistinct.nodup_packageScope_iff, fun type => hdistinct.nodup_memberScope_iff, plan,
    hplan, ?_⟩
  rintro file hfile rfl
  obtain ⟨_, text, htext⟩ := hfiles file hfile
  obtain ⟨script, hscript, rfl⟩ := exists_script_of_writeText htext
  refine ⟨script, htext, ?_⟩
  -- The file is in the language of its module.
  obtain ⟨_, _, own, hown, _, _, _, _, hkind⟩ := (Plan.mem_project_iff hplan file).mp hfile
  obtain ⟨rfl, rfl, _⟩ := hkind.home
  obtain rfl := Option.some.inj (hlanguage.symm.trans hown)
  have houtlines := outlines_fileScript hderived hscript
  rwa [Outlines, show (job.writingContext file).language.dialect = .go from hgo] at houtlines

/-- A func beside a type, and a method beside a field, with names of their own. -/
theorem goScopes_nodup_iff_row :
    let tree := DeclTree.ofMembers "go" "Row" ["Name"] ["Load"] [] ["Open"]
    (ofTree tree).render.isOk = true ∧
      ((packageScope tree ⟨0⟩).map (Dialect.go.identifier tree)).Nodup ∧
      ((memberScope tree ⟨0⟩).map (Dialect.go.identifier tree)).Nodup := by
  intro tree
  have hnone : (ofTree tree).render.toOption.map (·.diagnostics) = some [] := by decide +kernel
  obtain ⟨rendering, hrender, hdiagnostics⟩ := exists_of_toOption_map_eq_some hnone
  have hlanguage : (ofTree tree).registry.language? (tree.module ⟨0⟩).language = some .go := by
    decide +kernel
  have hmodule : (⟨0⟩ : ModuleId) ∈ tree.project.modules := by decide +kernel
  have hpackage : (⟨0⟩ : PackageId) ∈ (tree.module ⟨0⟩).packages := by decide +kernel
  obtain ⟨hscope, hmembers, _⟩ := goScopes_nodup_iff (ofTree tree) rendering hrender
    hdiagnostics hmodule hlanguage rfl rfl hpackage
  refine ⟨by rw [hrender]; rfl, hscope.mpr (by decide +kernel), ?_⟩
  exact (hmembers ⟨0⟩ (by decide +kernel)).mpr (by decide +kernel)

/-- **A func with the name of a type, a method with the name of a field.** Both are rendered
without diagnostics. -/
theorem goScopes_clash :
    let twins := DeclTree.ofMembers "go" "Open" [] [] [] ["Open"]
    let row := DeclTree.ofMembers "go" "Row" ["Name"] ["Name"] [] []
    (ofTree twins).render.toOption.map (fun rendering =>
        (rendering.diagnostics, rendering.artifact.leaves.map (·.2.content))) =
      some ([], ["package lib\n\ntype Open struct\x7b\x7d\n\nfunc Open() \x7b\n\x7d\n"]) ∧
    ¬ ((packageScope twins ⟨0⟩).map (Dialect.go.identifier twins)).Nodup ∧
    (ofTree row).render.toOption.map (fun rendering =>
        (rendering.diagnostics, rendering.artifact.leaves.map (·.2.content))) =
      some ([], ["package lib\n\ntype Row struct \x7b\n\tName string\n\x7d\n\n" ++
        "func (r *Row) Name() \x7b\n\x7d\n"]) ∧
    ¬ ((memberScope row ⟨0⟩).map (Dialect.go.identifier row)).Nodup := by
  refine ⟨?_, ?_, ?_, ?_⟩ <;> decide +kernel

end RenderJob

end DeclPrinter
