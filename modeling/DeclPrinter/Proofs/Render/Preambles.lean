import DeclPrinter.Proofs.Render.Apart
import DeclPrinter.Proofs.Render.Indentation
import DeclPrinter.Proofs.Script.Verbatim

/-!
# Files under a preamble

The preamble of a file is no part of what its declarations rest on, so the two passes through the
file note the same references under any preamble (`firstPass_withPreamble`), and the script is that
of the file without one below the preamble (`secondPass_withPreamble`). That script begins with the
package clause. So the text is what the preamble alone decides, and after it the text of the file
without a preamble (`runFile_withPreamble`).
-/

namespace DeclPrinter

/-! ### The package clause -/

/-- A package clause begins with a line, and has one that begins with the word. -/
theorem packageClause_line (dialect : Dialect) (module : ModuleNode) (package : PackageNode)
    (doc : Option String) :
    (dialect.packageClause module package doc).BeginsWithLine ∧
      ∃ rest, .line ("package" ++ rest) ∈ dialect.packageClause module package doc := by
  cases dialect with
  | go =>
    refine ⟨(beginsWithLine_goComment _).append (.line _ []), " " ++ package.name, ?_⟩
    rw [← String.append_assoc]
    exact List.mem_append_right _ List.mem_cons_self
  | java =>
    refine ⟨(beginsWithLine_docComment _).append (.line _ []),
      " " ++ javaPackageName module package ++ ";", ?_⟩
    rw [← String.append_assoc, ← String.append_assoc]
    exact List.mem_append_right _ List.mem_cons_self

/-- **What begins with a package clause** begins with a line and writes some text. -/
theorem exists_line_of_packageClause (dialect : Dialect) (module : ModuleNode)
    (package : PackageNode) (doc : Option String) (rest : Script) :
    let script := dialect.packageClause module package doc ++ rest
    (∃ text after, script = .line text :: after) ∧ (LineBuffer.empty.run script).HasText := by
  obtain ⟨hbegins, after, hline⟩ := packageClause_line dialect module package doc
  intro script
  constructor
  · obtain ⟨step, own, hclause⟩ := List.exists_cons_of_ne_nil (List.ne_nil_of_mem hline)
    obtain ⟨text, rfl⟩ := hbegins step (by rw [hclause]; rfl)
    exact ⟨text, own ++ rest, by simp [script, hclause]⟩
  · -- The clause starts with a word, so its line is not blank.
    have hblank : "package".toList.all (!Text.isBlank ·) = true := by decide +kernel
    have hfront : ∀ c ∈ "package".toList, Text.isBlank c = false := by
      intro c hc
      simpa using List.all_eq_true.mp hblank c hc
    exact LineBuffer.hasText_run_of_line_mem (by decide) hfront (List.mem_append_left rest hline)

/-! ### Writing under a preamble -/

/-- The file with another preamble. -/
def PlannedFile.withPreamble (file : PlannedFile) (preamble : Option String) : PlannedFile :=
  { file with contents := { file.contents with preamble := preamble } }

/-- **A file under a preamble** is the preamble and the file without one. -/
theorem run_fileScript_inTree {c : FileContext} {part : TreeNode → Prop} {registry : Registry}
    (h : c.RestsOn part c.tree) (hregistry : registry.BuiltIn) (preamble : Option String) :
    (fileScript registry).run (c.inTree c.tree ⟨c.indentUnit, preamble⟩) =
      ((fileScript registry).run (c.inTree c.tree ⟨c.indentUnit, none⟩)).map
        (preambleScript preamble ++ ·) := by
  have hdecls (frame : Frame) : FileM.Same c c.tree frame (declsScript registry) :=
    same_declsScript h hregistry
  -- The preamble stands at the very top, and nothing below looks at it.
  have htop (decls : Script) :
      fileTop (c.inTree c.tree ⟨c.indentUnit, preamble⟩) ++ decls =
        preambleScript preamble ++ (fileTop (c.inTree c.tree ⟨c.indentUnit, none⟩) ++ decls) := by
    unfold fileTop FileContext.inTree
    simp only [preambleScript, List.append_assoc, List.nil_append]
  unfold FileM.Same at hdecls
  rw [run_fileScript, run_fileScript, hdecls, hdecls, Outcome.map_map]
  simp only [htop]

namespace RenderJob

variable {job : RenderJob} (hregistry : job.registry.BuiltIn) (file : PlannedFile)
  (preamble : Option String)

include hregistry

theorem firstPass_withPreamble :
    job.firstPass (file.withPreamble preamble) =
      (job.firstPass (file.withPreamble none)).map (preambleScript preamble ++ ·) :=
  run_fileScript_inTree (job.restsOn_all file) hregistry preamble

/-- The preamble has no part in the imports. -/
theorem imports_withPreamble :
    job.imports (file.withPreamble preamble) = job.imports (file.withPreamble none) := by
  unfold imports
  rw [firstPass_withPreamble hregistry]
  rfl

theorem secondPass_withPreamble :
    job.secondPass (file.withPreamble preamble) =
      (job.secondPass (file.withPreamble none)).map (preambleScript preamble ++ ·) := by
  have hall := job.restsOn_all file
  -- Imports that are settled are nothing that the file rests on.
  have hwriting : ({ job.context file with
      imports := some (job.imports (file.withPreamble none)) } : FileContext).RestsOn
      (fun _ => True) job.tree :=
    ⟨⟨hall.closed, hall.alike, hall.tags, hall.module, hall.package, hall.types, hall.funcs⟩,
      hall.bodies⟩
  have hsame := run_fileScript_inTree hwriting hregistry preamble
  unfold secondPass
  rw [imports_withPreamble hregistry]
  exact hsame

omit hregistry in
/-- The script of a file without a preamble begins with the package clause, so that a preamble can
be put above it. -/
theorem text_withPreamble {script : Script}
    (h : (job.secondPass (file.withPreamble none)).result = .ok script) (unit : String) :
    Script.text (preambleScript preamble ++ script) unit =
      preambleText preamble ++ script.text unit := by
  obtain ⟨decls, _, hscript⟩ := yields_fileScript h
  let clause := file.language.dialect.packageClause (job.tree.module file.module)
    (job.tree.package file.package) file.contents.doc
  let imports := importScript file.language (some (job.imports (file.withPreamble none)))
  -- Without a preamble the file begins with its package clause.
  have hclause : script = clause ++ (imports ++ decls) :=
    hscript.trans (List.append_assoc clause imports decls)
  rw [hclause]
  obtain ⟨hbegins, htext⟩ := exists_line_of_packageClause file.language.dialect
    (job.tree.module file.module) (job.tree.package file.package) file.contents.doc
    (imports ++ decls)
  exact Script.text_preambleScript_append preamble hbegins htext unit

theorem writeText_withPreamble :
    job.writeText (file.withPreamble preamble) =
      ((job.writeText (file.withPreamble none)).1.map (preambleText preamble ++ ·),
        (job.writeText (file.withPreamble none)).2) := by
  unfold writeText
  rw [firstPass_withPreamble hregistry, secondPass_withPreamble hregistry]
  rcases hfirst : (job.firstPass (file.withPreamble none)).result with failure | first
  · simp only [Outcome.map, hfirst]
    rfl
  · rcases hsecond : (job.secondPass (file.withPreamble none)).result with failure | script
    · simp only [Outcome.map, hfirst, hsecond]
      rfl
    · have htext := text_withPreamble file preamble hsecond (job.indentUnit file.language)
      simp only [Outcome.map, hfirst, hsecond]
      exact Prod.ext (congrArg Except.ok htext) rfl

/-- **A file under a preamble** comes to the text of the preamble and the text that it comes to
without one, or to the same failure, and it cancels the render just as well. -/
theorem runFile_withPreamble :
    job.runFile false (file.withPreamble preamble) =
      ((job.runFile false (file.withPreamble none)).1.map (preambleText preamble ++ ·),
        (job.runFile false (file.withPreamble none)).2) := by
  have hchecks : Check.declarations job.tree (file.withPreamble preamble).language
        (file.withPreamble preamble).contents.types (file.withPreamble preamble).contents.funcs =
      Check.declarations job.tree (file.withPreamble none).language
        (file.withPreamble none).contents.types (file.withPreamble none).contents.funcs :=
    rfl
  unfold runFile
  rw [if_neg Bool.false_ne_true, if_neg Bool.false_ne_true, hchecks,
    writeText_withPreamble hregistry]
  split
  · rfl
  · rfl

end RenderJob

/-! ### The preambles of a package -/

open Plan

/-- **Preambles are verbatim and add nothing else.** A file of the tree is written under its own
preamble if it has one and else under that of the package, and any other unit of a package under
that of the package. With the built-in expanders, what writing it comes to is what it comes to
without a preamble with `preambleText` in front: the same failure, or the text of the preamble
(nothing if it is blank) and then exactly the text that the unit has without one. -/
theorem RenderJob.preambles_verbatim (job : RenderJob) (hregistry : job.registry.BuiltIn)
    {language : Language} {module : ModuleId} {id : PackageId}
    {doc : Option Check.PackageComment} {file : PlannedFile}
    (hplanned : Planned job.tree language module id doc file) :
    ((∃ source ∈ (job.tree.package id).files,
        file = treeFile job.tree language module id doc source ∧
        file.contents.preamble =
          (job.tree.file source).preamble.orElse fun _ => (job.tree.package id).preamble) ∨
      (((∃ text, file = docFile job.tree language module id text) ∨
          file = funcFile job.tree language module id) ∧
        file.contents.preamble = (job.tree.package id).preamble)) ∧
    (job.runFile false file).1 =
      (job.runFile false (file.withPreamble none)).1.map
        (preambleText file.contents.preamble ++ ·) := by
  have hwritten := congrArg Prod.fst (runFile_withPreamble hregistry file file.contents.preamble)
  -- Which preamble it is depends on what the unit is planned for.
  refine ⟨?_, hwritten⟩
  cases hplanned with
  | doc text => exact .inr ⟨.inl ⟨text, rfl⟩, rfl⟩
  | file source hsource => exact .inl ⟨source, hsource, rfl, rfl⟩
  | funcs => exact .inr ⟨.inr rfl, rfl⟩

/-- A Go file under a preamble of its own, in a package with another. -/
def constrainedTree : DeclTree :=
  let (module, tree) := (DeclTree.empty "demo").addModule "com.acme" "go"
  let (package, tree) := tree.addPackage module "lib" "lib"
  let tree := tree.modifyPackage package fun node => { node with preamble := some "// lib" }
  let (file, tree) := tree.addFile package "store"
  let tree := tree.modifyFile file fun node =>
    { node with preamble := some "//go:build linux\n  \n\n" }
  (tree.addType file .struct "Store").2

/-- One of the two newlines at its end is dropped, and the other leaves the blank line. -/
theorem RenderJob.preambles_verbatim_constrained :
    ((ofTree constrainedTree).runFile false
        (treeFile constrainedTree .go ⟨0⟩ ⟨0⟩ none ⟨0⟩)).1 =
      .ok ("//go:build linux\n  \n\n" ++ "package lib\n\ntype Store struct\x7b\x7d\n") := by
  have hplanned : Planned constrainedTree .go ⟨0⟩ ⟨0⟩ none
      (treeFile constrainedTree .go ⟨0⟩ ⟨0⟩ none ⟨0⟩) :=
    .file ⟨0⟩ (by decide +kernel)
  obtain ⟨_, hwritten⟩ := preambles_verbatim (ofTree constrainedTree) .standard hplanned
  have htext : preambleText (treeFile constrainedTree .go ⟨0⟩ ⟨0⟩ none ⟨0⟩).contents.preamble =
      "//go:build linux\n  \n\n" := by
    decide +kernel
  have hbare : ((ofTree constrainedTree).runFile false
      ((treeFile constrainedTree .go ⟨0⟩ ⟨0⟩ none ⟨0⟩).withPreamble none)).1.toOption.map id =
      some "package lib\n\ntype Store struct\x7b\x7d\n" := by
    decide +kernel
  obtain ⟨text, hok, rfl⟩ := exists_of_toOption_map_eq_some hbare
  rw [hwritten, htext, hok]
  rfl

end DeclPrinter
