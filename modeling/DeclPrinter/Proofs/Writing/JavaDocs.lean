import DeclPrinter.Proofs.Render.Plan
import DeclPrinter.Proofs.Render.Run
import DeclPrinter.Proofs.Tree.Additions
import DeclPrinter.Proofs.Writing.Documentation
import DeclPrinter.Proofs.Writing.JavaComments
import DeclPrinter.Proofs.Writing.Outline

/-!
# The documentation in a Java file

A Java file has a documentation comment for its package and for each of its declarations in it,
in their order, each right above a line of code (`annotates_javaFile`). So what can be said of one
comment (`closesOnce_docBlock_iff`) is said of all documentation in a file: a comment is the
documentation and nothing else exactly if none of the texts that it is made of would close it.
-/

namespace DeclPrinter

open FileM Text

/-! ### Documentation on declarations -/

/-- The documentation on one subject. -/
structure JavaDoc where
  /-- The lines of the comment on it. -/
  lines : List String
  /-- The texts that the lines are made of. -/
  sources : List String

namespace JavaDoc

/-- How documentation is written. -/
def script (doc : JavaDoc) : Script :=
  docComment doc.lines

/-- The documentation on a subject that has nothing documented in it. -/
def on (subject : String) (raw : Option String) : JavaDoc :=
  ⟨Comment.lines subject raw, Comment.sources subject raw⟩

/-- What a parameter adds to the comment on its func: its name and what is said about it. -/
def paramSources (param : Param) : List String :=
  match param.doc with
  | some raw => if (Comment.role raw).isSome then [param.name, raw] else []
  | none => []

/-- The documentation on a func called `subject`, with its parameters and results; results are
told apart by their labels if several are returned. -/
def onFunc (subject : String) (func : Func) (comment : FuncComment) : JavaDoc where
  lines := funcCommentLines comment
  sources := Comment.sources subject func.doc ++ func.params.flatMap paramSources ++
    func.results.filterMap (·.doc) ++ toldApart (comment.results.filter (!·.failure))

end JavaDoc

/-- The documentation on the package, in a file. -/
def packageDoc (c : FileContext) : JavaDoc :=
  .on (c.tree.package c.package).name c.contents.doc

/-- The documentation is that on the declaration, in a file. -/
def JavaDocuments (c : FileContext) (decl : Declaration) (doc : JavaDoc) : Prop :=
  let name := Dialect.java.identifier c.tree decl
  match decl with
  | .type id => doc = .on name (c.tree.type id).doc
  | .field id => doc = .on name (c.tree.field id).doc
  | .func id => ∃ comment, (funcComment (c.tree.func id) name (c.tree.funcPath id)).Yields c
      comment ∧ doc = .onFunc name (c.tree.func id) comment

/-- The script has the documentation on the declarations in it. -/
abbrev JavaAnnotates (c : FileContext) (decls : List Declaration) (script : Script) : Prop :=
  Annotates (JavaDocuments c) JavaDoc.script decls script

variable {c : FileContext} {registry : Registry} {script : Script}

/-! ### Declarations -/

theorem annotates_javaField {id : FieldId} (h : (javaField id).Yields c script) :
    JavaAnnotates c [.field id] script := by
  obtain ⟨type, rfl⟩ := yields_javaField h
  have hdoc : JavaDocuments c (.field id) (.on _ (c.tree.field id).doc) := rfl
  exact .ofDoc hdoc _ []

theorem annotates_javaMethod {kind : MethodForm} {id : FuncId}
    (h : (javaMethod registry kind id).Yields c script) : JavaAnnotates c [.func id] script := by
  obtain ⟨record, comment, returns, params, body, rfl, _, hcomment, hbody⟩ := yields_javaMethod h
  have hdoc : JavaDocuments c (.func id) (.onFunc _ (c.tree.func id) comment) :=
    ⟨comment, hcomment, rfl⟩
  -- The record stands above the comment, and right below it the first line of the method.
  rw [List.append_assoc]
  refine Annotates.after ?_ record
  cases hbody with
  | signature => exact .ofDoc hdoc _ []
  | body inner => exact .ofDoc hdoc _ _

theorem annotates_javaFunc {id : FuncId} (h : (javaFunc registry id).Yields c script) :
    JavaAnnotates c [.func id] script := by
  obtain ⟨_, hmethod⟩ := yields_javaFunc h
  exact annotates_javaMethod hmethod

theorem annotates_javaMembers {type : TypeNode}
    (h : (javaMembers registry type).Yields c script) :
    JavaAnnotates c ((javaFields type).map .field ++ type.methods.map .func) script := by
  obtain ⟨fields, methods, between, hfields, hmethods, _, rfl⟩ := yields_javaMembers h
  have hall := Annotates.flatten (hfields.imp fun _ _ hfield => annotates_javaField hfield)
  have hrest : JavaAnnotates c (type.methods.map .func) (separated methods) := by
    have hparts : List.Forall₂ (JavaAnnotates c) (type.methods.map fun id => [.func id])
        methods := by
      rw [List.forall₂_map_left_iff]
      exact hmethods.imp fun _ _ hmethod => annotates_javaMethod hmethod
    have hseparated := Annotates.separated hparts
    rwa [← List.flatMap_def, ← List.map_eq_flatMap] at hseparated
  rw [← List.map_eq_flatMap] at hall
  exact (hall.before between).append hrest

theorem annotates_javaTypeScript {id : TypeId} (h : (javaTypeScript registry id).Yields c script) :
    JavaAnnotates c (typeDeclarations c.tree id) script := by
  obtain ⟨members, body, rfl, hbody, hmembers⟩ := yields_javaTypeScript h
  have hdoc : JavaDocuments c (.type id) (.on _ (c.tree.type id).doc) := rfl
  rw [typeDeclarations_eq]
  cases hbody with
  | empty =>
    obtain ⟨hfields, hmethods⟩ := hmembers
    rw [hfields, hmethods]
    exact .ofDoc hdoc _ []
  | body inner =>
    -- The comment is above the first line of the class, and the members come after that line.
    have hhead : JavaAnnotates c [.type id] _ := .ofDoc hdoc
      (javaTypeHead (c.tree.type id) (standsAlone c.contents.types c.contents.funcs) ++ " \x7b")
      [.indent]
    have hmembers := (annotates_javaMembers hmembers).before [.dedent, .line "\x7d"]
    have hwhole := hhead.append hmembers
    rw [List.append_assoc] at hwhole
    exact hwhole

/-! ### Files -/

/-- Types and then funcs with blank lines between. -/
theorem annotates_javaSeparated {types : List TypeId} {funcs : List FuncId}
    {typeScripts funcScripts : List Script}
    (htypes : List.Forall₂ (fun id type => (javaTypeScript registry id).Yields c type) types
      typeScripts)
    (hfuncs : List.Forall₂ (fun id func => (javaFunc registry id).Yields c func) funcs
      funcScripts) :
    JavaAnnotates c (types.flatMap (typeDeclarations c.tree) ++ funcs.map .func)
      (separated (typeScripts ++ funcScripts)) := by
  have htypes : List.Forall₂ (JavaAnnotates c) (types.map (typeDeclarations c.tree))
      typeScripts := by
    rw [List.forall₂_map_left_iff]
    exact htypes.imp fun _ _ htype => annotates_javaTypeScript htype
  have hfuncs : List.Forall₂ (JavaAnnotates c) (funcs.map fun id => [.func id]) funcScripts := by
    rw [List.forall₂_map_left_iff]
    exact hfuncs.imp fun _ _ hfunc => annotates_javaFunc hfunc
  have hall := Annotates.separated (List.rel_append htypes hfuncs)
  rwa [List.flatten_append, ← List.flatMap_def, ← List.flatMap_def, ← List.map_eq_flatMap] at hall

theorem annotates_javaScript (h : (javaScript registry).Yields c script) :
    JavaAnnotates c (fileDeclarations c.tree c.contents) script := by
  unfold fileDeclarations
  rcases yields_javaScript h with
    ⟨htypes, hfuncs, rfl⟩ | ⟨id, own, htypes, hfuncs, hown, rfl⟩ | ⟨_, _, hwrapped⟩
  · rw [htypes, hfuncs]
    exact .code []
  · rw [htypes, hfuncs]
    have htype := (annotates_javaTypeScript hown).after [.blank]
    simpa using htype
  · obtain ⟨types, funcs, htypes, hfuncs, _, rfl⟩ := yields_javaWrapped hwrapped
    exact ((annotates_javaSeparated htypes hfuncs).after _).before _

/-- In a derived language there is no class around the declarations. -/
theorem annotates_plainScript {contents : FileContents}
    (h : (Dialect.java.plainScript registry contents).Yields c script) :
    JavaAnnotates c (fileDeclarations c.tree contents) script := by
  obtain ⟨types, funcs, htypes, hfuncs, rfl⟩ := yields_plainScript h
  have hall := htypes.annotates fun _ _ htype => annotates_javaTypeScript htype
  have hrest := hfuncs.annotates fun _ _ hfunc => annotates_javaFunc hfunc
  rw [← List.map_eq_flatMap] at hrest
  exact hall.append hrest

/-- **A Java file has the documentation of all its declarations in it,** below that of the
package. -/
theorem annotates_javaFile (hjava : c.language.dialect = .java)
    (h : (fileScript registry).Yields c script) :
    ∃ docs, List.Forall₂ (JavaDocuments c) (fileDeclarations c.tree c.contents) docs ∧
      Interleaves ((packageDoc c :: docs).map JavaDoc.script) script := by
  obtain ⟨decls, hdecls, rfl⟩ := yields_fileScript h
  have hbelow : JavaAnnotates c (fileDeclarations c.tree c.contents) decls := by
    cases hderived : c.language.derived with
    | false => exact annotates_javaScript (yields_declsScript_of_java hjava hderived hdecls)
    | true =>
      have hplain := yields_declsScript_of_derived hderived hdecls
      rw [hjava] at hplain
      exact annotates_plainScript hplain
  obtain ⟨docs, hdocs, hinterleaves⟩ := hbelow
  -- The comment on the package stands above the package clause.
  have hclause : Interleaves [(packageDoc c).script] (Dialect.java.packageClause
      (c.tree.module c.module) (c.tree.package c.package) c.contents.doc) :=
    .comment _ _ .nil
  have htop := ((Interleaves.ofCode (preambleScript c.contents.preamble)).append hclause).append
    (Interleaves.ofCode (importScript c.language c.imports))
  have hall := htop.append hinterleaves
  refine ⟨docs, hdocs, ?_⟩
  rw [fileTop, hjava]
  exact hall

/-! ### What comments are made of -/

theorem hasClosing_paramDocs_iff (params : List Param) :
    (∃ param ∈ paramDocs params, HasClosing param.1 ∨ HasClosing param.2) ↔
      ∃ source ∈ params.flatMap JavaDoc.paramSources, HasClosing source := by
  -- For one parameter: without a text there is no line, and with one the mark is in it or in the
  -- name.
  have hparam (param : Param) :
      (∃ documented ∈ ((param.doc.bind Comment.role).map (param.name, ·)).toList,
        HasClosing documented.1 ∨ HasClosing documented.2) ↔
          ∃ source ∈ JavaDoc.paramSources param, HasClosing source := by
    unfold JavaDoc.paramSources
    rcases param.doc with _ | said
    · simp
    · have hsaid := hasClosing_role_iff said
      rcases hrole : Comment.role said with _ | text
      · simp [hrole]
      · rw [hrole] at hsaid
        simp [hrole, ← hsaid]
  rw [paramDocs, List.filterMap_eq_flatMap_toList]
  induction params with
  | nil => simp
  | cons param rest ih =>
    simp only [List.flatMap_cons, List.mem_append, or_and_right, exists_or, hparam, ih]

theorem yields_resultComment {place : TreePath} {result : Param} {found : Option ResultComment}
    (h : (resultComment? place result).Yields c found) :
    found.map (·.text) = result.doc.bind Comment.role := by
  unfold resultComment? at h
  split at h
  · rename_i hnone
    rw [hnone, ← yields_pure.mp h]
    rfl
  · rename_i text hsome
    dsimp only at h
    rw [hsome]
    split at h
    · obtain ⟨label, _, h⟩ := yields_bind.mp h
      rw [← yields_pure.mp h]
      rfl
    · obtain ⟨label, _, h⟩ := yields_bind.mp h
      rw [← yields_pure.mp h]
      rfl

/-- What is said about results holds the mark if their documentation does. -/
theorem hasClosing_results_iff {place : TreePath} {results : List Param}
    {found : List (Option ResultComment)}
    (h : List.Forall₂ (fun result found => (resultComment? place result).Yields c found) results
      found) :
    (∃ result ∈ found.filterMap id, HasClosing result.text) ↔
      ∃ said ∈ results.filterMap (·.doc), HasClosing said := by
  rw [List.filterMap_eq_flatMap_toList, List.filterMap_eq_flatMap_toList]
  induction h with
  | nil => simp
  | @cons result comment results found hfirst _ ih =>
    have htext := yields_resultComment hfirst
    -- A result without documentation has no comment.
    have hresult : (∃ own ∈ comment.toList, HasClosing own.text) ↔
        ∃ said ∈ result.doc.toList, HasClosing said := by
      rcases hdoc : result.doc with _ | said
      · rw [hdoc, Option.bind_none, Option.map_eq_none_iff] at htext
        simp [htext]
      · have hsaid := hasClosing_role_iff said
        rw [hdoc, Option.bind_some] at htext
        rw [← htext] at hsaid
        simpa using hsaid
    simp only [List.flatMap_cons, List.mem_append, or_and_right, exists_or, id, hresult]
    exact or_congr_right ih

/-- **A comment is made of its sources:** it holds the mark if one of them does. -/
theorem hasClosing_sources_iff {decl : Declaration} {doc : JavaDoc}
    (h : JavaDocuments c decl doc) :
    (∃ line ∈ doc.lines, HasClosing line) ↔ ∃ source ∈ doc.sources, HasClosing source := by
  cases decl with
  | type =>
    subst h
    exact hasClosing_comment_iff
  | field =>
    subst h
    exact hasClosing_comment_iff
  | func func =>
    -- The comment of a func is its own text, and a line for each parameter and each result.
    obtain ⟨comment, hcomment, rfl⟩ := h
    unfold funcComment at hcomment
    obtain ⟨found, hfound, hcomment⟩ := yields_bind.mp hcomment
    obtain rfl := yields_pure.mp hcomment
    have hresults := hasClosing_results_iff (yields_mapM.mp hfound)
    unfold JavaDoc.onFunc
    dsimp only
    rw [hasClosing_funcCommentLines_iff, hasClosing_comment_iff, hasClosing_paramDocs_iff, hresults]
    simp only [List.mem_append, or_and_right, exists_or, or_assoc]

/-! ### Documentation in the text of a file -/

/-- **A comment stands in the text of the file** as it is written, whatever follows it. -/
theorem exists_docBlock {comments : List Script} (h : Interleaves comments script)
    {lines : List String} (hne : lines ≠ []) (hmem : docComment lines ∈ comments) (unit : String) :
    ∃ level above below, script.text unit = above ++ docBlock unit level lines ++ below := by
  obtain ⟨before, above, hwritten⟩ := h.exists_lines hmem
  let start := LineBuffer.empty.run before
  obtain ⟨written, last, hrun, _⟩ := exists_written hne start.level
  have hlines := hwritten _ (hrun start rfl)
  rw [List.reverse_concat, List.cons_append] at hlines
  refine ⟨start.level, String.join (start.lines.reverse.map (Line.render unit)),
    String.join ((above.dropWhile Line.isBlank).reverse.map (Line.render unit)), ?_⟩
  rw [docBlock_eq hrun, Script.text, LineBuffer.finish,
    LineBuffer.finished_eq hlines (isBlank_append_closing start.level last)]
  simp [start, String.append_assoc]

namespace RenderJob

/-- **Documentation in Java files.** A Java file has the documentation on its package and on all
its declarations in it, in order, each right above a line of code. A comment ends at the end of
what is written for it, and not before, if none of the texts that it is made of holds the mark
that closes a comment, and then only. -/
theorem java_documentation (job : RenderJob) (file : PlannedFile) (text : String)
    (hjava : file.language.dialect = .java)
    (hunit : '*' ∉ (job.indentUnit file.language).toList)
    (h : (job.writeText file).1 = .ok text) :
    let c := job.writingContext file
    let unit := job.indentUnit file.language
    ∃ script docs, text = script.text unit ∧
      List.Forall₂ (JavaDocuments c) (fileDeclarations job.tree file.contents) docs ∧
      Interleaves ((packageDoc c :: docs).map JavaDoc.script) script ∧
      ∀ doc ∈ packageDoc c :: docs, doc.lines ≠ [] →
        ∃ level above below, text = above ++ docBlock unit level doc.lines ++ below ∧
          (ClosesOnce (docBlock unit level doc.lines) ↔
            ∀ source ∈ doc.sources, ¬ HasClosing source) := by
  intro c unit
  obtain ⟨script, hscript, htext⟩ := exists_script_of_writeText h
  obtain ⟨docs, hdocs, hinterleaves⟩ := annotates_javaFile hjava hscript
  refine ⟨script, docs, htext, hdocs, hinterleaves, fun doc hdoc hne => ?_⟩
  -- Comments are made of their sources, that on the package as well as those on declarations.
  have hmark : (∃ line ∈ doc.lines, HasClosing line) ↔ ∃ source ∈ doc.sources,
      HasClosing source := by
    rcases List.mem_cons.mp hdoc with rfl | hdoc
    · exact hasClosing_comment_iff
    · obtain ⟨decl, _, hdecl⟩ := exists_of_mem_of_forall₂ hdocs doc hdoc
      exact hasClosing_sources_iff hdecl
  obtain ⟨level, above, below, hblock⟩ :=
    exists_docBlock hinterleaves hne (List.mem_map_of_mem hdoc) unit
  refine ⟨level, above, below, htext.trans hblock, ?_⟩
  rw [closesOnce_docBlock_iff hunit level hne]
  simpa using not_congr hmark

/-- A Java type `Store` with a method `open`, whose parameter is documented. -/
def ofDocumented (typeDoc paramDoc : Option String) (options : Settings) : RenderJob where
  tree :=
    let tree := DeclTree.ofMembers "java" "Store" [] [] [] []
    let tree := tree.modifyType ⟨0⟩ fun type => { type with doc := typeDoc }
    let path : Param := ⟨"path", .simple ⟨"string"⟩, paramDoc, []⟩
    (tree.addMethod ⟨0⟩ ⟨"open", .exported, none, [path], [], .empty, none⟩).2
  registry := .standard
  resolver := ReferenceTable.standard.lookup
  options := options

/-- A type with a comment of two lines, and a method with one on its parameter. -/
theorem java_documentation_store :
    let job := ofDocumented (some "...keeps rows.\nOnce.") (some "where to look") .standard
    let file := Plan.treeFile job.tree .java ⟨0⟩ ⟨0⟩ none ⟨0⟩
    let c := job.writingContext file
    let text := "package com.acme.lib;\n\n/**\n * Store keeps rows.\n * Once.\n */\n" ++
      "public class Store \x7b\n    /** @param path where to look */\n" ++
      "    public void open(String path) \x7b\n    \x7d\n\x7d\n"
    '*' ∉ (job.indentUnit file.language).toList ∧ (job.writeText file).1 = .ok text ∧
      ∃ script docs, text = script.text "    " ∧
        List.Forall₂ (JavaDocuments c) [.type ⟨0⟩, .func ⟨0⟩] docs ∧
        Interleaves ((packageDoc c :: docs).map JavaDoc.script) script ∧
        ∀ doc ∈ packageDoc c :: docs, doc.lines ≠ [] →
          ∃ level above below, text = above ++ docBlock "    " level doc.lines ++ below ∧
            (ClosesOnce (docBlock "    " level doc.lines) ↔
              ∀ source ∈ doc.sources, ¬ HasClosing source) := by
  intro job file c text
  have hunit : '*' ∉ (job.indentUnit file.language).toList := by decide +kernel
  have htext : (job.writeText file).1 = .ok text := by decide +kernel
  have hdecls : fileDeclarations job.tree file.contents = [.type ⟨0⟩, .func ⟨0⟩] := by
    decide +kernel
  have hdocs := java_documentation job file text rfl hunit htext
  dsimp only at hdocs
  rw [hdecls] at hdocs
  exact ⟨hunit, htext, hdocs⟩

/-- **What is said may close the comment.** The first of two marks is the end of the comment on
`Store`, and what follows is read as code. With marks for indentation no comment stays whole. -/
theorem java_documentation_leaks :
    ((ofDocumented (some "Closes */ early.") none .standard).render.toOption.map fun rendering =>
        rendering.artifact.leaves.map (·.2.content)) =
      some ["package com.acme.lib;\n\n" ++ docBlock "    " 0 ["Closes */ early."] ++
        "public class Store \x7b\n    public void open(String path) \x7b\n    \x7d\n\x7d\n"] ∧
    ¬ ClosesOnce (docBlock "    " 0 ["Closes */ early."]) ∧
    ¬ ClosesOnce (docBlock "*/" 1 ["@param path where to look"]) := by
  refine ⟨by decide +kernel, ?_, fun hcloses => ?_⟩
  · rw [closesOnce_docBlock_iff (by decide) 0 (by simp)]
    decide
  · have hblock : (docBlock "*/" 1 ["@param path where to look"]).toList =
        [] ++ closing ++ "/** @param path where to look */\n".toList := by decide +kernel
    have hrest := hcloses.only [] _ hblock
    exact absurd hrest (by decide +kernel)

end RenderJob

end DeclPrinter
