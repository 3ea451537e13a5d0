import DeclPrinter.Proofs.Columns
import DeclPrinter.Proofs.Render.Plan
import DeclPrinter.Proofs.Render.Run
import DeclPrinter.Proofs.Writing.Documentation
import DeclPrinter.Proofs.Writing.GoComments
import DeclPrinter.Proofs.Writing.GoForm
import Mathlib.Data.List.SplitBy

/-!
# The documentation in a Go file

A Go file is code with the documentation of its declarations in it: a comment for the package,
for each type, field, func and method, in the order of the declarations (`goSubjects`), each
right above a line of code (`Interleaves`). None is left out: a field that is documented starts
a group of aligned lines, and the comment stands above the group.

What can be said of one comment (`writesComments_goComment_iff`) is thus said of all
documentation in a file.
-/

namespace DeclPrinter

open FileM

/-! ### What is documented -/

/-- What a Go file has documentation on. -/
inductive GoSubject where
  /-- The package. -/
  | package
  /-- A type. -/
  | type (id : TypeId)
  /-- A field of a struct. -/
  | field (id : FieldId)
  /-- A func, or a method of a struct or an interface. -/
  | func (id : FuncId)
  deriving DecidableEq, Repr

/-- The documentation on one subject. -/
structure GoDoc where
  /-- The lines of the comment on it. -/
  lines : List String
  /-- The lines on its parameters and results. -/
  roles : List String

/-- How documentation is written. -/
def GoDoc.script (doc : GoDoc) : Script :=
  goComment doc.lines ++ goComment doc.roles

theorem GoDoc.script_of_lines (lines : List String) :
    (GoDoc.mk lines []).script = goComment lines :=
  List.append_nil _

/-- The documentation is that on the subject, in a file. -/
def Documents (c : FileContext) : GoSubject → GoDoc → Prop
  | .package, doc =>
    doc = ⟨Comment.lines ("Package " ++ (c.tree.package c.package).name) c.contents.doc, []⟩
  | .type id, doc =>
    let type := c.tree.type id
    doc = ⟨Comment.lines (goName type.name type.visibility) type.doc, []⟩
  | .field id, doc =>
    let field := c.tree.field id
    doc = ⟨Comment.lines (goName field.name field.visibility) field.doc, []⟩
  | .func id, doc =>
    let func := c.tree.func id
    ∃ comment, (funcComment func (goName func.name func.visibility) (c.tree.funcPath id)).Yields
      c comment ∧ doc = ⟨comment.summary, goRoleLines comment⟩

/-- A type with its members, in order. -/
def typeSubjects (tree : DeclTree) (id : TypeId) : List GoSubject :=
  let type := tree.type id
  .type id :: match type.kind with
    | .struct => type.fields.map .field ++ type.methods.map .func
    | .interface => type.methods.map .func

/-- What the documentation in a file is on, in order. -/
def goSubjects (tree : DeclTree) (contents : FileContents) : List GoSubject :=
  .package :: contents.types.flatMap (typeSubjects tree) ++ contents.funcs.map .func

/-- The script has the documentation on the subjects in it. -/
abbrev GoAnnotates (c : FileContext) (subjects : List GoSubject) (script : Script) : Prop :=
  Annotates (Documents c) GoDoc.script subjects script

variable {c : FileContext} {registry : Registry}

/-! ### Fields -/

/-- Rows stand each under its own comment. -/
theorem interleaves_fieldLines {rows : List FieldRow} {lines : List String}
    (hlength : lines.length = rows.length) :
    Interleaves (rows.map fun row => goComment row.doc)
      (List.zipWith fieldLine rows lines).flatten := by
  induction rows generalizing lines with
  | nil => exact .nil
  | cons row rest ih =>
    obtain ⟨line, others, rfl⟩ := List.exists_cons_of_length_eq_add_one hlength
    rw [List.map_cons, List.zipWith_cons_cons, List.flatten_cons, fieldLine, List.append_assoc]
    exact .comment (goComment row.doc) line (ih (Nat.succ.inj hlength))

theorem interleaves_goFieldGroup {group : List FieldRow} (hne : group ≠ [])
    (h : group.IsChain fun _ next => next.doc.isEmpty = true) :
    Interleaves (group.map fun row => goComment row.doc) (goFieldGroup group) := by
  obtain ⟨first, rest, rfl⟩ := List.exists_cons_of_ne_nil hne
  -- In a group only the first row is documented.
  have hnone (_ next : FieldRow) (hnext : next.doc.isEmpty = true) : next.doc = [] :=
    List.isEmpty_iff.mp hnext
  have hrest : ∀ row ∈ rest, row.doc = [] := forall_mem_tail_of_isChain hnone h
  rw [goFieldGroup_eq hrest]
  apply interleaves_fieldLines
  rw [Columns.length_layOut, List.length_map]

/-- **No documentation of a field is left out.** -/
theorem interleaves_goFieldRows (rows : List FieldRow) :
    Interleaves (rows.map fun row => goComment row.doc) (goFieldRows rows) := by
  -- A field with documentation starts a group, so the groups have all comments between them.
  have hrows := List.flatten_splitBy (fun _ next : FieldRow => next.doc.isEmpty) rows
  have hcomments : (rows.map fun row => goComment row.doc) =
      (rows.splitBy fun _ next => next.doc.isEmpty).flatMap
        fun group => group.map fun row => goComment row.doc := by
    conv_lhs => rw [← hrows]
    rw [List.map_flatten]
    rfl
  rw [hcomments]
  refine Interleaves.flatMap fun group hgroup => ?_
  exact interleaves_goFieldGroup (List.ne_nil_of_mem_splitBy hgroup)
    (List.isChain_of_mem_splitBy hgroup)

theorem doc_of_goFieldRow {id : FieldId} {row : FieldRow} (h : (goFieldRow id).Yields c row) :
    Documents c (.field id) ⟨row.doc, []⟩ := by
  rw [(yields_goFieldRow h).1]
  rfl

theorem annotates_goFieldRows {ids : List FieldId} {rows : List FieldRow}
    (h : List.Forall₂ (fun id row => (goFieldRow id).Yields c row) ids rows) :
    GoAnnotates c (ids.map .field) (goFieldRows rows) := by
  have hscripts : (rows.map fun row => GoDoc.mk row.doc []).map GoDoc.script =
      rows.map fun row => goComment row.doc := by
    rw [List.map_map]
    exact List.map_congr_left fun row _ => GoDoc.script_of_lines row.doc
  refine ⟨rows.map fun row => ⟨row.doc, []⟩, ?_, ?_⟩
  · rw [List.forall₂_map_left_iff, List.forall₂_map_right_iff]
    exact h.imp fun _ _ hrow => doc_of_goFieldRow hrow
  · rw [hscripts]
    exact interleaves_goFieldRows rows

/-! ### Declarations -/

theorem annotates_goFunc {id : FuncId} {script : Script}
    (h : (goFunc registry id).Yields c script) : GoAnnotates c [.func id] script := by
  obtain ⟨_, doc, _, _, _, hdoc, _, _, rfl⟩ := yields_goFunc h
  have hdocuments : Documents c (.func id) ⟨doc.summary, goRoleLines doc⟩ := ⟨doc, hdoc, rfl⟩
  -- Right below the comment is the line of the signature.
  exact Annotates.ofDoc hdocuments _ _

/-- Funcs after blank lines. -/
theorem annotates_goFuncs {funcs : List FuncId} {scripts : List Script}
    (h : Spaced c (goFunc registry) funcs scripts) :
    GoAnnotates c (funcs.map .func) scripts.flatten := by
  rw [List.map_eq_flatMap]
  exact h.annotates fun _ _ hfunc => annotates_goFunc hfunc

theorem annotates_goInterfaceMethod {id : FuncId} {script : Script}
    (h : (goInterfaceMethod id).Yields c script) : GoAnnotates c [.func id] script := by
  obtain ⟨doc, _, hdoc, rfl⟩ := yields_goInterfaceMethod h
  have hdocuments : Documents c (.func id) ⟨doc.summary, goRoleLines doc⟩ := ⟨doc, hdoc, rfl⟩
  exact Annotates.ofDoc hdocuments _ _

/-- A struct is a line of code with its documented fields below it. -/
theorem annotates_goStruct {type : TypeNode} {name : String} {script : Script}
    (h : (goStruct type name).Yields c script) :
    ∃ text rest, script = .line text :: rest ∧ GoAnnotates c (type.fields.map .field) rest := by
  rcases yields_goStruct h with ⟨hnone, rfl⟩ | ⟨rows, hrows, rfl⟩
  · rw [hnone]
    exact ⟨_, [], rfl, .code []⟩
  · exact ⟨_, _, rfl, ((annotates_goFieldRows hrows).before _).after [.indent]⟩

/-- An interface is a line of code with its documented methods below it. -/
theorem annotates_goInterface {type : TypeNode} {name : String} {script : Script}
    (h : (goInterface type name).Yields c script) :
    ∃ text rest, script = .line text :: rest ∧ GoAnnotates c (type.methods.map .func) rest := by
  rcases yields_goInterface h with ⟨hnone, rfl⟩ | ⟨methods, hmethods, rfl⟩
  · rw [hnone]
    exact ⟨_, [], rfl, .code []⟩
  · have hall := Annotates.flatten
      (hmethods.imp fun _ _ hmethod => annotates_goInterfaceMethod hmethod)
    rw [← List.map_eq_flatMap] at hall
    exact ⟨_, _, rfl, (hall.before _).after [.indent]⟩

/-- A type is documented, and so are its members. -/
theorem annotates_goTypeScript {id : TypeId} {script : Script}
    (h : (goTypeScript registry id).Yields c script) :
    GoAnnotates c (typeSubjects c.tree id) script := by
  obtain ⟨declaration, methods, rfl, hdeclaration⟩ := yields_goTypeScript h
  -- The comment on the type stands above its first line.
  have htype (text : String) : GoAnnotates c [.type id]
      (goComment (Comment.lines (goName (c.tree.type id).name (c.tree.type id).visibility)
        (c.tree.type id).doc) ++ [.line text]) := by
    have hdoc : Documents c (.type id) ⟨_, []⟩ := rfl
    rw [← GoDoc.script_of_lines]
    exact Annotates.ofDoc hdoc text []
  rcases hkind : (c.tree.type id).kind with _ | _
  · rw [hkind] at hdeclaration
    have hsubjects : typeSubjects c.tree id = .type id ::
        ((c.tree.type id).fields.map .field ++ (c.tree.type id).methods.map .func) := by
      rw [typeSubjects, hkind]
    obtain ⟨text, rest, rfl, hfields⟩ := annotates_goStruct hdeclaration.1
    have hwhole := ((htype text).append hfields).append (annotates_goFuncs hdeclaration.2)
    rw [hsubjects]
    simpa using hwhole
  · rw [hkind] at hdeclaration
    have hsubjects : typeSubjects c.tree id = .type id :: (c.tree.type id).methods.map .func := by
      rw [typeSubjects, hkind]
    obtain ⟨hinterface, rfl⟩ := hdeclaration
    obtain ⟨text, rest, rfl, hmethods⟩ := annotates_goInterface hinterface
    have hwhole := (htype text).append hmethods
    rw [hsubjects]
    simpa using hwhole

/-! ### Files -/

theorem annotates_goScript {contents : FileContents} {script : Script}
    (h : (Dialect.go.plainScript registry contents).Yields c script) :
    GoAnnotates c (contents.types.flatMap (typeSubjects c.tree) ++ contents.funcs.map .func)
      script := by
  obtain ⟨types, funcs, htypes, hfuncs, rfl⟩ := yields_goScript h
  have hall := htypes.annotates fun _ _ htype => annotates_goTypeScript htype
  exact hall.append (annotates_goFuncs hfuncs)

/-- **A Go file has the documentation of all its declarations in it.** -/
theorem annotates_fileScript {script : Script} (hgo : c.language.dialect = .go)
    (h : (fileScript registry).Yields c script) :
    GoAnnotates c (goSubjects c.tree c.contents) script := by
  obtain ⟨decls, hdecls, rfl⟩ := yields_fileScript h
  have hplain := yields_declsScript_of_go hgo hdecls
  have hclause : GoAnnotates c [.package]
      (Dialect.go.packageClause (c.tree.module c.module) (c.tree.package c.package)
        c.contents.doc) := by
    unfold Dialect.packageClause goPackageClause
    have hdoc : Documents c .package ⟨_, []⟩ := rfl
    rw [← GoDoc.script_of_lines]
    exact Annotates.ofDoc hdoc _ []
  rw [fileTop, hgo]
  exact ((hclause.after _).before _).append (annotates_goScript hplain)

/-! ### Where comments stay comments -/

/-- Of the documentation in a file all is written as comments, but for what is said about
parameters and results: that is exactly if newlines in it start comments by themselves. -/
theorem writesComments_iff_of_documents {subject : GoSubject} {doc : GoDoc}
    (h : Documents c subject doc) :
    WritesComments doc.script ↔ ∀ line ∈ doc.roles, StaysComment line := by
  -- Documentation itself is cut into lines first, so it is never the reason.
  have hlines : ∀ line ∈ doc.lines, StaysComment line := by
    intro line hline
    cases subject with
    | package =>
      subst h
      exact staysComment_of_mem_commentLines hline
    | type id =>
      subst h
      exact staysComment_of_mem_commentLines hline
    | field id =>
      subst h
      exact staysComment_of_mem_commentLines hline
    | func id =>
      obtain ⟨comment, hcomment, rfl⟩ := h
      unfold funcComment at hcomment
      obtain ⟨results, _, hsummary⟩ := yields_bind.mp hcomment
      have heq := yields_pure.mp hsummary
      subst heq
      exact staysComment_of_mem_commentLines hline
  have hscript : doc.script = goComment (doc.lines ++ doc.roles) := by
    rw [GoDoc.script, goComment, goComment, goComment, List.map_append]
  rw [hscript, writesComments_goComment_iff]
  constructor
  · intro hall line hline
    exact hall line (List.mem_append_right _ hline)
  · intro hroles line hline
    rcases List.mem_append.mp hline with hown | hrole
    · exact hlines line hown
    · exact hroles line hrole

/-- The documented results of a func: each has a comment, and goes by its name or by its type as
it is spelled. -/
theorem of_resultComment {place : TreePath} {result : Param} {comment : ResultComment}
    (h : (resultComment? place result).Yields c (some comment)) :
    (∃ raw, result.doc = some raw ∧ Comment.role raw = some comment.text) ∧
      (comment.label = result.name ∨
        (spellType result.type place).Yields c comment.label) := by
  unfold resultComment? at h
  split at h
  · cases yields_pure.mp h
  · rename_i text htext
    have hdoc := Option.bind_eq_some_iff.mp htext
    dsimp only at h
    split at h
    · -- A result without a name goes by its type.
      obtain ⟨label, hlabel, hcomment⟩ := yields_bind.mp h
      have heq := Option.some.inj (yields_pure.mp hcomment)
      subst heq
      exact ⟨hdoc, Or.inr hlabel⟩
    · obtain ⟨label, hlabel, hcomment⟩ := yields_bind.mp h
      have heq := Option.some.inj (yields_pure.mp hcomment)
      subst heq
      exact ⟨hdoc, Or.inl (yields_pure.mp hlabel).symm⟩

/-- **Where no newline is said about parameters and results,** comments stay comments. -/
theorem staysComment_of_newline_not_mem_func {id : FuncId} {doc : GoDoc}
    (h : Documents c (.func id) doc)
    (hnames : ∀ param ∈ (c.tree.func id).params ++ (c.tree.func id).results,
      '\n' ∉ param.name.toList)
    (hdocs : ∀ param ∈ (c.tree.func id).params ++ (c.tree.func id).results, ∀ raw,
      param.doc = some raw → '\n' ∉ raw.toList)
    (htypes : ∀ result ∈ (c.tree.func id).results, ∀ label,
      (spellType result.type (c.tree.funcPath id)).Yields c label → '\n' ∉ label.toList) :
    ∀ line ∈ doc.roles, StaysComment line := by
  obtain ⟨comment, hcomment, rfl⟩ := h
  unfold funcComment at hcomment
  obtain ⟨results, hresults, hsummary⟩ := yields_bind.mp hcomment
  have heq := yields_pure.mp hsummary
  subst heq
  intro line hline
  rcases List.mem_append.mp hline with hparams | hresult
  · -- A line about a parameter, made of its name and what is said about it.
    obtain ⟨documented, hmem, rfl⟩ := List.mem_map.mp hparams
    obtain ⟨param, hparam, hdoc⟩ := List.mem_filterMap.mp hmem
    obtain ⟨text, htext, rfl⟩ := Option.map_eq_some_iff.mp hdoc
    obtain ⟨raw, hraw, hrole⟩ := Option.bind_eq_some_iff.mp htext
    have hmem := List.mem_append_left (c.tree.func id).results hparam
    refine staysComment_goRoleLine (by decide) (hnames param hmem) fun hnewline => ?_
    exact hdocs param hmem raw hraw (mem_of_mem_role hrole hnewline)
  · -- A line about a result, made of its name or type and what is said about it.
    obtain ⟨documented, hmem, rfl⟩ := List.mem_map.mp hresult
    obtain ⟨found, hfound, hsome⟩ := List.mem_filterMap.mp hmem
    have heq : found = some documented := hsome
    subst heq
    obtain ⟨result, hresult, hyields⟩ := exists_of_mem_of_forall₂ (yields_mapM.mp hresults) _ hfound
    obtain ⟨⟨raw, hraw, hrole⟩, hlabel⟩ := of_resultComment hyields
    have hmem := List.mem_append_right (c.tree.func id).params hresult
    refine staysComment_goRoleLine (by decide) ?_ fun hnewline => ?_
    · rcases hlabel with hname | htype
      · rw [hname]
        exact hnames result hmem
      · exact htypes result hresult _ htype
    · exact hdocs result hmem raw hraw (mem_of_mem_role hrole hnewline)

namespace RenderJob

/-- **Documentation in Go files.** A Go file has the documentation on its package and on all its
declarations in it, in order, each right above a line of code. Whatever it says, it is written
as comments: all of it, if newlines in what is said about a parameter or a result start comments
by themselves, and then only. -/
theorem go_documentation (job : RenderJob) (file : PlannedFile) (text : String)
    (hgo : file.language.dialect = .go) (h : (job.writeText file).1 = .ok text) :
    ∃ script docs, text = script.text (job.indentUnit file.language) ∧
      List.Forall₂ (Documents (job.writingContext file)) (goSubjects job.tree file.contents)
        docs ∧
      Interleaves (docs.map GoDoc.script) script ∧
      ∀ doc ∈ docs, WritesComments doc.script ↔ ∀ line ∈ doc.roles, StaysComment line := by
  obtain ⟨script, hscript, htext⟩ := exists_script_of_writeText h
  obtain ⟨docs, hdocs, hinterleaves⟩ := annotates_fileScript hgo hscript
  refine ⟨script, docs, htext, hdocs, hinterleaves, fun doc hdoc => ?_⟩
  obtain ⟨subject, _, hdocuments⟩ := exists_of_mem_of_forall₂ hdocs doc hdoc
  exact writesComments_iff_of_documents hdocuments

/-- A Go package `lib` with one func in one file. -/
def ofFunc (func : Func) : RenderJob where
  tree :=
    let (module, tree) := (DeclTree.empty "demo").addModule "example.com/app" "go"
    let (package, tree) := tree.addPackage module "lib" "lib"
    let (file, tree) := tree.addFile package "util"
    (tree.addFunc file func).2
  registry := .standard
  resolver := ReferenceTable.standard.lookup
  options := .standard

/-- A func `Open` with a documented parameter. -/
def openFunc (doc : Option String) (role : String) : Func where
  name := "Open"
  visibility := .exported
  receiver := none
  params := [⟨"path", .simple ⟨"string"⟩, some role, []⟩]
  results := []
  body := .empty
  doc := doc

/-- A func with a comment of two lines, and one line on its parameter. -/
theorem go_documentation_open :
    let job := ofFunc (openFunc (some "...reads.\nOnce.") "...where")
    let file := Plan.treeFile job.tree .go ⟨0⟩ ⟨0⟩ none ⟨0⟩
    let text := "package lib\n\n// Open reads.\n// Once.\n// parameter `path` where\n" ++
      "func Open(path string) \x7b\n\x7d\n"
    (job.writeText file).1 = .ok text ∧
      ∃ script docs, text = script.text (job.indentUnit file.language) ∧
        List.Forall₂ (Documents (job.writingContext file)) [.package, .func ⟨0⟩] docs ∧
        Interleaves (docs.map GoDoc.script) script ∧
        ∀ doc ∈ docs, WritesComments doc.script ↔ ∀ line ∈ doc.roles, StaysComment line := by
  intro job file text
  have htext : (job.writeText file).1 = .ok text := by decide +kernel
  have hsubjects : goSubjects job.tree file.contents = [.package, .func ⟨0⟩] := by decide +kernel
  have hdocs := go_documentation job file text rfl htext
  rw [hsubjects] at hdocs
  exact ⟨htext, hdocs⟩

/-- **What is said about a parameter may end up in the code.** Of its two lines only the first is
a comment. -/
theorem go_documentation_leaks :
    let func := openFunc none "...where to look\nos.Exit(1)"
    (ofFunc func).render.toOption.map (fun rendering =>
        rendering.artifact.leaves.map fun leaf => leaf.2.content) =
      some ["package lib\n\n// parameter `path` where to look\nos.Exit(1)\n" ++
        "func Open(path string) \x7b\n\x7d\n"] ∧
    ¬ WritesComments (goFuncComment ⟨[], paramDocs func.params, []⟩) := by
  intro func
  refine ⟨by decide +kernel, ?_⟩
  have hroles : paramDocs func.params = [("path", "where to look\nos.Exit(1)")] := by decide +kernel
  intro hcomments
  rw [hroles, goFuncComment_eq] at hcomments
  have hstays := writesComments_goComment_iff.mp hcomments
  -- The second line of the comment starts like code.
  have hline := hstays (goRoleLine "parameter" "path" "where to look\nos.Exit(1)")
    List.mem_cons_self "os.Exit(1)" (by decide +kernel)
  rcases hline with hblank | hmark
  · exact absurd hblank (by decide +kernel)
  · exact absurd hmark (by decide +kernel)

end RenderJob

end DeclPrinter
