import DeclPrinter.Proofs.Check.Bodies
import DeclPrinter.Proofs.Idiom.BuiltIn
import DeclPrinter.Proofs.Render.Leaves
import DeclPrinter.Proofs.Writing.Bodies

/-!
# Failures need a channel

An attempt passes a failure on and a failure leaves the func with one, so both need a func whose
last result is the failure channel. The built-in expanders ask for it (`canFail_of_expand`), and
every idiom of a body comes to its expander. So a func without the channel that holds such an
idiom anywhere has no place in a rendering (`failure_channel_of_render`).
-/

namespace DeclPrinter

open FileM

variable {c : FileContext} {registry : Registry}

/-! ### Expanders -/

/-- What first asks for the channel yields nothing without it. -/
theorem canFail_of_ensured {α : Type} {scope : IdiomScope} {kind : IdiomKind}
    {rest : Unit → FileM α} {value : α} (h : (scope.ensureCanFail kind >>= rest).Yields c value) :
    scope.func.canFail = true := by
  obtain ⟨_, hensured, _⟩ := yields_bind.mp h
  unfold IdiomScope.ensureCanFail at hensured
  split at hensured
  · assumption
  · exact absurd hensured not_yields_fail

/-- **The expanders for failures ask for the channel,** in both dialects. -/
theorem canFail_of_expand {dialect : Dialect} {expander : Expander}
    (hexpander : expander ∈ dialect.expanders) (hkind : expander.kind ≠ .terminator)
    {idiom : Idiom} {scope : IdiomScope} {statements : List Statement}
    (h : (expander.expand idiom scope).Yields c statements) : scope.func.canFail = true := by
  -- An expander for one kind of failure fails on idioms of any other.
  cases dialect with
  | go =>
    simp only [Dialect.expanders, goExpanders, List.mem_cons, List.not_mem_nil,
      or_false] at hexpander
    rcases hexpander with rfl | rfl | rfl
    · exact absurd rfl hkind
    · cases idiom with
      | attempt operands => exact canFail_of_ensured h
      | _ => exact absurd h not_yields_fail
    · cases idiom with
      | fail message => exact canFail_of_ensured h
      | _ => exact absurd h not_yields_fail
  | java =>
    simp only [Dialect.expanders, javaExpanders, List.mem_cons, List.not_mem_nil,
      or_false] at hexpander
    rcases hexpander with rfl | rfl | rfl
    · exact absurd rfl hkind
    · cases idiom with
      | attempt operands => exact canFail_of_ensured h
      | _ => exact absurd h not_yields_fail
    · cases idiom with
      | fail message => exact canFail_of_ensured h
      | _ => exact absurd h not_yields_fail

/-! ### Bodies -/

variable {script : Script} {idiom : Idiom}

theorem canFail_of_idiomScript (hregistry : registry.BuiltIn) {scope : BodyScope}
    {remaining : Nat} {block : Block} {place : TreePath} (hkind : idiom.kind ≠ .terminator)
    (h : (idiomScript registry scope remaining block place idiom).Yields c script) :
    scope.func.canFail = true := by
  rcases hexpander : registry.expander? scope.language.tag idiom.kind with _ | expander
  · rw [idiomScript_of_none hexpander] at h
    exact absurd h not_yields_fail
  · obtain ⟨dialect, hdialect⟩ := hregistry.of_expander? hexpander
    have hown : expander.kind ≠ .terminator := by
      rw [Registry.kind_of_expander? hexpander]
      exact hkind
    cases remaining with
    | zero =>
      rw [idiomScript_zero hexpander] at h
      exact absurd h not_yields_fail
    | succ remaining =>
      rw [idiomScript_succ hexpander] at h
      obtain ⟨statements, hstatements, _⟩ := yields_bind.mp h
      exact canFail_of_expand hdialect hown hstatements

/-- The func holds an attempt or a failure somewhere in its body. -/
def Func.NeedsChannel (func : Func) : Prop :=
  ∃ idiom, func.body.Invokes idiom ∧ idiom.kind ≠ .terminator

/-- **A body with a failure in it** is written only for a func that has the channel. -/
theorem canFail_of_bodyScript (hregistry : registry.BuiltIn) {func : Func} {place : TreePath}
    (hchained : func.body.chained = none) (hneeds : func.NeedsChannel)
    (h : (bodyScript registry func place).Yields c script) : func.canFail = true := by
  obtain ⟨idiom, hidiom, hkind⟩ := hneeds
  unfold bodyScript at h
  obtain ⟨statements, hstatements, _⟩ := yields_bind.mp (yields_context_bind.mp h)
  -- The whole body is written, so each idiom in it is.
  have hwritten : func.body.Written (idiomScript registry ⟨c.language, func⟩ expansionLimit)
      ⟨c.language, func⟩ place c := by
    refine ⟨⟨statements, hstatements⟩, [], ?_⟩
    rw [hchained, clausesScript]
    exact yields_pure.mpr rfl
  obtain ⟨_, _, _, hown⟩ := hidiom.written hwritten
  exact canFail_of_idiomScript hregistry hkind hown

/-! ### Renders -/

/-- The package declares the func: as one of its own or of its files, or as a method of one of
its types. -/
def DeclTree.DeclaresFunc (tree : DeclTree) (package : PackageId) (id : FuncId) : Prop :=
  id ∈ tree.funcsIn package ∨ ∃ type ∈ tree.typesIn package, id ∈ (tree.type type).methods

/-- A func that a package declares stands in a planned file: that of the file it is declared in,
or that of the package's own funcs. -/
theorem Plan.exists_file_of_declaresFunc {tree : DeclTree} {cancelled : Bool}
    {plan : List PlannedFile} (hplan : Plan.project tree registry cancelled = .ok plan)
    {module : ModuleId} (hmodule : module ∈ tree.project.modules) {package : PackageId}
    (hpackage : package ∈ (tree.module module).packages) {id : FuncId}
    (hid : tree.DeclaresFunc package id) :
    ∃ file ∈ plan, file.module = module ∧ file.package = package ∧
      .func id ∈ fileDeclarations tree file.contents := by
  obtain ⟨language, hlanguage, doc, hdoc⟩ := Plan.exists_of_project_eq_ok hplan hmodule hpackage
  have hplanned {file : PlannedFile}
      (hfile : Plan.Planned tree language module package doc file) : file ∈ plan :=
    (Plan.mem_project_iff hplan file).mpr
      ⟨module, hmodule, language, hlanguage, package, hpackage, doc, hdoc, hfile⟩
  simp only [func_mem_fileDeclarations]
  rcases hid with hid | ⟨type, htype, hid⟩
  · -- A func of a file, or one of the package itself.
    rcases List.mem_append.mp hid with hid | hid
    · obtain ⟨source, hsource, hid⟩ := List.mem_flatMap.mp hid
      exact ⟨_, hplanned (.file source hsource), rfl, rfl, .inl hid⟩
    · exact ⟨_, hplanned (.funcs (List.ne_nil_of_mem hid)), rfl, rfl, .inl hid⟩
  · -- A method, which stands in the file of its type.
    obtain ⟨source, hsource, htype⟩ := List.mem_flatMap.mp htype
    exact ⟨_, hplanned (.file source hsource), rfl, rfl, .inr ⟨type, htype, hid⟩⟩

/-- What has a body in a planned file is declared in the package of the file. -/
theorem Plan.Planned.declaresFunc {tree : DeclTree} {language : Language} {module : ModuleId}
    {package : PackageId} {doc : Option Check.PackageComment} {file : PlannedFile}
    (h : Planned tree language module package doc file) {id : FuncId}
    (hid : file.contents.HasBody tree id) : tree.DeclaresFunc package id := by
  cases h with
  | doc =>
    rcases hid with hid | ⟨_, htype, _⟩
    · cases hid
    · cases htype
  | file source hsource =>
    rcases hid with hid | ⟨type, htype, _, hid⟩
    · exact .inl (List.mem_append_left _ (List.mem_flatMap_of_mem hsource hid))
    · exact .inr ⟨type, List.mem_flatMap_of_mem hsource htype, hid⟩
  | funcs =>
    rcases hid with hid | ⟨_, htype, _⟩
    · exact .inl (List.mem_append_right _ hid)
    · cases htype

namespace RenderJob

open FileResult

variable {job : RenderJob} {file : PlannedFile}

/-- **In a file with a text** every func with a failure in it has the channel. -/
theorem canFail_of_entry (hregistry : job.registry.BuiltIn) {text : String}
    (h : (job.entry file).2 = .ok text) {id : FuncId}
    (hid : .func id ∈ fileDeclarations job.tree file.contents)
    (hneeds : (job.tree.func id).NeedsChannel) : (job.tree.func id).canFail = true := by
  obtain ⟨hchecked, htext⟩ := of_entry_eq_ok h
  obtain ⟨script, hscript, _⟩ := exists_script_of_writeText htext
  have hid := func_mem_fileDeclarations.mp hid
  obtain ⟨_, hchained, hinterface⟩ := Check.body_of_declarations_ok hchecked hid
  have hbody : file.contents.HasBody job.tree id := by
    rcases hid with hid | ⟨type, htype, hmethod⟩
    · exact .inl hid
    · rcases hform : (job.tree.type type).kind with _ | _
      · exact .inr ⟨type, htype, hform, hmethod⟩
      · -- A method of an interface has no statements, so there is no idiom in it.
        obtain ⟨idiom, hidiom, _⟩ := hneeds
        have hnone := hinterface type htype hform hmethod
        cases hidiom <;> simp_all
  obtain ⟨body, hbody, _⟩ := exists_body_of_fileScript hscript hbody
  exact canFail_of_bodyScript hregistry hchained hneeds hbody

/-- Where a func stands that needs the channel and does not have it, there is no leaf. -/
theorem reported_of_render (hregistry : job.registry.BuiltIn) {module : ModuleId}
    (hmodule : module ∈ job.tree.project.modules) {package : PackageId}
    (hpackage : package ∈ (job.tree.module module).packages) {id : FuncId}
    (hdeclares : job.tree.DeclaresFunc package id) (hneeds : (job.tree.func id).NeedsChannel)
    (hcannot : (job.tree.func id).canFail = false) {rendering : Rendering}
    (h : job.render = .ok rendering) :
    ∃ plan, Plan.project job.tree job.registry job.options.cancelled = .ok plan ∧
      rendering.artifact.root.located.Perm
        (((plan.map job.entry).filterMap written?).map leafPlace) ∧
      rendering.diagnostics = (plan.map job.entry).filterMap failure? ∧
      (∃ file ∈ plan, file.module = module ∧ file.package = package ∧
        .func id ∈ fileDeclarations job.tree file.contents) ∧
      ∀ file ∈ plan, .func id ∈ fileDeclarations job.tree file.contents →
        (∃ failure, (job.entry file).2 = .error failure ∧ failure ∈ rendering.diagnostics) ∧
        ∀ text, (file, text) ∉ (plan.map job.entry).filterMap written? := by
  obtain ⟨plan, hplan, hholds⟩ := exists_plan_of_render h
  refine ⟨plan, hplan, hholds.located_perm, hholds.diagnostics_eq,
    Plan.exists_file_of_declaresFunc hplan hmodule hpackage hdeclares, ?_⟩
  intro file hfile hid
  rcases hresult : (job.entry file).2 with failure | text
  · have hmem : failure ∈ rendering.diagnostics := by
      rw [hholds.diagnostics_eq]
      exact mem_failures_iff.mpr ⟨file, hfile, hresult⟩
    refine ⟨⟨failure, rfl, hmem⟩, ?_⟩
    intro text hwritten
    rw [(mem_written_iff.mp hwritten).2] at hresult
    cases hresult
  · -- A file with a text has no such func.
    have hcan := canFail_of_entry hregistry hresult hid hneeds
    rw [hcannot] at hcan
    cases hcan

/-- **Failures need a channel.** Take a project that is rendered with the built-in expanders. In
every file of the rendering, a func that holds an attempt or a failure, however deep in its body,
has the failure channel as its last result.

So if a package declares a func that does not, a render of the project fails unless it is in
diagnostic mode; and if that gives a rendering, the func stands in a planned file, and each file
where it stands is among the diagnostics and has no leaf. -/
theorem failure_channel_of_render (job : RenderJob) (hregistry : job.registry.BuiltIn) :
    (∀ rendering, job.render = .ok rendering →
      ∃ plan, Plan.project job.tree job.registry job.options.cancelled = .ok plan ∧
        rendering.artifact.root.located.Perm
          (((plan.map job.entry).filterMap written?).map leafPlace) ∧
        ∀ written ∈ (plan.map job.entry).filterMap written?, ∀ id,
          .func id ∈ fileDeclarations job.tree written.1.contents →
          (job.tree.func id).NeedsChannel → (job.tree.func id).canFail = true) ∧
    ∀ module ∈ job.tree.project.modules, ∀ package ∈ (job.tree.module module).packages,
      ∀ id, job.tree.DeclaresFunc package id → (job.tree.func id).NeedsChannel →
        (job.tree.func id).canFail = false →
      (job.options.diagnosticMode = false → ∃ failure, job.render = .error failure) ∧
      ∀ rendering, job.render = .ok rendering →
        ∃ plan, Plan.project job.tree job.registry job.options.cancelled = .ok plan ∧
          rendering.artifact.root.located.Perm
            (((plan.map job.entry).filterMap written?).map leafPlace) ∧
          rendering.diagnostics = (plan.map job.entry).filterMap failure? ∧
          (∃ file ∈ plan, file.module = module ∧ file.package = package ∧
            .func id ∈ fileDeclarations job.tree file.contents) ∧
          ∀ file ∈ plan, .func id ∈ fileDeclarations job.tree file.contents →
            (∃ failure, (job.entry file).2 = .error failure ∧
              failure ∈ rendering.diagnostics) ∧
            ∀ text, (file, text) ∉ (plan.map job.entry).filterMap written? := by
  constructor
  · intro rendering hrender
    obtain ⟨plan, hplan, hholds⟩ := exists_plan_of_render hrender
    refine ⟨plan, hplan, hholds.located_perm, ?_⟩
    rintro ⟨file, text⟩ hwritten id hid hneeds
    exact canFail_of_entry hregistry (mem_written_iff.mp hwritten).2 hid hneeds
  · intro module hmodule package hpackage id hdeclares hneeds hcannot
    have hreported {rendering : Rendering} (hrender : job.render = .ok rendering) :=
      reported_of_render hregistry hmodule hpackage hdeclares hneeds hcannot hrender
    refine ⟨?_, fun rendering hrender => hreported hrender⟩
    intro hmode
    rcases hrender : job.render with failure | rendering
    · exact ⟨failure, rfl⟩
    · -- A rendering in this mode has no diagnostics, and here there is one.
      obtain ⟨_, _, _, _, ⟨file, hfile, _, _, hid⟩, hfiles⟩ := hreported hrender
      obtain ⟨⟨failure, _, hmem⟩, _⟩ := hfiles file hfile hid
      rw [diagnostics_of_render hmode hrender] at hmem
      cases hmem

/-- A module in the language with a func in a file of its own, which has these results and fails
in a clause that is chained to a nested block. -/
def ofFailing (language : String) (results : List Param) : DeclTree :=
  let (module, tree) := (DeclTree.empty "demo").addModule "com.acme" language
  let (package, tree) := tree.addPackage module "lib" "lib"
  let (file, tree) := tree.addFile package "load"
  let failing := Block.headed (.ofText "else") [.invoke (.fail "no store")]
  let body : Block := ⟨none, none, [.block ((Block.headed (.ofText "if (ok)") []).chain failing)],
    none⟩
  (tree.addFunc file ⟨"Load", .exported, none, [], results, body, none⟩).2

theorem failure_channel_of_render_nested :
    let job := ofTree (ofFailing "java" [])
    (∃ failure, job.render = .error failure) ∧
      ∃ rendering, (job.inMode true).render = .ok rendering ∧ rendering.diagnostics ≠ [] := by
  intro job
  -- The idiom is in a clause that is chained to a nested block.
  have hneeds : (job.tree.func ⟨0⟩).NeedsChannel := by
    refine ⟨.fail "no store", .nested List.mem_cons_self (.chained rfl (.here ?_)), by decide⟩
    exact List.mem_cons_self
  have hdeclares : job.tree.DeclaresFunc ⟨0⟩ ⟨0⟩ := .inl (by decide +kernel)
  have hmodule : (⟨0⟩ : ModuleId) ∈ job.tree.project.modules := by decide +kernel
  have hpackage : (⟨0⟩ : PackageId) ∈ (job.tree.module ⟨0⟩).packages := by decide +kernel
  have hcannot : (job.tree.func ⟨0⟩).canFail = false := by decide +kernel
  obtain ⟨_, hfunc⟩ := failure_channel_of_render job .standard
  obtain ⟨hfails, _⟩ := hfunc ⟨0⟩ hmodule ⟨0⟩ hpackage ⟨0⟩ hdeclares hneeds hcannot
  refine ⟨hfails rfl, ?_⟩
  -- In diagnostic mode the file is reported.
  have hok : (job.inMode true).render.isOk = true := by decide +kernel
  obtain ⟨rendering, hrender⟩ := exists_of_isOk hok
  obtain ⟨_, hfunc⟩ := failure_channel_of_render (job.inMode true) .standard
  obtain ⟨_, hreported⟩ := hfunc ⟨0⟩ hmodule ⟨0⟩ hpackage ⟨0⟩ hdeclares hneeds hcannot
  obtain ⟨_, _, _, _, ⟨file, hfile, _, _, hid⟩, hfiles⟩ := hreported rendering hrender
  obtain ⟨⟨failure, _, hmem⟩, _⟩ := hfiles file hfile hid
  exact ⟨rendering, hrender, List.ne_nil_of_mem hmem⟩

end RenderJob

end DeclPrinter
