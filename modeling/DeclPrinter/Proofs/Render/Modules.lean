import DeclPrinter.Proofs.Render.Leaves
import DeclPrinter.Proofs.Render.Surroundings
import DeclPrinter.Proofs.Tree.Outside

/-!
# Modules do not influence each other

What is below a module is a closed part of the tree, and all that its files rest on. So when a
tree grows elsewhere the module plans the files that it planned before, each comes to what it came
to before, and its leaves stay where they are (`RenderJob.render_outside`).
-/

namespace DeclPrinter

/-! ### Planned files -/

namespace Plan

open Check (PackageComment)

variable {tree other : DeclTree} {part : TreeNode → Prop} {language : Language}
  {module : ModuleId} {id : PackageId} {doc : Option PackageComment} {file : PlannedFile}

theorem sourceName_inTree (h : DeclTree.AlikeWithin part tree other) {contents : FileContents}
    (htypes : ∀ id ∈ contents.types, part (.type id)) :
    language.sourceName other contents = language.sourceName tree contents := by
  unfold Language.sourceName Dialect.sourceName Dialect.fileStem
  cases language.dialect with
  | go => rfl
  | java =>
    dsimp only
    split
    · rename_i type htype _
      rw [h.type (htypes type (htype ▸ List.mem_singleton_self type))]
    · rfl

theorem inPackage_inTree (h : DeclTree.AlikeWithin part tree other)
    (hmodule : part (.module module)) (hid : part (.package id)) (leaf : String) (path : TreePath)
    (contents : FileContents) :
    inPackage other language module id leaf path contents =
      inPackage tree language module id leaf path contents := by
  unfold inPackage
  rw [h.module hmodule, h.package hid]

section

variable (h : DeclTree.AlikeWithin part tree other) (hclosed : tree.Closed part)
  (hmodule : part (.module module)) (hid : part (.package id))

include h hclosed hmodule hid

theorem docFile_inTree (text : String) :
    docFile other language module id text = docFile tree language module id text := by
  unfold docFile
  rw [inPackage_inTree h hmodule hid, h.packagePath hclosed hid, h.package hid]

theorem treeFile_inTree {source : FileId} (hsource : source ∈ (tree.package id).files) :
    treeFile other language module id doc source = treeFile tree language module id doc source := by
  have hpart := hclosed.file_of_package hid hsource
  have hcontents : fileContents other language (other.package id) doc source =
      fileContents tree language (tree.package id) doc source := by
    unfold fileContents
    rw [h.file hpart, h.package hid]
  unfold treeFile
  rw [hcontents]
  dsimp only
  rw [inPackage_inTree h hmodule hid, h.filePath hclosed hpart,
    sourceName_inTree h fun _ htype => hclosed.type_of_file hpart htype]

theorem funcFile_inTree :
    funcFile other language module id = funcFile tree language module id := by
  unfold funcFile
  rw [h.package hid]
  dsimp only
  rw [inPackage_inTree h hmodule hid, h.packagePath hclosed hid,
    sourceName_inTree h fun _ htype => absurd htype List.not_mem_nil]

/-- **A package of the part plans the same files** in both trees. -/
theorem planned_inTree :
    Planned other language module id doc file ↔ Planned tree language module id doc file := by
  -- Each kind of unit is planned from nodes of the part, which are the same in both trees.
  constructor
  · intro hfile
    cases hfile with
    | doc text htext =>
      rw [docFile_inTree h hclosed hmodule hid]
      exact .doc text htext
    | file source hsource =>
      rw [h.package hid] at hsource
      rw [treeFile_inTree h hclosed hmodule hid hsource]
      exact .file source hsource
    | funcs hfuncs =>
      rw [h.package hid] at hfuncs
      rw [funcFile_inTree h hclosed hmodule hid]
      exact .funcs hfuncs
  · intro hfile
    cases hfile with
    | doc text htext =>
      rw [← docFile_inTree h hclosed hmodule hid]
      exact .doc text htext
    | file source hsource =>
      rw [← treeFile_inTree h hclosed hmodule hid hsource]
      exact .file source (by rwa [h.package hid])
    | funcs hfuncs =>
      rw [← funcFile_inTree h hclosed hmodule hid]
      exact .funcs (by rwa [h.package hid])

end

/-- What a planned file holds is in every closed part that its package is in. -/
theorem Planned.part_of_contents (hclosed : tree.Closed part) (hid : part (.package id))
    (h : Planned tree language module id doc file) :
    (∀ type ∈ file.contents.types, part (.type type)) ∧
      ∀ func ∈ file.contents.funcs, part (.func func) := by
  cases h with
  | doc text htext =>
    exact ⟨fun _ htype => absurd htype List.not_mem_nil,
      fun _ hfunc => absurd hfunc List.not_mem_nil⟩
  | file source hsource =>
    have hfile := hclosed.file_of_package hid hsource
    exact ⟨fun _ => hclosed.type_of_file hfile, fun _ => hclosed.func_of_file hfile⟩
  | funcs hfuncs =>
    exact ⟨fun _ htype => absurd htype List.not_mem_nil, fun _ => hclosed.func_of_package hid⟩

/-- **The files of a module** are planned alike for two trees that have in common what is below
it. -/
theorem mem_project_inTree {registry : Registry} {cancelled : Bool} {plan larger : List PlannedFile}
    (h : DeclTree.SameWithin (tree.within module) tree other)
    (hclosed : tree.Closed (tree.within module)) (hmodule : module ∈ tree.project.modules)
    (hother : module ∈ other.project.modules)
    (hplan : Plan.project tree registry cancelled = .ok plan)
    (hlarger : Plan.project other registry cancelled = .ok larger) (hhome : file.module = module) :
    file ∈ larger ↔ file ∈ plan := by
  have hown : tree.within module (.module module) := .refl
  have hnode : other.module module = tree.module module := h.module hown
  rw [mem_project_iff hlarger, mem_project_iff hplan]
  constructor
  · rintro ⟨_, _, language, hlanguage, id, hid, doc, hdoc, hplanned⟩
    obtain rfl := hplanned.home.2.1.symm.trans hhome
    rw [hnode] at hlanguage hid
    -- The package passes its checks in the first tree too, so it has the same documentation there.
    obtain ⟨own, hlang, docTree, hdocTree⟩ := exists_of_project_eq_ok hplan hmodule hid
    obtain rfl : own = language := Option.some.inj (hlang.symm.trans hlanguage)
    have hpart := hclosed.package_of_module hown hid
    obtain rfl := Check.doc_inTree h.alike hclosed hpart hdocTree hdoc
    exact ⟨_, hmodule, own, hlanguage, id, hid, doc, hdocTree,
      (planned_inTree h.alike hclosed hown hpart).mp hplanned⟩
  · rintro ⟨_, _, language, hlanguage, id, hid, doc, hdoc, hplanned⟩
    obtain rfl := hplanned.home.2.1.symm.trans hhome
    have hpart := hclosed.package_of_module hown hid
    rw [← hnode] at hlanguage hid
    obtain ⟨own, hlang, docOther, hdocOther⟩ := exists_of_project_eq_ok hlarger hother hid
    obtain rfl : own = language := Option.some.inj (hlang.symm.trans hlanguage)
    obtain rfl := Check.doc_inTree h.alike hclosed hpart hdoc hdocOther
    exact ⟨_, hother, own, hlanguage, id, hid, docOther, hdocOther,
      (planned_inTree h.alike hclosed hown hpart).mpr hplanned⟩

end Plan

namespace RenderJob

open FileResult

variable {job : RenderJob} {module : ModuleId} {file : PlannedFile} {plan : List PlannedFile}
  {additions : List Addition}

/-- What a planned file rests on is below its module. -/
theorem restsOn_within {other : DeclTree} (hclosed : job.tree.Closed (job.tree.within module))
    (h : DeclTree.SameWithin (job.tree.within module) job.tree other)
    (hplan : Plan.project job.tree job.registry job.options.cancelled = .ok plan)
    (hfile : file ∈ plan) (hhome : file.module = module) :
    (job.context file).RestsOn (job.tree.within module) other := by
  obtain ⟨own, _, _, _, id, hid, _, _, hplanned⟩ := (Plan.mem_project_iff hplan file).mp hfile
  obtain ⟨_, hmodule, rfl⟩ := hplanned.home
  obtain rfl : own = module := hmodule.symm.trans hhome
  have hown : job.tree.within own (.module file.module) := hmodule ▸ .refl
  -- Module, package and declarations: each is listed by one that is below the module.
  have hpart := hclosed.package_of_module hown (hmodule ▸ hid)
  obtain ⟨htypes, hfuncs⟩ := hplanned.part_of_contents hclosed hpart
  have htags (type : TypeId) (htype : type ∈ file.contents.types) (field : FieldId)
      (hfield : field ∈ (job.tree.type type).fields) : other.field field = job.tree.field field :=
    h.field (hclosed.field_of_type (htypes type htype) hfield)
  exact ⟨⟨hclosed, h.alike, fun _ type htype field hfield =>
    congrArg Field.markers (htags type htype field hfield), hown, hpart, htypes, hfuncs⟩,
    fun hid => congrArg Func.body (h.func hid)⟩

/-- The render of the tree with additions. -/
def growing (job : RenderJob) (additions : List Addition) : RenderJob :=
  { job with tree := job.tree.addAll additions }

/-- **A file of the module comes to the same** when additions go elsewhere. -/
theorem entry_growing (hregistry : job.registry.BuiltIn) (htree : job.tree.Arranged)
    (hmodule : module ∈ job.tree.project.modules)
    (houtside : DeclTree.AllOutside module job.tree additions)
    (hplan : Plan.project job.tree job.registry job.options.cancelled = .ok plan)
    (hfile : file ∈ plan) (hhome : file.module = module) :
    (job.growing additions).entry file = job.entry file := by
  have hsame := DeclTree.sameWithin_addAll htree hmodule houtside
  exact entry_inTree (restsOn_within (htree.closed_within module) hsame hplan hfile hhome) hregistry

/-- **Modules do not influence each other.** Take a tree that grew by additions, and further
additions none of which is to a certain module; among these may be new modules, and nodes of the
names that others have. If the tree before and the tree after are both rendered, with built-in
expanders and the same resolver and options, then every leaf that the first artifact has for a file
of the module is in the second, in the same place, of the same media type and with the same text. -/
theorem render_outside (job : RenderJob) (hregistry : job.registry.BuiltIn)
    (htree : job.tree.Raised) {module : ModuleId} (hmodule : module ∈ job.tree.project.modules)
    {additions : List Addition} (houtside : DeclTree.AllOutside module job.tree additions)
    {rendering larger : Rendering} (h : job.render = .ok rendering)
    (hlarger : (job.growing additions).render = .ok larger) :
    ∃ plan, Plan.project job.tree job.registry job.options.cancelled = .ok plan ∧
      rendering.artifact.root.located.Perm
        (((plan.map job.entry).filterMap written?).map leafPlace) ∧
      ∀ written ∈ (plan.map job.entry).filterMap written?, written.1.module = module →
        rendering.artifact.HasLeaf (leafPlace written) ∧
          larger.artifact.HasLeaf (leafPlace written) := by
  obtain ⟨plan, hplan, hholds⟩ := exists_plan_of_render h
  obtain ⟨planLarger, hplanLarger, hholdsLarger⟩ := exists_plan_of_render hlarger
  refine ⟨plan, hplan, hholds.located_perm, ?_⟩
  rintro ⟨file, text⟩ hwritten hhome
  refine ⟨hholds.hasLeaf hwritten, hholdsLarger.hasLeaf ?_⟩
  -- The file is planned in the larger tree as well, and comes to the same text there.
  obtain ⟨hfile, htext⟩ := mem_written_iff.mp hwritten
  have harranged := htree.arranged
  have hsame := DeclTree.sameWithin_addAll harranged hmodule houtside
  have hother := DeclTree.mem_modules_addAll hmodule additions
  have hplanned : file ∈ planLarger :=
    (Plan.mem_project_inTree hsame (harranged.closed_within module) hmodule hother hplan
      hplanLarger hhome).mpr hfile
  have hentry := entry_growing hregistry harranged hmodule houtside hplan hfile hhome
  exact mem_written_iff.mpr ⟨hplanned, hentry ▸ htext⟩

/-- A Go module with one type and a func that makes it. -/
def namesakes (module : ModuleId) (package : PackageId) (file : FileId) (path : String) :
    List Addition :=
  let results : List Param := [⟨"", .simple ⟨"Shape"⟩, none, []⟩]
  [.module path "go", .package module "lib" "lib", .file package "shape",
    .type file .struct "Shape",
    .func file ⟨"Make", .exported, none, [], results, ⟨none, none, [], none⟩, none⟩]

/-- A second module has the names of the first all over again. -/
theorem render_outside_namesakes :
    let job := ofTree ((DeclTree.empty "demo").addAll (namesakes ⟨0⟩ ⟨0⟩ ⟨0⟩ "first"))
    ∃ rendering larger, job.render = .ok rendering ∧
      (job.growing (namesakes ⟨1⟩ ⟨1⟩ ⟨1⟩ "second")).render = .ok larger ∧
      ∃ leaf, rendering.artifact.HasLeaf (["first", "lib", "shape.go"], leaf) ∧
        larger.artifact.HasLeaf (["first", "lib", "shape.go"], leaf) := by
  intro job
  have hok : job.render.isOk = true := by decide +kernel
  have hokLarger : (job.growing (namesakes ⟨1⟩ ⟨1⟩ ⟨1⟩ "second")).render.isOk = true := by
    decide +kernel
  have htree : job.tree.Raised := (DeclTree.Raised.empty "demo").addAll _
  have houtside : DeclTree.AllOutside ⟨0⟩ job.tree (namesakes ⟨1⟩ ⟨1⟩ ⟨1⟩ "second") := by
    refine ⟨?_, ?_, ?_, ?_, ?_, trivial⟩ <;> decide +kernel
  have hplaces : (Plan.project job.tree job.registry job.options.cancelled).toOption.map
      (fun plan => ((plan.map job.entry).filterMap written?).map fun written =>
        (written.1.module, (leafPlace written).1)) =
      some [(⟨0⟩, ["first", "lib", "shape.go"])] := by decide +kernel
  obtain ⟨rendering, hrender⟩ := exists_of_isOk hok
  obtain ⟨larger, hlarger⟩ := exists_of_isOk hokLarger
  refine ⟨rendering, larger, hrender, hlarger, ?_⟩
  obtain ⟨plan, hplan, _, hleaves⟩ :=
    render_outside job .standard htree (by decide +kernel) houtside hrender hlarger
  rw [hplan] at hplaces
  obtain ⟨written, hwritten, heq⟩ := List.map_eq_singleton_iff.mp (Option.some.inj hplaces)
  obtain ⟨hhome, hchain⟩ := Prod.mk.inj heq
  -- The only unit of the module has a text, and its leaf is in both.
  have hmem : written ∈ (plan.map job.entry).filterMap written? := by
    rw [hwritten]
    exact List.mem_singleton_self written
  refine ⟨(leafPlace written).2, ?_⟩
  rw [← hchain]
  exact hleaves written hmem hhome

end RenderJob

end DeclPrinter
