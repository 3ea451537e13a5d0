import DeclPrinter.Proofs.Check.Failing
import DeclPrinter.Proofs.Render.FailureChannel
import DeclPrinter.Proofs.Tree.Ownership
import DeclPrinter.Proofs.Writing.FailingFile

/-!
# Where renders fail

A render fails at a node of the tree or at a place inside a func, unless two files get into each
other's way and one of them was added for the documentation or the funcs of a package: then it
fails at the path of that file, which is no node (`RenderJob.failures_located`). What is reported of
a file is inside its declarations.
-/

namespace DeclPrinter

variable {tree : DeclTree} {registry : Registry} {places : TreePath → Prop}

/-! ### Paths of nodes -/

namespace DeclTree

/-- The path is that of a node of the project, or of a place inside the node. -/
def AtNode (tree : DeclTree) (path : TreePath) : Prop :=
  ∃ node, tree.inProject node ∧ path.IsInside (tree.path node)

/-- The path of a node goes on from that of the node that it records. -/
theorem exists_path_of_home? {node home : TreeNode} (h : tree.home? node = some home) :
    ∃ kind name, tree.path node = (tree.path home).below kind name := by
  cases node with
  | project => cases h
  | module id => cases h
  | package id => exact Option.some.inj h ▸ ⟨_, _, rfl⟩
  | file id => exact Option.some.inj h ▸ ⟨_, _, rfl⟩
  | type id => exact Option.some.inj h ▸ ⟨_, _, rfl⟩
  | field id => exact Option.some.inj h ▸ ⟨_, _, rfl⟩
  | func id =>
    obtain rfl := Option.some.inj h
    unfold path funcPath
    dsimp only
    cases tree.funcHome id <;> exact ⟨_, _, rfl⟩

/-- The path of what a node lists goes on from that of the node. -/
theorem Arranged.steps_prefix (h : tree.Arranged) {parent child : TreeNode}
    (hchild : child ∈ tree.children parent) :
    (tree.path parent).steps <+: (tree.path child).steps := by
  rcases h.home?_of_mem_children hchild with hhome | rfl
  · obtain ⟨kind, name, hpath⟩ := exists_path_of_home? hhome
    rw [hpath]
    exact List.prefix_append ..
  · obtain ⟨id, _, rfl⟩ := List.mem_map.mp hchild
    exact List.prefix_append ..

/-- What a node lists fails below the node. -/
theorem Arranged.coversFile (h : tree.Arranged) {owner : TreeNode} (howner : tree.inProject owner)
    {types : List TypeId} {funcs : List FuncId}
    (htypes : ∀ id ∈ types, .type id ∈ tree.children owner)
    (hfuncs : ∀ id ∈ funcs, .func id ∈ tree.children owner) :
    CoversFile (fun path => tree.AtNode path ∧ (tree.path owner).steps <+: path.steps) tree types
      funcs := by
  -- A node below the owner, and whatever is inside it, is below the owner.
  have hcovers {node : TreeNode} (hnode : tree.inProject node)
      (hbelow : (tree.path owner).steps <+: (tree.path node).steps) :
      Covers (fun path => tree.AtNode path ∧ (tree.path owner).steps <+: path.steps)
        (tree.path node) :=
    fun path hpath => ⟨⟨node, hnode, hpath⟩, hbelow.trans hpath.steps_prefix⟩
  refine ⟨fun id hid => ?_, fun id hid => ?_⟩
  · have htype : tree.inProject (.type id) := howner.tail (htypes id hid)
    have hbelow := h.steps_prefix (htypes id hid)
    have hmember {member : TreeNode} (hmember : member ∈ tree.children (.type id)) :=
      hcovers (htype.tail hmember) (hbelow.trans (h.steps_prefix hmember))
    refine ⟨hcovers htype hbelow, fun field hfield => ?_, fun method hmethod => ?_⟩
    · exact hmember (List.mem_append_left _ (List.mem_map_of_mem hfield))
    · exact hmember (List.mem_append_right _ (List.mem_map_of_mem hmethod))
  · exact hcovers (howner.tail (hfuncs id hid)) (h.steps_prefix (hfuncs id hid))

end DeclTree

/-! ### Planning -/

namespace Plan

variable {language : Language} {cancelled : Bool} {module : ModuleId} {id : PackageId}
  {plan : List PlannedFile}

theorem failsIn_unlessCancelled (cancelled : Bool) :
    FailsIn places (unlessCancelled cancelled) := by
  cases cancelled with
  | false => exact .ok ()
  | true => exact .cancelled

section

variable (h : ∀ node, tree.inProject node → places (tree.path node))

include h

theorem failsIn_package (hid : tree.inProject (.package id)) :
    FailsIn places (package tree language cancelled module id) := by
  have hfile {file : FileId} (hfile : file ∈ (tree.package id).files) :
      tree.inProject (.file file) :=
    hid.tail (List.mem_append_left _ (List.mem_map_of_mem hfile))
  refine (failsIn_unlessCancelled cancelled).bind fun _ _ => ?_
  refine FailsIn.bind ?_ fun _ _ => ?_
  · refine Check.failsIn_package (h _ hid) (fun file hmem => h _ (hfile hmem)) fun type htype => ?_
    obtain ⟨file, hmem, htype⟩ := List.mem_flatMap.mp htype
    exact h (.type type) ((hfile hmem).tail (List.mem_append_left _ (List.mem_map_of_mem htype)))
  · refine FailsIn.bind (.mapM fun file _ => ?_) fun _ _ => .ok _
    exact (failsIn_unlessCancelled cancelled).bind fun _ _ => .ok _

theorem failsIn_module (hmodule : tree.inProject (.module module)) :
    FailsIn places (Plan.module tree registry cancelled module) := by
  have hpackage {package : PackageId} (hpackage : package ∈ (tree.module module).packages) :
      tree.inProject (.package package) :=
    hmodule.tail (List.mem_map_of_mem hpackage)
  unfold Plan.module
  dsimp only
  -- A language that is not registered is the fault of the module.
  split
  · exact .error rfl (h (.module module) hmodule)
  · refine FailsIn.bind ?_ fun _ _ => ?_
    · exact Check.failsIn_module (h _ hmodule) fun package hmem => h _ (hpackage hmem)
    · exact FailsIn.bind (.mapM fun package hmem => failsIn_package h (hpackage hmem))
        fun _ _ => .ok _

/-- **Planning fails at nodes.** -/
theorem failsIn_project : FailsIn places (project tree registry cancelled) := by
  have hmodule {id : ModuleId} (hid : id ∈ tree.project.modules) : tree.inProject (.module id) :=
    Relation.ReflTransGen.single (List.mem_map_of_mem hid)
  refine FailsIn.bind ?_ fun _ _ => ?_
  · exact Check.failsIn_project (h .project .refl) fun id hid => h _ (hmodule hid)
  · exact FailsIn.bind (.mapM fun id hid => failsIn_module h (hmodule hid)) fun _ _ => .ok _

end

/-- The path of a file that is planned besides those of the tree: the one for the documentation of
a package, or for its own funcs. -/
inductive AddedPath (tree : DeclTree) (registry : Registry) : TreePath → Prop where
  | doc {module : ModuleId} {package : PackageId} {language : Language}
      {doc : Option Check.PackageComment} {text : String}
      (hmodule : module ∈ tree.project.modules) (hpackage : package ∈ (tree.module module).packages)
      (hlanguage : registry.language? (tree.module module).language = some language)
      (hdoc : Check.package tree language package = .ok doc)
      (htext : standaloneDoc language doc = some text) :
      AddedPath tree registry ((tree.packagePath package).below .file language.docFile)
  | funcs {module : ModuleId} {package : PackageId}
      (hmodule : module ∈ tree.project.modules) (hpackage : package ∈ (tree.module module).packages)
      (hfuncs : (tree.package package).funcs ≠ []) :
      AddedPath tree registry ((tree.packagePath package).below .file (tree.package package).name)

/-- The planned file has the declarations that the node lists: the types and funcs of a file of the
tree, or the funcs of a package. -/
inductive Declares (tree : DeclTree) : PlannedFile → TreeNode → Prop where
  | file (language : Language) (module : ModuleId) (package : PackageId)
      (doc : Option Check.PackageComment) (source : FileId) :
      Declares tree (treeFile tree language module package doc source) (.file source)
  | funcs (language : Language) (module : ModuleId) (package : PackageId) :
      Declares tree (funcFile tree language module package) (.package package)

/-- A planned file goes to the path of a node or to one that is added. It declares nothing, or what
a node lists. -/
theorem places_of_mem_project (h : project tree registry cancelled = .ok plan) {file : PlannedFile}
    (hfile : file ∈ plan) :
    (tree.AtNode file.path ∨ AddedPath tree registry file.path) ∧
      (file.contents.types = [] ∧ file.contents.funcs = [] ∨
        ∃ node, tree.inProject node ∧ Declares tree file node ∧
          (∀ id ∈ file.contents.types, .type id ∈ tree.children node) ∧
          ∀ id ∈ file.contents.funcs, .func id ∈ tree.children node) := by
  obtain ⟨module, hmodule, language, hlanguage, package, hpackage, doc, hdoc, hplanned⟩ :=
    (mem_project_iff h file).mp hfile
  -- From the project down to the package, each lists the next.
  have hinModule : tree.inProject (.module module) := .single (List.mem_map_of_mem hmodule)
  have hinProject : tree.inProject (.package package) :=
    hinModule.tail (List.mem_map_of_mem hpackage)
  cases hplanned with
  | doc text htext =>
    exact ⟨.inr (.doc hmodule hpackage hlanguage hdoc htext), .inl ⟨rfl, rfl⟩⟩
  | file source hsource =>
    have hinPackage : tree.inProject (.file source) :=
      hinProject.tail (List.mem_append_left _ (List.mem_map_of_mem hsource))
    refine ⟨.inl ⟨.file source, hinPackage, .refl _⟩, .inr ⟨.file source, hinPackage, ?_⟩⟩
    refine ⟨.file language module package doc source, fun id hid => ?_, fun id hid => ?_⟩
    · exact List.mem_append_left _ (List.mem_map_of_mem hid)
    · exact List.mem_append_right _ (List.mem_map_of_mem hid)
  | funcs hfuncs =>
    refine ⟨.inr (.funcs hmodule hpackage hfuncs), .inr ⟨.package package, hinProject, ?_⟩⟩
    refine ⟨.funcs language module package, fun id hid => ?_, fun id hid => ?_⟩
    · cases hid
    · exact List.mem_append_right _ (List.mem_map_of_mem hid)

end Plan

/-! ### Writing and merging -/

/-- A file that is put beside others fails at its own path, unless it failed before. -/
theorem Rendering.failsIn_add {mode : Bool} {rendering : Rendering} {entry : FileResult}
    (hpath : places entry.1.path) (hentry : FailsIn places entry.2) :
    FailsIn places (add mode rendering entry) := by
  obtain ⟨file, result⟩ := entry
  -- What is in the way in the artifact is reported at the path of the file.
  have hsettled (outcome : Except Obstacle Unit × Artifact) :
      FailsIn places (settled file outcome) := by
    unfold settled
    split
    · exact .ok _
    · exact .error rfl hpath
  have hdirectories : FailsIn places (addDirectories rendering.artifact file) :=
    (hsettled _).bind fun _ _ => hsettled _
  refine hdirectories.bind fun artifact _ => ?_
  split
  · exact (hsettled _).bind fun _ _ => .ok _
  · exact .cancelled
  · rename_i failure _
    split
    · exact .ok _
    · intro other hother
      cases hother
      exact hentry failure rfl

namespace RenderJob

variable {job : RenderJob} {file : PlannedFile} {plan : List PlannedFile}

/-- A file fails where its declarations are. -/
theorem failsIn_entry (hregistry : job.registry.FailsInPlace)
    (h : CoversFile places job.tree file.contents.types file.contents.funcs) :
    FailsIn places (job.entry file).2 := by
  -- A file fails in the check on its declarations, in the first pass or in the second.
  have hfirst : FailsIn places (job.firstPass file).result := located_fileScript h hregistry
  have hsecond : FailsIn places (job.secondPass file).result := located_fileScript h hregistry
  unfold entry runFile
  rw [if_neg Bool.false_ne_true]
  dsimp only
  split
  · rename_i failure hchecked
    intro other hother
    cases hother
    exact Check.failsIn_declarations h failure hchecked
  · unfold writeText
    dsimp only
    split
    · rename_i failure hfailure
      intro other hother
      cases hother
      exact hfirst failure hfailure
    · intro failure hfailure
      exact hsecond failure (map_eq_error.mp hfailure)

/-- **A planned file fails inside its declarations,** at a node or inside one. -/
theorem failsIn_entry_of_mem (htree : job.tree.Arranged) (hregistry : job.registry.FailsInPlace)
    (hplan : Plan.project job.tree job.registry job.options.cancelled = .ok plan)
    (hfile : file ∈ plan) :
    FailsIn (fun path => job.tree.AtNode path ∧ ∃ node, Plan.Declares job.tree file node ∧
      (job.tree.path node).steps <+: path.steps) (job.entry file).2 := by
  obtain ⟨_, ⟨htypes, hfuncs⟩ | ⟨node, hnode, hdeclares, htypes, hfuncs⟩⟩ :=
    Plan.places_of_mem_project hplan hfile
  · refine failsIn_entry hregistry ⟨fun id hid => ?_, fun id hid => ?_⟩
    · -- A file without declarations has nothing to fail at.
      rw [htypes] at hid
      cases hid
    · rw [hfuncs] at hid
      cases hid
  · have hentry := failsIn_entry hregistry (htree.coversFile hnode htypes hfuncs)
    intro failure hfailure path hpath
    obtain ⟨hat, hprefix⟩ := hentry failure hfailure path hpath
    exact ⟨hat, node, hdeclares, hprefix⟩

/-- **Every failure is located.** Take a tree that grew by additions, and expanders that come with
a dialect or fail where the idiom stands as these do. If a render fails, other than by being
cancelled, then at a node of the tree or inside one, or at the path of a file that was added for the
documentation or the funcs of a package. If it succeeds it reports what its files failed for, and
each of these failed at a node or inside one, and below the file of the tree whose declarations it
has, or below the package whose funcs it has. -/
theorem failures_located (htree : job.tree.Raised) (hregistry : job.registry.FailsInPlace) :
    (∀ failure, job.render = .error failure → failure ≠ .cancelled →
      ∃ path, failure.path? = some path ∧
        (job.tree.AtNode path ∨ Plan.AddedPath job.tree job.registry path)) ∧
      ∀ rendering, job.render = .ok rendering →
        ∃ plan, Plan.project job.tree job.registry job.options.cancelled = .ok plan ∧
          rendering.diagnostics = (plan.map job.entry).filterMap FileResult.failure? ∧
          ∀ file ∈ plan, ∀ failure, (job.entry file).2 = .error failure → failure ≠ .cancelled →
            ∃ path, failure.path? = some path ∧ job.tree.AtNode path ∧
              ∃ node, Plan.Declares job.tree file node ∧
                (job.tree.path node).steps <+: path.steps := by
  constructor
  · intro failure hrender hcancelled
    obtain ⟨path, hpath⟩ := Failure.exists_path hcancelled
    let places : TreePath → Prop :=
      fun path => job.tree.AtNode path ∨ Plan.AddedPath job.tree job.registry path
    have hfails : FailsIn places job.render := by
      rw [render_eq]
      refine FailsIn.bind ?_ fun plan hplan => ?_
      · -- Planning fails at nodes of the project.
        exact Plan.failsIn_project fun node hnode => .inl ⟨node, hnode, .refl _⟩
      · split
        · exact .cancelled
        · -- The merge fails at the path of a file, or for what that file failed for.
          refine FailsIn.foldlM (fun state entry hentry => ?_) _
          obtain ⟨file, hfile, rfl⟩ := List.mem_map.mp hentry
          refine Rendering.failsIn_add (Plan.places_of_mem_project hplan hfile).1 ?_
          intro other hother path hpath
          have hat := failsIn_entry_of_mem htree.arranged hregistry hplan hfile other hother path
            hpath
          exact .inl hat.1
    exact ⟨path, hpath, hfails failure hrender path hpath⟩
  · intro rendering hrender
    obtain ⟨plan, hplan, hholds⟩ := exists_plan_of_render hrender
    refine ⟨plan, hplan, hholds.diagnostics_eq, fun file hfile failure hfailure hcancelled => ?_⟩
    obtain ⟨path, hpath⟩ := Failure.exists_path hcancelled
    exact ⟨path, hpath, failsIn_entry_of_mem htree.arranged hregistry hplan hfile failure hfailure
      path hpath⟩

theorem raised_ofFailing (language : String) (results : List Param) :
    (ofFailing language results).Raised :=
  ((((DeclTree.Raised.empty "demo").add (.module "com.acme" language)).add
    (.package ⟨0⟩ "lib" "lib")).add (.file ⟨0⟩ "load")).add (.func ⟨0⟩ _)

/-- A func that cannot fail invokes a failure in a clause chained to its first block. The render
fails there. With an expander that refuses, in diagnostic mode, it reports the same place, which is
below the file. -/
theorem failures_located_clause :
    let job := ofTree (ofFailing "java" [])
    let registry := Registry.standard.addExpander "java" (.refusing .fail "not here")
    let refusing : RenderJob := { job.inMode true with registry := registry }
    let place : TreePath := ⟨[(.project, "demo"), (.module, "com.acme"), (.package, "lib"),
      (.file, "load"), (.func, "Load"), (.block, "0"), (.idiom, "Fail")]⟩
    (∃ failure, job.render = .error failure ∧ failure.path? = some place ∧
      (job.tree.AtNode place ∨ Plan.AddedPath job.tree job.registry place)) ∧
      ∃ rendering, refusing.render = .ok rendering ∧
        rendering.diagnostics.map Failure.path? = [some place] ∧
        ∃ file node, Plan.Declares job.tree file node ∧
          (job.tree.path node).steps <+: place.steps := by
  intro job registry refusing place
  have htree : job.tree.Raised := raised_ofFailing "java" []
  have hregistry : job.registry.FailsInPlace := Registry.BuiltIn.standard.failsInPlace
  have hrefusing : refusing.registry.FailsInPlace :=
    hregistry.addExpander "java" (Expander.failsInPlace_refusing .fail "not here")
  constructor
  · have hpath : (match job.render with
        | .error failure => failure.path?
        | .ok _ => none) = some place := by decide +kernel
    rcases hrender : job.render with failure | rendering
    · rw [hrender] at hpath
      have hcancelled : failure ≠ .cancelled := by
        rintro rfl
        cases hpath
      obtain ⟨hfails, _⟩ := job.failures_located htree hregistry
      obtain ⟨path, hfound, hat⟩ := hfails failure hrender hcancelled
      obtain rfl := Option.some.inj (hfound.symm.trans hpath)
      exact ⟨failure, rfl, hfound, hat⟩
    · rw [hrender] at hpath
      cases hpath
  · have hreported : refusing.render.toOption.map
        (·.diagnostics.map Failure.path?) = some [some place] := by decide +kernel
    obtain ⟨rendering, hrender, hdiagnostics⟩ := exists_of_toOption_map_eq_some hreported
    refine ⟨rendering, hrender, hdiagnostics, ?_⟩
    obtain ⟨_, hreports⟩ := refusing.failures_located htree hrefusing
    obtain ⟨plan, _, heq, hfiles⟩ := hreports rendering hrender
    -- The one diagnostic is why one of the files has no text.
    obtain ⟨failure, hfailure, hpath⟩ : ∃ failure ∈ rendering.diagnostics,
        failure.path? = some place := by
      rw [← List.mem_map, hdiagnostics]
      exact List.mem_singleton_self _
    rw [heq] at hfailure
    obtain ⟨file, hfile, hresult⟩ := mem_failures_iff.mp hfailure
    have hcancelled : failure ≠ .cancelled := by
      rintro rfl
      cases hpath
    obtain ⟨path, hfound, _, node, hdeclares, hbelow⟩ :=
      hfiles file hfile failure hresult hcancelled
    obtain rfl := Option.some.inj (hfound.symm.trans hpath)
    exact ⟨file, node, hdeclares, hbelow⟩

end RenderJob

end DeclPrinter
