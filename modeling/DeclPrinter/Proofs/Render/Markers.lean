import DeclPrinter.Proofs.Render.Bodies
import DeclPrinter.Proofs.Render.Plan
import DeclPrinter.Proofs.Render.Surroundings

/-!
# Metadata in a render

The metadata of a field is written where its language has tags, which is in Go. No other part of a
render looks at metadata: not the checks and the plan (`Plan.project_unmarked`), and nothing that
is written for funcs, for their parameters and results or for fields in Java. So two trees that
differ in such metadata alone are rendered alike (`RenderJob.render_of_unmarked_eq`).
-/

namespace DeclPrinter

/-- **Metadata has no part in the plan** of a render. -/
theorem Plan.project_unmarked {tree : DeclTree} {registry : Registry} {cancelled : Bool} :
    Plan.project tree.unmarked registry cancelled = Plan.project tree registry cancelled :=
  Plan.project_of_hollow tree.hollow_unmarked

/-- The field is listed in a module of a language that has tags. -/
def DeclTree.HasTags (tree : DeclTree) (registry : Registry) (id : FieldId) : Prop :=
  ∃ module ∈ tree.project.modules, ∃ language,
    registry.language? (tree.module module).language = some language ∧ language.dialect = .go ∧
    ∃ package ∈ (tree.module module).packages, ∃ file ∈ (tree.package package).files,
      ∃ type ∈ (tree.file file).types, id ∈ (tree.type type).fields

namespace RenderJob

variable {job : RenderJob} {other : DeclTree} {plan : List PlannedFile} {file : PlannedFile}

/-- What a planned file rests on is the same in a tree that differs in metadata without tags. -/
theorem restsOn_unmarked (h : other.unmarked = job.tree.unmarked)
    (htags : ∀ id, job.tree.HasTags job.registry id →
      (other.field id).markers = (job.tree.field id).markers)
    (hplan : Plan.project job.tree job.registry job.options.cancelled = .ok plan)
    (hfile : file ∈ plan) : (job.context file).RestsOn (fun _ => True) other where
  toSharesDeclarations := by
    apply FileContext.SharesDeclarations.of_hollow (job.tree.hollow_eq_of_unmarked h)
    intro hgo type htype id hid
    -- A field with tags is one of a type in a planned Go file.
    obtain ⟨module, hmodule, language, hlanguage, package, hpackage, doc, _, hplanned⟩ :=
      (Plan.mem_project_iff hplan file).mp hfile
    obtain ⟨rfl, _, _⟩ := hplanned.home
    obtain ⟨source, hsource, htype, _⟩ := hplanned.exists_treeFile htype
    exact htags id ⟨module, hmodule, _, hlanguage, hgo, package, hpackage, source, hsource, type,
      htype, hid⟩
  bodies := fun {id} _ => by
    have hfunc : (other.func id).unmarked = (job.tree.func id).unmarked := by
      rw [← DeclTree.func_unmarked, h, DeclTree.func_unmarked]
    exact (congrArg Func.body hfunc :)

/-- **Metadata is inert where there are no tags.** Take two trees that differ in nothing but the
metadata of fields, parameters and results, and that agree on the metadata of fields in languages
with tags. With built-in expanders they are rendered alike: to the same artifact with the same
diagnostics, or with the same failure. -/
theorem render_of_unmarked_eq (job : RenderJob) (hregistry : job.registry.BuiltIn)
    (other : DeclTree) (h : other.unmarked = job.tree.unmarked)
    (htags : ∀ id, job.tree.HasTags job.registry id →
      (other.field id).markers = (job.tree.field id).markers) :
    ({ job with tree := other } : RenderJob).render = job.render := by
  -- The plan does not depend on metadata, and each file of it comes to the same.
  have hsame : Plan.project other job.registry job.options.cancelled =
      Plan.project job.tree job.registry job.options.cancelled := by
    rw [← Plan.project_unmarked, h, Plan.project_unmarked]
  rw [render_eq, render_eq]
  dsimp only
  rw [hsame]
  rcases hplan : Plan.project job.tree job.registry job.options.cancelled with failure | plan
  · rfl
  · have hrests (file : PlannedFile) (hfile : file ∈ plan) :=
      restsOn_unmarked h htags hplan hfile
    have hentries : plan.map (job.inTree other job.options).entry = plan.map job.entry :=
      List.map_congr_left fun file hfile => entry_inTree (hrests file hfile) hregistry
    have hends : (job.inTree other job.options).endsCancelled plan = job.endsCancelled plan :=
      endsCancelled_inTree hregistry hrests rfl
    show (if (job.inTree other job.options).endsCancelled plan then _ else
      (plan.map (job.inTree other job.options).entry).foldlM _ _) = _
    rw [hends, hentries]
    rfl

/-- The same type in Java and in Go. All that is in it has the metadata, except that the field in
Go has the tag. -/
def ofMarked (tag : Marker) (markers : List Marker) : RenderJob :=
  let field (markers : List Marker) : Field :=
    ⟨"path", .exported, .simple ⟨"string"⟩, none, markers⟩
  let param (name : String) : Param := ⟨name, .simple ⟨"string"⟩, none, markers⟩
  let method : Func := ⟨"open", .exported, none, [param "path"], [param "row"], .empty, none⟩
  let additions (index : Nat) (language : String) (markers : List Marker) : List Addition :=
    [.module language language, .package ⟨index⟩ "lib" "lib", .file ⟨index⟩ "store",
      .type ⟨index⟩ .struct "Store", .field ⟨index⟩ (field markers), .method ⟨index⟩ method]
  ofTree ((DeclTree.empty "demo").addAll
    (additions 0 "java" markers ++ additions 1 "go" [tag]))

/-- The tag is written and the rest is not. -/
theorem render_of_unmarked_eq_store :
    let tag : Marker := ⟨"json", some "path", []⟩
    let job := ofMarked tag []
    let other := (ofMarked tag [⟨"Size", some "min", [("max", "8")]⟩]).tree
    (other.field ⟨0⟩).markers ≠ (job.tree.field ⟨0⟩).markers ∧
      other.func ⟨0⟩ ≠ job.tree.func ⟨0⟩ ∧ other.func ⟨1⟩ ≠ job.tree.func ⟨1⟩ ∧
      other.unmarked = job.tree.unmarked ∧
      (∀ id, job.tree.HasTags job.registry id →
        (other.field id).markers = (job.tree.field id).markers) ∧
      (job.render.toOption.map fun rendering => rendering.artifact.leaves.map (·.2.content)) =
        some ["package java.lib;\n\npublic class Store \x7b\n    public String path;\n\n" ++
            "    public String open(String path) \x7b\n    \x7d\n\x7d\n",
          "package lib\n\ntype Store struct \x7b\n\tPath string `json:\"path\"`\n\x7d\n\n" ++
            "func (s *Store) Open(path string) (row string) \x7b\n\x7d\n"] ∧
      ({ job with tree := other } : RenderJob).render = job.render := by
  intro tag job other
  have hsame : other.unmarked = job.tree.unmarked := by with_unfolding_all rfl
  -- The fields of the Go module are few, so their metadata is compared one by one.
  have hlisted : ∀ module ∈ job.tree.project.modules,
      (job.registry.language? (job.tree.module module).language).map (·.dialect) = some .go →
      ∀ package ∈ (job.tree.module module).packages, ∀ file ∈ (job.tree.package package).files,
        ∀ type ∈ (job.tree.file file).types, ∀ id ∈ (job.tree.type type).fields,
          (other.field id).markers = (job.tree.field id).markers := by decide +kernel
  have htags : ∀ id, job.tree.HasTags job.registry id →
      (other.field id).markers = (job.tree.field id).markers := by
    rintro id ⟨module, hmodule, language, hlanguage, hgo, package, hpackage, file, hfile, type,
      htype, hid⟩
    have hdialect := congrArg (Option.map Language.dialect) hlanguage
    rw [Option.map_some, hgo] at hdialect
    exact hlisted module hmodule hdialect package hpackage file hfile type htype id hid
  refine ⟨by decide +kernel, ?_, ?_, hsame, htags, by decide +kernel,
    render_of_unmarked_eq job .standard other hsame htags⟩
  · exact fun h => absurd (congrArg Func.params h) (by decide +kernel)
  · exact fun h => absurd (congrArg Func.params h) (by decide +kernel)

end RenderJob

end DeclPrinter
