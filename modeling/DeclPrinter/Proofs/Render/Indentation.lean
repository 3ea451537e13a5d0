import DeclPrinter.Proofs.Artifact.Skeleton
import DeclPrinter.Proofs.Dictionary
import DeclPrinter.Proofs.Render.Leaves
import DeclPrinter.Proofs.Render.Passes
import DeclPrinter.Proofs.Render.Surroundings
import DeclPrinter.Proofs.Script.Indentation
import Mathlib.Data.List.Perm.Basic

/-!
# Units of indentation

The unit in which a language is indented is a choice of the caller. It has no part in the scripts
of files, nor in where files go, since an artifact is put together in the same way whatever the
texts in it are (`RenderJob.map_skeleton_render`). So renders with different units fail alike, or
differ in nothing but how far from the margin the lines stand (`RenderJob.render_indentedBy`).
-/

namespace DeclPrinter

/-! ### Renders without texts -/

/-- What a file came to, with an empty text if it has one. -/
def FileResult.skeleton (entry : FileResult) : FileResult :=
  (entry.1, entry.2.map fun _ => "")

namespace Rendering

variable (mode : Bool)

/-- The rendering with all texts left out. -/
def skeleton (rendering : Rendering) : Rendering :=
  { rendering with artifact := rendering.artifact.skeleton }

theorem skeleton_settled (file : PlannedFile) (result : Except Obstacle Unit × Artifact) :
    settled file (result.1, result.2.skeleton) = (settled file result).map Artifact.skeleton := by
  obtain ⟨obstacle | _, artifact⟩ := result
  · rfl
  · rfl

theorem skeleton_addDirectories (artifact : Artifact) (file : PlannedFile) :
    addDirectories artifact.skeleton file =
      (addDirectories artifact file).map Artifact.skeleton := by
  -- Making directories does not look at texts.
  have hensure (artifact : Artifact) (dir : List String) (mediaType : MediaType) :
      settled file (artifact.skeleton.ensureDirectory dir mediaType) =
        (settled file (artifact.ensureDirectory dir mediaType)).map Artifact.skeleton := by
    rw [Artifact.skeleton_ensureDirectory, skeleton_settled]
  unfold addDirectories
  rw [hensure]
  rcases settled file (artifact.ensureDirectory file.moduleSegments .moduleDirectory) with
    failure | middle
  · rfl
  · exact hensure middle file.dir .directory

/-- **Adding a file** does the same to the skeleton, whatever the text of the file. -/
theorem skeleton_add (rendering : Rendering) (entry : FileResult) :
    add mode rendering.skeleton entry.skeleton = (add mode rendering entry).map skeleton := by
  obtain ⟨file, failure | text⟩ := entry
  · -- Without a text: the directories, and then whether the failure is reported.
    show add mode rendering.skeleton (file, .error failure) = _
    rw [add_failure, add_failure]
    show addDirectories rendering.artifact.skeleton file >>= _ = _
    rw [skeleton_addDirectories]
    rcases addDirectories rendering.artifact file with obstacle | middle
    · rfl
    · show (if _ then _ else _ : Except Failure Rendering) = Except.map _ (if _ then _ else _)
      split
      · rfl
      · rfl
  · -- With a text: whether the place of the leaf is free does not depend on what it holds.
    have hleaf (middle : Artifact) :
        settled file (middle.skeleton.addLeaf file.dir file.leaf (leafOf file "")) =
          (settled file (middle.addLeaf file.dir file.leaf (leafOf file text))).map
            Artifact.skeleton := by
      rw [← skeleton_settled, ← Artifact.skeleton_addLeaf]
      rfl
    show (addDirectories rendering.artifact.skeleton file >>= fun middle =>
        settled file (middle.addLeaf file.dir file.leaf (leafOf file "")) >>= _) =
      (addDirectories rendering.artifact file >>= fun middle =>
        settled file (middle.addLeaf file.dir file.leaf (leafOf file text)) >>= _).map skeleton
    rw [skeleton_addDirectories]
    rcases addDirectories rendering.artifact file with obstacle | middle
    · rfl
    · show settled file (middle.skeleton.addLeaf _ _ _) >>= _ =
        Except.map skeleton (settled file (middle.addLeaf _ _ _) >>= _)
      rw [hleaf]
      rcases settled file (middle.addLeaf file.dir file.leaf (leafOf file text)) with
        obstacle | after
      · rfl
      · rfl

theorem skeleton_foldlM (rendering : Rendering) (entries : List FileResult) :
    (entries.map FileResult.skeleton).foldlM (add mode) rendering.skeleton =
      (entries.foldlM (add mode) rendering).map skeleton := by
  induction entries generalizing rendering with
  | nil => rfl
  | cons entry rest ih =>
    rw [List.map_cons, List.foldlM_cons, List.foldlM_cons, skeleton_add]
    rcases add mode rendering entry with failure | next
    · rfl
    · exact ih next

end Rendering

namespace RenderJob

open FileResult

variable {job : RenderJob} {plan : List PlannedFile}

/-- The render in which every text is left out. -/
def renderSkeleton (job : RenderJob) : Except Failure Rendering := do
  let plan ← Plan.project job.tree job.registry job.options.cancelled
  if job.endsCancelled plan then .error .cancelled
  else
    (plan.map fun file => (file, (job.script file).map fun _ => "")).foldlM
      (Rendering.add job.options.diagnosticMode) .empty

/-- **A render without its texts** is told by the scripts of the files. -/
theorem map_skeleton_render (job : RenderJob) :
    job.render.map Rendering.skeleton = job.renderSkeleton := by
  -- Without its text a file is what its script succeeds or fails with.
  have hentries (plan : List PlannedFile) : (plan.map job.entry).map FileResult.skeleton =
      plan.map fun file => (file, (job.script file).map fun _ => "") := by
    rw [List.map_map]
    apply List.map_congr_left
    intro file _
    show (job.entry file).skeleton = _
    rw [entry_eq]
    rcases job.script file with failure | script
    · rfl
    · rfl
  have hempty : Rendering.empty.skeleton = .empty := by
    show Rendering.mk ⟨Directory.empty.skeleton⟩ [] = _
    rw [Directory.skeleton_empty]
    rfl
  rw [render_eq, renderSkeleton]
  rcases Plan.project job.tree job.registry job.options.cancelled with failure | plan
  · rfl
  · show Except.map Rendering.skeleton (if _ then _ else _) = if _ then _ else _
    split
    · rfl
    · rw [← hentries, ← Rendering.skeleton_foldlM, hempty]

/-- The planned files that have a script, with it. -/
def drafts (job : RenderJob) (plan : List PlannedFile) : List (PlannedFile × Script) :=
  plan.filterMap fun file => (job.script file).toOption.map (file, ·)

/-- The place of a draft in an artifact where languages are indented in these units: each of its
lines stands behind as many units as it is deep, and ends with a newline. -/
def draftPlace (unitOf : Language → String) (draft : PlannedFile × Script) : List String × Leaf :=
  leafPlace (draft.1,
    String.join (draft.2.lines.map (Line.render (unitOf draft.1.language))))

theorem map_leafPlace_written (job : RenderJob) (plan : List PlannedFile) :
    ((plan.map job.entry).filterMap written?).map leafPlace =
      (job.drafts plan).map (draftPlace job.indentUnit) := by
  unfold drafts
  rw [List.filterMap_map, List.map_filterMap, List.map_filterMap]
  congr 1
  funext file
  show (written? (job.entry file)).map leafPlace = _
  rw [entry_eq]
  rcases job.script file with failure | script
  · rfl
  · rfl

/-! ### Renders with different units -/

/-- The render in which the languages of the tag are indented in a certain unit. -/
def indentedBy (job : RenderJob) (tag unit : String) : RenderJob :=
  { job with options :=
      { job.options with languages := job.options.languages.put tag ⟨some unit⟩ } }

/-- The unit of a language in such a render. -/
theorem indentUnit_indentedBy (job : RenderJob) (tag unit : String) (language : Language) :
    (job.indentedBy tag unit).indentUnit language =
      if language.tag = tag then unit else job.indentUnit language := by
  -- The option of one language is put, and the others are kept.
  have hindent : (job.indentedBy tag unit).options.indent? language.tag =
      if language.tag = tag then some unit else job.options.indent? language.tag := by
    show ((job.options.languages.put tag ⟨some unit⟩).get? language.tag).bind _ = _
    rw [Dictionary.get?_put]
    split
    · rfl
    · rfl
  unfold indentUnit
  rw [hindent]
  split
  · rfl
  · rfl

/-- Every file rests on the tree as a whole. -/
theorem restsOn_all (job : RenderJob) (file : PlannedFile) :
    (job.context file).RestsOn (fun _ => True) job.tree where
  toSharesDeclarations := .of_hollow rfl fun _ _ _ _ _ => rfl
  bodies := fun _ => rfl

section

variable (hregistry : job.registry.BuiltIn) (tag unit : String)

include hregistry

theorem script_indentedBy : (job.indentedBy tag unit).script = job.script :=
  funext fun file => script_inTree (job.restsOn_all file) hregistry

theorem endsCancelled_indentedBy (plan : List PlannedFile) :
    (job.indentedBy tag unit).endsCancelled plan = job.endsCancelled plan :=
  endsCancelled_inTree hregistry (fun file _ => job.restsOn_all file) rfl

/-- **The unit has no part in a render** but in its texts. -/
theorem renderSkeleton_indentedBy :
    (job.indentedBy tag unit).renderSkeleton = job.renderSkeleton := by
  unfold renderSkeleton
  congr 1
  funext plan
  rw [endsCancelled_indentedBy hregistry, script_indentedBy hregistry]
  rfl

theorem drafts_indentedBy (plan : List PlannedFile) :
    (job.indentedBy tag unit).drafts plan = job.drafts plan := by
  unfold drafts
  rw [script_indentedBy hregistry]

end

/-! ### Drafts in order -/

/-- Lists of the same entries with distinct keys are the same if their keys are in the same
order. -/
theorem eq_of_perm_of_keys {α β : Type} {first second : List (α × β)} (h : first.Perm second)
    (hkeys : first.map Prod.fst = second.map Prod.fst) (hnodup : (first.map Prod.fst).Nodup) :
    first = second := by
  induction first generalizing second with
  | nil => exact h.nil_eq
  | cons entry rest ih =>
    rcases second with _ | ⟨other, others⟩
    · cases h.symm.nil_eq
    rw [List.map_cons, List.map_cons, List.cons.injEq] at hkeys
    rw [List.map_cons, List.nodup_cons] at hnodup
    -- Else the key of the first entry would stand among the rest as well.
    have hentry : entry = other := by
      rcases List.mem_cons.mp (h.symm.mem_iff.mp List.mem_cons_self : other ∈ entry :: rest) with
        heq | hmem
      · exact heq.symm
      · exact absurd (hkeys.1 ▸ List.mem_map_of_mem hmem) hnodup.1
    subst hentry
    rw [ih h.cons_inv hkeys.2 hnodup.2]

/-- Drafts can be put in the order in which an artifact has their leaves. -/
theorem exists_drafts_in_order {rendering : Rendering} (h : rendering.Holds (plan.map job.entry)) :
    ∃ ordered : List (PlannedFile × Script), ordered.Perm (job.drafts plan) ∧
      rendering.artifact.root.located.map Prod.fst = ordered.map fun draft =>
        draft.1.dir ++ [draft.1.leaf] := by
  have hchains := h.located_perm.map Prod.fst
  rw [map_leafPlace_written, List.map_map] at hchains
  have hordered := congrFun (congrFun (List.eq_map_comp_perm fun draft : PlannedFile × Script =>
    draft.1.dir ++ [draft.1.leaf]) (rendering.artifact.root.located.map Prod.fst)) (job.drafts plan)
  obtain ⟨ordered, heq, hperm⟩ := hordered.mpr hchains
  exact ⟨ordered, hperm, heq⟩

/-- Drafts in the order of the leaves are the leaves, since no two of them have the same place. -/
theorem located_eq_of_order {rendering : Rendering} (h : rendering.Holds (plan.map job.entry))
    {ordered : List (PlannedFile × Script)} (hperm : ordered.Perm (job.drafts plan))
    (hchains : rendering.artifact.root.located.map Prod.fst = ordered.map fun draft =>
      draft.1.dir ++ [draft.1.leaf]) :
    rendering.artifact.root.located = ordered.map (draftPlace job.indentUnit) := by
  have hlocated := h.located_perm
  rw [map_leafPlace_written] at hlocated
  have hnodup := Directory.nodup_located _ h.shows_requests.hasDistinctNames
  refine eq_of_perm_of_keys (hlocated.trans (hperm.symm.map _)) ?_ hnodup
  rw [hchains, List.map_map]
  rfl

/-- **The unit of indentation changes only indentation.** Take a project that is rendered with the
built-in expanders, and a language tag. Either the render fails for the same reason in whatever
unit the languages of the tag are indented, or it gives a rendering in each. Then these have the
same diagnostics and the same directories, and there is one list of files with their scripts which
gives the leaves of all of them, in order: in each unit, the text of a leaf is made of the lines of
its script, each a depth and a text, by writing the unit as often as the line is deep, the text and
a newline. This is also what is written by a writer that indents each line at once. -/
theorem render_indentedBy (job : RenderJob) (hregistry : job.registry.BuiltIn) (tag : String) :
    (∃ failure, ∀ unit, (job.indentedBy tag unit).render = .error failure) ∨
      ∃ diagnostics skeleton, ∃ drafts : List (PlannedFile × Script), ∀ unit, ∃ artifact,
        (job.indentedBy tag unit).render = .ok ⟨artifact, diagnostics⟩ ∧
          artifact.skeleton = skeleton ∧
          artifact.root.located = drafts.map (draftPlace fun language =>
            if language.tag = tag then unit else job.indentUnit language) ∧
          ∀ draft ∈ drafts, draft.2.textAtOnce unit =
            String.join (draft.2.lines.map (Line.render unit)) := by
  have hrender (unit : String) :
      (job.indentedBy tag unit).render.map Rendering.skeleton = job.renderSkeleton := by
    rw [map_skeleton_render, renderSkeleton_indentedBy hregistry]
  rcases hskeleton : job.renderSkeleton with failure | skeleton
  · left
    exact ⟨failure, fun unit => map_eq_error.mp ((hrender unit).trans hskeleton)⟩
  · right
    have hok (unit : String) : ∃ rendering, (job.indentedBy tag unit).render = .ok rendering ∧
        rendering.skeleton = skeleton :=
      map_eq_ok.mp ((hrender unit).trans hskeleton)
    -- All renders have the same plan, and their leaves stand in the order of the skeleton.
    obtain ⟨any, hany, hskeletonAny⟩ := hok ""
    obtain ⟨plan, hplan, hholdsAny⟩ := exists_plan_of_render hany
    obtain ⟨drafts, hdrafts, hchains⟩ := exists_drafts_in_order hholdsAny
    refine ⟨skeleton.diagnostics, skeleton.artifact, drafts, fun unit => ?_⟩
    obtain ⟨rendering, hresult, heq⟩ := hok unit
    obtain ⟨own, hown, hholds⟩ := exists_plan_of_render hresult
    obtain rfl : own = plan := Except.ok.inj (hown.symm.trans hplan)
    refine ⟨rendering.artifact, ?_, ?_, ?_, ?_⟩
    · rw [hresult, ← heq]
      rfl
    · rw [← heq]
      rfl
    · have hunits : (job.indentedBy tag unit).indentUnit = fun language =>
          if language.tag = tag then unit else job.indentUnit language :=
        funext fun language => job.indentUnit_indentedBy tag unit language
      have hsame : rendering.artifact.skeleton = any.artifact.skeleton :=
        congrArg Rendering.artifact (heq.trans hskeletonAny.symm)
      rw [drafts_indentedBy hregistry] at hdrafts
      rw [← hunits]
      apply located_eq_of_order hholds
      · rw [drafts_indentedBy hregistry]
        exact hdrafts
      · rw [← Artifact.chains_skeleton, hsame, Artifact.chains_skeleton, hchains]
    · intro draft _
      exact (draft.2.text_eq_textAtOnce unit).symm

/-- A func whose body has a nested block, in all units. -/
theorem render_indentedBy_clock :
    ∃ drafts : List (PlannedFile × Script), ∀ unit, ∃ rendering,
      (clockJob.indentedBy "go" unit).render = .ok rendering ∧
        rendering.artifact.root.located = drafts.map (draftPlace fun language =>
          if language.tag = "go" then unit else clockJob.indentUnit language) := by
  have hok : (clockJob.indentedBy "go" "  ").render.isOk = true := by decide +kernel
  rcases render_indentedBy clockJob .standard "go" with
    ⟨failure, hfails⟩ | ⟨_, _, drafts, hunits⟩
  · rw [hfails] at hok
    cases hok
  · refine ⟨drafts, fun unit => ?_⟩
    obtain ⟨artifact, hrender, _, hlocated, _⟩ := hunits unit
    exact ⟨_, hrender, hlocated⟩

end RenderJob

end DeclPrinter
