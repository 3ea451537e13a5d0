import DeclPrinter.Proofs.Artifact.Addressable
import DeclPrinter.Proofs.Render.Merge
import DeclPrinter.Proofs.Render.Modes

/-!
# The files of a rendering

A rendering holds what the files of the plan came to (`RenderJob.exists_plan_of_render`). A file
came to a text if it passed its checks and was written, and then the artifact has the leaf of that
text in the place of the file (`Rendering.Holds.hasLeaf`).
-/

namespace DeclPrinter

open FileResult

/-- The artifact has the leaf: it is found at the end of its chain of names, and listed with the
path that they make. -/
def Artifact.HasLeaf (artifact : Artifact) (place : List String × Leaf) : Prop :=
  artifact.root.find? place.1 = some (.leaf place.2) ∧
    (chainText place.1, place.2) ∈ artifact.leaves

/-- **The leaf of a written file** is in the artifact. -/
theorem Rendering.Holds.hasLeaf {rendering : Rendering} {entries : List FileResult}
    (h : rendering.Holds entries) {written : PlannedFile × String}
    (hwritten : written ∈ entries.filterMap written?) :
    rendering.artifact.HasLeaf (leafPlace written) := by
  have hlocated : leafPlace written ∈ rendering.artifact.root.located :=
    h.located_perm.mem_iff.mpr (List.mem_map_of_mem hwritten)
  constructor
  · have hdistinct := h.shows_requests.hasDistinctNames
    exact Directory.find?_of_placeAt? ((Directory.mem_located hdistinct _ _).mp hlocated)
  · rw [Artifact.leaves_eq]
    exact List.mem_map_of_mem hlocated

namespace RenderJob

variable {job : RenderJob} {file : PlannedFile} {plan : List PlannedFile} {rendering : Rendering}

/-- A rendering holds what its planned files came to. -/
theorem exists_plan_of_render (h : job.render = .ok rendering) :
    ∃ plan, Plan.project job.tree job.registry job.options.cancelled = .ok plan ∧
      rendering.Holds (plan.map job.entry) := by
  obtain ⟨plan, hplan, _, hmerge⟩ := job.render_eq_ok.mp h
  exact ⟨plan, hplan, Rendering.holds_of_foldlM hmerge⟩

theorem diagnostics_of_render (hmode : job.options.diagnosticMode = false)
    (h : job.render = .ok rendering) : rendering.diagnostics = [] := by
  obtain ⟨plan, _, _, hmerge⟩ := job.render_eq_ok.mp h
  rw [hmode] at hmerge
  exact (Rendering.foldlM_true_of_foldlM_false hmerge).2

/-- A file with a text has passed its checks and been written. -/
theorem of_entry_eq_ok {text : String} (h : (job.entry file).2 = .ok text) :
    Check.declarations job.tree file.language file.contents.types file.contents.funcs = .ok () ∧
      (job.writeText file).1 = .ok text := by
  unfold entry runFile at h
  rw [if_neg Bool.false_ne_true] at h
  dsimp only at h
  split at h
  · cases h
  · rename_i hchecked
    exact ⟨hchecked, h⟩

theorem mem_written_iff {text : String} :
    (file, text) ∈ (plan.map job.entry).filterMap written? ↔
      file ∈ plan ∧ (job.entry file).2 = .ok text := by
  rw [List.filterMap_map, List.mem_filterMap]
  constructor
  · rintro ⟨other, hother, hwritten⟩
    obtain ⟨own, hown, heq⟩ := Option.map_eq_some_iff.mp hwritten
    obtain ⟨rfl, rfl⟩ := Prod.mk.inj (show (other, own) = (file, text) from heq)
    -- A file that failed is not among those with a text.
    rcases hresult : (job.entry other).2 with failure | result
    · rw [hresult] at hown
      cases hown
    · rw [hresult] at hown
      exact ⟨hother, congrArg Except.ok (Option.some.inj hown)⟩
  · rintro ⟨hfile, htext⟩
    refine ⟨file, hfile, ?_⟩
    show ((job.entry file).2.toOption).map ((job.entry file).1, ·) = some (file, text)
    rw [htext]
    rfl

/-- The failures of planned files are those that they came to. -/
theorem mem_failures_iff {failure : Failure} :
    failure ∈ (plan.map job.entry).filterMap failure? ↔
      ∃ file ∈ plan, (job.entry file).2 = .error failure := by
  have hentry (file : PlannedFile) :
      failure? (job.entry file) = some failure ↔ (job.entry file).2 = .error failure := by
    unfold failure?
    cases (job.entry file).2 <;> simp
  simp only [List.filterMap_map, List.mem_filterMap, Function.comp_apply, hentry]

end RenderJob

end DeclPrinter
