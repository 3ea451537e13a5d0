import DeclPrinter.Proofs.Success
import DeclPrinter.Proofs.Writing.Yields
import DeclPrinter.Render.Basic

/-!
# Writing the files of a plan

A file is written without regard to any other, except that a render that is cancelled
writes no more of them. So either the render is cancelled after all files, and then it
fails for that reason whatever the files came to, or it never was, and then each file came
to what it comes to alone (`RenderJob.entry`). What is left of a render is the merge of
these (`RenderJob.render_eq`).
-/

namespace DeclPrinter

/-- A file with what writing it came to. -/
abbrev FileResult : Type :=
  PlannedFile × Except Failure String

namespace RenderJob

open FileM

/-- The context in which a file is written, its imports settled. -/
def writingContext (job : RenderJob) (file : PlannedFile) : FileContext :=
  { job.context file with imports := some (job.imports file) }

/-- The text of a file is that of its script. -/
theorem exists_script_of_writeText {job : RenderJob} {file : PlannedFile} {text : String}
    (h : (job.writeText file).1 = .ok text) :
    ∃ script, (fileScript job.registry).Yields (job.writingContext file) script ∧
      text = script.text (job.indentUnit file.language) := by
  unfold writeText at h
  dsimp only at h
  split at h
  · cases h
  · rcases hsecond : (job.secondPass file).result with failure | script
    · rw [hsecond] at h
      cases h
    · rw [hsecond] at h
      exact ⟨script, hsecond, (Except.ok.inj h).symm⟩

/-- The file with what writing it comes to in a render that is not cancelled before. -/
def entry (job : RenderJob) (file : PlannedFile) : FileResult :=
  (file, (job.runFile false file).1)

/-- Whether writing the file cancels the render. -/
def cancels (job : RenderJob) (file : PlannedFile) : Bool :=
  (job.runFile false file).2

/-- Whether a render of these files is cancelled at the end, from the outset or by one of
them. -/
def endsCancelled (job : RenderJob) (plan : List PlannedFile) : Bool :=
  job.options.cancelled || plan.any job.cancels

variable (job : RenderJob)

/-- A file of a cancelled render is not written. -/
theorem runFile_true (file : PlannedFile) : job.runFile true file = (.error .cancelled, true) := by
  unfold runFile
  exact if_pos rfl

/-- A render that is cancelled before a file is so after it. -/
theorem runFile_snd (cancelled : Bool) (file : PlannedFile) :
    (job.runFile cancelled file).2 = (cancelled || job.cancels file) := by
  cases cancelled with
  | false => rfl
  | true => rw [runFile_true, Bool.true_or]

/-- Whether the render is cancelled after all files does not depend on their order. -/
theorem runFiles_snd (cancelled : Bool) (plan : List PlannedFile) :
    (job.runFiles cancelled plan).2 = (cancelled || plan.any job.cancels) := by
  induction plan generalizing cancelled with
  | nil =>
    rw [runFiles, List.any_nil, Bool.or_false]
  | cons file rest ih =>
    have hrest := ih (job.runFile cancelled file).2
    rw [runFile_snd, Bool.or_assoc] at hrest
    rw [List.any_cons, ← hrest, ← runFile_snd]
    rfl

/-- Unless the render is cancelled in the end, each file came to what it comes to alone. -/
theorem zip_runFiles {cancelled : Bool} {plan : List PlannedFile}
    (h : (job.runFiles cancelled plan).2 = false) :
    plan.zip (job.runFiles cancelled plan).1 = plan.map job.entry := by
  induction plan generalizing cancelled with
  | nil => rfl
  | cons file rest ih =>
    -- Not cancelled at the end means not cancelled now.
    have hcancelled : cancelled = false := by
      rw [runFiles_snd] at h
      exact (Bool.or_eq_false_iff.mp h).1
    subst hcancelled
    have hflag : (job.runFiles (job.runFile false file).2 rest).2 = false := h
    have hrest := ih hflag
    rw [List.map_cons, ← hrest]
    rfl

/-- **A render is the merge of what the files come to,** unless planning fails or the render
is cancelled in the end. -/
theorem render_eq :
    job.render = (do
      let plan ← Plan.project job.tree job.registry job.options.cancelled
      if job.endsCancelled plan then .error .cancelled
      else (plan.map job.entry).foldlM (Rendering.add job.options.diagnosticMode) .empty) := by
  unfold render
  congr 1
  funext plan
  have hcancels := job.runFiles_snd job.options.cancelled plan
  show Plan.unlessCancelled (job.runFiles job.options.cancelled plan).2 >>= (fun _ =>
    (plan.zip (job.runFiles job.options.cancelled plan).1).foldlM
      (Rendering.add job.options.diagnosticMode) .empty) = _
  -- The flag after the last file says whether any of them cancelled.
  rcases hends : job.endsCancelled plan with _ | _
  · have hflag : (job.runFiles job.options.cancelled plan).2 = false := hcancels.trans hends
    rw [job.zip_runFiles hflag, hflag]
    rfl
  · have hflag : (job.runFiles job.options.cancelled plan).2 = true := hcancels.trans hends
    rw [hflag]
    rfl

/-- What a render that succeeds went through. -/
theorem render_eq_ok {rendering : Rendering} :
    job.render = .ok rendering ↔
      ∃ plan, Plan.project job.tree job.registry job.options.cancelled = .ok plan ∧
        job.endsCancelled plan = false ∧
        (plan.map job.entry).foldlM (Rendering.add job.options.diagnosticMode) .empty =
          .ok rendering := by
  rw [render_eq, bind_eq_ok]
  constructor
  · rintro ⟨plan, hplan, hmerge⟩
    split at hmerge
    · cases hmerge
    · rename_i hends
      exact ⟨plan, hplan, Bool.eq_false_iff.mpr hends, hmerge⟩
  · rintro ⟨plan, hplan, hends, hmerge⟩
    refine ⟨plan, hplan, ?_⟩
    rw [hends]
    exact hmerge

end RenderJob

/-- A failure is reported in diagnostic mode, and ends the render when it is that the render
was cancelled or in the other mode. -/
theorem Rendering.add_failure (mode : Bool) (rendering : Rendering) (file : PlannedFile)
    (failure : Failure) :
    Rendering.add mode rendering (file, .error failure) =
      addDirectories rendering.artifact file >>= fun artifact =>
        if mode = true ∧ failure ≠ .cancelled then
          pure ⟨artifact, rendering.diagnostics ++ [failure]⟩
        else .error failure := by
  unfold add
  cases failure <;> simp

/-- The render of a tree by standard means. -/
def RenderJob.ofTree (tree : DeclTree) : RenderJob where
  tree := tree
  registry := .standard
  resolver := ReferenceTable.standard.lookup
  options := .standard

/-- A Go package with a file for each of the names, which holds a func that returns the type
of that name and ends a statement. -/
def RenderJob.ofTypes (registry : Registry) (names : List String) : RenderJob where
  tree :=
    let (module, tree) := (DeclTree.empty "demo").addModule "demo" "go"
    let (package, tree) := tree.addPackage module "lib" "lib"
    let body : Block := ⟨none, none, [.invoke .terminator], none⟩
    names.foldl (fun tree name =>
      let (file, tree) := tree.addFile package name
      let results : List Param := [⟨"", .simple ⟨name⟩, none, []⟩]
      (tree.addFunc file ⟨name, .exported, none, [], results, body, none⟩).2) tree
  registry := registry
  resolver := ReferenceTable.standard.lookup
  options := .standard

end DeclPrinter
