import DeclPrinter.Proofs.Check.Surroundings
import DeclPrinter.Proofs.Render.Run
import DeclPrinter.Proofs.Writing.SurroundingsFile

/-!
# Files in other renders

What writing a file comes to is a failure or a script, of which the text is made at the end
(`RenderJob.entry_eq`). In the render of another tree that has in common what the file declares, and
whatever the units of indentation, it is the same within the tolerance that there is for its bodies
(`RenderJob.agree_script`). With the built-in expanders and the same bodies it is the same script or
the same failure (`RenderJob.script_inTree`).
-/

namespace DeclPrinter.RenderJob

variable {job : RenderJob} {file : PlannedFile}

/-- The script of a file that passes its checks and both passes. -/
def script (job : RenderJob) (file : PlannedFile) : Except Failure Script := do
  Check.declarations job.tree file.language file.contents.types file.contents.funcs
  let _ ← (job.firstPass file).result
  (job.secondPass file).result

/-- **What writing a file comes to** is made of its script. -/
theorem entry_eq (job : RenderJob) (file : PlannedFile) :
    job.entry file = (file, (job.script file).map (·.text (job.indentUnit file.language))) := by
  unfold entry runFile writeText script
  rw [if_neg Bool.false_ne_true]
  rcases Check.declarations job.tree file.language file.contents.types file.contents.funcs with
    failure | _
  · rfl
  · rcases hfirst : (job.firstPass file).result with failure | first
    · simp only [hfirst]
      rfl
    · simp only [hfirst]
      rfl

/-- What cancels the render is in the first pass, or in the second if there is one. -/
theorem cancels_eq (job : RenderJob) (file : PlannedFile) :
    job.cancels file =
      ((Check.declarations job.tree file.language file.contents.types file.contents.funcs).isOk &&
        ((job.firstPass file).cancels ||
          ((job.firstPass file).result.isOk && (job.secondPass file).cancels))) := by
  unfold cancels runFile writeText
  rw [if_neg Bool.false_ne_true]
  rcases Check.declarations job.tree file.language file.contents.types file.contents.funcs with
    failure | _
  · rfl
  · rcases hfirst : (job.firstPass file).result with failure | first
    · simp only [hfirst, Except.isOk, Except.toBool, Bool.false_and, Bool.or_false, Bool.true_and]
    · simp only [hfirst, Except.isOk, Except.toBool, Bool.true_and]

/-- The render of another tree with other options. -/
def inTree (job : RenderJob) (tree : DeclTree) (options : Settings) : RenderJob :=
  { job with tree := tree, options := options }

variable {part : TreeNode → Prop} {other : DeclTree} {options : Settings} {t : Tolerance}

/-- The bodies in the file come to the same in the other tree within the tolerance, whatever the
imports. -/
def AgreesOnBodies (job : RenderJob) (t : Tolerance) (file : PlannedFile) (other : DeclTree) :
    Prop :=
  ∀ id, file.contents.HasBody job.tree id → ∀ imports frame,
    t.BodyInTree job.registry { job.context file with imports := imports } other frame id

section

variable (h : (job.context file).SharesDeclarations part other)
  (hinterfaces : Check.SameInterfaceBodies job.tree other file.contents.types)
  (hbodies : job.AgreesOnBodies t file other)

include h hinterfaces

theorem checks_inTree :
    Check.declarations (job.inTree other options).tree file.language file.contents.types
        file.contents.funcs =
      Check.declarations job.tree file.language file.contents.types file.contents.funcs :=
  Check.declarations_inTree h.alike h.closed hinterfaces h.types h.funcs

omit hinterfaces
include hbodies

theorem agree_firstPass (options : Settings) :
    (job.firstPass file).Alike t.failures t.scripts
      ((job.inTree other options).firstPass file) := by
  have hagree : t.Agree (job.context file) ((job.context file).inTree other
      ⟨(job.inTree other options).indentUnit file.language, file.contents.preamble⟩)
      (fileScript job.registry) (fileScript job.registry) :=
    agree_fileScript h t (fun id hid => hbodies id hid none _) rfl
  exact hagree

/-- The imports are settled alike, since the first pass has the same references. -/
theorem imports_inTree : (job.inTree other options).imports file = job.imports file := by
  unfold imports
  rw [← (agree_firstPass h hbodies options).references_eq]

theorem agree_secondPass (options : Settings) :
    (job.secondPass file).Alike t.failures t.scripts
      ((job.inTree other options).secondPass file) := by
  -- Imports that are settled are nothing that a file declares.
  have hwriting : (job.writingContext file).SharesDeclarations part other :=
    ⟨h.closed, h.alike, h.tags, h.module, h.package, h.types, h.funcs⟩
  have hagree : t.Agree (job.writingContext file) ((job.writingContext file).inTree other
      ⟨(job.inTree other options).indentUnit file.language, file.contents.preamble⟩)
      (fileScript job.registry) (fileScript job.registry) :=
    agree_fileScript hwriting t (fun id hid => hbodies id hid _ _) rfl
  unfold secondPass
  rw [imports_inTree h hbodies]
  exact hagree

include hinterfaces

/-- **A file has the same script** in the other render within the tolerance, or both fail. -/
theorem agree_script :
    ResultsAlike t.failures t.scripts (job.script file)
      ((job.inTree other options).script file) := by
  have hfirst := (agree_firstPass h hbodies options).results
  have hsecond := (agree_secondPass h hbodies options).results
  unfold script
  rw [checks_inTree h hinterfaces]
  rcases Check.declarations job.tree file.language file.contents.types file.contents.funcs with
    failure | _
  · exact t.failures_equiv.refl failure
  · exact hfirst.bind fun _ _ _ => hsecond

/-- If scripts of the tolerance make the same texts, then with the same options it comes to the same
text, too. -/
theorem agree_entry (htexts : ∀ {first second : Script}, t.scripts first second →
      ∀ unit, first.text unit = second.text unit) :
    ResultsAlike t.failures Eq (job.entry file).2
      ((job.inTree other job.options).entry file).2 := by
  rw [entry_eq, entry_eq]
  exact (agree_script h hinterfaces hbodies).map fun _ _ hscripts => htexts hscripts _

theorem cancels_of_agree : (job.inTree other options).cancels file = job.cancels file := by
  have hfirst := agree_firstPass h hbodies options
  have hsecond := agree_secondPass h hbodies options
  rw [cancels_eq, cancels_eq, checks_inTree h hinterfaces, hfirst.cancels_eq, hsecond.cancels_eq,
    hfirst.results.isOk_eq]

end

/-- Where bodies come to the same in one file, whatever its imports, they do so in both trees. -/
theorem agreesOnBodies_of_agree (h : (job.context file).SharesDeclarations part other)
    (hregistry : job.registry.BuiltIn)
    (hbodies : ∀ id, file.contents.HasBody job.tree id → ∀ imports,
      let c : FileContext := { job.context file with imports := imports }
      t.Agree c c (bodyScript job.registry (job.tree.func id) (job.tree.funcPath id))
        (bodyScript job.registry (other.func id) (job.tree.funcPath id))) :
    job.AgreesOnBodies t file other := by
  intro id hid imports frame
  -- Imports that are settled are nothing that a file declares.
  have hcontext :
      ({ job.context file with imports := imports } : FileContext).SharesDeclarations part other :=
    ⟨h.closed, h.alike, h.tags, h.module, h.package, h.types, h.funcs⟩
  exact bodyInTree_of_agree hcontext hregistry (hbodies id hid imports)

section

variable (h : (job.context file).RestsOn part other) (hregistry : job.registry.BuiltIn)

include h

theorem sameInterfaceBodies_of_restsOn :
    Check.SameInterfaceBodies job.tree other file.contents.types :=
  fun type htype _ _ hmethod =>
    congrArg Block.isEmpty (h.bodies (h.closed.func_of_type (h.types type htype) hmethod))

include hregistry

theorem agreesOnBodies_of_restsOn (t : Tolerance) : job.AgreesOnBodies t file other := by
  apply agreesOnBodies_of_agree h.toSharesDeclarations hregistry
  intro id hid imports
  have hpart := part_of_hasBody h hid
  exact Tolerance.agree_bodyScript_self (.refl _) hregistry (h.alike.func hpart) (h.bodies hpart) _

/-- **A file has the same script** in the other render, or fails in the same way. -/
theorem script_inTree : (job.inTree other options).script file = job.script file :=
  (agree_script h.toSharesDeclarations (sameInterfaceBodies_of_restsOn h)
    (agreesOnBodies_of_restsOn h hregistry .none)).eq.symm

/-- With the same options it comes to the same text, too. -/
theorem entry_inTree : (job.inTree other job.options).entry file = job.entry file := by
  rw [entry_eq, entry_eq, script_inTree h hregistry]
  rfl

theorem cancels_inTree : (job.inTree other options).cancels file = job.cancels file :=
  cancels_of_agree h.toSharesDeclarations (sameInterfaceBodies_of_restsOn h)
    (agreesOnBodies_of_restsOn h hregistry .none)

end

/-- **A render is cancelled in the end** if the other is, from the outset or by one of its files. -/
theorem endsCancelled_of_cancels {plan : List PlannedFile}
    (h : ∀ file ∈ plan, (job.inTree other options).cancels file = job.cancels file)
    (hoptions : options.cancelled = job.options.cancelled) :
    (job.inTree other options).endsCancelled plan = job.endsCancelled plan := by
  have hany := congrArg (List.any · id) (List.map_congr_left h)
  simp only [List.any_map, Function.id_comp] at hany
  rw [endsCancelled, endsCancelled, hany]
  exact congrArg (· || plan.any job.cancels) hoptions

theorem endsCancelled_inTree {plan : List PlannedFile} (hregistry : job.registry.BuiltIn)
    (h : ∀ file ∈ plan, (job.context file).RestsOn part other)
    (hoptions : options.cancelled = job.options.cancelled) :
    (job.inTree other options).endsCancelled plan = job.endsCancelled plan :=
  endsCancelled_of_cancels (fun file hfile => cancels_inTree (h file hfile) hregistry) hoptions

end DeclPrinter.RenderJob
