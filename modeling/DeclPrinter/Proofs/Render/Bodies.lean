import DeclPrinter.Proofs.Render.Surroundings

/-!
# Bodies in a render

The checks on packages and the plan of a render look neither at metadata nor into bodies
(`Plan.project_of_hollow`). So renders of trees that differ in nothing else write the same files,
and come to the same if these do.
-/

namespace DeclPrinter

variable {tree : DeclTree} {registry : Registry} {language : Language}

/-! ### Checks and the plan -/

namespace Check

theorem funcNames_hollow (id : PackageId) :
    funcNames tree.hollow language id = funcNames tree language id := by
  refine List.map_congr_left fun func _ => ?_
  rw [DeclTree.func_hollow]
  rfl

theorem finiteStructs_hollow (id : PackageId) :
    finiteStructs tree.hollow id = finiteStructs tree id := by
  have hheld : heldStruct? tree.hollow id = heldStruct? tree id := by
    funext field
    unfold heldStruct?
    rw [DeclTree.field_hollow]
    rfl
  have hcycle : valueCycle? tree.hollow id = valueCycle? tree id := by
    unfold valueCycle? heldStructs
    rw [hheld]
    rfl
  unfold finiteStructs
  rw [hcycle]
  rfl

theorem package_hollow (id : PackageId) :
    Check.package tree.hollow language id = Check.package tree language id := by
  unfold Check.package
  rw [funcNames_hollow, finiteStructs_hollow]
  rfl

end Check

namespace Plan

variable {cancelled : Bool}

theorem package_hollow (module : ModuleId) (id : PackageId) :
    Plan.package tree.hollow language cancelled module id =
      Plan.package tree language cancelled module id := by
  unfold Plan.package
  rw [Check.package_hollow]
  rfl

theorem module_hollow (id : ModuleId) :
    Plan.module tree.hollow registry cancelled id =
      Plan.module tree registry cancelled id := by
  have hpackage (language : Language) :
      Plan.package tree.hollow language cancelled id =
        Plan.package tree language cancelled id :=
    funext fun package => package_hollow id package
  unfold Plan.module
  simp only [hpackage]
  rfl

theorem project_hollow :
    Plan.project tree.hollow registry cancelled = Plan.project tree registry cancelled := by
  have hmodule : Plan.module tree.hollow registry cancelled =
      Plan.module tree registry cancelled :=
    funext fun id => module_hollow id
  unfold Plan.project
  rw [hmodule]
  rfl

/-- **Neither metadata nor what is in bodies has a part in the plan** of a render. -/
theorem project_of_hollow {other : DeclTree} (h : other.hollow = tree.hollow) :
    Plan.project other registry cancelled = Plan.project tree registry cancelled := by
  rw [← project_hollow, h, project_hollow]

end Plan

/-! ### Merging -/

/-- The renderings have the same artifact, and diagnostics that are related one by one. -/
structure Rendering.Alike (F : Failure → Failure → Prop) (first second : Rendering) : Prop where
  artifact : second.artifact = first.artifact
  diagnostics : List.Forall₂ F first.diagnostics second.diagnostics

namespace Rendering

variable {F : Failure → Failure → Prop} {mode : Bool} {rendering other : Rendering}

/-- With the same failures they are the same. -/
theorem alike_eq : Alike Eq = Eq := by
  funext rendering other
  apply propext
  constructor
  · rintro ⟨hartifact, hdiagnostics⟩
    rw [List.forall₂_eq_eq_eq] at hdiagnostics
    cases rendering
    cases other
    rw [mk.injEq]
    exact ⟨hartifact.symm, hdiagnostics⟩
  · rintro rfl
    exact ⟨rfl, List.forall₂_same.mpr fun _ _ => rfl⟩

section

variable (hfailures : Equivalence F)
  (hcancelled : ∀ first second, F first second → (first = .cancelled ↔ second = .cancelled))

include hfailures hcancelled

/-- A file comes to related results, and so do the renderings that it is added to. -/
theorem add_alike (h : rendering.Alike F other) {entry entryOther : FileResult}
    (hfile : entryOther.1 = entry.1) (hresults : ResultsAlike F Eq entry.2 entryOther.2) :
    ResultsAlike F (Alike F) (add mode rendering entry) (add mode other entryOther) := by
  obtain ⟨file, first⟩ := entry
  obtain ⟨own, second⟩ := entryOther
  obtain rfl : file = own := hfile.symm
  have hdirectories : ResultsAlike F Eq (addDirectories rendering.artifact file)
      (addDirectories other.artifact file) := by
    rw [h.artifact]
    exact .refl hfailures eq_equivalence _
  rcases first with failure | text <;> rcases second with failureOther | textOther
  · rw [add_failure, add_failure]
    apply hdirectories.bind
    rintro artifact _ rfl
    -- All failures but cancellations are reported, and a cancellation is one in both.
    have hreported : (mode = true ∧ failureOther ≠ .cancelled) ↔
        (mode = true ∧ failure ≠ .cancelled) := by
      rw [ne_eq, ne_eq, hcancelled failure failureOther hresults]
    rw [if_congr hreported rfl rfl]
    split
    · exact ⟨rfl, List.rel_append h.diagnostics (.cons hresults .nil)⟩
    · exact hresults
  · exact hresults.elim
  · exact hresults.elim
  · obtain rfl : text = textOther := hresults
    apply hdirectories.bind
    rintro artifact _ rfl
    let added := settled file (artifact.addLeaf file.dir file.leaf (leafOf file text))
    have hleaf : ResultsAlike F Eq added added := .refl hfailures eq_equivalence added
    apply hleaf.bind
    rintro after _ rfl
    exact ⟨rfl, h.diagnostics⟩

/-- **Files that come to related results** are merged into related renderings. -/
theorem foldlM_add_alike {entries others : List FileResult}
    (hentries : List.Forall₂ (fun entry entryOther =>
      entryOther.1 = entry.1 ∧ ResultsAlike F Eq entry.2 entryOther.2) entries others)
    (h : rendering.Alike F other) :
    ResultsAlike F (Alike F) (entries.foldlM (add mode) rendering)
      (others.foldlM (add mode) other) := by
  induction hentries generalizing rendering other with
  | nil => exact h
  | cons hfirst _ ih =>
    rw [List.foldlM_cons, List.foldlM_cons]
    apply (add_alike hfailures hcancelled h hfirst.1 hfirst.2).bind
    intro _ _ hnext
    exact ih hnext

end

end Rendering

/-! ### Renders -/

namespace RenderJob

variable {job : RenderJob} {other : DeclTree} {F : Failure → Failure → Prop}

/-- **Renders of trees that differ in bodies and metadata alone** come to related results if each
of their files does. -/
theorem render_alike (hfailures : Equivalence F)
    (hcancelled : ∀ first second, F first second → (first = .cancelled ↔ second = .cancelled))
    (h : other.hollow = job.tree.hollow)
    (hfiles : ∀ plan, Plan.project job.tree job.registry job.options.cancelled = .ok plan →
      ∀ file ∈ plan,
        ResultsAlike F Eq (job.entry file).2 ((job.inTree other job.options).entry file).2 ∧
          (job.inTree other job.options).cancels file = job.cancels file) :
    ResultsAlike F (Rendering.Alike F) job.render
      ({ job with tree := other } : RenderJob).render := by
  have hsame : Plan.project other job.registry job.options.cancelled =
      Plan.project job.tree job.registry job.options.cancelled := Plan.project_of_hollow h
  rw [render_eq, render_eq]
  dsimp only
  rw [hsame]
  rcases hplan : Plan.project job.tree job.registry job.options.cancelled with failure | plan
  · exact hfailures.refl failure
  · -- They have the same plan, and are cancelled after it or not at all.
    have hends : (job.inTree other job.options).endsCancelled plan = job.endsCancelled plan :=
      endsCancelled_of_cancels (fun file hfile => (hfiles plan hplan file hfile).2) rfl
    show ResultsAlike F (Rendering.Alike F) (if job.endsCancelled plan then _ else _)
      (if (job.inTree other job.options).endsCancelled plan then _ else
        (plan.map (job.inTree other job.options).entry).foldlM _ _)
    rw [hends]
    split
    · exact hfailures.refl _
    · apply Rendering.foldlM_add_alike hfailures hcancelled _ ⟨rfl, .nil⟩
      rw [List.forall₂_map_left_iff, List.forall₂_map_right_iff, List.forall₂_same]
      exact fun file hfile => ⟨rfl, (hfiles plan hplan file hfile).1⟩

end RenderJob

end DeclPrinter
