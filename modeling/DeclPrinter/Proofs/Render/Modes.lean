import DeclPrinter.Proofs.Render.Run

/-!
# Diagnostic mode and the other

Diagnostic mode reports a file that fails and goes on where the other mode ends the render.
Up to the first such file the two do the same, so a render in diagnostic mode says what the
other would have come to: the same artifact if nothing was reported, the first thing that
was reported otherwise (`RenderJob.render_inMode`).
-/

namespace DeclPrinter

namespace Rendering

variable {rendering next : Rendering} {entry : FileResult} {entries : List FileResult}

/-! ### One file -/

/-- A text that is added brings no report. -/
theorem diagnostics_add_text {mode : Bool} {file : PlannedFile} {text : String}
    (h : add mode rendering (file, .ok text) = .ok next) :
    next.diagnostics = rendering.diagnostics := by
  obtain ⟨middle, _, hrest⟩ := bind_eq_ok.mp h
  obtain ⟨after, _, hnext⟩ := bind_eq_ok.mp hrest
  rw [← pure_eq_ok.mp hnext]

/-- A file that is added outside diagnostic mode is added in it just so, and nothing is
reported. -/
theorem add_true_of_add_false (h : add false rendering entry = .ok next) :
    add true rendering entry = .ok next ∧ next.diagnostics = rendering.diagnostics := by
  obtain ⟨file, failure | text⟩ := entry
  · rw [add_failure] at h
    obtain ⟨middle, _, hrest⟩ := bind_eq_ok.mp h
    rw [if_neg (by simp)] at hrest
    cases hrest
  · exact ⟨h, diagnostics_add_text h⟩

/-- A file that is added in diagnostic mode is added without a report in either mode, or is
reported, and then it ends the render in the other mode. -/
theorem add_false_of_add_true (h : add true rendering entry = .ok next) :
    (add false rendering entry = .ok next ∧ next.diagnostics = rendering.diagnostics) ∨
      ∃ failure, add false rendering entry = .error failure ∧
        next.diagnostics = rendering.diagnostics ++ [failure] := by
  obtain ⟨file, failure | text⟩ := entry
  · -- Without a text: it was reported, so it did not fail by being cancelled.
    right
    rw [add_failure] at h
    obtain ⟨middle, hmiddle, hrest⟩ := bind_eq_ok.mp h
    have hmode : ¬ (false = true ∧ failure ≠ .cancelled) := fun h => Bool.false_ne_true h.1
    refine ⟨failure, ?_, ?_⟩
    · rw [add_failure, hmiddle]
      show (if false = true ∧ failure ≠ .cancelled then
        (pure ⟨middle, rendering.diagnostics ++ [failure]⟩ : Except Failure Rendering)
        else .error failure) = .error failure
      rw [if_neg hmode]
    · split at hrest
      · rw [← pure_eq_ok.mp hrest]
      · cases hrest
  · -- With a text the modes do the same.
    left
    exact ⟨h, diagnostics_add_text h⟩

/-! ### All files -/

/-- Adding files outside diagnostic mode reports nothing and is the same in it. -/
theorem foldlM_true_of_foldlM_false (h : entries.foldlM (add false) rendering = .ok next) :
    entries.foldlM (add true) rendering = .ok next ∧ next.diagnostics = rendering.diagnostics := by
  induction entries generalizing rendering with
  | nil =>
    rw [List.foldlM_nil] at h ⊢
    have heq := pure_eq_ok.mp h
    exact ⟨h, by rw [heq]⟩
  | cons entry rest ih =>
    rw [List.foldlM_cons] at h ⊢
    -- Each file is added without a report, so the diagnostics stay as they are.
    obtain ⟨middle, hentry, hrest⟩ := bind_eq_ok.mp h
    obtain ⟨hentryTrue, hdiagnostics⟩ := add_true_of_add_false hentry
    obtain ⟨hrestTrue, hrestDiagnostics⟩ := ih hrest
    refine ⟨?_, hrestDiagnostics.trans hdiagnostics⟩
    rw [hentryTrue]
    exact hrestTrue

/-- **Up to the first report the modes agree.** Files that were added in diagnostic mode are
added in the other mode too if nothing was reported, and end it with the first report
otherwise. -/
theorem foldlM_false_of_foldlM_true (h : entries.foldlM (add true) rendering = .ok next) :
    (entries.foldlM (add false) rendering = .ok next ∧
        next.diagnostics = rendering.diagnostics) ∨
      ∃ first rest, entries.foldlM (add false) rendering = .error first ∧
        next.diagnostics = rendering.diagnostics ++ first :: rest := by
  induction entries generalizing rendering with
  | nil =>
    left
    rw [List.foldlM_nil] at h ⊢
    have heq := pure_eq_ok.mp h
    exact ⟨h, by rw [heq]⟩
  | cons entry rest ih =>
    rw [List.foldlM_cons] at h
    obtain ⟨middle, hentry, hrest⟩ := bind_eq_ok.mp h
    rw [List.foldlM_cons]
    rcases add_false_of_add_true hentry with ⟨hsame, hdiagnostics⟩ | ⟨failure, hends, hreport⟩
    · rw [hsame, ← hdiagnostics]
      exact ih hrest
    · -- The other mode ends here; whatever comes later is reported after this.
      right
      rw [hends]
      rcases ih hrest with ⟨_, hlater⟩ | ⟨later, others, _, hlater⟩
      · refine ⟨failure, [], rfl, ?_⟩
        rw [hlater, hreport]
      · refine ⟨failure, later :: others, rfl, ?_⟩
        rw [hlater, hreport, List.append_assoc]
        rfl

end Rendering

namespace RenderJob

/-- The job in diagnostic mode or in the other, with everything else as it is. -/
def inMode (job : RenderJob) (diagnosticMode : Bool) : RenderJob :=
  { job with options := { job.options with diagnosticMode := diagnosticMode } }

variable (job : RenderJob)

/-- A render in either mode plans the same, is cancelled alike and merges the same files. -/
theorem render_inMode_eq_ok {diagnosticMode : Bool} {rendering : Rendering} :
    (job.inMode diagnosticMode).render = .ok rendering ↔
      ∃ plan, Plan.project job.tree job.registry job.options.cancelled = .ok plan ∧
        job.endsCancelled plan = false ∧
        (plan.map job.entry).foldlM (Rendering.add diagnosticMode) .empty = .ok rendering :=
  (job.inMode diagnosticMode).render_eq_ok

/-- **Diagnostic mode extends the other.** What succeeds outside diagnostic mode succeeds in
it, with the same artifact and no diagnostics. A render in diagnostic mode without diagnostics
is that of the other mode, one with diagnostics fails in the other mode with the first of
them, and one that fails does so in the other mode as well. -/
theorem render_inMode :
    (∀ rendering, (job.inMode false).render = .ok rendering →
      (job.inMode true).render = .ok rendering ∧ rendering.diagnostics = []) ∧
    (∀ rendering, (job.inMode true).render = .ok rendering → rendering.diagnostics = [] →
      (job.inMode false).render = .ok rendering) ∧
    (∀ rendering first rest, (job.inMode true).render = .ok rendering →
      rendering.diagnostics = first :: rest → (job.inMode false).render = .error first) ∧
    ∀ failure, (job.inMode true).render = .error failure →
      ∃ other, (job.inMode false).render = .error other := by
  have hextends : ∀ rendering, (job.inMode false).render = .ok rendering →
      (job.inMode true).render = .ok rendering ∧ rendering.diagnostics = [] := by
    intro rendering h
    obtain ⟨plan, hplan, hends, hmerge⟩ := job.render_inMode_eq_ok.mp h
    obtain ⟨hmergeTrue, hdiagnostics⟩ := Rendering.foldlM_true_of_foldlM_false hmerge
    exact ⟨job.render_inMode_eq_ok.mpr ⟨plan, hplan, hends, hmergeTrue⟩, hdiagnostics⟩
  refine ⟨hextends, ?_, ?_, ?_⟩
  · intro rendering h hnone
    obtain ⟨plan, hplan, hends, hmerge⟩ := job.render_inMode_eq_ok.mp h
    rcases Rendering.foldlM_false_of_foldlM_true hmerge with ⟨hsame, _⟩ | ⟨first, rest, _, hreport⟩
    · exact job.render_inMode_eq_ok.mpr ⟨plan, hplan, hends, hsame⟩
    · rw [hnone] at hreport
      cases hreport
  · intro rendering first rest h hsome
    obtain ⟨plan, hplan, hends, hmerge⟩ := job.render_inMode_eq_ok.mp h
    rcases Rendering.foldlM_false_of_foldlM_true hmerge with
      ⟨_, hreport⟩ | ⟨other, _, herror, hreport⟩
    · rw [hsome] at hreport
      cases hreport
    · rw [hsome] at hreport
      cases hreport
      rw [render_eq]
      show (Plan.project job.tree job.registry job.options.cancelled >>= fun plan =>
        if job.endsCancelled plan then .error .cancelled
        else (plan.map job.entry).foldlM (Rendering.add false) .empty) = _
      rw [hplan]
      show (if job.endsCancelled plan then _ else _) = _
      rw [hends]
      exact herror
  · intro failure h
    rcases hother : (job.inMode false).render with other | rendering
    · exact ⟨other, rfl⟩
    · -- What succeeds in the other mode succeeds in this one.
      obtain ⟨hsucceeds, _⟩ := hextends rendering hother
      rw [h] at hsucceeds
      cases hsucceeds

/-- One of two files refers to a type that nobody knows. -/
theorem render_inMode_unknown :
    ∃ rendering first,
      ((ofTypes .standard ["time", "nowhere"]).inMode true).render = .ok rendering ∧
        rendering.diagnostics = [first] ∧
        ((ofTypes .standard ["time", "nowhere"]).inMode false).render = .error first := by
  have hcount : ((ofTypes .standard ["time", "nowhere"]).inMode true).render.toOption.map
      (·.diagnostics.length) = some 1 := by decide +kernel
  rcases hrender : ((ofTypes .standard ["time", "nowhere"]).inMode true).render with
    failure | rendering
  · rw [hrender] at hcount
    cases hcount
  · rw [hrender] at hcount
    obtain ⟨first, hfirst⟩ := List.length_eq_one_iff.mp (Option.some.inj hcount)
    obtain ⟨_, _, hfails, _⟩ := render_inMode (ofTypes .standard ["time", "nowhere"])
    exact ⟨rendering, first, rfl, hfirst, hfails rendering first [] hrender hfirst⟩

end RenderJob

end DeclPrinter
