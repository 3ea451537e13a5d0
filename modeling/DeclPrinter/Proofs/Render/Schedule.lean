import DeclPrinter.Proofs.Render.Run
import Mathlib.Data.List.Nodup

/-!
# Files written side by side

The files of a plan need not be written one after another. A worker takes up a file, looks
whether the render is cancelled, writes the file and stores what it came to at the place of
the file in the plan; in the meantime others do the same, and a file that cancels the render
may let them know at any time while it is written. Which files are skipped then depends on
the order of all this.

The outcome does not (`RenderJob.renderBy_eq`). As long as the render is not cancelled no
file was disturbed, and each that is done came to what it comes to alone; once it is
cancelled, a file is to blame that cancels it in any order (`Pool.Sound`). So the look at
the end of the render tells the two cases apart, and in neither does the order show.
-/

namespace DeclPrinter

/-- What happens to the file at an index of the plan. -/
inductive PoolEvent where
  /-- A worker takes it up and looks whether the render is cancelled. -/
  | start (index : Nat)
  /-- The worker lets the others know that the render is cancelled, if the file cancels it. -/
  | signal (index : Nat)
  /-- The worker stores what the file came to. -/
  | finish (index : Nat)
  deriving DecidableEq, Repr, Inhabited

/-- How far a file is. -/
inductive Slot where
  /-- Nobody took it up yet. -/
  | waiting (file : PlannedFile)
  /-- It is being written, and the render was cancelled or not when it was taken up. -/
  | running (file : PlannedFile) (cancelled : Bool)
  /-- It is stored. -/
  | done (entry : FileResult)
  deriving Inhabited

namespace Slot

/-- The file itself. -/
def file : Slot → PlannedFile
  | waiting file => file
  | running file _ => file
  | done entry => entry.1

/-- What the file came to, once it is stored. -/
def result? : Slot → Option FileResult
  | done entry => some entry
  | _ => none

end Slot

/-- The files of a plan while they are written. -/
structure Pool where
  /-- The files in the order of the plan. -/
  slots : List Slot
  /-- Whether the render is cancelled. -/
  cancelled : Bool
  deriving Inhabited

namespace Pool

/-- The pool before anything happened. -/
def initial (cancelled : Bool) (plan : List PlannedFile) : Pool :=
  ⟨plan.map .waiting, cancelled⟩

/-- What all files came to, once each is stored. -/
def results? (pool : Pool) : Option (List FileResult) :=
  pool.slots.mapM Slot.result?

end Pool

namespace RenderJob

/-- The pool after an event; there is none if the file is not as far as the event needs. -/
def poolStep? (job : RenderJob) (pool : Pool) : PoolEvent → Option Pool
  | .start index =>
    match pool.slots[index]? with
    | some (.waiting file) =>
      some { pool with slots := pool.slots.set index (.running file pool.cancelled) }
    | _ => none
  | .signal index =>
    match pool.slots[index]? with
    | some (.running file seen) =>
      some { pool with cancelled := pool.cancelled || (job.runFile seen file).2 }
    | _ => none
  | .finish index =>
    match pool.slots[index]? with
    | some (.running file seen) =>
      some ⟨pool.slots.set index (.done (file, (job.runFile seen file).1)),
        pool.cancelled || (job.runFile seen file).2⟩
    | _ => none

/-- The pool after events, one after another. -/
def poolRun? (job : RenderJob) (schedule : List PoolEvent) (pool : Pool) : Option Pool :=
  schedule.foldlM job.poolStep? pool

/-- The render whose files are written as the schedule says. There is no outcome if the
schedule cannot be followed or leaves out files. -/
def renderBy (job : RenderJob) (schedule : List PoolEvent) : Option (Except Failure Rendering) :=
  match Plan.project job.tree job.registry job.options.cancelled with
  | .error failure => some (.error failure)
  | .ok plan => do
    let pool ← job.poolRun? schedule (.initial job.options.cancelled plan)
    let entries ← pool.results?
    return do
      Plan.unlessCancelled pool.cancelled
      entries.foldlM (Rendering.add job.options.diagnosticMode) .empty

end RenderJob

namespace Slot

/-- The file did not take notice of any other so far, and did not cancel the render. -/
def Undisturbed (job : RenderJob) : Slot → Prop
  | waiting _ => True
  | running _ cancelled => cancelled = false
  | done entry => entry = job.entry entry.1 ∧ job.cancels entry.1 = false

end Slot

namespace Pool

variable {job : RenderJob} {plan : List PlannedFile} {pool next : Pool}

/-- What holds of a pool in any order of events. -/
structure Sound (job : RenderJob) (plan : List PlannedFile) (pool : Pool) : Prop where
  /-- Each file stands at its place. -/
  files_eq : pool.slots.map Slot.file = plan
  /-- A render that is cancelled at the outset stays so. -/
  cancelled_of_options : job.options.cancelled = true → pool.cancelled = true
  /-- A render is only cancelled when it would be in the order of the plan. -/
  endsCancelled_of_cancelled : pool.cancelled = true → job.endsCancelled plan = true
  /-- Until the render is cancelled no file is disturbed. -/
  undisturbed : pool.cancelled = false → ∀ slot ∈ pool.slots, slot.Undisturbed job

namespace Sound

theorem initial : Sound job plan (.initial job.options.cancelled plan) where
  files_eq := by
    unfold Pool.initial
    rw [List.map_map]
    exact List.map_id plan
  cancelled_of_options h := h
  endsCancelled_of_cancelled h := by
    have hcancelled : job.options.cancelled = true := h
    rw [RenderJob.endsCancelled, hcancelled, Bool.true_or]
  undisturbed _ slot hslot := by
    obtain ⟨file, _, rfl⟩ := List.mem_map.mp hslot
    trivial

/-- A pool stays sound when a file gets further, given that the file stays the same. -/
theorem set (h : Sound job plan pool) {index : Nat} {old new : Slot} {cancelled : Bool}
    (hold : pool.slots[index]? = some old) (hfile : new.file = old.file)
    (hkeeps : pool.cancelled = true → cancelled = true)
    (hends : cancelled = true → job.endsCancelled plan = true)
    (hnew : cancelled = false → new.Undisturbed job) :
    Sound job plan ⟨pool.slots.set index new, cancelled⟩ where
  files_eq := by
    show (pool.slots.set index new).map Slot.file = plan
    obtain ⟨hlt, hget⟩ := List.getElem?_eq_some_iff.mp hold
    -- Files are put where they were.
    have hsame : pool.slots.map Slot.file =
        (pool.slots.map Slot.file).set index old.file := by
      rw [← hget, ← List.map_set, List.set_getElem_self]
    rw [List.map_set, hfile, ← hsame, h.files_eq]
  cancelled_of_options hcancelled := hkeeps (h.cancelled_of_options hcancelled)
  endsCancelled_of_cancelled := hends
  undisturbed hcancelled slot hslot := by
    -- Not cancelled now, so not before.
    have hbefore : pool.cancelled = false := by
      rcases hpool : pool.cancelled with _ | _
      · rfl
      · exact (hkeeps hpool).symm.trans hcancelled
    rcases List.mem_or_eq_of_mem_set hslot with hmem | rfl
    · exact h.undisturbed hbefore slot hmem
    · exact hnew hcancelled

/-- A file that is being written cancels the render only if it would in the order of the
plan. -/
theorem endsCancelled_of_running (h : Sound job plan pool) {index : Nat} {file : PlannedFile}
    {seen : Bool} (hslot : pool.slots[index]? = some (.running file seen))
    (hcancels : (pool.cancelled || (job.runFile seen file).2) = true) :
    job.endsCancelled plan = true := by
  rcases hbefore : pool.cancelled with _ | _
  · -- Not cancelled before, so the file saw no cancellation and cancels by itself.
    have hseen : seen = false :=
      h.undisturbed hbefore _ (List.mem_of_getElem? hslot)
    subst hseen
    rw [hbefore, Bool.false_or] at hcancels
    have hmem : file ∈ plan := by
      rw [← h.files_eq]
      exact List.mem_map.mpr ⟨_, List.mem_of_getElem? hslot, rfl⟩
    rw [RenderJob.endsCancelled, Bool.or_eq_true]
    exact Or.inr (List.any_eq_true.mpr ⟨file, hmem, hcancels⟩)
  · exact h.endsCancelled_of_cancelled hbefore

/-- **No event breaks a sound pool.** -/
theorem step (h : Sound job plan pool) {event : PoolEvent}
    (hstep : job.poolStep? pool event = some next) : Sound job plan next := by
  cases event with
  | start index =>
    unfold RenderJob.poolStep? at hstep
    dsimp only at hstep
    split at hstep
    · -- What the file sees is the flag of the pool itself.
      rename_i file hslot
      cases hstep
      exact h.set hslot rfl (fun hcancelled => hcancelled) h.endsCancelled_of_cancelled
        (fun hcancelled => hcancelled)
    · cases hstep
  | signal index =>
    unfold RenderJob.poolStep? at hstep
    dsimp only at hstep
    split at hstep
    · rename_i file seen hslot
      cases hstep
      refine ⟨h.files_eq, ?_, h.endsCancelled_of_running hslot, ?_⟩
      · intro hcancelled
        show (pool.cancelled || _) = true
        rw [h.cancelled_of_options hcancelled, Bool.true_or]
      · intro hcancelled
        exact h.undisturbed (Bool.or_eq_false_iff.mp hcancelled).1
    · cases hstep
  | finish index =>
    unfold RenderJob.poolStep? at hstep
    dsimp only at hstep
    split at hstep
    · rename_i file seen hslot
      cases hstep
      refine h.set hslot rfl ?_ (h.endsCancelled_of_running hslot) ?_
      · intro hcancelled
        rw [hcancelled, Bool.true_or]
      · intro hcancelled
        -- Nobody has cancelled yet, so the file was written as if it were alone.
        obtain ⟨hbefore, hfile⟩ := Bool.or_eq_false_iff.mp hcancelled
        have hseen : seen = false :=
          h.undisturbed hbefore _ (List.mem_of_getElem? hslot)
        subst hseen
        exact ⟨rfl, hfile⟩
    · cases hstep

/-- What holds before events holds after them. -/
theorem run (h : Sound job plan pool) {schedule : List PoolEvent}
    (hrun : job.poolRun? schedule pool = some next) : Sound job plan next := by
  induction schedule generalizing pool with
  | nil =>
    cases hrun
    exact h
  | cons event rest ih =>
    unfold RenderJob.poolRun? at hrun
    rw [List.foldlM_cons] at hrun
    obtain ⟨middle, hevent, hrest⟩ := Option.bind_eq_some_iff.mp hrun
    exact ih (h.step hevent) hrest

end Sound

/-! ### All files stored -/

theorem slots_eq_of_results {entries : List FileResult} (h : pool.results? = some entries) :
    pool.slots = entries.map .done := by
  unfold results? at h
  generalize pool.slots = slots at h ⊢
  induction slots generalizing entries with
  | nil =>
    rw [List.mapM_nil] at h
    cases h
    rfl
  | cons slot rest ih =>
    rw [List.mapM_cons] at h
    obtain ⟨entry, hentry, hrest⟩ := Option.bind_eq_some_iff.mp h
    obtain ⟨others, hothers, hall⟩ := Option.bind_eq_some_iff.mp hrest
    cases hall
    cases slot with
    | waiting file => cases hentry
    | running file seen => cases hentry
    | done own =>
      cases hentry
      rw [List.map_cons, ih hothers]

theorem exists_results (h : ∀ slot ∈ pool.slots, ∃ entry, slot = .done entry) :
    ∃ entries, pool.results? = some entries := by
  unfold results?
  generalize pool.slots = slots at h ⊢
  induction slots with
  | nil => exact ⟨[], List.mapM_nil⟩
  | cons slot rest ih =>
    obtain ⟨entry, rfl⟩ := h slot List.mem_cons_self
    obtain ⟨entries, hentries⟩ := ih fun other hother => h other (List.mem_cons_of_mem _ hother)
    refine ⟨entry :: entries, ?_⟩
    rw [List.mapM_cons, hentries]
    rfl

/-- When all files are stored, the render is cancelled exactly if it is so in the order of
the plan, and otherwise each file came to what it comes to alone. -/
theorem Sound.results (h : Sound job plan pool) {entries : List FileResult}
    (hresults : pool.results? = some entries) :
    pool.cancelled = job.endsCancelled plan ∧
      (pool.cancelled = false → entries = plan.map job.entry) := by
  have hslots := slots_eq_of_results hresults
  have hfiles : entries.map Prod.fst = plan := by
    rw [← h.files_eq, hslots, List.map_map]
    rfl
  -- The flag decides: without it no file was disturbed, with it one is to blame.
  rcases hcancelled : pool.cancelled with _ | _
  · have halone : ∀ entry ∈ entries, entry = job.entry entry.1 ∧ job.cancels entry.1 = false := by
      intro entry hentry
      have hslot : Slot.done entry ∈ pool.slots := by
        rw [hslots]
        exact List.mem_map_of_mem hentry
      exact h.undisturbed hcancelled _ hslot
    constructor
    · have houtset : job.options.cancelled = false := by
        rcases hoptions : job.options.cancelled with _ | _
        · rfl
        · rw [h.cancelled_of_options hoptions] at hcancelled
          cases hcancelled
      have hnone : plan.any job.cancels = false := by
        rw [List.any_eq_false, ← hfiles]
        intro file hfile
        obtain ⟨entry, hentry, rfl⟩ := List.mem_map.mp hfile
        rw [(halone entry hentry).2]
        exact Bool.false_ne_true
      rw [RenderJob.endsCancelled, houtset, hnone]
      rfl
    · intro _
      rw [← hfiles, List.map_map]
      calc
        entries = entries.map id := (List.map_id entries).symm
        _ = entries.map (job.entry ∘ Prod.fst) :=
          List.map_congr_left fun entry hentry => (halone entry hentry).1
  · constructor
    · exact (h.endsCancelled_of_cancelled hcancelled).symm
    · intro hfalse
      cases hfalse

/-! ### One file after another -/

/-- The events of a file that is written without a break. -/
def inTurn (index : Nat) : List PoolEvent :=
  [.start index, .finish index]

theorem run_inTurn (job : RenderJob) {index : Nat} {file : PlannedFile}
    (h : pool.slots[index]? = some (.waiting file)) :
    ∃ entry, job.poolRun? (inTurn index) pool =
      some ⟨pool.slots.set index (.done entry),
        pool.cancelled || (job.runFile pool.cancelled file).2⟩ := by
  obtain ⟨hlt, _⟩ := List.getElem?_eq_some_iff.mp h
  -- The file starts under the flag as it is, and finishes with what it comes to under it.
  have hstart : job.poolStep? pool (.start index) =
      some ⟨pool.slots.set index (.running file pool.cancelled), pool.cancelled⟩ := by
    unfold RenderJob.poolStep?
    dsimp only
    rw [h]
  have hrunning : (pool.slots.set index (.running file pool.cancelled))[index]? =
      some (.running file pool.cancelled) := List.getElem?_set_self hlt
  have hfinish : job.poolStep?
      ⟨pool.slots.set index (.running file pool.cancelled), pool.cancelled⟩ (.finish index) =
      some ⟨pool.slots.set index (.done (file, (job.runFile pool.cancelled file).1)),
        pool.cancelled || (job.runFile pool.cancelled file).2⟩ := by
    unfold RenderJob.poolStep?
    dsimp only
    rw [hrunning]
    dsimp only
    rw [List.set_set]
  refine ⟨(file, (job.runFile pool.cancelled file).1), ?_⟩
  unfold RenderJob.poolRun? inTurn
  rw [List.foldlM_cons, hstart]
  show List.foldlM job.poolStep? _ [.finish index] = _
  rw [List.foldlM_cons, hfinish]
  rfl

/-- Files that wait can be written in any order, and the others are left alone. -/
theorem run_order (job : RenderJob) {order : List Nat} (hnodup : order.Nodup)
    (hwaiting : ∀ index ∈ order, ∃ file, pool.slots[index]? = some (.waiting file)) :
    ∃ final, job.poolRun? (order.flatMap inTurn) pool = some final ∧
      (∀ index ∈ order, ∃ entry, final.slots[index]? = some (.done entry)) ∧
      ∀ index, index ∉ order → final.slots[index]? = pool.slots[index]? := by
  induction order generalizing pool with
  | nil => exact ⟨pool, rfl, by simp, fun _ _ => rfl⟩
  | cons index rest ih =>
    obtain ⟨hnew, hrest⟩ := List.nodup_cons.mp hnodup
    obtain ⟨file, hfile⟩ := hwaiting index List.mem_cons_self
    obtain ⟨entry, hentry⟩ := run_inTurn job hfile
    obtain ⟨hlt, _⟩ := List.getElem?_eq_some_iff.mp hfile
    generalize hmiddle : (⟨pool.slots.set index (.done entry),
      pool.cancelled || (job.runFile pool.cancelled file).2⟩ : Pool) = middle at hentry
    have hslots : middle.slots = pool.slots.set index (.done entry) := by
      rw [← hmiddle]
    -- The others still wait, and the file that is done is not touched again.
    have hstill : ∀ other ∈ rest, ∃ file, middle.slots[other]? = some (.waiting file) := by
      intro other hother
      have hne : index ≠ other := by
        rintro rfl
        exact hnew hother
      rw [hslots, List.getElem?_set_ne hne]
      exact hwaiting other (List.mem_cons_of_mem _ hother)
    obtain ⟨final, hrun, hdone, hothers⟩ := ih hrest hstill
    refine ⟨final, ?_, ?_, ?_⟩
    · unfold RenderJob.poolRun? at hentry hrun ⊢
      rw [List.flatMap_cons, List.foldlM_append, hentry]
      exact hrun
    · intro other hother
      rcases List.mem_cons.mp hother with rfl | hmem
      · refine ⟨entry, ?_⟩
        rw [hothers other hnew, hslots]
        exact List.getElem?_set_self hlt
      · exact hdone other hmem
    · intro other hother
      have hne : index ≠ other := by
        rintro rfl
        exact hother List.mem_cons_self
      have hmem : other ∉ rest := fun hmem => hother (List.mem_cons_of_mem _ hmem)
      rw [hothers other hmem, hslots, List.getElem?_set_ne hne]

/-- Every order of the files stores them all. -/
theorem run_perm (job : RenderJob) {order : List Nat} (h : order.Perm (List.range plan.length))
    (cancelled : Bool) :
    ∃ final entries, job.poolRun? (order.flatMap inTurn) (.initial cancelled plan) = some final ∧
      final.results? = some entries := by
  have hmem (index : Nat) : index ∈ order ↔ index < plan.length := by
    rw [h.mem_iff, List.mem_range]
  have hwaiting : ∀ index ∈ order, ∃ file,
      (initial cancelled plan).slots[index]? = some (.waiting file) := by
    intro index hindex
    have hlt := (hmem index).mp hindex
    refine ⟨plan.get ⟨index, hlt⟩, ?_⟩
    unfold initial
    rw [List.getElem?_map, List.getElem?_eq_getElem hlt]
    rfl
  have hnodup : order.Nodup := h.nodup_iff.mpr List.nodup_range
  obtain ⟨final, hrun, hdone, hothers⟩ := run_order job hnodup hwaiting
  have hall : ∀ slot ∈ final.slots, ∃ entry, slot = .done entry := by
    intro slot hslot
    obtain ⟨index, hindex⟩ := List.mem_iff_getElem?.mp hslot
    by_cases hin : index ∈ order
    · obtain ⟨entry, hentry⟩ := hdone index hin
      rw [hindex] at hentry
      exact ⟨entry, Option.some.inj hentry⟩
    · -- Beyond the plan there are no slots.
      have hout : plan.length ≤ index := Nat.le_of_not_lt fun hlt => hin ((hmem index).mpr hlt)
      rw [hothers index hin, initial, List.getElem?_map, List.getElem?_eq_none hout] at hindex
      cases hindex
  obtain ⟨entries, hentries⟩ := exists_results hall
  exact ⟨final, entries, hrun, hentries⟩

end Pool

namespace RenderJob

variable {job : RenderJob} {plan : List PlannedFile} {schedule : List PoolEvent}

/-- A pool whose files are all stored gives the render in the order of the plan. -/
theorem merge_of_results {pool : Pool} {entries : List FileResult}
    (hplan : Plan.project job.tree job.registry job.options.cancelled = .ok plan)
    (hsound : Pool.Sound job plan pool) (hresults : pool.results? = some entries) :
    (do
      Plan.unlessCancelled pool.cancelled
      entries.foldlM (Rendering.add job.options.diagnosticMode) .empty) = job.render := by
  obtain ⟨hcancelled, hentries⟩ := hsound.results hresults
  -- Uncancelled, the pool has for each file what the file comes to alone.
  rw [render_eq, hplan]
  show _ = if job.endsCancelled plan then _ else _
  rw [← hcancelled]
  rcases hpool : pool.cancelled with _ | _
  · rw [hentries hpool]
    rfl
  · rfl

/-- Whatever a schedule yields is what the render in the order of the plan does. -/
theorem eq_render_of_renderBy {outcome : Except Failure Rendering}
    (h : job.renderBy schedule = some outcome) : outcome = job.render := by
  unfold renderBy at h
  split at h
  · -- Planning failed, and there is no pool.
    rename_i failure hplan
    cases h
    rw [render_eq, hplan]
    rfl
  · rename_i plan hplan
    obtain ⟨pool, hrun, hrest⟩ := Option.bind_eq_some_iff.mp h
    obtain ⟨entries, hresults, hmerge⟩ := Option.bind_eq_some_iff.mp hrest
    have hsound := Pool.Sound.initial.run hrun
    cases hmerge
    exact merge_of_results hplan hsound hresults

/-- A render that is cancelled in the end says so, and nothing else. -/
theorem render_of_endsCancelled
    (hplan : Plan.project job.tree job.registry job.options.cancelled = .ok plan)
    (hends : job.endsCancelled plan = true) : job.render = .error .cancelled := by
  rw [render_eq, hplan]
  show (if job.endsCancelled plan then _ else _) = _
  rw [hends]
  rfl

/-- **The order in which files are written has no part in the outcome.** Whatever a schedule
yields is what the render in the order of the plan does, and every order of the files can be
followed to the end. As soon as the render is cancelled in the course of some schedule, by a
file that got to cancel it, all schedules yield that it was cancelled, and so they do when
some file would cancel it by itself. -/
theorem renderBy_eq (job : RenderJob) :
    (∀ schedule outcome, job.renderBy schedule = some outcome → outcome = job.render) ∧
    (∀ plan, Plan.project job.tree job.registry job.options.cancelled = .ok plan →
      ∀ order : List Nat, order.Perm (List.range plan.length) →
        job.renderBy (order.flatMap Pool.inTurn) = some job.render) ∧
    (∀ plan, Plan.project job.tree job.registry job.options.cancelled = .ok plan →
      ∀ begun pool, job.poolRun? begun (.initial job.options.cancelled plan) = some pool →
        pool.cancelled = true →
        ∀ schedule outcome, job.renderBy schedule = some outcome →
          outcome = .error .cancelled) ∧
    ∀ plan, Plan.project job.tree job.registry job.options.cancelled = .ok plan →
      (∃ file ∈ plan, job.cancels file = true) →
      ∀ schedule outcome, job.renderBy schedule = some outcome →
        outcome = .error .cancelled := by
  refine ⟨fun _ _ => eq_render_of_renderBy, ?_, ?_, ?_⟩
  · -- Every order of the files is followed to the end.
    intro plan hplan order horder
    obtain ⟨pool, entries, hrun, hresults⟩ :=
      Pool.run_perm job horder job.options.cancelled
    unfold renderBy
    rw [hplan]
    dsimp only
    rw [hrun]
    simp only [Option.bind_eq_bind, Option.bind_some, hresults]
    exact congrArg some (merge_of_results hplan (Pool.Sound.initial.run hrun) hresults)
  · -- Cancelled in the course of one schedule, the render ends so by all.
    intro plan hplan begun pool hbegun hcancelled schedule outcome h
    have hsound := Pool.Sound.initial.run hbegun
    rw [eq_render_of_renderBy h]
    exact render_of_endsCancelled hplan (hsound.endsCancelled_of_cancelled hcancelled)
  · -- A file that cancels does so in every schedule, unless another has done so before.
    intro plan hplan hfile schedule outcome h
    have hends : job.endsCancelled plan = true := by
      rw [endsCancelled, Bool.or_eq_true]
      exact Or.inr (List.any_eq_true.mpr hfile)
    rw [eq_render_of_renderBy h]
    exact render_of_endsCancelled hplan hends

/-- Both files end a statement, and that cancels the render, whichever is first. -/
theorem renderBy_cancelling :
    (ofTypes (.addExpander .standard "go" (.cancelling .terminator)) ["time", "string"]).renderBy
      [.start 1, .start 0, .finish 0, .finish 1] = some (.error .cancelled) := by
  generalize hjob : ofTypes (.addExpander .standard "go" (.cancelling .terminator))
    ["time", "string"] = job
  have hcancels : (Plan.project job.tree job.registry job.options.cancelled).toOption.any
      (·.any job.cancels) = true := by
    subst hjob
    decide +kernel
  have hsome : (job.renderBy [.start 1, .start 0, .finish 0, .finish 1]).isSome = true := by
    subst hjob
    decide +kernel
  obtain ⟨outcome, houtcome⟩ := Option.isSome_iff_exists.mp hsome
  rcases hplan : Plan.project job.tree job.registry job.options.cancelled with failure | plan
  · -- With a plan there is a file that cancels.
    rw [hplan] at hcancels
    cases hcancels
  · rw [hplan] at hcancels
    obtain ⟨_, _, _, hall⟩ := renderBy_eq job
    have hfile : ∃ file ∈ plan, job.cancels file = true := List.any_eq_true.mp hcancels
    rw [houtcome, hall plan hplan hfile _ outcome houtcome]

end RenderJob

end DeclPrinter
