import DeclPrinter.Proofs.Render.FailureChannel
import DeclPrinter.Proofs.Writing.Expansion

/-!
# Expansions that are too deep

Whatever expanders are registered, a body is written or fails after finitely many calls. On the
way an idiom below the limit is handed to its expander, and one at the limit fails, so that the
file of the body has no text (`expansion_bounded`).
-/

namespace DeclPrinter.RenderJob

open FileM BodyTask

variable {job : RenderJob} {file : PlannedFile}

/-- A file with a text is written in both passes. -/
theorem exists_scripts_of_entry {text : String} (h : (job.entry file).2 = .ok text) :
    (∃ script, (fileScript job.registry).Yields (job.context file) script) ∧
      ∃ script, (fileScript job.registry).Yields (job.writingContext file) script := by
  obtain ⟨_, htext⟩ := of_entry_eq_ok h
  obtain ⟨second, hsecond, _⟩ := exists_script_of_writeText htext
  refine ⟨?_, second, hsecond⟩
  unfold writeText at htext
  dsimp only at htext
  split at htext
  · cases htext
  · rename_i first hfirst
    exact ⟨first, hfirst⟩

/-- **Expansions end, for any expanders.** There is no endless chain of calls in the writing of a
body. An idiom for which an expander is registered is reached through at most as many expansions
as the limit says. Below the limit it is handed to the expander: what that refers to, whether it
cancels the render and how it fails is so for the body. At the limit the body fails at the path
of the idiom, in either pass through a file, and a file with that body has no text. -/
theorem expansion_bounded (job : RenderJob) (func : Func) (place : TreePath) (c : FileContext) :
    let scope : BodyScope := ⟨c.language, func⟩
    let body := (bodyScript job.registry func place).run c
    (WellFounded fun callee caller => Calls job.registry scope c caller callee) ∧
    ∀ depth block below idiom expander,
      Relation.ReflTransGen (Calls job.registry scope c) (ofBody func place)
        (.invoked depth block below idiom) →
      job.registry.expander? c.language.tag idiom.kind = some expander →
      let here := below.below .idiom idiom.kind.label
      depth ≤ expansionLimit ∧
      (depth < expansionLimit →
        body.Includes ((expander.expand idiom ⟨func, block, c.language.tag, here⟩).run c)) ∧
      (depth = expansionLimit →
        body.result = .error (.expansion here idiom.kind (.tooDeep expansionLimit)) ∧
        ∀ file id, c = job.context file ∨ c = job.writingContext file →
          file.contents.HasBody job.tree id → job.tree.func id = func →
          job.tree.funcPath id = place → ∀ text, (job.entry file).2 ≠ .ok text) := by
  intro scope body
  refine ⟨wellFounded_calls job.registry scope c, ?_⟩
  intro depth block below idiom expander hreached hexpander here
  have hincludes := includes_body hreached
  refine ⟨depth_le_of_reached (Nat.zero_le _) hreached, ?_, ?_⟩
  · intro hdepth
    exact hincludes.trans (includes_expand hdepth hexpander)
  · rintro rfl
    have hfails : body.result = .error (.expansion here idiom.kind (.tooDeep expansionLimit)) :=
      hincludes.fails _ (result_of_limit hexpander)
    refine ⟨hfails, ?_⟩
    rintro file id hpass hid rfl rfl text htext
    -- Both passes through a file with a text write all of its bodies.
    have hwritten : ∃ own, (bodyScript job.registry (job.tree.func id)
        (job.tree.funcPath id)).Yields c own := by
      obtain ⟨⟨_, hfirst⟩, _, hsecond⟩ := exists_scripts_of_entry htext
      rcases hpass with rfl | rfl
      · exact (exists_body_of_fileScript hfirst hid).imp fun _ => And.left
      · exact (exists_body_of_fileScript hsecond hid).imp fun _ => And.left
    obtain ⟨own, hown⟩ := hwritten
    have hboth := hfails.symm.trans hown
    cases hboth

/-! ### An idiom that expands to itself -/

/-- What stands for a failure in an endless expansion: a block with a failure in it. -/
def endlessExpansion : List Statement :=
  [.block (Block.headed (.ofText "do") [.invoke (.fail "again")])]

/-- The languages that come with the library, where the expansion of a failure in Java never
ends. -/
def endless : Registry :=
  Registry.standard.addExpander "java" (.constant .fail endlessExpansion)

section

variable {c : FileContext} {func : Func} {place below : TreePath} {message : String} {block : Block}

/-- From a failure the endless expansion leads to failures at all depths up to the limit. -/
theorem reached_of_endless (hjava : c.language = .java)
    (h : Relation.ReflTransGen (Calls endless ⟨c.language, func⟩ c) (ofBody func place)
      (.invoked 0 block below (.fail message))) {depth : Nat} (hdepth : depth ≤ expansionLimit) :
    ∃ block below message, Relation.ReflTransGen (Calls endless ⟨c.language, func⟩ c)
      (ofBody func place) (.invoked depth block below (.fail message)) := by
  induction depth with
  | zero => exact ⟨block, below, message, h⟩
  | succ depth ih =>
    obtain ⟨block, below, message, hreached⟩ := ih (by omega)
    have hexpander : endless.expander? c.language.tag .fail =
        some (.constant .fail endlessExpansion) := by
      rw [hjava]
      rfl
    have hheader (spot : TreePath) :
        (spellHeader spot (some (.ofText "do"))).Yields c (some "do") := rfl
    -- The expansion is a block, and the next failure is in it.
    have hexpansion := hreached.tail
      (.expansion depth block below (.fail message) (by omega) hexpander (yields_pure.mpr rfl))
    have hnested := hexpansion.tail (.nested _ _ _ _ _ _)
    have hbody := hnested.tail (.body _ _ _ (hheader _))
    exact ⟨_, _, _, hbody.tail (.idiom _ _ _ _ _ _)⟩

end

/-- A Java file with a failure in it has no text when failures expand to failures. -/
theorem expansion_bounded_endless :
    let tree := ofFailing "java" []
    let job : RenderJob := { ofTree tree with registry := endless }
    ∀ text, (job.entry (Plan.treeFile tree .java ⟨0⟩ ⟨0⟩ none ⟨0⟩)).2 ≠ .ok text := by
  intro tree job
  let file := Plan.treeFile tree .java ⟨0⟩ ⟨0⟩ none ⟨0⟩
  let c := job.context file
  let func := tree.func ⟨0⟩
  let place := tree.funcPath ⟨0⟩
  have hheader (header : String) (spot : TreePath) :
      (spellHeader spot (some (.ofText header))).Yields c (some header) := rfl
  -- The failure stands in the clause that is chained to the first statement.
  have hblock : Relation.ReflTransGen (Calls endless ⟨c.language, func⟩ c) (ofBody func place)
      (.nested 0 (blockPath place 0) _) := .single (.nested 0 func.body _ place 0 [])
  have hclauses := hblock.tail (.chained 0 _ _ (hheader _ _) (yields_pure.mpr rfl))
  have hclause := hclauses.tail (.clauseBody 0 _ _ (hheader _ _))
  have hidiom := hclause.tail (.idiom 0 _ _ 0 (.fail "no store") [])
  obtain ⟨block, below, message, hreached⟩ := reached_of_endless rfl hidiom (Nat.le_refl _)
  have hexpander : endless.expander? c.language.tag .fail =
      some (.constant .fail endlessExpansion) := rfl
  obtain ⟨_, hidioms⟩ := expansion_bounded job func place c
  obtain ⟨_, _, hlimit⟩ := hidioms expansionLimit block below (.fail message) _ hreached hexpander
  exact (hlimit rfl).2 file ⟨0⟩ (.inl rfl) (.inl List.mem_cons_self) rfl rfl

end DeclPrinter.RenderJob
