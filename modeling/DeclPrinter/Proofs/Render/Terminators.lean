import DeclPrinter.Proofs.Render.Bodies
import DeclPrinter.Proofs.Render.FailureChannel
import DeclPrinter.Proofs.Writing.Terminators

/-!
# Terminators in a render

A terminator is put as a statement or as an idiom, and what comes of it is the same. In Go nothing
comes of it, so there it may as well be left out; what differs then is in failures alone, which name
a statement by its position. So trees that differ only in how they put terminators are rendered to
the same result. If in Go they differ in terminators in any other way, the texts of all files are
still the same (`RenderJob.render_of_terminators`).
-/

namespace DeclPrinter

/-- The func is declared in a module of another language than Go, or is listed in an interface. -/
def DeclTree.NeedsTerminators (tree : DeclTree) (registry : Registry) (id : FuncId) : Prop :=
  (∃ module ∈ tree.project.modules, ∃ language,
    registry.language? (tree.module module).language = some language ∧
      language.dialect ≠ .go ∧
      ∃ package ∈ (tree.module module).packages, tree.DeclaresFunc package id) ∨
    ∃ type, (tree.type type).kind = .interface ∧ id ∈ (tree.type type).methods

/-- Where both failures have a place or both have none, one is a cancellation if the other is. -/
theorem Tolerance.SamePlaced.cancelled_iff {first second : Failure}
    (h : SamePlaced first second) : first = .cancelled ↔ second = .cancelled := by
  cases first <;> cases second <;> simp_all [SamePlaced, Failure.path?]

namespace RenderJob

variable {job : RenderJob} {other : DeclTree} {plan : List PlannedFile} {file : PlannedFile}
  {ending : List Statement}

/-- The language of a planned file is registered. -/
theorem language_mem_of_mem_plan
    (hplan : Plan.project job.tree job.registry job.options.cancelled = .ok plan)
    (hfile : file ∈ plan) : file.language ∈ job.registry.languages := by
  obtain ⟨_, _, language, hlanguage, _, _, _, _, hplanned⟩ :=
    (Plan.mem_project_iff hplan file).mp hfile
  rw [hplanned.home.1]
  exact List.mem_of_find?_eq_some hlanguage

/-- What has a body in a file of another language than Go needs its terminators. -/
theorem needsTerminators_of_hasBody
    (hplan : Plan.project job.tree job.registry job.options.cancelled = .ok plan)
    (hfile : file ∈ plan) (hgo : file.language.dialect ≠ .go) {id : FuncId}
    (hid : file.contents.HasBody job.tree id) : job.tree.NeedsTerminators job.registry id := by
  obtain ⟨module, hmodule, language, hlanguage, package, hpackage, _, _, hplanned⟩ :=
    (Plan.mem_project_iff hplan file).mp hfile
  rw [hplanned.home.1] at hgo
  exact .inl ⟨module, hmodule, language, hlanguage, hgo, package, hpackage,
    hplanned.declaresFunc hid⟩

section

variable (hregistry : job.registry.BuiltIn)
  (hends : ∀ language ∈ job.registry.languages, job.registry.EndsStatements language)

include hregistry

/-- A file comes to the same if its bodies come to scripts of the same effect. -/
theorem agree_entry_of_terminatedBy {F : Failure → Failure → Prop} (hfailures : Equivalence F)
    (h : other.terminatedBy ending = job.tree.terminatedBy ending)
    (hinterfaces : ∀ type, (job.tree.type type).kind = .interface →
      ∀ id ∈ (job.tree.type type).methods,
        (other.func id).terminatedBy [.terminator] = (job.tree.func id).terminatedBy [.terminator])
    (hbodies : ∀ id, file.contents.HasBody job.tree id → ∀ c : FileContext,
      c.language = file.language → (Tolerance.effect hfailures).Agree c c
        (bodyScript job.registry (job.tree.func id) (job.tree.funcPath id))
        (bodyScript job.registry (other.func id) (job.tree.funcPath id))) :
    ResultsAlike F Eq (job.entry file).2 ((job.inTree other job.options).entry file).2 ∧
      (job.inTree other job.options).cancels file = job.cancels file := by
  have hhollow := DeclTree.hollow_eq_of_terminatedBy h
  have hshares : (job.context file).SharesDeclarations (fun _ => True) other :=
    .of_hollow hhollow fun _ _ _ id _ =>
      (congrArg (fun tree => (DeclTree.field tree id).markers) h :)
  have hagrees : job.AgreesOnBodies (.effect hfailures) file other :=
    agreesOnBodies_of_agree hshares hregistry fun id hid _ => hbodies id hid _ rfl
  -- Where bodies are looked at by checks, they are empty in both trees or in neither.
  have hempty : Check.SameInterfaceBodies job.tree other file.contents.types := by
    intro type _ hkind id hid
    have hbody := congrArg (fun func : Func => func.body.isEmpty) (hinterfaces type hkind id hid)
    simpa [Func.terminatedBy, Block.isEmpty_terminatedBy] using hbody
  exact ⟨agree_entry hshares hempty hagrees fun hscripts => hscripts.text_eq,
    cancels_of_agree hshares hempty hagrees⟩

include hends

/-- **Terminators may be put either way.** -/
theorem render_of_respelled
    (h : other.terminatedBy [.terminator] = job.tree.terminatedBy [.terminator]) :
    ({ job with tree := other } : RenderJob).render = job.render := by
  have halike : ResultsAlike Eq (Rendering.Alike Eq) job.render
      ({ job with tree := other } : RenderJob).render := by
    apply render_alike eq_equivalence (fun _ _ hfailure => by rw [hfailure])
      (DeclTree.hollow_eq_of_terminatedBy h)
    intro plan hplan file hfile
    have hlanguage := language_mem_of_mem_plan hplan hfile
    apply agree_entry_of_terminatedBy hregistry eq_equivalence h
      fun _ _ id _ => DeclTree.func_eq_of_terminatedBy h id
    intro id _ c hc
    exact Tolerance.agree_bodyScript_respelled hregistry (hc ▸ hends _ hlanguage)
      (DeclTree.func_eq_of_terminatedBy h id) _
  -- With equal failures renderings that are alike are equal.
  rw [Rendering.alike_eq] at halike
  exact halike.eq.symm

section

variable (h : other.terminatedBy [] = job.tree.terminatedBy [])
  (hneeds : ∀ id, job.tree.NeedsTerminators job.registry id →
    (other.func id).terminatedBy [.terminator] = (job.tree.func id).terminatedBy [.terminator])

include h hneeds

/-- **In Go terminators may as well be left out** of what is no interface: each file comes to the
same text, or to a failure in both trees. -/
theorem agree_entry_of_deleted
    (hplan : Plan.project job.tree job.registry job.options.cancelled = .ok plan)
    (hfile : file ∈ plan) :
    ResultsAlike Tolerance.SamePlaced Eq (job.entry file).2
        ((job.inTree other job.options).entry file).2 ∧
      (job.inTree other job.options).cancels file = job.cancels file := by
  have hlanguage := hends _ (language_mem_of_mem_plan hplan hfile)
  apply agree_entry_of_terminatedBy hregistry Tolerance.samePlaced_equiv h
    fun type hkind id hid => hneeds id (.inr ⟨type, hkind, hid⟩)
  intro id hid c hc
  -- In another language than Go every body needs its terminators.
  by_cases hgo : file.language.dialect = .go
  · exact Tolerance.agree_bodyScript_deleted hregistry (hc ▸ hlanguage) (hc ▸ hgo)
      (DeclTree.func_eq_of_terminatedBy h id) _
  · exact Tolerance.agree_bodyScript_respelled hregistry (hc ▸ hlanguage)
      (hneeds id (needsTerminators_of_hasBody hplan hfile hgo hid)) _

theorem render_of_deleted :
    ResultsAlike Tolerance.SamePlaced (Rendering.Alike Tolerance.SamePlaced) job.render
      ({ job with tree := other } : RenderJob).render :=
  render_alike Tolerance.samePlaced_equiv (fun _ _ hplaced => hplaced.cancelled_iff)
    (DeclTree.hollow_eq_of_terminatedBy h)
    fun _ hplan _ hfile => agree_entry_of_deleted hregistry hends h hneeds hplan hfile

end

end

/-- **Terminators are hints.** Take a tree that differs in terminators only, in any blocks and
chained clauses of any bodies. Where it has a statement for an idiom or the other way round, it is
rendered to the same result: to the same artifact with the same diagnostics, or with the same
failure. Where it has other terminators in funcs and in methods of structs in Go, the plan is the
same, each of its files comes to the same text or fails in both trees, and so does the render with
the same artifact. -/
theorem render_of_terminators (job : RenderJob) (hregistry : job.registry.BuiltIn)
    (hends : ∀ language ∈ job.registry.languages, job.registry.EndsStatements language)
    (other : DeclTree) :
    (other.terminatedBy [.terminator] = job.tree.terminatedBy [.terminator] →
      ({ job with tree := other } : RenderJob).render = job.render) ∧
    (other.terminatedBy [] = job.tree.terminatedBy [] →
      (∀ id, job.tree.NeedsTerminators job.registry id →
        (other.func id).terminatedBy [.terminator] =
          (job.tree.func id).terminatedBy [.terminator]) →
      Plan.project other job.registry job.options.cancelled =
        Plan.project job.tree job.registry job.options.cancelled ∧
      (∀ plan, Plan.project job.tree job.registry job.options.cancelled = .ok plan →
        ∀ file ∈ plan, (({ job with tree := other } : RenderJob).entry file).2.toOption =
          (job.entry file).2.toOption) ∧
      (({ job with tree := other } : RenderJob).render.toOption.map (·.artifact)) =
        job.render.toOption.map (·.artifact)) := by
  refine ⟨render_of_respelled hregistry hends, fun h hneeds => ⟨?_, ?_, ?_⟩⟩
  · exact Plan.project_of_hollow (DeclTree.hollow_eq_of_terminatedBy h)
  · -- The files one by one: failures may differ in their places, texts may not.
    intro plan hplan file hfile
    have hresults := (agree_entry_of_deleted hregistry hends h hneeds hplan hfile).1
    have htexts := hresults.toOption_map_eq (f := id) fun _ _ htexts => htexts.symm
    rw [Option.map_id, id, id] at htexts
    exact htexts
  · exact (render_of_deleted hregistry hends h hneeds).toOption_map_eq
      fun _ _ halike => halike.artifact

/-- The same type in Java and in Go with a method that opens or waits in clauses chained to each
other, and that has one ending in the first clause and after both, and another in the last. -/
def ofEndings (java go : List Statement × List Statement) : RenderJob :=
  let line (text : String) : Statement := .code (.ofText text)
  let choice (endings : List Statement × List Statement) : Statement :=
    .block ((Block.headed (.ofText "if (ready)") (line "open()" :: endings.1)).chain
      (Block.headed (.ofText "else") (line "wait()" :: endings.2)))
  let body (endings : List Statement × List Statement) : Block :=
    ⟨none, none, choice endings :: line "close()" :: endings.1, none⟩
  let additions (index : Nat) (language : String) (endings : List Statement × List Statement) :
      List Addition :=
    [.module language language, .package ⟨index⟩ "lib" "lib", .file ⟨index⟩ "store",
      .type ⟨index⟩ .struct "Store",
      .method ⟨index⟩ ⟨"use", .exported, none, [], [], body endings, none⟩]
  ofTree ((DeclTree.empty "demo").addAll (additions 0 "java" java ++ additions 1 "go" go))

/-- Terminators are put the other way, and in Go they are left out. -/
theorem render_of_terminators_store :
    let statement : List Statement := [.terminator]
    let idiom : List Statement := [.invoke .terminator]
    let job := ofEndings (statement, idiom) (statement, idiom)
    let respelled := (ofEndings (idiom, statement) (idiom, statement)).tree
    let deleted := (ofEndings (idiom, statement) ([], statement)).tree
    respelled.terminatedBy [.terminator] = job.tree.terminatedBy [.terminator] ∧
      deleted.terminatedBy [] = job.tree.terminatedBy [] ∧
      (∀ id, job.tree.NeedsTerminators job.registry id →
        (deleted.func id).terminatedBy [.terminator] =
          (job.tree.func id).terminatedBy [.terminator]) ∧
      (job.render.toOption.map fun rendering => rendering.artifact.leaves.map (·.2.content)) =
        some ["package java.lib;\n\npublic class Store \x7b\n    public void use() \x7b\n" ++
            "        if (ready) \x7b\n            open();\n        \x7d else \x7b\n" ++
            "            wait();\n        \x7d\n        close();\n    \x7d\n\x7d\n",
          "package lib\n\ntype Store struct\x7b\x7d\n\nfunc (s *Store) Use() \x7b\n" ++
            "\tif (ready) \x7b\n\t\topen()\n\t\x7d else \x7b\n" ++
            "\t\twait()\n\t\x7d\n\tclose()\n\x7d\n"] ∧
      ({ job with tree := respelled } : RenderJob).render = job.render ∧
      (({ job with tree := deleted } : RenderJob).render.toOption.map (·.artifact)) =
        job.render.toOption.map (·.artifact) := by
  intro statement idiom job respelled deleted
  have hrespelled : respelled.terminatedBy [.terminator] = job.tree.terminatedBy [.terminator] := by
    with_unfolding_all rfl
  have hdeleted : deleted.terminatedBy [] = job.tree.terminatedBy [] := by with_unfolding_all rfl
  have hneeds : ∀ id, job.tree.NeedsTerminators job.registry id →
      (deleted.func id).terminatedBy [.terminator] =
        (job.tree.func id).terminatedBy [.terminator] := by
    have hdeclared : ∀ module ∈ job.tree.project.modules,
        (job.registry.language? (job.tree.module module).language).map (·.dialect) ≠ some .go →
        ∀ package ∈ (job.tree.module module).packages, job.tree.funcsIn package = [] ∧
          ∀ type ∈ job.tree.typesIn package, ∀ id ∈ (job.tree.type type).methods, id = ⟨0⟩ := by
      decide +kernel
    -- Which funcs need terminators: those in other languages than Go, and those of interfaces.
    have hkinds : ∀ type, (job.tree.type type).kind ≠ .interface
      | ⟨0⟩ | ⟨1⟩ | ⟨_ + 2⟩ => nofun
    rintro id (⟨module, hmodule, language, hlanguage, hgo, package, hpackage, hid⟩ |
      ⟨type, hkind, _⟩)
    · have hdialect : (job.registry.language? (job.tree.module module).language).map (·.dialect) ≠
          some .go := by
        rw [hlanguage]
        exact fun h => hgo (Option.some.inj h)
      obtain ⟨hfuncs, hmethods⟩ := hdeclared module hmodule hdialect package hpackage
      rcases hid with hid | ⟨type, htype, hid⟩
      · rw [hfuncs] at hid
        cases hid
      · obtain rfl := hmethods type htype id hid
        with_unfolding_all rfl
    · exact absurd hkind (hkinds type)
  have hsame := (render_of_terminators job .standard .standard respelled).1 hrespelled
  obtain ⟨_, _, hartifact⟩ :=
    (render_of_terminators job .standard .standard deleted).2 hdeleted hneeds
  exact ⟨hrespelled, hdeleted, hneeds, by decide +kernel, hsame, hartifact⟩

end RenderJob

end DeclPrinter
