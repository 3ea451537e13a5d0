import DeclPrinter.Writing.File
import Mathlib.Data.List.Forall2

/-!
# What a computation yields

For what stands in a file only the value of a computation counts, not its trace. A computation
that is put together from others yields what they do, one after another, so a value is taken
apart along the definition of the function that yields it. At the top that is the function for a
whole file: a head (`fileTop`), and the declarations below it.
-/

namespace DeclPrinter

/-- The outcome with something made of its value. -/
def Outcome.map {α β : Type} (f : α → β) (outcome : Outcome α) : Outcome β :=
  ⟨outcome.references, outcome.cancels, outcome.result.map f⟩

theorem Outcome.map_map {α β γ : Type} (f : α → β) (g : β → γ) (outcome : Outcome α) :
    (outcome.map f).map g = outcome.map fun value => g (f value) := by
  obtain ⟨references, cancels, failure | value⟩ := outcome
  · rfl
  · rfl

end DeclPrinter

namespace DeclPrinter.FileM

variable {α β : Type} {c : FileContext}

/-- The computation succeeds in the context with this value. -/
def Yields (x : FileM α) (c : FileContext) (value : α) : Prop :=
  (x.run c).result = .ok value

@[simp]
theorem yields_pure {first second : α} :
    (pure first : FileM α).Yields c second ↔ first = second := by
  simp [Yields, pure_run]

@[simp]
theorem yields_context {value : FileContext} : context.Yields c value ↔ c = value := by
  simp [Yields, run, context]

@[simp]
theorem not_yields_fail {failure : Failure} {value : α} :
    ¬ (fail failure : FileM α).Yields c value := by
  intro h
  cases h

/-- **One computation after another** yields what the second does on the value of the first. -/
theorem yields_bind {x : FileM α} {f : α → FileM β} {value : β} :
    (x >>= f).Yields c value ↔ ∃ middle, x.Yields c middle ∧ (f middle).Yields c value := by
  rw [Yields, bind_run, andThen]
  dsimp only
  rcases hx : (x c).result with failure | middle
  · have hnone : ∀ middle, ¬ x.Yields c middle := by
      intro middle hmiddle
      rw [Yields, run, hx] at hmiddle
      cases hmiddle
    simp [hnone]
  · have hsome : ∀ other, x.Yields c other ↔ middle = other := by
      intro other
      simp [Yields, run, hx]
    simp only [hsome, exists_eq_left']
    rfl

theorem bind_run_of_error {x : FileM α} {f : α → FileM β} {failure : Failure}
    (h : (x.run c).result = .error failure) :
    (x >>= f).run c = ⟨(x.run c).references, (x.run c).cancels, .error failure⟩ := by
  rw [bind_run, andThen]
  dsimp only
  rw [show (x c).result = .error failure from h]
  rfl

theorem bind_run_of_yields {x : FileM α} {f : α → FileM β} {value : α} (h : x.Yields c value) :
    (x >>= f).run c =
      ⟨(x.run c).references ++ ((f value).run c).references,
        (x.run c).cancels || ((f value).run c).cancels, ((f value).run c).result⟩ := by
  rw [bind_run, andThen]
  dsimp only
  rw [show (x c).result = .ok value from h]
  rfl

/-- What is made of the value of a computation at its end is no part of its trace. -/
theorem bind_pure_run (x : FileM α) (f : α → β) :
    (x >>= fun value => pure (f value)).run c = (x.run c).map f := by
  rcases hx : (x.run c).result with failure | value
  · rw [bind_run_of_error hx, Outcome.map, hx]
    rfl
  · rw [bind_run_of_yields hx, pure_run, Outcome.map, hx, List.append_nil, Bool.or_false]
    rfl

/-- A computation of the context is one in it. -/
theorem yields_context_bind {f : FileContext → FileM β} {value : β} :
    (context >>= f).Yields c value ↔ (f c).Yields c value := by
  simp [yields_bind]

/-- With imports at hand a reference is spelled through them. -/
theorem yields_spell {imports : Imports} (himports : c.imports = some imports)
    {reference : Reference} {call : String} :
    (spell reference).Yields c call ↔ imports.spell reference = call := by
  have hnoted (f : Unit → FileM String) :
      (note reference >>= f).Yields c call ↔ (f ()).Yields c call :=
    yields_bind.trans ⟨fun ⟨(), _, h⟩ => h, fun h => ⟨(), rfl, h⟩⟩
  rw [spell, hnoted, yields_context_bind, himports]
  exact yields_pure

/-- A list of computations yields a value for each. -/
theorem yields_mapM {f : α → FileM β} {inputs : List α} {outputs : List β} :
    (inputs.mapM f).Yields c outputs ↔
      List.Forall₂ (fun input output => (f input).Yields c output) inputs outputs := by
  induction inputs generalizing outputs with
  | nil =>
    rw [List.mapM_nil, yields_pure, List.forall₂_nil_left_iff]
    exact eq_comm
  | cons input rest ih =>
    simp only [List.mapM_cons, yields_bind, yields_pure, ih, List.forall₂_cons_left_iff]
    constructor
    · rintro ⟨output, houtput, others, hothers, rfl⟩
      exact ⟨output, others, houtput, hothers, rfl⟩
    · rintro ⟨output, others, houtput, hothers, rfl⟩
      exact ⟨output, houtput, others, hothers, rfl⟩

/-- Where two lists are related in pairs, each element of the second is related to one of the
first. -/
theorem exists_of_mem_of_forall₂ {R : α → β → Prop} {inputs : List α} {outputs : List β}
    (h : List.Forall₂ R inputs outputs) :
    ∀ output ∈ outputs, ∃ input ∈ inputs, R input output := by
  induction h with
  | nil => simp
  | cons hfirst _ ih =>
    rename_i input output _ _ _
    intro value hvalue
    rcases List.mem_cons.mp hvalue with rfl | hmem
    · exact ⟨input, List.mem_cons_self, hfirst⟩
    · obtain ⟨found, hfound, hrelated⟩ := ih value hmem
      exact ⟨found, List.mem_cons_of_mem input hfound, hrelated⟩

/-- Where two lists are related in pairs, each element of the first is related to one of the
second. -/
theorem exists_related_of_mem {R : α → β → Prop} {inputs : List α} {outputs : List β}
    (h : List.Forall₂ R inputs outputs) : ∀ input ∈ inputs, ∃ output ∈ outputs, R input output :=
  exists_of_mem_of_forall₂ (List.Forall₂.flip h)

end DeclPrinter.FileM

namespace DeclPrinter

open FileM

variable {c : FileContext} {registry : Registry} {script : Script}

/-! ### Files -/

/-- What stands above the declarations of a file. -/
def fileTop (c : FileContext) : Script :=
  preambleScript c.contents.preamble ++
    c.language.dialect.packageClause (c.tree.module c.module) (c.tree.package c.package)
      c.contents.doc ++
    importScript c.language c.imports

/-- **A file is its top and its declarations.** Nothing is noted but in these. -/
theorem run_fileScript (registry : Registry) (c : FileContext) :
    (fileScript registry).run c = ((declsScript registry).run c).map (fileTop c ++ ·) :=
  bind_pure_run (declsScript registry) (fileTop c ++ ·)

theorem yields_fileScript (h : (fileScript registry).Yields c script) :
    ∃ decls, (declsScript registry).Yields c decls ∧ script = fileTop c ++ decls := by
  unfold fileScript at h
  obtain ⟨decls, hdecls, h⟩ := yields_bind.mp (yields_context_bind.mp h)
  exact ⟨decls, hdecls, (yields_pure.mp h).symm⟩

/-- Declarations after blank lines. -/
def Spaced {α : Type} (c : FileContext) (write : α → FileM Script) (items : List α)
    (scripts : List Script) : Prop :=
  List.Forall₂ (fun item script => ∃ own, (write item).Yields c own ∧ script = .blank :: own)
    items scripts

theorem yields_spaced {α : Type} {write : α → FileM Script} {items : List α}
    {scripts : List Script}
    (h : (items.mapM fun item => return Step.blank :: (← write item)).Yields c scripts) :
    Spaced c write items scripts := by
  refine (yields_mapM.mp h).imp fun item script hitem => ?_
  obtain ⟨own, hown, hitem⟩ := yields_bind.mp hitem
  exact ⟨own, hown, (yields_pure.mp hitem).symm⟩

/-- **The declarations of a file,** the plain way, are its types and then its funcs. -/
theorem yields_plainScript {dialect : Dialect} {contents : FileContents}
    (h : (dialect.plainScript registry contents).Yields c script) :
    ∃ types funcs, Spaced c (dialect.typeScript registry) contents.types types ∧
      Spaced c (dialect.funcScript registry) contents.funcs funcs ∧
      script = types.flatten ++ funcs.flatten := by
  unfold Dialect.plainScript at h
  obtain ⟨types, htypes, h⟩ := yields_bind.mp h
  obtain ⟨funcs, hfuncs, h⟩ := yields_bind.mp h
  exact ⟨types, funcs, yields_spaced htypes, yields_spaced hfuncs, (yields_pure.mp h).symm⟩

/-- A Go file is written the plain way, whether or not the language is derived. -/
theorem yields_declsScript_of_go (hgo : c.language.dialect = .go)
    (h : (declsScript registry).Yields c script) :
    (Dialect.go.plainScript registry c.contents).Yields c script := by
  unfold declsScript at h
  have h := yields_context_bind.mp h
  rw [hgo] at h
  cases hderived : c.language.derived <;> rw [hderived] at h <;> exact h

/-- So is any file in a derived language. -/
theorem yields_declsScript_of_derived (hderived : c.language.derived = true)
    (h : (declsScript registry).Yields c script) :
    (c.language.dialect.plainScript registry c.contents).Yields c script := by
  unfold declsScript at h
  have h := yields_context_bind.mp h
  rw [hderived] at h
  exact h

theorem yields_declsScript_of_java (hjava : c.language.dialect = .java)
    (hderived : c.language.derived = false) (h : (declsScript registry).Yields c script) :
    (javaScript registry).Yields c script := by
  unfold declsScript at h
  have h := yields_context_bind.mp h
  rw [hjava, hderived] at h
  exact h

end DeclPrinter
