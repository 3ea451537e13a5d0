import DeclPrinter.Proofs.Writing.Bodies
import Mathlib.Data.List.Infix
import Mathlib.Logic.Relation

/-!
# Expansions end

An expander is any function, and what it gives may hold the same idiom again. What keeps a body
from being written forever is the depth of expansion, and nothing but the depth: between two
expansions the statements get smaller, and at an expansion, where they may grow, the depth does.

Writing a body is made of tasks (`BodyTask`): statements, a nested block, a chain of clauses, an
idiom, each at its depth. `BodyTask.Calls` says which tasks a task comes to, one constructor for
each place in the writer where it goes on. No chain of calls is endless (`wellFounded_calls`), no
task that a body comes to is deeper than the limit (`depth_le_of_reached`), and what becomes of a
task becomes of the body (`Outcome.Includes`). In a body that is written every task it comes to is
written too, its lines together (`exists_own_of_body`).
-/

namespace DeclPrinter

open FileM

/-! ### Parts of an outcome -/

/-- What the part refers to is in the whole, and so are its wish for cancellation and its
failure. -/
structure Outcome.Includes {α β : Type} (whole : Outcome α) (part : Outcome β) : Prop where
  /-- The references stand together. -/
  references : part.references <:+: whole.references
  /-- A part that asks for cancellation does so for the whole. -/
  cancels : part.cancels = true → whole.cancels = true
  /-- A part that fails ends the whole. -/
  fails : ∀ failure, part.result = .error failure → whole.result = .error failure

namespace Outcome.Includes

variable {α β γ : Type} {c : FileContext}

theorem refl (whole : Outcome α) : whole.Includes whole :=
  ⟨List.infix_rfl, id, fun _ => id⟩

theorem trans {first : Outcome α} {second : Outcome β} {third : Outcome γ}
    (h : first.Includes second) (hrest : second.Includes third) : first.Includes third where
  references := hrest.references.trans h.references
  cancels := fun hcancels => h.cancels (hrest.cancels hcancels)
  fails := fun failure hfails => h.fails failure (hrest.fails failure hfails)

/-- What is run first is part of the whole. -/
theorem bindLeft (x : FileM α) (f : α → FileM β) : ((x >>= f).run c).Includes (x.run c) := by
  rcases hx : (x.run c).result with failure | value
  · rw [bind_run_of_error hx]
    refine ⟨List.infix_rfl, id, fun other hother => ?_⟩
    obtain rfl := Except.error.inj (hx.symm.trans hother)
    rfl
  · rw [bind_run_of_yields hx]
    refine ⟨(List.prefix_append _ _).isInfix, fun hcancels => ?_, fun other hother => ?_⟩
    · rw [hcancels, Bool.true_or]
    · rw [hx] at hother
      cases hother

/-- What is run on a value is part of the whole. -/
theorem bindRight {x : FileM α} {value : α} (hx : x.Yields c value) (f : α → FileM β) :
    ((x >>= f).run c).Includes ((f value).run c) := by
  rw [bind_run_of_yields hx]
  refine ⟨(List.suffix_append _ _).isInfix, fun hcancels => ?_, fun _ => id⟩
  rw [hcancels, Bool.or_true]

end Outcome.Includes

/-! ### Tasks -/

/-- What is written at some point of a body, `depth` expansions deep. -/
inductive BodyTask where
  /-- Statements of a block, of which the first stands at the index. -/
  | statements (depth : Nat) (block : Block) (place : TreePath) (index : Nat)
      (rest : List Statement)
  /-- A nested block. -/
  | nested (depth : Nat) (place : TreePath) (inner : Block)
  /-- The clauses chained to a block. -/
  | clauses (depth : Nat) (place : TreePath) (chained : Option Block)
  /-- An idiom in a block. -/
  | invoked (depth : Nat) (block : Block) (place : TreePath) (idiom : Idiom)

namespace BodyTask

/-- All of a body. -/
def ofBody (func : Func) (place : TreePath) : BodyTask :=
  .statements 0 func.body place 0 func.body.statements

/-- How many expansions the task is in. -/
def depth : BodyTask → Nat
  | .statements depth _ _ _ _ => depth
  | .nested depth _ _ => depth
  | .clauses depth _ _ => depth
  | .invoked depth _ _ _ => depth

/-- How much there is to write before the next expansion. -/
noncomputable def size : BodyTask → Nat
  | .statements _ _ _ _ rest => sizeOf rest
  | .nested _ _ inner => sizeOf inner
  | .clauses _ _ chained => sizeOf chained
  | .invoked _ _ _ _ => 0

variable (registry : Registry) (scope : BodyScope) (c : FileContext)

/-- What writes idioms at a depth. -/
def onIdiom (depth : Nat) : IdiomWriter :=
  idiomScript registry scope (expansionLimit - depth)

/-- What the writer does for the task. -/
def script : BodyTask → FileM Script
  | .statements depth block place index rest =>
    statementsScript (onIdiom registry scope depth) scope block place index rest
  | .nested depth place inner => blockScript (onIdiom registry scope depth) scope place inner
  | .clauses depth place chained =>
    clausesScript (onIdiom registry scope depth) scope place chained
  | .invoked depth block place idiom => onIdiom registry scope depth block place idiom

/-- The first task comes to the second, in this context. Nothing is done after a failure, so a
task is come to only when all that stands before it is written. -/
inductive Calls : BodyTask → BodyTask → Prop where
  | nested (depth : Nat) (block inner : Block) (place : TreePath) (index : Nat)
      (rest : List Statement) :
      Calls (.statements depth block place index (.block inner :: rest))
        (.nested depth (blockPath place index) inner)
  | idiom (depth : Nat) (block : Block) (place : TreePath) (index : Nat) (idiom : Idiom)
      (rest : List Statement) :
      Calls (.statements depth block place index (.invoke idiom :: rest))
        (.invoked depth block place idiom)
  | rest (depth : Nat) (block : Block) (place : TreePath) (index : Nat) {first : Statement}
      {own : Script} (rest : List Statement)
      (hfirst : (statementScript (onIdiom registry scope depth) scope block place index
        first).Yields c own) :
      Calls (.statements depth block place index (first :: rest))
        (.statements depth block place (index + 1) rest)
  | body (depth : Nat) (place : TreePath) (inner : Block) {header : Option String}
      (hheader : (spellHeader place inner.header).Yields c header) :
      Calls (.nested depth place inner) (.statements depth inner place 0 inner.statements)
  | chained (depth : Nat) (place : TreePath) (inner : Block) {header : Option String}
      {own : Script} (hheader : (spellHeader place inner.header).Yields c header)
      (hown : (statementsScript (onIdiom registry scope depth) scope inner place 0
        inner.statements).Yields c own) :
      Calls (.nested depth place inner) (.clauses depth place inner.chained)
  | clauseBody (depth : Nat) (place : TreePath) (clause : Block) {header : Option String}
      (hheader : (spellHeader place clause.header).Yields c header) :
      Calls (.clauses depth place (some clause))
        (.statements depth clause place 0 clause.statements)
  | nextClause (depth : Nat) (place : TreePath) (clause : Block) {header : Option String}
      {own : Script} (hheader : (spellHeader place clause.header).Yields c header)
      (hown : (statementsScript (onIdiom registry scope depth) scope clause place 0
        clause.statements).Yields c own) :
      Calls (.clauses depth place (some clause)) (.clauses depth place clause.chained)
  | expansion (depth : Nat) (block : Block) (place : TreePath) (idiom : Idiom)
      {expander : Expander} {statements : List Statement} (hdepth : depth < expansionLimit)
      (hexpander : registry.expander? scope.language.tag idiom.kind = some expander)
      (hstatements : (expander.expand idiom ⟨scope.func, block, scope.language.tag,
        place.below .idiom idiom.kind.label⟩).Yields c statements) :
      Calls (.invoked depth block place idiom)
        (.statements (depth + 1) block (place.below .idiom idiom.kind.label) 0 statements)

variable {registry scope c} {caller callee task : BodyTask}

/-! ### Calls end -/

/-- At an expansion the depth grows, and at any other call what is left to write gets smaller. -/
theorem Calls.depth_or_size (h : Calls registry scope c caller callee) :
    (callee.depth = caller.depth + 1 ∧ caller.depth < expansionLimit) ∨
      (callee.depth = caller.depth ∧ callee.size < caller.size) := by
  cases h with
  | expansion depth block place idiom hdepth _ _ => exact .inl ⟨rfl, hdepth⟩
  | nested depth block inner place index rest =>
    -- From here on the depth stays, and the callee is a part of what the caller has left to write.
    refine .inr ⟨rfl, ?_⟩
    simp only [size, List.cons.sizeOf_spec, Statement.block.sizeOf_spec]
    omega
  | idiom depth block place index idiom rest =>
    refine .inr ⟨rfl, ?_⟩
    simp only [size, List.cons.sizeOf_spec]
    omega
  | rest depth block place index rest _ =>
    refine .inr ⟨rfl, ?_⟩
    simp only [size, List.cons.sizeOf_spec]
    omega
  | body depth place inner _ =>
    refine .inr ⟨rfl, ?_⟩
    obtain ⟨doc, header, statements, chained⟩ := inner
    simp only [size, Block.mk.sizeOf_spec]
    omega
  | chained depth place inner _ _ =>
    refine .inr ⟨rfl, ?_⟩
    obtain ⟨doc, header, statements, chained⟩ := inner
    simp only [size, Block.mk.sizeOf_spec]
    omega
  | clauseBody depth place clause _ =>
    refine .inr ⟨rfl, ?_⟩
    obtain ⟨doc, header, statements, chained⟩ := clause
    simp only [size, Option.some.sizeOf_spec, Block.mk.sizeOf_spec]
    omega
  | nextClause depth place clause _ _ =>
    refine .inr ⟨rfl, ?_⟩
    obtain ⟨doc, header, statements, chained⟩ := clause
    simp only [size, Option.some.sizeOf_spec, Block.mk.sizeOf_spec]
    omega

/-- **No chain of calls is endless,** whatever the expanders give. -/
theorem wellFounded_calls (registry : Registry) (scope : BodyScope) (c : FileContext) :
    WellFounded fun callee caller => Calls registry scope c caller callee := by
  -- What is left of the limit comes first, so that an expansion may give statements of any size.
  let measure (task : BodyTask) : Nat × Nat := (expansionLimit - task.depth, task.size)
  have hlex : WellFounded (Prod.Lex (· < ·) (· < ·) : Nat × Nat → Nat × Nat → Prop) :=
    WellFounded.prod_lex wellFounded_lt wellFounded_lt
  refine Subrelation.wf (fun {callee caller} hcalls => ?_) (InvImage.wf measure hlex)
  show Prod.Lex (· < ·) (· < ·) (measure callee) (measure caller)
  rcases hcalls.depth_or_size with ⟨hdepth, hlimit⟩ | ⟨hdepth, hsize⟩
  · exact .left _ _ (by omega)
  · simp only [measure, hdepth]
    exact .right _ hsize

/-- **No task of a body is deeper than the limit.** -/
theorem depth_le_of_reached (hstart : task.depth ≤ expansionLimit)
    (h : Relation.ReflTransGen (Calls registry scope c) task callee) :
    callee.depth ≤ expansionLimit := by
  induction h with
  | refl => exact hstart
  | tail _ hcalls ih =>
    rcases hcalls.depth_or_size with ⟨hdepth, hlimit⟩ | ⟨hdepth, _⟩
    · omega
    · omega

/-! ### What becomes of a task becomes of the body -/

open Outcome.Includes

theorem includes_of_calls (h : Calls registry scope c caller callee) :
    ((caller.script registry scope).run c).Includes ((callee.script registry scope).run c) := by
  -- What stands before the callee in its caller has yielded, so the outcome of the callee is joined
  -- to what that left.
  cases h with
  | nested depth block inner place index rest =>
    simp only [script]
    rw [statementsScript, statementScript]
    exact bindLeft _ _
  | idiom depth block place index idiom rest =>
    simp only [script]
    rw [statementsScript, statementScript]
    exact bindLeft _ _
  | rest depth block place index rest hfirst =>
    simp only [script]
    rw [statementsScript]
    exact (bindRight hfirst _).trans (bindLeft _ _)
  | body depth place inner hheader =>
    obtain ⟨doc, header, statements, chained⟩ := inner
    simp only [script]
    rw [blockScript]
    exact (bindRight hheader _).trans (bindLeft _ _)
  | chained depth place inner hheader hown =>
    obtain ⟨doc, header, statements, chained⟩ := inner
    simp only [script]
    rw [blockScript]
    exact (bindRight hheader _).trans ((bindRight hown _).trans (bindLeft _ _))
  | clauseBody depth place clause hheader =>
    obtain ⟨doc, header, statements, chained⟩ := clause
    simp only [script]
    rw [clausesScript]
    exact (bindRight hheader _).trans (bindLeft _ _)
  | nextClause depth place clause hheader hown =>
    obtain ⟨doc, header, statements, chained⟩ := clause
    simp only [script]
    rw [clausesScript]
    exact (bindRight hheader _).trans ((bindRight hown _).trans (bindLeft _ _))
  | expansion depth block place idiom hdepth hexpander hstatements =>
    have hleft : expansionLimit - depth = expansionLimit - (depth + 1) + 1 := by omega
    simp only [script, onIdiom]
    rw [hleft, idiomScript_succ hexpander]
    exact bindRight hstatements _

/-- **What becomes of a task becomes of the task that it started from,** through all calls. -/
theorem includes_of_reached (h : Relation.ReflTransGen (Calls registry scope c) task callee) :
    ((task.script registry scope).run c).Includes ((callee.script registry scope).run c) := by
  induction h with
  | refl => exact .refl _
  | tail _ hcalls ih => exact ih.trans (includes_of_calls hcalls)

theorem includes_body {func : Func} {place : TreePath}
    (h : Relation.ReflTransGen (Calls registry ⟨c.language, func⟩ c) (ofBody func place) task) :
    ((bodyScript registry func place).run c).Includes
      ((task.script registry ⟨c.language, func⟩).run c) := by
  have hbody : ((bodyScript registry func place).run c).Includes
      (((ofBody func place).script registry ⟨c.language, func⟩).run c) := by
    have hcontext : context.Yields c c := yields_context.mpr rfl
    unfold bodyScript
    exact (bindRight hcontext _).trans (bindLeft _ _)
  exact hbody.trans (includes_of_reached h)

/-! ### What a task writes is written in the body -/

theorem exists_own_of_calls (h : Calls registry scope c caller callee) {script : Script}
    (hscript : (caller.script registry scope).Yields c script) :
    ∃ own, (callee.script registry scope).Yields c own ∧ own <:+: script := by
  cases h with
  | nested depth block inner place index rest =>
    rw [BodyTask.script, statementsScript, statementScript] at hscript
    obtain ⟨own, hown, hscript⟩ := yields_bind.mp hscript
    obtain ⟨others, _, hscript⟩ := yields_bind.mp hscript
    have heq := yields_pure.mp hscript
    subst heq
    exact ⟨own, hown, (List.prefix_append _ _).isInfix⟩
  | idiom depth block place index idiom rest =>
    rw [BodyTask.script, statementsScript, statementScript] at hscript
    obtain ⟨own, hown, hscript⟩ := yields_bind.mp hscript
    obtain ⟨others, _, hscript⟩ := yields_bind.mp hscript
    have heq := yields_pure.mp hscript
    subst heq
    exact ⟨own, hown, (List.prefix_append _ _).isInfix⟩
  | rest depth block place index rest _ =>
    rw [BodyTask.script, statementsScript] at hscript
    obtain ⟨first, _, hscript⟩ := yields_bind.mp hscript
    obtain ⟨own, hown, hscript⟩ := yields_bind.mp hscript
    have heq := yields_pure.mp hscript
    subst heq
    exact ⟨own, hown, (List.suffix_append _ _).isInfix⟩
  | body depth place inner _ =>
    obtain ⟨doc, header, statements, chained⟩ := inner
    rw [BodyTask.script, blockScript] at hscript
    obtain ⟨_, _, hscript⟩ := yields_bind.mp hscript
    obtain ⟨own, hown, hscript⟩ := yields_bind.mp hscript
    obtain ⟨clauses, _, hscript⟩ := yields_bind.mp hscript
    have heq := yields_pure.mp hscript
    subst heq
    exact ⟨own, hown, (List.infix_append _ own _).trans (List.prefix_append _ _).isInfix⟩
  | chained depth place inner _ _ =>
    obtain ⟨doc, header, statements, chained⟩ := inner
    rw [BodyTask.script, blockScript] at hscript
    obtain ⟨_, _, hscript⟩ := yields_bind.mp hscript
    obtain ⟨_, _, hscript⟩ := yields_bind.mp hscript
    obtain ⟨own, hown, hscript⟩ := yields_bind.mp hscript
    have heq := yields_pure.mp hscript
    subst heq
    exact ⟨own, hown, (List.suffix_append _ _).isInfix⟩
  | clauseBody depth place clause _ =>
    obtain ⟨doc, header, statements, chained⟩ := clause
    rw [BodyTask.script, clausesScript] at hscript
    obtain ⟨_, _, hscript⟩ := yields_bind.mp hscript
    obtain ⟨own, hown, hscript⟩ := yields_bind.mp hscript
    obtain ⟨clauses, _, hscript⟩ := yields_bind.mp hscript
    have heq := yields_pure.mp hscript
    subst heq
    exact ⟨own, hown, (List.infix_append _ own _).trans (List.prefix_append _ _).isInfix⟩
  | nextClause depth place clause _ _ =>
    obtain ⟨doc, header, statements, chained⟩ := clause
    rw [BodyTask.script, clausesScript] at hscript
    obtain ⟨_, _, hscript⟩ := yields_bind.mp hscript
    obtain ⟨_, _, hscript⟩ := yields_bind.mp hscript
    obtain ⟨own, hown, hscript⟩ := yields_bind.mp hscript
    have heq := yields_pure.mp hscript
    subst heq
    exact ⟨own, hown, (List.suffix_append _ _).isInfix⟩
  | @expansion depth block place idiom _ statements hdepth hexpander hstatements =>
    have hleft : expansionLimit - depth = expansionLimit - (depth + 1) + 1 := by omega
    rw [BodyTask.script, onIdiom, hleft, idiomScript_succ hexpander] at hscript
    obtain ⟨others, hothers, hscript⟩ := yields_bind.mp hscript
    -- The expander gives these statements and no others.
    have hsame : others = statements := Except.ok.inj (hothers.symm.trans hstatements)
    subst hsame
    exact ⟨script, hscript, List.infix_rfl⟩

theorem exists_own_of_reached (h : Relation.ReflTransGen (Calls registry scope c) task callee)
    {script : Script} (hscript : (task.script registry scope).Yields c script) :
    ∃ own, (callee.script registry scope).Yields c own ∧ own <:+: script := by
  induction h with
  | refl => exact ⟨script, hscript, List.infix_rfl⟩
  | tail _ hcalls ih =>
    obtain ⟨middle, hmiddle, hin⟩ := ih
    obtain ⟨own, hown, hinner⟩ := exists_own_of_calls hcalls hmiddle
    exact ⟨own, hown, hinner.trans hin⟩

/-- **What a task writes stands together in the body** that comes to it. -/
theorem exists_own_of_body {func : Func} {place : TreePath} {body : Script}
    (h : Relation.ReflTransGen (Calls registry ⟨c.language, func⟩ c) (ofBody func place) task)
    (hbody : (bodyScript registry func place).Yields c body) :
    ∃ own, (task.script registry ⟨c.language, func⟩).Yields c own ∧ own <:+: body := by
  unfold bodyScript at hbody
  obtain ⟨statements, hstatements, hbody⟩ := yields_bind.mp (yields_context_bind.mp hbody)
  have heq := yields_pure.mp hbody
  subst heq
  obtain ⟨own, hown, hinfix⟩ := exists_own_of_reached h hstatements
  exact ⟨own, hown, hinfix.trans (List.suffix_append _ _).isInfix⟩

/-- An idiom that is written was handed to its expander, and the expansion is written in its
place. -/
theorem yields_invoked {depth : Nat} {block : Block} {place : TreePath} {idiom : Idiom}
    {expander : Expander} {own : Script}
    (hexpander : registry.expander? scope.language.tag idiom.kind = some expander)
    (h : ((BodyTask.invoked depth block place idiom).script registry scope).Yields c own) :
    let here := place.below .idiom idiom.kind.label
    ∃ statements,
      (expander.expand idiom ⟨scope.func, block, scope.language.tag, here⟩).Yields c statements ∧
      (statementsScript (onIdiom registry scope (depth + 1)) scope block here 0 statements).Yields c
        own := by
  intro here
  rw [BodyTask.script, onIdiom] at h
  rcases hleft : expansionLimit - depth with _ | left
  · -- At the limit nothing is handed to expanders.
    rw [hleft, idiomScript_zero hexpander] at h
    exact absurd h not_yields_fail
  · have hbelow : expansionLimit - (depth + 1) = left := by omega
    rw [hleft, idiomScript_succ hexpander] at h
    rw [onIdiom, hbelow]
    exact yields_bind.mp h

/-! ### Idioms -/

variable {depth : Nat} {block : Block} {place : TreePath} {idiom : Idiom} {expander : Expander}

theorem includes_expand (hdepth : depth < expansionLimit)
    (hexpander : registry.expander? scope.language.tag idiom.kind = some expander) :
    (((BodyTask.invoked depth block place idiom).script registry scope).run c).Includes
      ((expander.expand idiom ⟨scope.func, block, scope.language.tag,
        place.below .idiom idiom.kind.label⟩).run c) := by
  have hleft : expansionLimit - depth = expansionLimit - (depth + 1) + 1 := by omega
  rw [script, onIdiom, hleft, idiomScript_succ hexpander]
  exact bindLeft _ _

theorem result_of_limit
    (hexpander : registry.expander? scope.language.tag idiom.kind = some expander) :
    (((BodyTask.invoked expansionLimit block place idiom).script registry scope).run c).result =
      .error (.expansion (place.below .idiom idiom.kind.label) idiom.kind
        (.tooDeep expansionLimit)) := by
  rw [script, onIdiom, Nat.sub_self, idiomScript_zero hexpander]
  rfl

end BodyTask

end DeclPrinter
