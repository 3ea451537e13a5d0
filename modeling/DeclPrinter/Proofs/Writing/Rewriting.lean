import DeclPrinter.Proofs.Idiom.BuiltIn
import DeclPrinter.Proofs.Tree.Rewriting
import DeclPrinter.Proofs.Writing.Elsewhere
import DeclPrinter.Proofs.Writing.Markers

/-!
# Rewritten bodies

A body is written statement by statement. So when its statements are replaced by others that come
to the same, it comes to the same as well (`Tolerance.agree_statementsScript`). With that, idioms
come to the same wherever they stand and whatever func they are in, as long as this returns the same
and the expanders are built in (`Tolerance.agree_idiomScript`). All this is so in a single file and
in two that see the same declarations.

Failures name places by the positions of statements. Where the others are not as many, they are
about other places.
-/

namespace DeclPrinter

open FileM

section

variable {onIdiom : IdiomWriter} {scope : BodyScope} {block : Block} {place : TreePath}

theorem statementsScript_singleton (index : Nat) (statement : Statement) :
    statementsScript onIdiom scope block place index [statement] =
      statementScript onIdiom scope block place index statement := by
  rw [statementsScript, statementsScript]
  simp

/-- Statements in two parts are written one part after the other. -/
theorem statementsScript_append (index : Nat) (first second : List Statement) :
    statementsScript onIdiom scope block place index (first ++ second) = (do
      let script ← statementsScript onIdiom scope block place index first
      return script ++
        (← statementsScript onIdiom scope block place (index + first.length) second)) := by
  induction first generalizing index with
  | nil =>
    rw [statementsScript]
    simp
  | cons statement rest ih =>
    have hlength : index + (statement :: rest).length = index + 1 + rest.length := by
      rw [List.length_cons]
      omega
    rw [List.cons_append, statementsScript, statementsScript, ih, hlength]
    simp only [bind_assoc, pure_bind, List.append_assoc]

end

namespace Tolerance

variable (t : Tolerance) (c d : FileContext)

/-- In the first func statements that are no blocks are written as what stands in place of them is
written in the other. -/
def AgreeAtLeaves (f : Statement → List Statement) (language : Language) (func other : Func)
    (onIdiom onOther : IdiomWriter) : Prop :=
  ∀ statement, (∀ inner, statement ≠ .block inner) → ∀ block blockOther index indexOther place
    placeOther, t.Moves place placeOther →
      t.Agree c d (statementScript onIdiom ⟨language, func⟩ block place index statement)
        (statementsScript onOther ⟨language, other⟩ blockOther placeOther indexOther (f statement))

/-- Statements keep their positions when they are replaced, or positions are of no matter. -/
def Positions (f : Statement → List Statement) (index other : Nat) : Prop :=
  (∀ place placeOther, t.Moves place placeOther) ∨
    (index = other ∧ ∀ statement, (f statement).length = 1)

variable {t c d} {f : Statement → List Statement} {language : Language} {func other : Func}
  {onIdiom onOther : IdiomWriter}

theorem Positions.length {index indexOther : Nat} (h : t.Positions f index indexOther)
    (statement : Statement) :
    t.Positions f (index + 1) (indexOther + (statement.rewritten f).length) := by
  rcases h with hmoves | ⟨rfl, hone⟩
  · exact .inl hmoves
  · have hlength : (statement.rewritten f).length = 1 := by
      cases statement with
      | block inner => rfl
      | _ => exact hone _
    rw [hlength]
    exact .inr ⟨rfl, hone⟩

theorem Positions.zero {index indexOther : Nat} (h : t.Positions f index indexOther) :
    t.Positions f 0 0 :=
  h.imp id fun hone => ⟨rfl, hone.2⟩

theorem Positions.blockPath {index indexOther : Nat} (h : t.Positions f index indexOther)
    {place placeOther : TreePath} (hplace : t.Moves place placeOther) :
    t.Moves (blockPath place index) (blockPath placeOther indexOther) := by
  rcases h with hmoves | ⟨rfl, _⟩
  · exact hmoves _ _
  · exact hplace.below _ _

mutual

theorem agree_statementScript (h : c.SeesAlike d)
    (hleaves : t.AgreeAtLeaves c d f language func other onIdiom onOther)
    (block blockOther : Block) {place placeOther : TreePath} (hplace : t.Moves place placeOther)
    {index indexOther : Nat} (hindex : t.Positions f index indexOther) (statement : Statement) :
    t.Agree c d (statementScript onIdiom ⟨language, func⟩ block place index statement)
      (statementsScript onOther ⟨language, other⟩ blockOther placeOther indexOther
        (statement.rewritten f)) := by
  -- A block is gone into, and every other statement is a leaf.
  cases statement with
  | block inner =>
    rw [Statement.rewritten, statementsScript_singleton]
    exact agree_blockScript h hleaves (hindex.blockPath hplace) hindex.zero inner
  | code code => exact hleaves (.code code) (fun _ => nofun) _ _ _ _ _ _ hplace
  | invoke idiom => exact hleaves (.invoke idiom) (fun _ => nofun) _ _ _ _ _ _ hplace
  | terminator => exact hleaves .terminator (fun _ => nofun) _ _ _ _ _ _ hplace
termination_by structural statement

/-- **Statements are written as what stands in place of them.** -/
theorem agree_statementsScript (h : c.SeesAlike d)
    (hleaves : t.AgreeAtLeaves c d f language func other onIdiom onOther)
    (block blockOther : Block) {place placeOther : TreePath} (hplace : t.Moves place placeOther)
    {index indexOther : Nat} (hindex : t.Positions f index indexOther)
    (statements : List Statement) :
    t.Agree c d (statementsScript onIdiom ⟨language, func⟩ block place index statements)
      (statementsScript onOther ⟨language, other⟩ blockOther placeOther indexOther
        (Statement.rewrittenAll f statements)) := by
  cases statements with
  | nil => exact FileM.Agree.pure (t.scripts_refl [])
  | cons statement rest =>
    -- What stands in place of the first statement is a part of its own; the rest follows it.
    rw [Statement.rewrittenAll, statementsScript, statementsScript_append]
    apply (agree_statementScript h hleaves block blockOther hplace hindex statement).bind
    intro _ _ _ _ hfirst
    apply (agree_statementsScript h hleaves block blockOther hplace (hindex.length statement)
      rest).last
    intro _ _ hrest
    exact t.scripts_append hfirst hrest
termination_by structural statements

theorem agree_blockScript (h : c.SeesAlike d)
    (hleaves : t.AgreeAtLeaves c d f language func other onIdiom onOther)
    {place placeOther : TreePath} (hplace : t.Moves place placeOther)
    (hindex : t.Positions f 0 0) (block : Block) :
    t.Agree c d (blockScript onIdiom ⟨language, func⟩ place block)
      (blockScript onOther ⟨language, other⟩ placeOther (block.rewritten f)) := by
  obtain ⟨doc, header, statements, chained⟩ := block
  rw [Block.rewritten, blockScript, blockScript]
  apply (agree_spellHeader h hplace header).bindEq
  intro _ _
  apply (agree_statementsScript h hleaves _ _ hplace hindex statements).bind
  intro _ _ _ _ hinner
  apply (agree_clausesScript h hleaves hplace hindex chained).last
  intro _ _ hclauses
  exact t.scripts_append (t.scripts_between _ _ hinner) hclauses
termination_by structural block

theorem agree_clausesScript (h : c.SeesAlike d)
    (hleaves : t.AgreeAtLeaves c d f language func other onIdiom onOther)
    {place placeOther : TreePath} (hplace : t.Moves place placeOther)
    (hindex : t.Positions f 0 0) (chained : Option Block) :
    t.Agree c d (clausesScript onIdiom ⟨language, func⟩ place chained)
      (clausesScript onOther ⟨language, other⟩ placeOther (Block.rewrittenClause f chained)) := by
  cases chained with
  | none => exact FileM.Agree.pure (t.scripts_refl [])
  | some clause =>
    obtain ⟨doc, header, statements, chained⟩ := clause
    rw [Block.rewrittenClause, Block.rewritten, clausesScript, clausesScript]
    -- The header is the same; the statements are rewritten, and so are the clauses chained to it.
    apply (agree_spellHeader h hplace header).bindEq
    intro _ _
    apply (agree_statementsScript h hleaves _ _ hplace hindex statements).bind
    intro _ _ _ _ hinner
    apply (agree_clausesScript h hleaves hplace hindex chained).last
    intro _ _ hclauses
    exact t.scripts_append (t.scripts_between _ _ hinner) hclauses
termination_by structural chained

end

/-! ### Idioms -/

theorem Positions.self (t : Tolerance) (index : Nat) :
    t.Positions (fun own => [own]) index index :=
  .inr ⟨rfl, fun _ => rfl⟩

section

variable (h : c.SeesAlike d)

include h

/-- Where idioms come to the same, so do all statements that are no blocks. -/
theorem agreeAtLeaves_self
    (hidioms : ∀ block blockOther place placeOther idiom, t.Moves place placeOther →
      t.Agree c d (onIdiom block place idiom) (onOther blockOther placeOther idiom)) :
    t.AgreeAtLeaves c d (fun own => [own]) language func other onIdiom onOther := by
  intro statement hleaf block blockOther index indexOther place placeOther hplace
  rw [statementsScript_singleton]
  cases statement with
  | block inner => exact absurd rfl (hleaf inner)
  | code code =>
    apply (agree_spellCode h hplace code).last
    rintro text _ rfl
    exact t.scripts_refl _
  | invoke idiom => exact hidioms _ _ _ _ _ hplace
  | terminator => exact FileM.Agree.pure (t.scripts_refl _)

variable {registry : Registry}

/-- **An idiom is written alike** wherever it stands, in any func that returns the same. -/
theorem agree_idiomScript (hregistry : registry.BuiltIn) (hfunc : other.hollow = func.hollow)
    (remaining : Nat) (block blockOther : Block) (place placeOther : TreePath) (idiom : Idiom)
    (hplace : t.Moves place placeOther) :
    t.Agree c d (idiomScript registry ⟨language, func⟩ remaining block place idiom)
      (idiomScript registry ⟨language, other⟩ remaining blockOther placeOther idiom) := by
  -- The induction is on the expansions that remain: what an idiom expands to has one less.
  induction remaining generalizing block blockOther place placeOther idiom with
  | zero =>
    rcases hexpander : registry.expander? language.tag idiom.kind with _ | expander
    · rw [idiomScript_of_none hexpander, idiomScript_of_none hexpander]
      exact Agree.fail ((hplace.below _ _) (.unsupportedIdiom · _ _) fun _ => rfl)
    · rw [idiomScript_zero hexpander, idiomScript_zero hexpander]
      exact Agree.fail ((hplace.below _ _) (.expansion · _ _) fun _ => rfl)
  | succ remaining ih =>
    rcases hexpander : registry.expander? language.tag idiom.kind with _ | expander
    · rw [idiomScript_of_none hexpander, idiomScript_of_none hexpander]
      exact Agree.fail ((hplace.below _ _) (.unsupportedIdiom · _ _) fun _ => rfl)
    · obtain ⟨dialect, hdialect⟩ := hregistry.of_expander? hexpander
      have hhere := hplace.below .idiom idiom.kind.label
      let here : IdiomScope :=
        ⟨func, block, language.tag, place.below .idiom idiom.kind.label⟩
      let there : IdiomScope :=
        ⟨other, blockOther, language.tag, placeOther.below .idiom idiom.kind.label⟩
      -- Of the func and the block around it an expander asks for the results alone.
      have hexpand : expander.expand idiom there =
          expander.expand idiom (here.movedTo there.path) := by
        have hscope : there.hollow = (here.movedTo there.path).hollow := by
          unfold IdiomScope.hollow IdiomScope.movedTo
          rw [hfunc]
        rw [← expand_hollow hdialect idiom there, hscope, expand_hollow hdialect]
      rw [idiomScript_succ hexpander, idiomScript_succ hexpander]
      show t.Agree c d (expander.expand idiom here >>= _) (expander.expand idiom there >>= _)
      rw [hexpand]
      apply (agree_expand h hhere hdialect idiom).bindEq
      intro statements _
      have hleaves : t.AgreeAtLeaves c d (fun own => [own]) language func other
          (idiomScript registry ⟨language, func⟩ remaining)
          (idiomScript registry ⟨language, other⟩ remaining) :=
        agreeAtLeaves_self h ih
      have hstatements :=
        agree_statementsScript h hleaves block blockOther hhere (.self t 0) statements
      rwa [Statement.rewrittenAll_self] at hstatements

/-! ### Bodies -/

/-- **A body is written as a body with others in place of its statements.** -/
theorem agree_bodyScript (hbody : other.body = func.body.rewritten f)
    (hindex : t.Positions f 0 0)
    (hleaves : t.AgreeAtLeaves c d f c.language func other
      (idiomScript registry ⟨c.language, func⟩ expansionLimit)
      (idiomScript registry ⟨c.language, other⟩ expansionLimit)) (place : TreePath) :
    t.Agree c d (bodyScript registry func place) (bodyScript registry other place) := by
  unfold bodyScript
  apply FileM.Agree.context
  dsimp only
  rw [h.language_eq, hbody, Block.statements_rewritten, Block.doc_rewritten]
  apply (agree_statementsScript h hleaves _ _ (.refl t place) hindex _).last
  intro _ _ hstatements
  exact t.scripts_below _ hstatements

/-- The same body is written alike in any func that returns the same. -/
theorem agree_bodyScript_self (hregistry : registry.BuiltIn)
    (hfunc : other.hollow = func.hollow) (hbody : other.body = func.body)
    (place : TreePath) :
    t.Agree c d (bodyScript registry func place) (bodyScript registry other place) := by
  have hself : other.body = func.body.rewritten fun own => [own] := by
    rw [hbody, Block.rewritten_self]
  exact agree_bodyScript h hself (.self t 0)
    (agreeAtLeaves_self h (agree_idiomScript h hregistry hfunc expansionLimit)) place

end

end Tolerance

end DeclPrinter
