import DeclPrinter.Proofs.Writing.Alike
import DeclPrinter.Writing.Body

/-!
# Bodies do not depend on the imports

An expander spells types and puts them into the statements that it gives, so the two passes
through a file do not write the same statements. They differ in pieces of text only: without
these they are the same (`Statement.skeleton`), and so are the references in them and the
idioms, which are expanded in turn.

So a body is written alike in both passes if the expanders are (`Expander.Blind`), and those
of the dialects are (`blind_of_mem_expanders`).
-/

namespace DeclPrinter

/-! ### Statements up to their texts -/

/-- The piece, with nothing in it when it is text. -/
def Segment.skeleton : Segment → Segment
  | .text _ => .text ""
  | .symbol name => .symbol name
  | .reference target => .reference target

/-- The code without its texts. -/
def Code.skeleton (code : Code) : Code :=
  ⟨code.segments.map Segment.skeleton⟩

mutual

/-- The statement without the texts in its code. -/
def Statement.skeleton : Statement → Statement
  | .code pieces => .code pieces.skeleton
  | .block inner => .block inner.skeleton
  | .invoke idiom => .invoke idiom
  | .terminator => .terminator

/-- Statements without the texts in their code. -/
def Statement.skeletons : List Statement → List Statement
  | [] => []
  | statement :: rest => statement.skeleton :: Statement.skeletons rest

/-- The block without the texts in its code. -/
def Block.skeleton : Block → Block
  | .mk doc header statements chained =>
    .mk doc (header.map Code.skeleton) (Statement.skeletons statements)
      (Block.chainedSkeleton chained)

/-- The chained block without the texts in its code. -/
def Block.chainedSkeleton : Option Block → Option Block
  | none => none
  | some block => some block.skeleton

end

/-- Statements that differ in texts at most. -/
def SameStatements (first second : List Statement) : Prop :=
  Statement.skeletons first = Statement.skeletons second

/-- Blocks that differ in texts at most. -/
def SameBlock (first second : Block) : Prop :=
  first.skeleton = second.skeleton

/-- Blocks differ in texts at most when their parts do. -/
theorem sameBlock_iff {doc doc' : Option String} {header header' : Option Code}
    {statements statements' : List Statement} {chained chained' : Option Block} :
    SameBlock (.mk doc header statements chained) (.mk doc' header' statements' chained') ↔
      doc = doc' ∧ header.map Code.skeleton = header'.map Code.skeleton ∧
        SameStatements statements statements' ∧
        Block.chainedSkeleton chained = Block.chainedSkeleton chained' := by
  unfold SameBlock SameStatements
  rw [Block.skeleton, Block.skeleton, Block.mk.injEq]

namespace FileM

variable {file : FileContext}

/-! ### Code -/

theorem alike_spellSegment (place : TreePath) {first second : Segment}
    (h : first.skeleton = second.skeleton) :
    Alike file Anything (spellSegment place first) (spellSegment place second) := by
  cases first with
  | text text =>
    cases second with
    | text other => exact Alike.pure trivial
    | symbol symbol => cases h
    | reference reference => cases h
  | symbol symbol =>
    cases second with
    | text other => cases h
    | symbol other =>
      cases h
      exact blind_spellSymbol symbol place
    | reference reference => cases h
  | reference reference =>
    cases second with
    | text other => cases h
    | symbol symbol => cases h
    | reference other =>
      cases h
      exact blind_spell reference

theorem alike_spellCode (place : TreePath) {first second : Code}
    (h : first.skeleton = second.skeleton) :
    Alike file Anything (spellCode first place) (spellCode second place) := by
  have hsegments : List.Forall₂ (fun one other : Segment => one.skeleton = other.skeleton)
      first.segments second.segments := by
    have hpieces : first.segments.map Segment.skeleton = second.segments.map Segment.skeleton :=
      congrArg Code.segments h
    rw [← List.forall₂_eq_eq_eq, List.forall₂_map_left_iff, List.forall₂_map_right_iff] at hpieces
    exact hpieces
  unfold spellCode
  exact (Alike.mapM hsegments fun _ _ => alike_spellSegment place).last

theorem alike_spellHeader (place : TreePath) {first second : Option Code}
    (h : first.map Code.skeleton = second.map Code.skeleton) :
    Alike file Anything (spellHeader place first) (spellHeader place second) := by
  cases first with
  | none =>
    cases second with
    | none => exact Alike.pure trivial
    | some other => cases h
  | some code =>
    cases second with
    | none => cases h
    | some other => exact (alike_spellCode place (Option.some.inj h)).last

/-! ### Statements -/

end FileM

open FileM

variable {file : FileContext}

/-- What is done at an idiom depends neither on the imports nor on the texts of the block
around it. -/
def BlindAtIdioms (file : FileContext) (onIdiom : IdiomWriter) : Prop :=
  ∀ first second place idiom, SameBlock first second →
    Alike file Anything (onIdiom first place idiom) (onIdiom second place idiom)

section

variable {onIdiom : IdiomWriter} (scope : BodyScope)

mutual

theorem alike_statementScript (h : BlindAtIdioms file onIdiom) {block other : Block}
    (hblock : SameBlock block other) (place : TreePath) (index : Nat) (first second : Statement)
    (hsame : first.skeleton = second.skeleton) :
    Alike file Anything (statementScript onIdiom scope block place index first)
      (statementScript onIdiom scope other place index second) := by
  cases first with
  | code code =>
    cases second with
    | code other =>
      have hcode : code.skeleton = other.skeleton := by
        simpa only [Statement.skeleton, Statement.code.injEq] using hsame
      exact (alike_spellCode place hcode).last
    | _ => simp [Statement.skeleton] at hsame
  | block inner =>
    cases second with
    | block innerOther =>
      have hinner : inner.skeleton = innerOther.skeleton := by
        simpa only [Statement.skeleton, Statement.block.injEq] using hsame
      exact alike_blockScript h (blockPath place index) inner innerOther hinner
    | _ => simp [Statement.skeleton] at hsame
  | invoke idiom =>
    cases second with
    | invoke idiomOther =>
      simp only [Statement.skeleton, Statement.invoke.injEq] at hsame
      subst hsame
      exact h block other place idiom hblock
    | _ => simp [Statement.skeleton] at hsame
  | terminator =>
    cases second with
    | terminator => exact Alike.pure trivial
    | _ => simp [Statement.skeleton] at hsame
termination_by structural first

theorem alike_statementsScript (h : BlindAtIdioms file onIdiom) {block other : Block}
    (hblock : SameBlock block other) (place : TreePath) (index : Nat)
    (first second : List Statement) (hsame : SameStatements first second) :
    Alike file Anything (statementsScript onIdiom scope block place index first)
      (statementsScript onIdiom scope other place index second) := by
  cases first with
  | nil =>
    cases second with
    | nil => exact Alike.pure trivial
    | cons _ _ => simp [SameStatements, Statement.skeletons] at hsame
  | cons statement rest =>
    cases second with
    | nil => simp [SameStatements, Statement.skeletons] at hsame
    | cons statementOther restOther =>
      simp only [SameStatements, Statement.skeletons, List.cons.injEq] at hsame
      apply Alike.bind (alike_statementScript h hblock place index statement statementOther hsame.1)
      intro _ _ _
      exact (alike_statementsScript h hblock place (index + 1) rest restOther hsame.2).last
termination_by structural first

theorem alike_blockScript (h : BlindAtIdioms file onIdiom) (place : TreePath) (first second : Block)
    (hsame : SameBlock first second) :
    Alike file Anything (blockScript onIdiom scope place first)
      (blockScript onIdiom scope place second) := by
  obtain ⟨doc, header, statements, chained⟩ := first
  obtain ⟨docOther, headerOther, statementsOther, chainedOther⟩ := second
  obtain ⟨_, hheader, hstatements, hchained⟩ := sameBlock_iff.mp hsame
  apply Alike.bind (alike_spellHeader place hheader)
  intro _ _ _
  apply Alike.bind (alike_statementsScript h hsame place 0 statements statementsOther hstatements)
  intro _ _ _
  exact (alike_clausesScript h place chained chainedOther hchained).last
termination_by structural first

theorem alike_clausesScript (h : BlindAtIdioms file onIdiom) (place : TreePath)
    (first second : Option Block)
    (hsame : Block.chainedSkeleton first = Block.chainedSkeleton second) :
    Alike file Anything (clausesScript onIdiom scope place first)
      (clausesScript onIdiom scope place second) := by
  cases first with
  | none =>
    cases second with
    | none => exact Alike.pure trivial
    | some _ => simp [Block.chainedSkeleton] at hsame
  | some block =>
    cases second with
    | none => simp [Block.chainedSkeleton] at hsame
    | some other =>
      simp only [Block.chainedSkeleton, Option.some.injEq] at hsame
      obtain ⟨doc, header, statements, chained⟩ := block
      obtain ⟨docOther, headerOther, statementsOther, chainedOther⟩ := other
      obtain ⟨_, hheader, hstatements, hchained⟩ := sameBlock_iff.mp hsame
      -- The header, the statements below it, and the clauses that are chained to it.
      apply Alike.bind (alike_spellHeader place hheader)
      intro _ _ _
      apply Alike.bind
        (alike_statementsScript h hsame place 0 statements statementsOther hstatements)
      intro _ _ _
      exact (alike_clausesScript h place chained chainedOther hchained).last
termination_by structural first

end

end

/-! ### Idioms -/

/-- The expander goes the same way in both passes and whatever block is around the idiom. -/
def Expander.Blind (expander : Expander) : Prop :=
  ∀ file idiom (scope : IdiomScope) (block : Block),
    Alike file SameStatements (expander.expand idiom scope)
      (expander.expand idiom { scope with block := block })

/-- Every expander that the registry has for the language goes the same way in both
passes. -/
def Registry.Blind (registry : Registry) (language : Language) : Prop :=
  ∀ kind expander, registry.expander? language.tag kind = some expander → expander.Blind

/-- **Idioms are written alike in both passes,** however deep their expansions are nested in
each other. -/
theorem blind_idiomScript {registry : Registry} {scope : BodyScope}
    (h : registry.Blind scope.language) (remaining : Nat) :
    BlindAtIdioms file (idiomScript registry scope remaining) := by
  induction remaining with
  | zero =>
    intro first second place idiom _
    unfold idiomScript
    dsimp only
    rcases registry.expander? scope.language.tag idiom.kind with _ | expander
    · exact Alike.fail _
    · exact Alike.fail _
  | succ remaining ih =>
    intro first second place idiom hsame
    unfold idiomScript
    dsimp only
    rcases hexpander : registry.expander? scope.language.tag idiom.kind with _ | expander
    · exact Alike.fail _
    · -- The expansion is the same up to texts, and it may hold idioms with one level less.
      have hexpand := h idiom.kind expander hexpander file idiom
        ⟨scope.func, first, scope.language.tag, place.below .idiom idiom.kind.label⟩ second
      apply Alike.bind hexpand
      intro statements others hstatements
      exact alike_statementsScript scope ih hsame _ 0 statements others hstatements

theorem blind_bodyScript {registry : Registry} (h : registry.Blind file.language) (func : Func)
    (place : TreePath) : Blind file (bodyScript registry func place) := by
  unfold bodyScript
  apply Alike.context
  intro first second
  unfold FileContext.withImports
  dsimp only
  have hidioms : BlindAtIdioms file
      (idiomScript registry ⟨file.language, func⟩ expansionLimit) :=
    blind_idiomScript h expansionLimit
  have hbody : SameBlock func.body func.body := rfl
  have hstatements := alike_statementsScript ⟨file.language, func⟩ hidioms hbody place 0
    func.body.statements func.body.statements rfl
  exact hstatements.last

/-! ### The expanders of the dialects -/

theorem blind_goTargetZero (target : SymbolTarget) : Blind file (goTargetZero target) := by
  cases target with
  | declared id =>
    unfold goTargetZero
    apply Alike.context
    intro first second
    unfold FileContext.withImports
    dsimp only
    split
    · exact (blind_spellDeclared id).last
    · exact Alike.pure trivial
  | external reference =>
    unfold goTargetZero
    dsimp only
    split
    · exact Alike.pure trivial
    · exact (blind_spell reference).last

theorem blind_goZero (type : TypeExpr) (place : TreePath) : Blind file (goZero type place) := by
  cases type with
  | simple symbol =>
    unfold goZero
    apply Alike.bind (alike_meaning symbol place)
    rintro target _ rfl
    exact blind_goTargetZero target
  | _ => exact Alike.pure trivial

theorem skeleton_append (first second : Code) :
    (first ++ second).skeleton = first.skeleton ++ second.skeleton :=
  congrArg Code.mk List.map_append

/-- As many texts on both sides make the same code up to texts. -/
theorem map_skeleton_texts {first second : List String} (f : String → String)
    (h : List.Forall₂ Anything first second) :
    (first.map fun text => Segment.text (f text)).map Segment.skeleton =
      (second.map fun text => Segment.text (f text)).map Segment.skeleton := by
  induction h with
  | nil => rfl
  | cons _ _ ih =>
    rw [List.map_cons, List.map_cons, List.map_cons, List.map_cons, ih]
    rfl

/-- A return with a failure is the same up to the zero values in it. -/
theorem alike_goFailureReturn (scope : IdiomScope) (failure : Code) :
    Alike file (fun first second : Statement => first.skeleton = second.skeleton)
      (goFailureReturn scope failure) (goFailureReturn scope failure) := by
  unfold goFailureReturn
  -- There are as many zero values in both passes, each a text.
  have hzeros (result : Param) : Blind file (goZero result.type scope.path) :=
    blind_goZero result.type scope.path
  apply Alike.bind (Blind.mapM scope.func.leadingResults hzeros)
  intro zeros others htexts
  apply Alike.pure
  have hvalues := map_skeleton_texts (· ++ ", ") htexts
  rw [Statement.skeleton, Statement.skeleton, skeleton_append, skeleton_append]
  unfold Code.skeleton
  dsimp only
  rw [List.map_cons, List.map_cons, hvalues]

theorem alike_ensureCanFail (scope : IdiomScope) (kind : IdiomKind) :
    Alike file Eq (scope.ensureCanFail kind) (scope.ensureCanFail kind) := by
  unfold IdiomScope.ensureCanFail
  split
  · exact Alike.pure rfl
  · exact Alike.fail _

theorem alike_goAttempt (operands : Attempt) (scope : IdiomScope) :
    Alike file SameStatements (goAttempt operands scope) (goAttempt operands scope) := by
  unfold goAttempt
  apply Alike.bind (alike_ensureCanFail scope .attempt)
  rintro _ _ rfl
  apply Alike.bind (alike_goFailureReturn scope _)
  intro onFailure other hfailure
  -- The failure is returned in a block of its own, after the call or under it.
  have hblock (header : Code) :
      (Block.headed header [onFailure]).skeleton = (Block.headed header [other]).skeleton := by
    unfold Block.headed
    simp only [Block.skeleton, Statement.skeletons, hfailure]
  split
  · apply Alike.pure
    simp only [SameStatements, Statement.skeletons, Statement.skeleton, hblock]
  · apply Alike.pure
    simp only [SameStatements, Statement.skeletons, Statement.skeleton, hblock]

/-- The declaration of a name is the same up to its type. -/
theorem alike_javaBinding (operands : Attempt) (scope : IdiomScope) :
    Alike file (fun first second => SameStatements first.1 second.1 ∧ first.2 = second.2)
      (javaBinding operands scope) (javaBinding operands scope) := by
  unfold javaBinding
  split
  · exact Alike.pure ⟨rfl, rfl⟩
  · split
    · exact Alike.fail _
    · apply Alike.bind (blind_spellType _ scope.path)
      intro _ _ _
      exact Alike.pure ⟨rfl, rfl⟩

theorem skeletons_append (first second : List Statement) :
    Statement.skeletons (first ++ second) =
      Statement.skeletons first ++ Statement.skeletons second := by
  induction first with
  | nil => rfl
  | cons statement rest ih =>
    rw [List.cons_append, Statement.skeletons, Statement.skeletons, ih, List.cons_append]

theorem alike_javaAttempt (operands : Attempt) (scope : IdiomScope) :
    Alike file SameStatements (javaAttempt operands scope) (javaAttempt operands scope) := by
  unfold javaAttempt
  apply Alike.bind (alike_ensureCanFail scope .attempt)
  rintro _ _ rfl
  split
  · exact Alike.fail _
  · apply Alike.bind (alike_javaBinding operands scope)
    rintro ⟨declaration, assignment⟩ ⟨other, _⟩ ⟨hdeclaration, rfl⟩
    -- Only the declaration holds a spelled type.
    apply Alike.pure
    unfold SameStatements at hdeclaration ⊢
    rw [skeletons_append, skeletons_append, hdeclaration]

theorem blind_of_mem_goExpanders {expander : Expander} (h : expander ∈ goExpanders) :
    expander.Blind := by
  unfold goExpanders at h
  simp only [List.mem_cons, List.not_mem_nil, or_false] at h
  intro file idiom scope block
  -- None of them looks at the block around the idiom.
  rcases h with rfl | rfl | rfl
  · exact Alike.pure rfl
  · cases idiom with
    | attempt operands => exact alike_goAttempt operands scope
    | _ => exact Alike.fail _
  · cases idiom with
    | fail message =>
      apply Alike.bind (alike_ensureCanFail scope .fail)
      rintro _ _ rfl
      apply Alike.bind (alike_goFailureReturn scope (goFailure message))
      intro first second hsame
      apply Alike.pure
      simp only [SameStatements, Statement.skeletons, hsame]
    | _ => exact Alike.fail _

theorem blind_of_mem_javaExpanders {expander : Expander} (h : expander ∈ javaExpanders) :
    expander.Blind := by
  unfold javaExpanders at h
  simp only [List.mem_cons, List.not_mem_nil, or_false] at h
  intro file idiom scope block
  rcases h with rfl | rfl | rfl
  · exact Alike.pure rfl
  · cases idiom with
    | attempt operands => exact alike_javaAttempt operands scope
    | _ => exact Alike.fail _
  · cases idiom with
    | fail message =>
      apply Alike.bind (alike_ensureCanFail scope .fail)
      rintro _ _ rfl
      exact Alike.pure rfl
    | _ => exact Alike.fail _

/-- **The expanders that come with a dialect go the same way in both passes.** -/
theorem blind_of_mem_expanders {dialect : Dialect} {expander : Expander}
    (h : expander ∈ dialect.expanders) : expander.Blind := by
  cases dialect with
  | go => exact blind_of_mem_goExpanders h
  | java => exact blind_of_mem_javaExpanders h

end DeclPrinter
