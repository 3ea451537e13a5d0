import DeclPrinter.Proofs.Writing.GoComments
import DeclPrinter.Proofs.Writing.GoForm

/-!
# Declarations end at the level at which they start

A body is lines and blocks, whatever idioms are expanded in it: expansions are statements like
any others. So a declaration is well nested, and what is written after it stands at the level at
which it started.
-/

namespace DeclPrinter

open FileM

variable {c : FileContext}

/-! ### Bodies -/

/-- What is written for an idiom is well nested. -/
def NestsIdioms (c : FileContext) (onIdiom : IdiomWriter) : Prop :=
  ∀ block place idiom script, (onIdiom block place idiom).Yields c script → WellNested script

theorem wellNested_blockComment (language : Language) (doc : Option String) :
    WellNested (blockComment language doc) := by
  have hlines := WellNested.lines ((Comment.lines "" doc).map fun line =>
    language.commentMark ++ " " ++ Text.trimStart line)
  rwa [List.map_map] at hlines

section

variable {onIdiom : IdiomWriter} {scope : BodyScope}

mutual

theorem wellNested_statementScript (h : NestsIdioms c onIdiom) {block : Block} {place : TreePath}
    {index : Nat} (statement : Statement) {script : Script}
    (hscript : (statementScript onIdiom scope block place index statement).Yields c script) :
    WellNested script := by
  cases statement with
  | code code =>
    obtain ⟨text, _, hline⟩ := yields_bind.mp hscript
    have heq := yields_pure.mp hline
    subst heq
    exact .line text
  | terminator =>
    have heq := yields_pure.mp hscript
    subst heq
    exact .append _
  | block inner => exact wellNested_blockScript h inner hscript
  | invoke idiom => exact h block place idiom script hscript
termination_by structural statement

theorem wellNested_statementsScript (h : NestsIdioms c onIdiom) {block : Block}
    {place : TreePath} {index : Nat} (statements : List Statement) {script : Script}
    (hscript : (statementsScript onIdiom scope block place index statements).Yields c script) :
    WellNested script := by
  cases statements with
  | nil =>
    have heq := yields_pure.mp hscript
    subst heq
    exact .nil
  | cons statement rest =>
    obtain ⟨first, hfirst, hrest⟩ := yields_bind.mp hscript
    obtain ⟨others, hothers, hjoined⟩ := yields_bind.mp hrest
    have heq := yields_pure.mp hjoined
    subst heq
    exact (wellNested_statementScript h statement hfirst).join
      (wellNested_statementsScript h rest hothers)
termination_by structural statements

theorem wellNested_blockScript (h : NestsIdioms c onIdiom) {place : TreePath} (block : Block)
    {script : Script} (hscript : (blockScript onIdiom scope place block).Yields c script) :
    WellNested script := by
  obtain ⟨doc, header, statements, chained⟩ := block
  obtain ⟨opening, _, hrest⟩ := yields_bind.mp hscript
  obtain ⟨inner, hinner, hrest⟩ := yields_bind.mp hrest
  obtain ⟨clauses, hclauses, hwhole⟩ := yields_bind.mp hrest
  have heq := yields_pure.mp hwhole
  subst heq
  have hblock := (wellNested_statementsScript h statements hinner).block
    (scope.language.blockOpening opening) scope.language.blockClosing
  have hall := ((wellNested_blockComment scope.language doc).join hblock).join
    (wellNested_clausesScript h chained hclauses)
  simpa using hall
termination_by structural block

theorem wellNested_clausesScript (h : NestsIdioms c onIdiom) {place : TreePath}
    (chained : Option Block) {script : Script}
    (hscript : (clausesScript onIdiom scope place chained).Yields c script) :
    WellNested script := by
  cases chained with
  | none =>
    have heq := yields_pure.mp hscript
    subst heq
    exact .nil
  | some block =>
    obtain ⟨doc, header, statements, chained⟩ := block
    obtain ⟨opening, _, hrest⟩ := yields_bind.mp hscript
    obtain ⟨inner, hinner, hrest⟩ := yields_bind.mp hrest
    obtain ⟨clauses, hclauses, hwhole⟩ := yields_bind.mp hrest
    have heq := yields_pure.mp hwhole
    subst heq
    -- The clause opens on the line that closes the block before it.
    have hopening := (WellNested.append " ").join
      (.append (scope.language.blockOpening opening))
    have hinside := ((wellNested_blockComment scope.language doc).join
      (wellNested_statementsScript h statements hinner)).nest
    have hall := ((hopening.join hinside).join (.line scope.language.blockClosing)).join
      (wellNested_clausesScript h chained hclauses)
    simpa using hall
termination_by structural chained

end

end

variable {registry : Registry}

theorem nestsIdioms_idiomScript (scope : BodyScope) (remaining : Nat) :
    NestsIdioms c (idiomScript registry scope remaining) := by
  induction remaining with
  | zero =>
    intro block place idiom script hscript
    unfold idiomScript at hscript
    dsimp only at hscript
    split at hscript
    · exact absurd hscript not_yields_fail
    · exact absurd hscript not_yields_fail
    · rename_i hzero
      cases hzero
  | succ remaining ih =>
    intro block place idiom script hscript
    unfold idiomScript at hscript
    dsimp only at hscript
    split at hscript
    · exact absurd hscript not_yields_fail
    · rename_i hzero
      cases hzero
    · rename_i hsucc
      cases hsucc
      -- The expansion is statements, with one expansion less in them.
      obtain ⟨statements, _, hstatements⟩ := yields_bind.mp hscript
      exact wellNested_statementsScript ih statements hstatements

/-- **A body is well nested,** whatever its idioms expand to. -/
theorem wellNested_bodyScript {func : Func} {place : TreePath} {script : Script}
    (h : (bodyScript registry func place).Yields c script) : WellNested script := by
  unfold bodyScript at h
  obtain ⟨statements, hstatements, h⟩ := yields_bind.mp (yields_context_bind.mp h)
  have heq := yields_pure.mp h
  subst heq
  exact (wellNested_blockComment _ _).join
    (wellNested_statementsScript (nestsIdioms_idiomScript _ _) _ hstatements)

/-! ### Go -/

theorem wellNested_goComment (lines : List String) : WellNested (goComment lines) := by
  rw [goComment_eq]
  exact WellNested.lines _

theorem wellNested_goFuncComment (doc : FuncComment) : WellNested (goFuncComment doc) :=
  (wellNested_goComment _).join (wellNested_goComment _)

theorem wellNested_goFunc {id : FuncId} {script : Script}
    (h : (goFunc registry id).Yields c script) : WellNested script := by
  obtain ⟨_, doc, _, body, _, _, _, hbody, rfl⟩ := yields_goFunc h
  exact (wellNested_goFuncComment doc).join ((wellNested_bodyScript hbody).block _ _)

theorem wellNested_goFieldRows (rows : List FieldRow) : WellNested (goFieldRows rows) := by
  unfold goFieldRows
  rw [List.flatMap_def]
  refine WellNested.flatten fun script hscript => ?_
  obtain ⟨group, _, rfl⟩ := List.mem_map.mp hscript
  exact (wellNested_goComment _).join (WellNested.lines _)

theorem wellNested_goStruct {type : TypeNode} {name : String} {script : Script}
    (h : (goStruct type name).Yields c script) : WellNested script := by
  rcases yields_goStruct h with ⟨_, rfl⟩ | ⟨rows, _, rfl⟩
  · exact .line _
  · exact (wellNested_goFieldRows rows).block _ _

theorem wellNested_goInterface {type : TypeNode} {name : String} {script : Script}
    (h : (goInterface type name).Yields c script) : WellNested script := by
  rcases yields_goInterface h with ⟨_, rfl⟩ | ⟨methods, hmethods, rfl⟩
  · exact .line _
  · refine (WellNested.flatten fun method hmethod => ?_).block _ _
    obtain ⟨id, _, hid⟩ := exists_of_mem_of_forall₂ hmethods method hmethod
    obtain ⟨doc, _, _, rfl⟩ := yields_goInterfaceMethod hid
    exact (wellNested_goFuncComment doc).join (.line _)

/-- Declarations after blank lines are well nested if each is. -/
theorem Spaced.wellNested {α : Type} {write : α → FileM Script} {items : List α}
    {scripts : List Script} (h : Spaced c write items scripts)
    (hwrite : ∀ item script, (write item).Yields c script → WellNested script) :
    ∀ script ∈ scripts, WellNested script := by
  intro script hscript
  obtain ⟨item, _, own, hown, rfl⟩ := exists_of_mem_of_forall₂ h script hscript
  exact WellNested.blank.join (hwrite item own hown)

theorem wellNested_goTypeScript {id : TypeId} {script : Script}
    (h : (goTypeScript registry id).Yields c script) : WellNested script := by
  obtain ⟨declaration, methods, rfl, hdeclaration⟩ := yields_goTypeScript h
  split at hdeclaration
  · obtain ⟨hstruct, hmethods⟩ := hdeclaration
    have hrest := hmethods.wellNested fun _ _ hmethod => wellNested_goFunc hmethod
    exact ((wellNested_goComment _).join (wellNested_goStruct hstruct)).join
      (WellNested.flatten hrest)
  · obtain ⟨hinterface, rfl⟩ := hdeclaration
    exact ((wellNested_goComment _).join (wellNested_goInterface hinterface)).join .nil

/-! ### Java -/

theorem wellNested_docComment (lines : List String) : WellNested (docComment lines) := by
  unfold docComment
  split
  · exact .nil
  · exact .line _
  · have hlines := WellNested.lines (lines.map fun line =>
      if line.isEmpty then " *" else " * " ++ line)
    rw [List.map_map] at hlines
    exact ((WellNested.line "/**").join hlines).join (.line " */")

theorem wellNested_separated {scripts : List Script} (h : ∀ script ∈ scripts, WellNested script) :
    WellNested (separated scripts) := by
  induction scripts with
  | nil => exact .nil
  | cons script rest ih =>
    have hrest := ih fun other hother => h other (List.mem_cons_of_mem script hother)
    cases rest with
    | nil => exact h script List.mem_cons_self
    | cons second others =>
      have hall := (h script List.mem_cons_self).join (WellNested.blank.join hrest)
      exact hall

end DeclPrinter
