import DeclPrinter.Proofs.Tree.Markers

/-!
# Rewriting bodies

A body is rewritten when each of its statements is replaced by statements, also those in nested
blocks and in chained clauses; the blocks themselves stay (`Block.rewritten`).

A statement is terminated by a statement of its own or by an idiom. With the same statements in
place of all of these (`Block.terminatedBy`) two bodies are the same if they differ only in how they
put their terminators, or, with no statement in place of any, if they differ in terminators only.
-/

namespace DeclPrinter

section

variable (f : Statement → List Statement)

mutual

/-- What stands in place of a statement when those that are no blocks are replaced. -/
def Statement.rewritten : Statement → List Statement
  | .block inner => [.block (inner.rewritten)]
  | .code code => f (.code code)
  | .invoke idiom => f (.invoke idiom)
  | .terminator => f .terminator

/-- The statements, each replaced. -/
def Statement.rewrittenAll : List Statement → List Statement
  | [] => []
  | statement :: rest => statement.rewritten ++ Statement.rewrittenAll rest

/-- The block with its statements replaced, and those of the clauses chained to it. -/
def Block.rewritten : Block → Block
  | .mk doc header statements chained =>
    .mk doc header (Statement.rewrittenAll statements) (Block.rewrittenClause chained)

/-- The chained clause with its statements replaced. -/
def Block.rewrittenClause : Option Block → Option Block
  | none => none
  | some clause => some clause.rewritten

end

end

mutual

/-- With each statement in place of itself nothing is replaced. -/
theorem Statement.rewritten_self (statement : Statement) :
    statement.rewritten (fun own => [own]) = [statement] := by
  cases statement with
  | block inner => rw [Statement.rewritten, Block.rewritten_self]
  | _ => rfl
termination_by structural statement

theorem Statement.rewrittenAll_self (statements : List Statement) :
    Statement.rewrittenAll (fun own => [own]) statements = statements := by
  cases statements with
  | nil => rfl
  | cons statement rest =>
    rw [Statement.rewrittenAll, Statement.rewritten_self statement,
      Statement.rewrittenAll_self rest]
    rfl
termination_by structural statements

theorem Block.rewritten_self (block : Block) : block.rewritten (fun own => [own]) = block := by
  obtain ⟨doc, header, statements, chained⟩ := block
  rw [Block.rewritten, Statement.rewrittenAll_self statements, Block.rewrittenClause_self chained]
termination_by structural block

theorem Block.rewrittenClause_self (chained : Option Block) :
    Block.rewrittenClause (fun own => [own]) chained = chained := by
  cases chained with
  | none => rfl
  | some clause => rw [Block.rewrittenClause, Block.rewritten_self clause]
termination_by structural chained

end

theorem Block.statements_rewritten (f : Statement → List Statement) (block : Block) :
    (block.rewritten f).statements = Statement.rewrittenAll f block.statements := by
  cases block
  rfl

theorem Block.doc_rewritten (f : Statement → List Statement) (block : Block) :
    (block.rewritten f).doc = block.doc := by
  cases block
  rfl

theorem Block.hollow_rewritten (f : Statement → List Statement) (block : Block) :
    (block.rewritten f).hollow = block.hollow := by
  obtain ⟨doc, header, statements, _ | clause⟩ := block
  · rfl
  · rfl

/-! ### Terminators -/

/-- What stands in place of a statement that is no block when each terminator is replaced. -/
def Statement.terminatedBy (ending : List Statement) : Statement → List Statement
  | .terminator => ending
  | .invoke .terminator => ending
  | statement => [statement]

/-- The block with these statements in place of each terminator. -/
def Block.terminatedBy (ending : List Statement) (block : Block) : Block :=
  block.rewritten (Statement.terminatedBy ending)

/-- The func with these statements in place of each terminator in its body. -/
def Func.terminatedBy (ending : List Statement) (func : Func) : Func :=
  { func with body := func.body.terminatedBy ending }

/-- The tree with these statements in place of each terminator in the bodies of its funcs. -/
def DeclTree.terminatedBy (ending : List Statement) (tree : DeclTree) : DeclTree :=
  { tree with funcs := tree.funcs.map (Func.terminatedBy ending) }

theorem DeclTree.func_terminatedBy (ending : List Statement) (tree : DeclTree) (id : FuncId) :
    (tree.terminatedBy ending).func id = (tree.func id).terminatedBy ending :=
  getD_map_default rfl tree.funcs id.index

theorem DeclTree.func_eq_of_terminatedBy {ending : List Statement} {tree other : DeclTree}
    (h : other.terminatedBy ending = tree.terminatedBy ending) (id : FuncId) :
    (other.func id).terminatedBy ending = (tree.func id).terminatedBy ending := by
  rw [← func_terminatedBy, h, func_terminatedBy]

theorem Func.hollow_terminatedBy (ending : List Statement) (func : Func) :
    (func.terminatedBy ending).hollow = func.hollow := by
  unfold Func.hollow Func.unmarked Func.terminatedBy Block.terminatedBy
  rw [Block.hollow_rewritten]

theorem DeclTree.hollow_terminatedBy (ending : List Statement) (tree : DeclTree) :
    (tree.terminatedBy ending).hollow = tree.hollow := by
  unfold hollow terminatedBy
  simp only [Array.map_map]
  congr 1
  exact congrArg (Array.map · tree.funcs) (funext (Func.hollow_terminatedBy ending))

/-- Trees that differ in terminators alone are the same without what is in bodies. -/
theorem DeclTree.hollow_eq_of_terminatedBy {ending : List Statement} {tree other : DeclTree}
    (h : other.terminatedBy ending = tree.terminatedBy ending) : other.hollow = tree.hollow := by
  rw [← hollow_terminatedBy ending other, h, hollow_terminatedBy]

/-- With something in place of its terminators a block has statements if it had any. -/
theorem Block.isEmpty_terminatedBy {ending : List Statement} (hending : ending ≠ [])
    (block : Block) : (block.terminatedBy ending).isEmpty = block.isEmpty := by
  obtain ⟨doc, header, statements, chained⟩ := block
  cases statements with
  | nil => rfl
  | cons statement rest =>
    have hstatement : statement.rewritten (Statement.terminatedBy ending) ≠ [] := by
      cases statement with
      | invoke idiom => cases idiom <;> simp [Statement.rewritten, Statement.terminatedBy, hending]
      | _ => simp [Statement.rewritten, Statement.terminatedBy, hending]
    show (statement.rewritten _ ++ Statement.rewrittenAll _ rest).isEmpty = false
    simp [hstatement]

end DeclPrinter
