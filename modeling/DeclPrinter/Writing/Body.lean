import DeclPrinter.Idiom.Registry
import DeclPrinter.Writing.FuncComment

/-!
# Func bodies

The statements of a body, written one after another. A nested block is a header with
an opening brace, its statements one level in, and a closing brace, on which the
chained clause opens. An idiom is expanded and the statements of its expansion are
written in its place.

Nothing stops an expander from giving the same idiom back, so expansion is bounded:
an idiom may be reached through at most `expansionLimit` others. The statements are
written by recursion on the body (`statementsScript`), which is told what to do at an
idiom; what is done there is defined by recursion on how many expansions are left
(`idiomScript`).
-/

namespace DeclPrinter

/-- How deep expansions may be nested in each other. -/
def expansionLimit : Nat :=
  64

/-- What a body is part of. -/
structure BodyScope where
  /-- The language of the file. -/
  language : Language
  /-- The func. -/
  func : Func

/-- Writes an idiom: given the block around it, the path of that block and the idiom. -/
abbrev IdiomWriter : Type :=
  Block → TreePath → Idiom → FileM Script

/-- The path of the statement at an index, as a block of its own. -/
def blockPath (place : TreePath) (index : Nat) : TreePath :=
  place.below .block (toString index)

/-- The header of a block, spelled. -/
def spellHeader (place : TreePath) : Option Code → FileM (Option String)
  | none => return none
  | some header => return some (← FileM.spellCode header place)

mutual

/-- Writes one statement of `block`, which stands at `place`; `index` is its position
there. -/
def statementScript (onIdiom : IdiomWriter) (scope : BodyScope) (block : Block)
    (place : TreePath) (index : Nat) : Statement → FileM Script
  | .code code => return [.line (← FileM.spellCode code place)]
  | .terminator => return [.append scope.language.terminator]
  | .block inner => blockScript onIdiom scope (blockPath place index) inner
  | .invoke idiom => onIdiom block place idiom

/-- Writes statements of `block`, of which the first stands at position `index`. -/
def statementsScript (onIdiom : IdiomWriter) (scope : BodyScope) (block : Block)
    (place : TreePath) (index : Nat) : List Statement → FileM Script
  | [] => return []
  | statement :: rest => do
    let first ← statementScript onIdiom scope block place index statement
    return first ++ (← statementsScript onIdiom scope block place (index + 1) rest)

/-- Writes a block with its braces and the clauses chained to it. -/
def blockScript (onIdiom : IdiomWriter) (scope : BodyScope) (place : TreePath) :
    Block → FileM Script
  | .mk doc header statements chained => do
    let opening := scope.language.blockOpening (← spellHeader place header)
    let inner ←
      statementsScript onIdiom scope (.mk doc header statements chained) place 0 statements
    let clauses ← clausesScript onIdiom scope place chained
    return blockComment scope.language doc ++ [.line opening, .indent] ++ inner ++
      [.dedent, .line scope.language.blockClosing] ++ clauses

/-- Writes the clause chained to a block, on the line that closes the block, and the
clauses chained to it in turn. -/
def clausesScript (onIdiom : IdiomWriter) (scope : BodyScope) (place : TreePath) :
    Option Block → FileM Script
  | none => return []
  | some (.mk doc header statements chained) => do
    let opening := scope.language.blockOpening (← spellHeader place header)
    let inner ←
      statementsScript onIdiom scope (.mk doc header statements chained) place 0 statements
    let clauses ← clausesScript onIdiom scope place chained
    return [.append " ", .append opening, .indent] ++ blockComment scope.language doc ++
      inner ++ [.dedent, .line scope.language.blockClosing] ++ clauses

end

/-- Writes an idiom by writing the statements of its expansion; `remaining` expansions
may still be nested in each other. -/
def idiomScript (registry : Registry) (scope : BodyScope) : Nat → IdiomWriter
  | remaining, block, place, idiom => do
    let tag := scope.language.tag
    let here := place.below .idiom idiom.kind.label
    match registry.expander? tag idiom.kind, remaining with
    | none, _ => FileM.fail (.unsupportedIdiom here idiom.kind tag)
    | some _, 0 => FileM.fail (.expansion here idiom.kind (.tooDeep expansionLimit))
    | some expander, remaining + 1 =>
      let statements ← expander.expand idiom ⟨scope.func, block, tag, here⟩
      statementsScript (idiomScript registry scope remaining) scope block here 0 statements

/-- Writes the body of a func that stands at `place`: its comment, then its
statements. -/
def bodyScript (registry : Registry) (func : Func) (place : TreePath) : FileM Script := do
  let scope : BodyScope := ⟨(← FileM.context).language, func⟩
  let statements ← statementsScript (idiomScript registry scope expansionLimit) scope func.body
    place 0 func.body.statements
  return blockComment scope.language func.body.doc ++ statements

end DeclPrinter
