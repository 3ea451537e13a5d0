import DeclPrinter.Decl.TypeExpr

/-!
# Code, statements and blocks

The body of a func is a block of statements. A statement is a piece of
target-language code, a nested block, or an *idiom*: an operation that no two
target languages write alike, such as "call this and pass a failure on". Idioms
are expanded into plain statements when the func is written, by whatever
expander is registered for the language, and an expansion may hold idioms again.

Blocks and statements are declared together: a statement may hold a block, and a
block holds statements and the clause chained to it (`else`, `catch`).
-/

namespace DeclPrinter

/-- A piece of a code template. -/
inductive Segment where
  /-- Target-language text, taken as it is. -/
  | text (text : String)
  /-- A symbol, spelled for the target language. -/
  | symbol (symbol : Symbol)
  /-- A reference that already belongs to the target language. -/
  | reference (reference : Reference)
  deriving DecidableEq, Repr, Inhabited

/-- Target-language code with symbols and references in it. -/
structure Code where
  /-- The pieces in order. -/
  segments : List Segment
  deriving DecidableEq, Repr, Inhabited

namespace Code

/-- Code that is one piece of text. -/
def ofText (text : String) : Code :=
  ⟨[.text text]⟩

/-- One code after another. -/
def append (first second : Code) : Code :=
  ⟨first.segments ++ second.segments⟩

instance : Append Code := ⟨append⟩

/-- Code that holds no symbol, no reference and no text. -/
def isEmpty (code : Code) : Bool :=
  code.segments.all fun
    | .text text => text.isEmpty
    | _ => false

end Code

/-- A call that may fail: its results are bound to names, and a failure is passed
on under a message. -/
structure Attempt where
  /-- The names bound to the results. -/
  names : List String
  /-- The call itself. -/
  call : Code
  /-- What the failure is reported as. -/
  message : String
  /-- The type of the binding, for a language that has to be told. -/
  bindingType : Option TypeExpr
  deriving DecidableEq, Repr, Inhabited

/-- An operation that each target language writes in its own way. -/
inductive Idiom where
  /-- The end of a statement. -/
  | terminator
  /-- A call whose failure is passed on. -/
  | attempt (operands : Attempt)
  /-- Leaving the func with a failure of its own. -/
  | fail (message : String)
  deriving DecidableEq, Repr, Inhabited

/-- The kind of an idiom, by which an expander is found. -/
inductive IdiomKind where
  | terminator
  | attempt
  | fail
  deriving DecidableEq, Repr, Inhabited

/-- The kind of an idiom. -/
def Idiom.kind : Idiom → IdiomKind
  | .terminator => .terminator
  | .attempt _ => .attempt
  | .fail _ => .fail

/-- The word for the kind in paths, messages and data. -/
def IdiomKind.label : IdiomKind → String
  | .terminator => "Terminator"
  | .attempt => "TryDefine"
  | .fail => "Fail"

mutual

/-- One statement of a body. -/
inductive Statement where
  /-- Code on lines of its own. -/
  | code (code : Code)
  /-- A nested block. -/
  | block (block : Block)
  /-- An idiom, to be expanded. -/
  | invoke (idiom : Idiom)
  /-- The target language's statement terminator, put after the line before. -/
  | terminator

/-- Statements with the header that introduces them, if any. -/
structure Block where
  /-- A comment on the block. -/
  doc : Option String
  /-- What stands before the opening brace, such as `if x`. -/
  header : Option Code
  /-- The statements in order. -/
  statements : List Statement
  /-- The clause that opens on the closing line, as in `} else {`. -/
  chained : Option Block

end

deriving instance Repr, Inhabited, BEq for Statement, Block

namespace Block

/-- The block without statements. -/
def empty : Block :=
  ⟨none, none, [], none⟩

/-- A block of statements under a header. -/
def headed (header : Code) (statements : List Statement) : Block :=
  ⟨none, some header, statements, none⟩

/-- The block with another clause chained to it. -/
def chain (block next : Block) : Block :=
  ⟨block.doc, block.header, block.statements, some next⟩

/-- Whether the block has no statements. -/
def isEmpty (block : Block) : Bool :=
  block.statements.isEmpty

end Block

end DeclPrinter
