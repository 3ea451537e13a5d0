import DeclPrinter.Writing.Spelling

/-!
# Expanders

An expander turns an idiom of one kind into statements. It knows where the idiom
stands: the func, the block, the language and the path. The statements may hold
further idioms, which are expanded in turn.
-/

namespace DeclPrinter

/-- Where an idiom stands. -/
structure IdiomScope where
  /-- The func around it. -/
  func : Func
  /-- The block around it. -/
  block : Block
  /-- The tag of the target language. -/
  language : String
  /-- The path of the idiom. -/
  path : TreePath

namespace IdiomScope

/-- Fails unless the last result of the func is the failure channel. -/
def ensureCanFail (scope : IdiomScope) (kind : IdiomKind) : FileM Unit :=
  if scope.func.canFail then pure ()
  else FileM.fail (.idiomContext scope.path kind scope.func.name)

/-- Fails because the idiom cannot be expanded. -/
def refuse {α : Type} (scope : IdiomScope) (kind : IdiomKind) (fault : ExpansionFault) :
    FileM α :=
  FileM.fail (.expansion scope.path kind fault)

end IdiomScope

/-- Expands idioms of one kind. -/
structure Expander where
  /-- The kind of idiom it is for. -/
  kind : IdiomKind
  /-- The statements that stand for an idiom. -/
  expand : Idiom → IdiomScope → FileM (List Statement)

namespace Expander

/-- The expander that always gives the same statements. -/
def constant (kind : IdiomKind) (statements : List Statement) : Expander :=
  ⟨kind, fun _ _ => return statements⟩

/-- The expander that always refuses, for a reason in its own words. -/
def refusing (kind : IdiomKind) (reason : String) : Expander :=
  ⟨kind, fun _ scope => scope.refuse kind (.other reason)⟩

/-- The expander that gives no statements, but only inside a func that has a failure
channel. -/
def requiring (kind : IdiomKind) : Expander :=
  ⟨kind, fun _ scope => do scope.ensureCanFail kind; return []⟩

/-- The expander that asks for the render to be cancelled and gives no statements. -/
def cancelling (kind : IdiomKind) : Expander :=
  ⟨kind, fun _ _ => do FileM.cancel; return []⟩

/-- The expander under another kind. -/
def under (expander : Expander) (kind : IdiomKind) : Expander :=
  ⟨kind, expander.expand⟩

end Expander

end DeclPrinter
