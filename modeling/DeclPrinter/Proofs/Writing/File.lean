import DeclPrinter.Proofs.Writing.Go
import DeclPrinter.Proofs.Writing.Java
import DeclPrinter.Writing.File

/-!
# Files do not depend on the imports

A file is its declarations and what stands above them, of which only the import section has
to do with the imports. So the two passes through a file leave the same trace.
-/

namespace DeclPrinter

open FileM

variable {file : FileContext} {registry : Registry}

theorem blind_typeScript (h : registry.Blind file.language) (dialect : Dialect) (id : TypeId) :
    Blind file (dialect.typeScript registry id) := by
  cases dialect with
  | go => exact blind_goTypeScript h id
  | java => exact blind_javaTypeScript h id

theorem blind_funcScript (h : registry.Blind file.language) (dialect : Dialect) (id : FuncId) :
    Blind file (dialect.funcScript registry id) := by
  cases dialect with
  | go => exact blind_goFunc h id
  | java => exact blind_javaFunc h id

theorem blind_plainScript (h : registry.Blind file.language) (dialect : Dialect)
    (contents : FileContents) : Blind file (dialect.plainScript registry contents) := by
  unfold Dialect.plainScript
  apply Alike.bind (Blind.mapM _ fun id => (blind_typeScript h dialect id).last)
  intro _ _ _
  exact (Blind.mapM _ fun id => (blind_funcScript h dialect id).last).last

theorem blind_declsScript (h : registry.Blind file.language) :
    Blind file (declsScript registry) := by
  unfold declsScript
  apply Alike.context
  intro _ _
  unfold FileContext.withImports
  dsimp only
  split
  · exact blind_javaScript h
  · exact blind_plainScript h _ _

/-- **The passes through a file go the same way,** if its idioms do. -/
theorem blind_fileScript (h : registry.Blind file.language) :
    Blind file (fileScript registry) := by
  unfold fileScript
  apply Alike.context
  intro _ _
  -- The import section differs between the passes, and it is a text.
  exact (blind_declsScript h).last

end DeclPrinter
