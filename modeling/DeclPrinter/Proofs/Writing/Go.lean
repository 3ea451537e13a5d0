import DeclPrinter.Proofs.Writing.Body
import DeclPrinter.Writing.Go

/-!
# Go declarations do not depend on the imports

Fields, signatures and bodies hold spelled types, and nothing but the text of a declaration
is made of them. So a Go declaration is written alike in both passes through its file.
-/

namespace DeclPrinter

open FileM

variable {file : FileContext} {registry : Registry}

/-! ### Signatures -/

theorem blind_goParam (place : TreePath) (param : Param) : Blind file (goParam place param) := by
  unfold goParam
  exact (blind_spellType param.type place).last

theorem blind_resultPart (place : TreePath) (result : Param) :
    Blind file (resultPart place result) := by
  unfold resultPart
  exact (blind_spellType result.type place).last

theorem blind_plainResults (func : Func) (place : TreePath) :
    Blind file (plainResults func place) := by
  unfold plainResults
  exact (Blind.mapM func.results (blind_resultPart place)).last

theorem blind_goSignature (func : Func) (place : TreePath) :
    Blind file (goSignature func place) := by
  unfold goSignature
  apply Alike.bind (Blind.mapM func.params (blind_goParam place))
  intro _ _ _
  exact (blind_plainResults func place).last

/-! ### Funcs -/

theorem blind_goReceiver (func : Func) (home : FuncHome) : Blind file (goReceiver func home) := by
  cases home with
  | type id =>
    unfold goReceiver
    apply Alike.bind (blind_spellDeclared id)
    intro _ _ _
    apply Alike.context
    intro _ _
    exact Alike.pure trivial
  | _ => exact Alike.pure trivial

/-- **A func is written alike in both passes** if its idioms are. -/
theorem blind_goFunc (h : registry.Blind file.language) (id : FuncId) :
    Blind file (goFunc registry id) := by
  unfold goFunc
  apply Alike.context
  intro _ _
  apply Alike.bind (blind_goReceiver _ _)
  intro _ _ _
  apply Alike.bind (blind_funcComment _ _ _)
  intro _ _ _
  apply Alike.bind (blind_goSignature _ _)
  intro _ _ _
  exact (blind_bodyScript h _ _).last

/-! ### Types -/

theorem blind_goFieldRow (id : FieldId) : Blind file (goFieldRow id) := by
  unfold goFieldRow
  apply Alike.context
  intro _ _
  exact (blind_spellType _ _).last

theorem blind_goStruct (type : TypeNode) (name : String) : Blind file (goStruct type name) := by
  unfold goStruct
  split
  · exact Alike.pure trivial
  · exact (Blind.mapM type.fields blind_goFieldRow).last

theorem blind_goInterfaceMethod (id : FuncId) : Blind file (goInterfaceMethod id) := by
  unfold goInterfaceMethod
  apply Alike.context
  intro _ _
  apply Alike.bind (blind_funcComment _ _ _)
  intro _ _ _
  exact (blind_goSignature _ _).last

theorem blind_goInterface (type : TypeNode) (name : String) :
    Blind file (goInterface type name) := by
  unfold goInterface
  split
  · exact Alike.pure trivial
  · exact (Blind.mapM type.methods blind_goInterfaceMethod).last

/-- **A type is written alike in both passes** if the idioms in its methods are. -/
theorem blind_goTypeScript (h : registry.Blind file.language) (id : TypeId) :
    Blind file (goTypeScript registry id) := by
  unfold goTypeScript
  apply Alike.context
  intro _ _
  unfold FileContext.withImports
  dsimp only
  split
  · apply Alike.bind (blind_goStruct _ _)
    intro _ _ _
    have hmethod (method : FuncId) :
        Blind file (return Step.blank :: (← goFunc registry method)) :=
      (blind_goFunc h method).last
    exact (Blind.mapM _ hmethod).last
  · exact (blind_goInterface _ _).last

end DeclPrinter
