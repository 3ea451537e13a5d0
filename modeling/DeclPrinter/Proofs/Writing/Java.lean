import DeclPrinter.Proofs.Writing.Body
import DeclPrinter.Writing.Java

/-!
# Java declarations do not depend on the imports

As in Go, spelled types end in texts. One thing is decided by a value on the way: whether a
method returns a record, and under which name, for it may not take that of a class around
it. Neither depends on how the types of the components are spelled (`SameRecord`).
-/

namespace DeclPrinter

open FileM

variable {file : FileContext} {registry : Registry}

/-! ### Results -/

/-- A func with either of these results returns a record under the same name, or none. -/
def SameRecord (first second : Returned) : Prop :=
  ∀ func, (javaRecord? func first).map Prod.fst = (javaRecord? func second).map Prod.fst

theorem blind_component (place : TreePath) (result : Param × Nat) :
    Blind file (ExceptionStyle.component place result) := by
  unfold ExceptionStyle.component
  exact (blind_spellType result.1.type place).last

theorem alike_returned (convention : ExceptionStyle) (func : String) (place : TreePath)
    (results : List Param) :
    Alike file SameRecord (convention.returned func place results)
      (convention.returned func place results) := by
  unfold ExceptionStyle.returned
  split
  · exact Alike.pure fun _ => rfl
  · -- A single value is no record, however its type is spelled.
    apply Alike.bind (blind_spellType _ place)
    intro _ _ _
    exact Alike.pure fun _ => rfl
  · apply Alike.bind (Blind.mapM _ (blind_component place))
    intro _ _ _
    exact Alike.pure fun _ => rfl

theorem alike_resultForm (convention : ExceptionStyle) (func : Func) (place : TreePath) :
    Alike file (fun first second => SameRecord first.returned second.returned)
      (convention.resultForm func place) (convention.resultForm func place) := by
  unfold ExceptionStyle.resultForm
  apply Alike.bind (alike_returned convention func.name place _)
  intro _ _ hsame
  exact Alike.pure hsame

/-- The record of a func is declared, or refused because of its name, in both passes. -/
theorem alike_javaRecordOf (kind : MethodForm) (home : FuncHome) (place : TreePath)
    (func : String) {first second : Returned} (h : SameRecord first second) :
    Alike file Anything (javaRecordOf kind home place func first)
      (javaRecordOf kind home place func second) := by
  have hnames := h func
  unfold javaRecordOf
  rcases hfirst : javaRecord? func first with _ | ⟨name, components⟩
  · rcases hsecond : javaRecord? func second with _ | ⟨other, others⟩
    · exact Alike.pure trivial
    · rw [hfirst, hsecond] at hnames
      cases hnames
  · rcases hsecond : javaRecord? func second with _ | ⟨other, others⟩
    · rw [hfirst, hsecond] at hnames
      cases hnames
    · rw [hfirst, hsecond] at hnames
      -- Both passes ask for a record of the same name.
      obtain rfl : name = other := Option.some.inj hnames
      apply Alike.context
      intro _ _
      show Alike file Anything
        (if (takenClasses file home).contains name then _ else _)
        (if (takenClasses file home).contains name then _ else _)
      split
      · exact Alike.fail _
      · exact Alike.pure trivial

/-! ### Methods -/

theorem blind_javaParam (place : TreePath) (param : Param) :
    Blind file (javaParam place param) := by
  unfold javaParam
  exact (blind_spellType param.type place).last

theorem blind_javaReceiver (func : Func) (home : FuncHome) :
    Blind file (javaReceiver func home) := by
  unfold javaReceiver
  split
  · exact (blind_spellDeclared _).last
  · exact Alike.pure trivial

/-- **A method is written alike in both passes** if its idioms are. -/
theorem blind_javaMethod (h : registry.Blind file.language) (kind : MethodForm) (id : FuncId) :
    Blind file (javaMethod registry kind id) := by
  unfold javaMethod
  apply Alike.context
  intro _ _
  apply Alike.bind (alike_resultForm _ _ _)
  intro _ _ hrecord
  apply Alike.bind (alike_javaRecordOf _ _ _ _ hrecord)
  intro _ _ _
  apply Alike.bind (blind_funcComment _ _ _)
  intro _ _ _
  apply Alike.bind (Blind.mapM _ (blind_javaParam _))
  intro _ _ _
  dsimp only
  split
  · exact Alike.pure trivial
  · apply Alike.bind (blind_javaReceiver _ _)
    intro _ _ _
    exact (blind_bodyScript h _ _).last

theorem blind_javaFunc (h : registry.Blind file.language) (id : FuncId) :
    Blind file (javaFunc registry id) := by
  unfold javaFunc
  apply Alike.context
  intro _ _
  unfold FileContext.withImports
  dsimp only
  split
  · exact blind_javaMethod h _ _
  · exact blind_javaMethod h _ _

/-! ### Types -/

theorem blind_javaField (id : FieldId) : Blind file (javaField id) := by
  unfold javaField
  apply Alike.context
  intro _ _
  exact (blind_spellType _ _).last

theorem blind_javaMembers (h : registry.Blind file.language) (type : TypeNode) :
    Blind file (javaMembers registry type) := by
  unfold javaMembers
  apply Alike.bind (Blind.mapM _ blind_javaField)
  intro _ _ _
  exact (Blind.mapM _ (blind_javaMethod h _)).last

/-- **A type is written alike in both passes** if the idioms in its methods are. -/
theorem blind_javaTypeScript (h : registry.Blind file.language) (id : TypeId) :
    Blind file (javaTypeScript registry id) := by
  unfold javaTypeScript
  apply Alike.context
  intro _ _
  unfold FileContext.withImports
  dsimp only
  split
  · exact Alike.pure trivial
  · exact (blind_javaMembers h _).last

/-! ### Files -/

theorem alike_checkWrapping (wrapper : String) (types : List TypeId) :
    Alike file Eq (checkWrapping wrapper types) (checkWrapping wrapper types) := by
  unfold checkWrapping
  apply Alike.context
  intro _ _
  unfold FileContext.withImports
  dsimp only
  split
  · exact Alike.fail _
  · exact Alike.pure rfl

theorem blind_javaWrapped (h : registry.Blind file.language) (contents : FileContents) :
    Blind file (javaWrapped registry contents) := by
  unfold javaWrapped
  apply Alike.bind (alike_checkWrapping _ _)
  intro _ _ _
  apply Alike.bind (Blind.mapM _ (blind_javaTypeScript h))
  intro _ _ _
  exact (Blind.mapM _ (blind_javaFunc h)).last

theorem blind_javaScript (h : registry.Blind file.language) :
    Blind file (javaScript registry) := by
  unfold javaScript
  apply Alike.context
  intro _ _
  unfold FileContext.withImports
  dsimp only
  split
  · exact Alike.pure trivial
  · exact (blind_javaTypeScript h _).last
  · exact blind_javaWrapped h _

end DeclPrinter
