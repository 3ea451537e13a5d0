import DeclPrinter.Proofs.Writing.Agreement
import DeclPrinter.Writing.FuncComment

/-!
# What does not depend on the imports

A file is gone through twice, without imports and with them. What the imports change is how
references are spelled, and a spelling is only ever put into a text. So the two passes go
the same way: they refer to the same things, cancel the render alike, and fail alike or both
succeed, with values that differ at most in texts.

`FileM.Alike file R x y` says so of two computations in a file, the values being related by
`R`. It is kept by everything that computations are made of (`Alike.bind`, `Alike.mapM`), so
for a function of the writer it is proved along its definition. Where nothing looks at the
value again, any two values will do (`FileM.Blind`).
-/

namespace DeclPrinter

/-- The file with other imports. -/
def FileContext.withImports (file : FileContext) (imports : Option Imports) : FileContext :=
  { file with imports := imports }

namespace FileM

variable {α β γ δ : Type} {R : α → β → Prop} {S : γ → δ → Prop} {file : FileContext}

/-- Two computations agree in a file, whatever imports each is given. -/
def Alike (file : FileContext) (R : α → β → Prop) (x : FileM α) (y : FileM β) : Prop :=
  ∀ first second : Option Imports,
    Agree Eq R (file.withImports first) (file.withImports second) x y

/-- Any two values are related. -/
def Anything (_ : α) (_ : β) : Prop :=
  True

/-- What the computation does in a file depends on the imports in its value at most. -/
def Blind (file : FileContext) (x : FileM α) : Prop :=
  Alike file Anything x x

namespace Alike

/-! ### The pieces of computations -/

theorem pure {a : α} {b : β} (h : R a b) : Alike file R (pure a) (pure b) :=
  fun _ _ => Agree.pure h

theorem fail (failure : Failure) : Alike file R (fail failure) (fail failure) :=
  fun _ _ => Agree.fail rfl

theorem note (reference : Reference) : Alike file Eq (note reference) (note reference) :=
  fun _ _ => Agree.note reference

/-- **One computation after another.** When the first two come to related values, what follows
has to be alike for these only. -/
theorem bind {x : FileM α} {y : FileM β} {f : α → FileM γ} {g : β → FileM δ}
    (h : Alike file R x y) (hrest : ∀ a b, R a b → Alike file S (f a) (g b)) :
    Alike file S (x >>= f) (y >>= g) :=
  fun first second => (h first second).bind fun a b _ _ hvalues => hrest a b hvalues first second

/-- A computation that only makes something of a value at the end. -/
theorem last {x : FileM α} {y : FileM β} {f : α → γ} {g : β → δ} (h : Alike file R x y) :
    Alike file Anything (x >>= fun a => Pure.pure (f a)) (y >>= fun b => Pure.pure (g b)) := by
  apply bind h
  intro a b _
  exact pure trivial

/-- A computation for each element of lists whose elements are related in pairs. -/
theorem mapM {f : α → FileM γ} {g : β → FileM δ} {xs : List α} {ys : List β}
    (hlists : List.Forall₂ R xs ys) (h : ∀ a b, R a b → Alike file S (f a) (g b)) :
    Alike file (List.Forall₂ S) (xs.mapM f) (ys.mapM g) :=
  fun first second => Agree.mapM (hlists.imp fun a b hvalues => h a b hvalues first second)

/-- The context is that of the file, with whatever imports. -/
theorem context {f : FileContext → FileM γ} {g : FileContext → FileM δ}
    (h : ∀ first second,
      Alike file S (f (file.withImports first)) (g (file.withImports second))) :
    Alike file S (FileM.context >>= f) (FileM.context >>= g) :=
  fun first second => h first second first second

end Alike

namespace Blind

/-- A computation for each element of a list. -/
theorem mapM {f : α → FileM γ} (xs : List α) (h : ∀ a, Blind file (f a)) :
    Alike file (List.Forall₂ Anything) (xs.mapM f) (xs.mapM f) := by
  have hsame : List.Forall₂ Eq xs xs := List.forall₂_same.mpr fun _ _ => rfl
  apply Alike.mapM hsame
  rintro a _ rfl
  exact h a

end Blind

/-! ### Spelling -/

/-- **A reference is noted whether or not the imports are settled,** and only its text
depends on them. -/
theorem blind_spell (reference : Reference) : Blind file (spell reference) := by
  unfold spell
  apply Alike.bind (Alike.note reference)
  rintro _ _ rfl
  apply Alike.context
  intro first second
  -- With imports or without, what is left is a text.
  cases first <;> cases second <;> exact Alike.pure trivial

/-- What a symbol names depends on the imports in no way. -/
theorem alike_meaning (symbol : Symbol) (place : TreePath) :
    Alike file Eq (meaning symbol place) (meaning symbol place) := by
  unfold meaning
  apply Alike.context
  intro first second
  have htarget (imports : Option Imports) :
      (file.withImports imports).target? symbol = file.target? symbol := rfl
  rw [htarget, htarget]
  rcases file.target? symbol with _ | target
  · exact Alike.fail _
  · exact Alike.pure rfl

theorem blind_spellDeclared (id : TypeId) : Blind file (spellDeclared id) := by
  unfold spellDeclared
  apply Alike.context
  intro first second
  unfold FileContext.withImports
  dsimp only
  split
  · exact Alike.pure trivial
  · split
    · exact Alike.pure trivial
    · exact blind_spell _

theorem blind_spellSymbol (symbol : Symbol) (place : TreePath) :
    Blind file (spellSymbol symbol place) := by
  unfold spellSymbol
  apply Alike.bind (alike_meaning symbol place)
  rintro target _ rfl
  cases target with
  | declared id => exact blind_spellDeclared id
  | external reference => exact blind_spell reference

theorem blind_goType (place : TreePath) (type : TypeExpr) : Blind file (goType place type) := by
  induction type with
  | simple symbol => exact blind_spellSymbol symbol place
  | slice element ih => exact ih.last
  | map key value ihKey ihValue =>
    apply Alike.bind ihKey
    intro _ _ _
    exact ihValue.last
  | pointer element ih => exact ih.last
  | failure => exact Alike.pure trivial

theorem blind_javaType (place : TreePath) (type : TypeExpr) : Blind file (javaType place type) := by
  induction type with
  | simple symbol => exact blind_spellSymbol symbol place
  | slice element ih =>
    apply Alike.bind (blind_spell _)
    intro _ _ _
    exact ih.last
  | map key value ihKey ihValue =>
    apply Alike.bind (blind_spell _)
    intro _ _ _
    apply Alike.bind ihKey
    intro _ _ _
    exact ihValue.last
  | pointer element ih => exact ih.last
  | failure => exact Alike.pure trivial

theorem blind_spellType (type : TypeExpr) (place : TreePath) :
    Blind file (spellType type place) := by
  unfold spellType
  apply Alike.context
  intro first second
  unfold FileContext.withImports
  dsimp only
  split
  · exact blind_goType place type
  · exact blind_javaType place type

/-! ### Comments on funcs -/

theorem blind_resultComment (place : TreePath) (result : Param) :
    Blind file (resultComment? place result) := by
  unfold resultComment?
  split
  · exact Alike.pure trivial
  · split
    · -- A result without a name goes by its type.
      exact (blind_spellType result.type place).last
    · exact Alike.pure trivial

theorem blind_funcComment (func : Func) (subject : String) (place : TreePath) :
    Blind file (funcComment func subject place) := by
  unfold funcComment
  exact (Blind.mapM func.results (blind_resultComment place)).last

end FileM

end DeclPrinter
