import DeclPrinter.Proofs.Writing.Bodies
import DeclPrinter.Proofs.Writing.Surroundings

/-!
# Code elsewhere

Code is spelled and an idiom is expanded in a place of a file. A computation is told the place for
its failures only, and of the tree the built-in expanders look at nothing but the types that symbols
name. So elsewhere, in another place (`Tolerance.Moves`) and in a file that sees the same
declarations (`FileContext.SeesAlike`), it comes to the same, but for failures, where these may be
in the other place instead.
-/

namespace DeclPrinter

/-! ### Other places and other files -/

/-- Failures at the first place may stand for failures at the other. -/
def Tolerance.Moves (t : Tolerance) (place other : TreePath) : Prop :=
  ∀ failure : TreePath → Failure, (∀ path, (failure path).path?.isSome) →
    t.failures (failure place) (failure other)

namespace Tolerance.Moves

variable {t : Tolerance} {place other : TreePath}

theorem refl (t : Tolerance) (place : TreePath) : t.Moves place place :=
  fun _ _ => t.failures_equiv.refl _

theorem below (h : t.Moves place other) (kind : StepKind) (name : String) :
    t.Moves (place.below kind name) (other.below kind name) :=
  fun failure hfailure => h (fun path => failure (path.below kind name)) fun _ => hfailure _

end Tolerance.Moves

/-- The second file is the first in a tree that has in common what the first declares. -/
def FileContext.SeesAlike (c d : FileContext) : Prop :=
  ∃ part tree frame, c.SharesDeclarations part tree ∧ d = c.inTree tree frame

namespace FileContext.SeesAlike

variable {c d : FileContext}

theorem refl (c : FileContext) : c.SeesAlike c :=
  ⟨fun _ => True, c.tree, ⟨c.indentUnit, c.contents.preamble⟩,
    .of_hollow rfl fun _ _ _ _ _ => rfl, rfl⟩

theorem language_eq (h : c.SeesAlike d) : d.language = c.language := by
  obtain ⟨_, _, _, _, rfl⟩ := h
  rfl

end FileContext.SeesAlike

namespace FileM

variable {t : Tolerance} {c d : FileContext} (h : c.SeesAlike d)

include h

/-! ### Spelling -/

theorem agree_spell (reference : Reference) :
    Agree t.failures Eq c d (spell reference) (spell reference) := by
  obtain ⟨_, _, _, _, rfl⟩ := h
  exact (same_spell reference).agree t.failures_equiv

/-- What a symbol names in the tree is spelled alike. -/
theorem agree_spellDeclared {symbol : Symbol} {place : TreePath} {id : TypeId}
    (hid : (meaning symbol place).Yields c (.declared id)) :
    Agree t.failures Eq c d (spellDeclared id) (spellDeclared id) := by
  obtain ⟨part, tree, frame, hshares, rfl⟩ := h
  exact (same_spellDeclared hshares (part_of_meaning hshares hid)).agree t.failures_equiv

variable {place other : TreePath} (hplace : t.Moves place other)

include hplace

theorem agree_meaning (symbol : Symbol) :
    Agree t.failures Eq c d (meaning symbol place) (meaning symbol other) := by
  obtain ⟨part, tree, frame, hshares, rfl⟩ := h
  unfold meaning
  apply Agree.context
  rw [target?_inTree hshares]
  split
  · exact Agree.pure rfl
  · exact Agree.fail (hplace (.unresolvedSymbol · symbol.name c.language.tag) fun _ => rfl)

theorem agree_spellSymbol (symbol : Symbol) :
    Agree t.failures Eq c d (spellSymbol symbol place) (spellSymbol symbol other) := by
  unfold spellSymbol
  apply (agree_meaning h hplace symbol).bindEq
  intro target htarget
  cases target with
  | declared id => exact agree_spellDeclared h htarget
  | external reference => exact agree_spell h reference

theorem agree_spellCode (code : Code) :
    Agree t.failures Eq c d (spellCode code place) (spellCode code other) := by
  unfold spellCode
  refine (Agree.mapM_eq fun segment _ => ?_).last fun _ _ => congrArg String.join
  cases segment with
  | text text => exact Agree.pure rfl
  | symbol symbol => exact agree_spellSymbol h hplace symbol
  | reference reference => exact agree_spell h reference

theorem agree_spellHeader (header : Option Code) :
    Agree t.failures Eq c d (spellHeader place header) (spellHeader other header) := by
  cases header with
  | none => exact Agree.pure rfl
  | some code => exact (agree_spellCode h hplace code).last fun _ _ => congrArg some

theorem agree_goType (type : TypeExpr) :
    Agree t.failures Eq c d (goType place type) (goType other type) := by
  induction type with
  | simple symbol => exact agree_spellSymbol h hplace symbol
  | slice element ih => exact ih.last fun _ _ => congrArg _
  | map key value ihKey ihValue =>
    exact ihKey.bindEq fun _ _ => ihValue.last fun _ _ => congrArg _
  | pointer element ih => exact ih.last fun _ _ => congrArg _
  | failure => exact Agree.pure rfl

theorem agree_javaType (type : TypeExpr) :
    Agree t.failures Eq c d (javaType place type) (javaType other type) := by
  induction type with
  | simple symbol => exact agree_spellSymbol h hplace symbol
  | slice element ih =>
    exact (agree_spell h _).bindEq fun _ _ => ih.bindEq fun _ _ => Agree.pure rfl
  | map key value ihKey ihValue =>
    exact (agree_spell h _).bindEq fun _ _ => ihKey.bindEq fun _ _ => ihValue.bindEq fun _ _ =>
      Agree.pure rfl
  | pointer element ih => exact ih.bindEq fun _ _ => Agree.pure rfl
  | failure => exact Agree.pure rfl

theorem agree_spellType (type : TypeExpr) :
    Agree t.failures Eq c d (spellType type place) (spellType type other) := by
  unfold spellType
  apply Agree.context
  rw [h.language_eq]
  split
  · exact agree_goType h hplace type
  · exact agree_javaType h hplace type

end FileM

/-! ### Expanders -/

open FileM

/-- The scope of an idiom in another place. -/
def IdiomScope.movedTo (scope : IdiomScope) (place : TreePath) : IdiomScope :=
  { scope with path := place }

section

variable {t : Tolerance} {scope : IdiomScope} {place : TreePath} {c d : FileContext}

section

variable (hplace : t.Moves scope.path place)

include hplace

theorem agree_ensureCanFail (kind : IdiomKind) :
    Agree t.failures Eq c d (scope.ensureCanFail kind)
      ((scope.movedTo place).ensureCanFail kind) := by
  unfold IdiomScope.ensureCanFail IdiomScope.movedTo
  dsimp only
  split
  · exact Agree.pure rfl
  · exact Agree.fail (hplace (.idiomContext · kind scope.func.name) fun _ => rfl)

theorem agree_refuse {α : Type} {R : α → α → Prop} (kind : IdiomKind) (fault : ExpansionFault) :
    Agree t.failures R c d (scope.refuse kind fault) ((scope.movedTo place).refuse kind fault) :=
  Agree.fail (hplace (.expansion · kind fault) fun _ => rfl)

end

variable (h : c.SeesAlike d)

include h

theorem agree_goZero {place other : TreePath} (hplace : t.Moves place other) (type : TypeExpr) :
    Agree t.failures Eq c d (goZero type place) (goZero type other) := by
  cases type with
  | simple symbol =>
    unfold goZero
    apply (agree_meaning h hplace symbol).bindEq
    intro target htarget
    unfold goTargetZero
    cases target with
    | declared id =>
      have hspelled := agree_spellDeclared (t := t) h htarget
      obtain ⟨part, tree, frame, hshares, rfl⟩ := h
      have hid := part_of_meaning hshares htarget
      -- Whether a type is a struct is asked of types in the part only.
      apply Agree.contextSame
      · unfold FileContext.inTree DeclTree.isStruct
        dsimp only
        rw [hshares.alike.type hid]
      · split
        · exact hspelled.last fun _ _ hname => by rw [hname]
        · exact Agree.pure rfl
    | external reference =>
      dsimp only
      split
      · exact Agree.pure rfl
      · exact (agree_spell h reference).last fun _ _ hname => by rw [hname]
  | _ => exact Agree.pure rfl

variable (hplace : t.Moves scope.path place)

include hplace

theorem agree_goFailureReturn (failure : Code) :
    Agree t.failures Eq c d (goFailureReturn scope failure)
      (goFailureReturn (scope.movedTo place) failure) := by
  unfold goFailureReturn
  exact (Agree.mapM_eq fun result _ => agree_goZero h hplace result.type).bindEq fun _ _ =>
    Agree.pure rfl

theorem agree_goAttempt (operands : Attempt) :
    Agree t.failures Eq c d (goAttempt operands scope)
      (goAttempt operands (scope.movedTo place)) := by
  unfold goAttempt
  apply (agree_ensureCanFail hplace .attempt).bindEq
  intro _ _
  apply (agree_goFailureReturn h hplace _).bindEq
  intro _ _
  split
  · exact Agree.pure rfl
  · exact Agree.pure rfl

theorem agree_javaAttempt (operands : Attempt) :
    Agree t.failures Eq c d (javaAttempt operands scope)
      (javaAttempt operands (scope.movedTo place)) := by
  -- What is bound is declared with its type in front, or not at all.
  have hbinding : Agree t.failures Eq c d (javaBinding operands scope)
      (javaBinding operands (scope.movedTo place)) := by
    unfold javaBinding
    split
    · exact Agree.pure rfl
    · split
      · exact agree_refuse hplace _ _
      · exact (agree_spellType h hplace _).bindEq fun _ _ => Agree.pure rfl
  unfold javaAttempt
  apply (agree_ensureCanFail hplace .attempt).bindEq
  intro _ _
  split
  · exact agree_refuse hplace _ _
  · exact hbinding.bindEq fun _ _ => Agree.pure rfl

/-- **The built-in expanders** expand an idiom alike elsewhere. -/
theorem agree_expand {dialect : Dialect} {expander : Expander}
    (hexpander : expander ∈ dialect.expanders) (idiom : Idiom) :
    Agree t.failures Eq c d (expander.expand idiom scope)
      (expander.expand idiom (scope.movedTo place)) := by
  cases dialect with
  | go =>
    simp only [Dialect.expanders, goExpanders, List.mem_cons, List.not_mem_nil,
      or_false] at hexpander
    -- Terminators, attempts, failures; an expander refuses idioms of other kinds.
    rcases hexpander with rfl | rfl | rfl
    · exact Agree.pure rfl
    · cases idiom with
      | attempt operands => exact agree_goAttempt h hplace operands
      | _ => exact agree_refuse hplace _ _
    · cases idiom with
      | fail message =>
        exact (agree_ensureCanFail hplace .fail).bindEq fun _ _ =>
          (agree_goFailureReturn h hplace _).bindEq fun _ _ => Agree.pure rfl
      | _ => exact agree_refuse hplace _ _
  | java =>
    simp only [Dialect.expanders, javaExpanders, List.mem_cons, List.not_mem_nil,
      or_false] at hexpander
    rcases hexpander with rfl | rfl | rfl
    · exact Agree.pure rfl
    · cases idiom with
      | attempt operands => exact agree_javaAttempt h hplace operands
      | _ => exact agree_refuse hplace _ _
    · cases idiom with
      | fail message =>
        exact (agree_ensureCanFail hplace .fail).bindEq fun _ _ => Agree.pure rfl
      | _ => exact agree_refuse hplace _ _

end

end DeclPrinter
