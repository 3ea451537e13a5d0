import DeclPrinter.Proofs.Script.Effect
import DeclPrinter.Proofs.Writing.Rewriting

/-!
# Terminators

A statement is terminated by a statement of its own, which continues the line by the terminator of
the language, or by an idiom, which a dialect expands in its own way: to that statement in Java, to
nothing in Go. Where the expander is that of the dialect and Go has no terminator
(`Registry.EndsStatements`), both come to scripts of the same effect. So bodies that differ only in
how they put their terminators are written to the same effect, and in Go so are bodies that differ
in terminators only, except that a failure names a statement by its position.
-/

namespace DeclPrinter

open FileM

/-! ### Registries -/

/-- The language has the expander of its dialect for terminators, and no terminator if it is
Go. -/
structure Registry.EndsStatements (registry : Registry) (language : Language) : Prop where
  expander : ∃ expander ∈ language.dialect.expanders,
    registry.expander? language.tag .terminator = some expander
  go : language.dialect = .go → language.terminator = ""

theorem Registry.EndsStatements.standard :
    ∀ language ∈ Registry.standard.languages, Registry.standard.EndsStatements language := by
  intro language hlanguage
  have hlanguages : Registry.standard.languages = [.go, .java] := by rfl
  rw [hlanguages] at hlanguage
  rcases List.mem_cons.mp hlanguage with rfl | hlanguage
  · exact ⟨⟨_, List.mem_cons_self, rfl⟩, fun _ => rfl⟩
  · obtain rfl := List.mem_singleton.mp hlanguage
    exact ⟨⟨_, List.mem_cons_self, rfl⟩, nofun⟩

namespace Tolerance

/-! ### Scripts of the same effect -/

/-- Files may be written by scripts of the same effect, and end in failures that are related. -/
def effect {failures : Failure → Failure → Prop} (hfailures : Equivalence failures) :
    Tolerance where
  failures := failures
  scripts := Script.SameEffect
  failures_equiv := hfailures
  scripts_equiv := ⟨.refl, .symm, .trans⟩
  scripts_append := .append

/-- Both failures have a place or neither has one. -/
def SamePlaced (first second : Failure) : Prop :=
  first.path?.isSome = second.path?.isSome

theorem samePlaced_equiv : Equivalence SamePlaced :=
  ⟨fun _ => rfl, Eq.symm, Eq.trans⟩

/-- There a failure may be in any place. -/
theorem moves_effect (place other : TreePath) :
    (effect samePlaced_equiv).Moves place other := by
  intro failure hfailure
  exact (hfailure place).trans (hfailure other).symm

variable {F : Failure → Failure → Prop} {hfailures : Equivalence F} {c : FileContext}
  {registry : Registry} {language : Language} {func other : Func}

/-! ### Statements -/

/-- **The idiom comes to the same as the statement.** -/
theorem agree_terminator (hends : registry.EndsStatements language) {remaining : Nat}
    (hremaining : remaining ≠ 0) (block : Block) (place : TreePath) :
    (effect hfailures).Agree c c
      (idiomScript registry ⟨language, func⟩ remaining block place .terminator)
      (pure [.append language.terminator]) := by
  obtain ⟨remaining, rfl⟩ := Nat.exists_eq_succ_of_ne_zero hremaining
  obtain ⟨expander, hmem, hexpander⟩ := hends.expander
  have hkind := Registry.kind_of_expander? hexpander
  rw [idiomScript_succ hexpander]
  rcases hdialect : language.dialect with _ | _
  · -- In Go the idiom expands to nothing, and the terminator is no text.
    rw [hdialect] at hmem
    simp only [Dialect.expanders, goExpanders, List.mem_cons, List.not_mem_nil, or_false] at hmem
    rcases hmem with rfl | rfl | rfl
    · rw [hends.go hdialect]
      exact FileM.Agree.pure Script.SameEffect.append_nothing.symm
    · cases hkind
    · cases hkind
  · -- In Java the idiom expands to the statement.
    rw [hdialect] at hmem
    simp only [Dialect.expanders, javaExpanders, List.mem_cons, List.not_mem_nil, or_false] at hmem
    rcases hmem with rfl | rfl | rfl
    · exact Agree.refl _
    · cases hkind
    · cases hkind

/-- Where these statements come to the terminator, they may be put for each. -/
theorem agreeAtLeaves_terminatedBy (hregistry : registry.BuiltIn)
    (hends : registry.EndsStatements language) (hfunc : other.hollow = func.hollow)
    {remaining : Nat} (hremaining : remaining ≠ 0) {ending : List Statement}
    (hending : ∀ block place index, (effect hfailures).Agree c c
      (pure [.append language.terminator])
      (statementsScript (idiomScript registry ⟨language, other⟩ remaining) ⟨language, other⟩
        block place index ending)) :
    (effect hfailures).AgreeAtLeaves c c (Statement.terminatedBy ending) language func other
      (idiomScript registry ⟨language, func⟩ remaining)
      (idiomScript registry ⟨language, other⟩ remaining) := by
  have hself : (effect hfailures).AgreeAtLeaves c c (fun own => [own]) language func other
      (idiomScript registry ⟨language, func⟩ remaining)
      (idiomScript registry ⟨language, other⟩ remaining) :=
    agreeAtLeaves_self (.refl c) (agree_idiomScript (.refl c) hregistry hfunc remaining)
  intro statement hleaf block blockOther index indexOther place placeOther hplace
  have hown := hself statement hleaf block blockOther index indexOther place placeOther hplace
  -- Only the statement and the idiom are replaced; all else stays.
  cases statement with
  | terminator => exact hending _ _ _
  | invoke idiom =>
    cases idiom with
    | terminator => exact (agree_terminator hends hremaining block place).trans (hending _ _ _)
    | _ => exact hown
  | _ => exact hown

/-! ### Bodies -/

section

variable (hregistry : registry.BuiltIn) (hends : registry.EndsStatements c.language)

include hregistry hends

theorem agree_bodyScript_terminatedBy (func : Func) {ending : List Statement}
    (hindex : (effect hfailures).Positions (Statement.terminatedBy ending) 0 0)
    (hending : ∀ block place index, (effect hfailures).Agree c c
      (pure [.append c.language.terminator])
      (statementsScript (idiomScript registry ⟨c.language, func.terminatedBy ending⟩ expansionLimit)
        ⟨c.language, func.terminatedBy ending⟩ block place index ending))
    (place : TreePath) :
    (effect hfailures).Agree c c (bodyScript registry func place)
      (bodyScript registry (func.terminatedBy ending) place) :=
  agree_bodyScript (.refl c) rfl hindex
    (agreeAtLeaves_terminatedBy hregistry hends (func.hollow_terminatedBy ending) (by decide)
      hending) place

/-- **Terminators are put either way to the same effect.** -/
theorem agree_bodyScript_respelled (h : other.terminatedBy [.terminator] =
    func.terminatedBy [.terminator]) (place : TreePath) :
    (effect hfailures).Agree c c (bodyScript registry func place)
      (bodyScript registry other place) := by
  -- Each body is compared with the one that has statements for all its terminators.
  have hone (func : Func) : (effect hfailures).Agree c c (bodyScript registry func place)
      (bodyScript registry (func.terminatedBy [.terminator]) place) := by
    apply agree_bodyScript_terminatedBy hregistry hends
    · refine .inr ⟨rfl, fun statement => ?_⟩
      rcases statement with _ | _ | (_ | _ | _) | _ <;> rfl
    · intro block place index
      rw [statementsScript_singleton]
      exact Agree.refl _
  have hother := hone other
  rw [h] at hother
  exact (hone func).trans hother.symm

/-- **In Go terminators may as well be left out,** except that failures are in other places. -/
theorem agree_bodyScript_deleted (hgo : c.language.dialect = .go)
    (h : other.terminatedBy [] = func.terminatedBy []) (place : TreePath) :
    (effect samePlaced_equiv).Agree c c (bodyScript registry func place)
      (bodyScript registry other place) := by
  -- Each body is compared with the one that has no terminators.
  have hone (func : Func) : (effect samePlaced_equiv).Agree c c (bodyScript registry func place)
      (bodyScript registry (func.terminatedBy []) place) := by
    apply agree_bodyScript_terminatedBy hregistry hends
    · exact .inl moves_effect
    · intro block place index
      rw [hends.go hgo]
      exact FileM.Agree.pure Script.SameEffect.append_nothing
  have hother := hone other
  rw [h] at hother
  exact (hone func).trans hother.symm

end

end Tolerance

end DeclPrinter
