import DeclPrinter.Proofs.Writing.Yields
import Mathlib.Data.List.Forall2

/-!
# Computations that agree

Two computations, each in a file of its own, agree when they leave the same trace and come to
related results: both to failures, or both to values (`FileM.Agree`). Which failures are related
and which values depends on what is compared. Whatever it is, agreement is kept by all that
computations are made of, so that it is proved of a function of the writer along its definition.
-/

namespace DeclPrinter

/-- Two results are failures that are related, or values that are. -/
def ResultsAlike {α β : Type} (F : Failure → Failure → Prop) (R : α → β → Prop) :
    Except Failure α → Except Failure β → Prop
  | .ok first, .ok second => R first second
  | .error first, .error second => F first second
  | _, _ => False

/-- Two outcomes leave the same trace, and their results are alike. -/
structure Outcome.Alike {α β : Type} (F : Failure → Failure → Prop) (R : α → β → Prop)
    (first : Outcome α) (second : Outcome β) : Prop where
  /-- The same references. -/
  references_eq : first.references = second.references
  /-- The same wish for cancellation. -/
  cancels_eq : first.cancels = second.cancels
  /-- Related failures, or related values. -/
  results : ResultsAlike F R first.result second.result

namespace ResultsAlike

variable {α β : Type} {F : Failure → Failure → Prop} {R : α → α → Prop}

theorem refl (hfailures : Equivalence F) (hvalues : Equivalence R) (result : Except Failure α) :
    ResultsAlike F R result result := by
  cases result with
  | error failure => exact hfailures.refl failure
  | ok value => exact hvalues.refl value

theorem symm (hfailures : Equivalence F) (hvalues : Equivalence R) {first second : Except Failure α}
    (h : ResultsAlike F R first second) : ResultsAlike F R second first := by
  rcases first with _ | _ <;> rcases second with _ | _
  · exact hfailures.symm h
  · exact h
  · exact h
  · exact hvalues.symm h

theorem trans (hfailures : Equivalence F) (hvalues : Equivalence R)
    {first second third : Except Failure α} (h : ResultsAlike F R first second)
    (hrest : ResultsAlike F R second third) : ResultsAlike F R first third := by
  rcases second with _ | _
  · rcases first with _ | _
    · rcases third with _ | _
      · exact hfailures.trans h hrest
      · exact hrest
    · exact h.elim
  · rcases first with _ | _
    · exact h.elim
    · rcases third with _ | _
      · exact hrest
      · exact hvalues.trans h hrest

/-- Of related results related things are made. -/
theorem map {S : β → β → Prop} {f g : α → β} {first second : Except Failure α}
    (h : ResultsAlike F R first second) (hvalue : ∀ a b, R a b → S (f a) (g b)) :
    ResultsAlike F S (first.map f) (second.map g) := by
  rcases first with _ | value <;> rcases second with _ | next
  · exact h
  · exact h
  · exact h
  · exact hvalue value next h

/-- What follows on related results is related if it is so on related values. -/
theorem bind {S : β → β → Prop} {f g : α → Except Failure β} {first second : Except Failure α}
    (h : ResultsAlike F R first second) (hrest : ∀ a b, R a b → ResultsAlike F S (f a) (g b)) :
    ResultsAlike F S (first >>= f) (second >>= g) := by
  rcases first with _ | value <;> rcases second with _ | next
  · exact h
  · exact h.elim
  · exact h.elim
  · exact hrest value next h

theorem isOk_eq {first second : Except Failure α} (h : ResultsAlike F R first second) :
    first.isOk = second.isOk := by
  rcases first with _ | _ <;> rcases second with _ | _
  · rfl
  · exact h.elim
  · exact h.elim
  · rfl

/-- What is alike in related values is so in results, if there are any. -/
theorem toOption_map_eq {f : α → β} {first second : Except Failure α}
    (h : ResultsAlike F R first second) (hvalue : ∀ a b, R a b → f b = f a) :
    second.toOption.map f = first.toOption.map f := by
  rcases first with _ | value <;> rcases second with _ | next
  · rfl
  · exact h.elim
  · exact h.elim
  · exact congrArg some (hvalue value next h)

theorem eq {first second : Except Failure α} (h : ResultsAlike Eq Eq first second) :
    first = second := by
  rcases first with _ | _ <;> rcases second with _ | _
  · exact congrArg Except.error h
  · exact h.elim
  · exact h.elim
  · exact congrArg Except.ok h

end ResultsAlike

theorem Outcome.Alike.eq {α : Type} {first second : Outcome α} (h : first.Alike Eq Eq second) :
    first = second := by
  obtain ⟨references, cancels, result⟩ := first
  obtain ⟨others, wish, other⟩ := second
  obtain ⟨rfl, rfl, hresults⟩ := h
  have hresult : result = other := hresults.eq
  rw [hresult]

namespace FileM

variable {α β γ δ : Type} {F : Failure → Failure → Prop} {R : α → β → Prop} {S : γ → δ → Prop}
  {c d : FileContext}

/-- The computations leave the same trace, each in its own file, and come to related failures or
to related values. -/
def Agree (F : Failure → Failure → Prop) (R : α → β → Prop) (c d : FileContext) (x : FileM α)
    (y : FileM β) : Prop :=
  (x.run c).Alike F R (y.run d)

namespace Agree

/-! ### The pieces of computations -/

theorem pure {a : α} {b : β} (h : R a b) : Agree F R c d (pure a) (pure b) :=
  ⟨rfl, rfl, h⟩

theorem fail {first second : Failure} (h : F first second) :
    Agree F R c d (fail first) (fail second) :=
  ⟨rfl, rfl, h⟩

theorem note (reference : Reference) : Agree F Eq c d (note reference) (note reference) :=
  ⟨rfl, rfl, rfl⟩

/-- **One computation after another.** What follows has to agree on the values that the first two
come to. -/
theorem bind {x : FileM α} {y : FileM β} {f : α → FileM γ} {g : β → FileM δ}
    (h : Agree F R c d x y)
    (hrest : ∀ a b, x.Yields c a → y.Yields d b → R a b → Agree F S c d (f a) (g b)) :
    Agree F S c d (x >>= f) (y >>= g) := by
  obtain ⟨hreferences, hcancels, hresults⟩ := h
  unfold Agree
  rcases hx : (x.run c).result with failure | a <;>
    rcases hy : (y.run d).result with other | b <;> rw [hx, hy] at hresults
  · -- Both fail, and nothing follows.
    rw [bind_run_of_error hx, bind_run_of_error hy]
    exact ⟨hreferences, hcancels, hresults⟩
  · exact hresults.elim
  · exact hresults.elim
  · -- Both succeed, with values that are related.
    obtain ⟨hmore, hcancelsMore, hvalues⟩ := hrest a b hx hy hresults
    rw [bind_run_of_yields hx, bind_run_of_yields hy]
    refine ⟨?_, ?_, hvalues⟩
    · rw [hreferences, hmore]
    · rw [hcancels, hcancelsMore]

/-- What follows on computations that come to the same value has to agree on it. -/
theorem bindEq {x y : FileM α} {f : α → FileM γ} {g : α → FileM δ} (h : Agree F Eq c d x y)
    (hrest : ∀ value, x.Yields c value → Agree F S c d (f value) (g value)) :
    Agree F S c d (x >>= f) (y >>= g) := by
  apply h.bind
  rintro value _ hvalue _ rfl
  exact hrest value hvalue

/-- A computation of which something is made at the end. -/
theorem last {x : FileM α} {y : FileM β} {f : α → γ} {g : β → δ} (h : Agree F R c d x y)
    (hvalue : ∀ a b, R a b → S (f a) (g b)) :
    Agree F S c d (x >>= fun a => Pure.pure (f a)) (y >>= fun b => Pure.pure (g b)) :=
  h.bind fun a b _ _ hvalues => pure (hvalue a b hvalues)

/-- A computation for each element of lists whose elements are related in pairs. -/
theorem mapM {f : α → FileM γ} {g : β → FileM δ} {xs : List α} {ys : List β}
    (hlists : List.Forall₂ (fun a b => Agree F S c d (f a) (g b)) xs ys) :
    Agree F (List.Forall₂ S) c d (xs.mapM f) (ys.mapM g) := by
  induction hlists with
  | nil =>
    rw [List.mapM_nil, List.mapM_nil]
    exact pure .nil
  | cons hhead _ ih =>
    rw [List.mapM_cons, List.mapM_cons]
    apply hhead.bind
    intro _ _ _ _ hvalue
    exact ih.last fun _ _ hvalues => .cons hvalue hvalues

/-- A computation agrees with itself. -/
theorem self (hfailures : Equivalence F) (x : FileM α) : Agree F Eq c c x x :=
  ⟨rfl, rfl, .refl hfailures eq_equivalence _⟩

/-- The context is the one that each is run in. -/
theorem context {f : FileContext → FileM γ} {g : FileContext → FileM δ}
    (h : Agree F S c d (f c) (g d)) : Agree F S c d (FileM.context >>= f) (FileM.context >>= g) :=
  h

/-- What follows on the context is the same computation in both. -/
theorem contextSame {f : FileContext → FileM γ} {S : γ → γ → Prop} (hsame : f d = f c)
    (h : Agree F S c d (f c) (f c)) :
    Agree F S c d (FileM.context >>= f) (FileM.context >>= f) := by
  apply context
  rw [hsame]
  exact h

/-- The same computation for each element of a list. -/
theorem mapM_self {f : α → FileM γ} {g : α → FileM δ} {inputs : List α}
    (h : ∀ input ∈ inputs, Agree F S c d (f input) (g input)) :
    Agree F (List.Forall₂ S) c d (inputs.mapM f) (inputs.mapM g) :=
  mapM (List.forall₂_same.mpr h)

theorem mapM_eq {f g : α → FileM γ} {inputs : List α}
    (h : ∀ input ∈ inputs, Agree F Eq c d (f input) (g input)) :
    Agree F Eq c d (inputs.mapM f) (inputs.mapM g) := by
  have hvalues := mapM_self h
  rwa [List.forall₂_eq_eq_eq] at hvalues

end Agree

end FileM

/-! ### Scripts -/

/-- What two files may differ in and still count as the same: the failures that they end in, and
the scripts that they are written by. Scripts may differ in their parts. -/
structure Tolerance where
  /-- The failures may stand for each other. -/
  failures : Failure → Failure → Prop
  /-- The scripts may stand for each other. -/
  scripts : Script → Script → Prop
  failures_equiv : Equivalence failures
  scripts_equiv : Equivalence scripts
  scripts_append : ∀ {first second before after}, scripts first second → scripts before after →
    scripts (first ++ before) (second ++ after)

namespace Tolerance

/-- Files may not differ at all. -/
def none : Tolerance where
  failures := Eq
  scripts := Eq
  failures_equiv := eq_equivalence
  scripts_equiv := eq_equivalence
  scripts_append := congrArg₂ _

variable (t : Tolerance)

theorem scripts_refl (script : Script) : t.scripts script script :=
  t.scripts_equiv.refl script

/-- A script may be between others. -/
theorem scripts_between (before after : Script) {first second : Script}
    (h : t.scripts first second) :
    t.scripts (before ++ first ++ after) (before ++ second ++ after) :=
  t.scripts_append (t.scripts_append (t.scripts_refl before) h) (t.scripts_refl after)

theorem scripts_below (before : Script) {first second : Script} (h : t.scripts first second) :
    t.scripts (before ++ first) (before ++ second) :=
  t.scripts_append (t.scripts_refl before) h

theorem scripts_flatten {first second : List Script} (h : List.Forall₂ t.scripts first second) :
    t.scripts first.flatten second.flatten := by
  induction h with
  | nil => exact t.scripts_refl []
  | cons hhead _ ih => exact t.scripts_append hhead ih

theorem scripts_separated {first second : List Script} (h : List.Forall₂ t.scripts first second) :
    t.scripts (separated first) (separated second) := by
  induction h with
  | nil => exact t.scripts_refl []
  | cons hhead htail ih =>
    cases htail with
    | nil => exact hhead
    | cons _ _ => exact t.scripts_append hhead (t.scripts_below [.blank] ih)

/-- The computations, each in its own file, come to the same within the tolerance. -/
abbrev Agree (c d : FileContext) (x y : FileM Script) : Prop :=
  FileM.Agree t.failures t.scripts c d x y

namespace Agree

variable {t} {c d : FileContext} {x y z : FileM Script}

theorem refl (x : FileM Script) : t.Agree c c x x :=
  ⟨rfl, rfl, .refl t.failures_equiv t.scripts_equiv _⟩

theorem symm (h : t.Agree c d x y) : t.Agree d c y x :=
  ⟨h.references_eq.symm, h.cancels_eq.symm,
    h.results.symm t.failures_equiv t.scripts_equiv⟩

theorem trans {e : FileContext} (h : t.Agree c d x y) (hrest : t.Agree d e y z) :
    t.Agree c e x z :=
  ⟨h.references_eq.trans hrest.references_eq, h.cancels_eq.trans hrest.cancels_eq,
    h.results.trans t.failures_equiv t.scripts_equiv hrest.results⟩

end Agree

end Tolerance

end DeclPrinter
