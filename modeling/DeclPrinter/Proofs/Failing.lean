import DeclPrinter.Failure
import DeclPrinter.Proofs.Success
import DeclPrinter.Tree.Query
import Mathlib.Data.List.Infix

/-!
# Where failures are

A failure carries the path of the node at fault, or of a place inside a func, which is named by the
path of the func and the parameter, the blocks and the idioms on the way (`TreePath.IsInside`). So
of each step of a render it can be said in which places it fails, if it does (`FailsIn`). What is
said of the steps holds of the whole.
-/

namespace DeclPrinter

/-! ### Places -/

/-- The path is that of the place, or goes on from it into parameters, blocks and idioms. -/
def TreePath.IsInside (path place : TreePath) : Prop :=
  ∃ steps, path.steps = place.steps ++ steps ∧
    ∀ step ∈ steps, step.1 = .param ∨ step.1 = .block ∨ step.1 = .idiom

namespace TreePath.IsInside

variable {path middle place : TreePath}

theorem refl (place : TreePath) : place.IsInside place :=
  ⟨[], (List.append_nil _).symm, fun _ hstep => nomatch hstep⟩

theorem trans (h : path.IsInside middle) (hmiddle : middle.IsInside place) :
    path.IsInside place := by
  obtain ⟨inner, hpath, hinner⟩ := h
  obtain ⟨outer, hplace, houter⟩ := hmiddle
  refine ⟨outer ++ inner, ?_, fun step hstep => ?_⟩
  · rw [hpath, hplace, List.append_assoc]
  · rcases List.mem_append.mp hstep with hstep | hstep
    · exact houter step hstep
    · exact hinner step hstep

theorem below (place : TreePath) {kind : StepKind}
    (hkind : kind = .param ∨ kind = .block ∨ kind = .idiom) (name : String) :
    (place.below kind name).IsInside place := by
  refine ⟨[(kind, name)], rfl, fun step hstep => ?_⟩
  rw [List.mem_singleton.mp hstep]
  exact hkind

theorem steps_prefix (h : path.IsInside place) : place.steps <+: path.steps := by
  obtain ⟨steps, hpath, _⟩ := h
  exact ⟨steps, hpath.symm⟩

end TreePath.IsInside

/-- All that is inside the place is among the places. -/
def Covers (places : TreePath → Prop) (place : TreePath) : Prop :=
  ∀ path, path.IsInside place → places path

namespace Covers

variable {places : TreePath → Prop} {place : TreePath}

theorem self (h : Covers places place) : places place :=
  h place (.refl place)

theorem below (h : Covers places place) {kind : StepKind}
    (hkind : kind = .param ∨ kind = .block ∨ kind = .idiom) (name : String) :
    Covers places (place.below kind name) :=
  fun path hpath => h path (hpath.trans (.below place hkind name))

end Covers

/-- The places cover a type and its members. -/
structure CoversType (places : TreePath → Prop) (tree : DeclTree) (id : TypeId) : Prop where
  own : Covers places (tree.typePath id)
  fields : ∀ field ∈ (tree.type id).fields, Covers places (tree.fieldPath field)
  methods : ∀ method ∈ (tree.type id).methods, Covers places (tree.funcPath method)

/-- The places cover the declarations of a file. -/
structure CoversFile (places : TreePath → Prop) (tree : DeclTree) (types : List TypeId)
    (funcs : List FuncId) : Prop where
  types : ∀ id ∈ types, CoversType places tree id
  funcs : ∀ id ∈ funcs, Covers places (tree.funcPath id)

/-! ### Failures -/

/-- The failure is in one of the places, or nowhere. -/
def Failure.LiesIn (places : TreePath → Prop) (failure : Failure) : Prop :=
  ∀ path, failure.path? = some path → places path

theorem Failure.liesIn_of_path? {places : TreePath → Prop} {failure : Failure} {path : TreePath}
    (hpath : failure.path? = some path) (h : places path) : failure.LiesIn places := by
  intro other hother
  rw [hpath] at hother
  cases hother
  exact h

/-- Only that a render was cancelled is nowhere. -/
theorem Failure.exists_path {failure : Failure} (h : failure ≠ .cancelled) :
    ∃ path, failure.path? = some path := by
  cases failure with
  | cancelled => exact absurd rfl h
  | _ => exact ⟨_, rfl⟩

/-- The computation fails in the places only. -/
def FailsIn {α : Type} (places : TreePath → Prop) (x : Except Failure α) : Prop :=
  ∀ failure, x = .error failure → failure.LiesIn places

namespace FailsIn

variable {α β : Type} {places : TreePath → Prop}

theorem ok (value : α) : FailsIn places (.ok value) := by
  intro failure h
  cases h

theorem error {failure : Failure} {path : TreePath} (hpath : failure.path? = some path)
    (h : places path) : FailsIn places (.error failure : Except Failure α) := by
  intro other hother
  cases hother
  exact Failure.liesIn_of_path? hpath h

theorem cancelled : FailsIn places (.error .cancelled : Except Failure α) := by
  intro other hother path hpath
  cases hother
  cases hpath

theorem bind {x : Except Failure α} {f : α → Except Failure β} (h : FailsIn places x)
    (hrest : ∀ value, x = .ok value → FailsIn places (f value)) : FailsIn places (x >>= f) := by
  intro failure hfailure
  rcases bind_eq_error.mp hfailure with hfirst | ⟨value, hvalue, hsecond⟩
  · exact h failure hfirst
  · exact hrest value hvalue failure hsecond

theorem forM {f : α → Except Failure Unit} {inputs : List α}
    (h : ∀ input ∈ inputs, FailsIn places (f input)) : FailsIn places (inputs.forM f) := by
  induction inputs with
  | nil => exact ok ()
  | cons input rest ih =>
    refine bind (h input List.mem_cons_self) fun _ _ => ?_
    exact ih fun other hother => h other (List.mem_cons_of_mem input hother)

theorem mapM {f : α → Except Failure β} {inputs : List α}
    (h : ∀ input ∈ inputs, FailsIn places (f input)) : FailsIn places (inputs.mapM f) := by
  induction inputs with
  | nil =>
    rw [List.mapM_nil]
    exact ok []
  | cons input rest ih =>
    rw [List.mapM_cons]
    refine bind (h input List.mem_cons_self) fun value _ => ?_
    refine bind (ih fun other hother => h other (List.mem_cons_of_mem input hother)) ?_
    exact fun _ _ => ok _

theorem foldlM {σ : Type} {step : σ → α → Except Failure σ} {inputs : List α}
    (h : ∀ state, ∀ input ∈ inputs, FailsIn places (step state input)) (state : σ) :
    FailsIn places (inputs.foldlM step state) := by
  intro failure hfailure
  obtain ⟨before, input, after, middle, rfl, _, hinput⟩ := foldlM_eq_error hfailure
  exact h middle input (List.mem_append_right _ List.mem_cons_self) failure hinput

end FailsIn

end DeclPrinter
