import DeclPrinter.Proofs.Check.Names
import DeclPrinter.Proofs.Imports.Bindings
import DeclPrinter.Proofs.Render.Plan
import DeclPrinter.Proofs.Render.Run
import DeclPrinter.Proofs.Tree.Additions
import DeclPrinter.Proofs.Writing.GoForm

/-!
# No result is lost in a signature

Where several values are returned, the results of a func stand in its signature in order, each as
its type and with its name if it has one (`PlainForm`). Where one value is returned and exceptions
are thrown, a failure at the end is thrown (`Divided`), and the results before it are nothing, one
type, or a record with a component for each (`BundledForm`).

A func that passes its checks has names for all of its results or for none, and no name twice. So
its signature is of these forms in every file (`results_kept`), and no two components of its record
are called the same.
-/

namespace DeclPrinter

open FileM

variable {c : FileContext} {place : TreePath} {results : List Param}
  {typed : List (Param × String)} {returned : Returned}

/-- None of the results has a name. -/
def Unnamed (results : List Param) : Prop :=
  ∀ result ∈ results, result.name = ""

/-- Each of the results has a name. -/
def AllNamed (results : List Param) : Prop :=
  ∀ result ∈ results, result.name ≠ ""

/-! ### Several values -/

/-- What is returned for results of these types, where several values are returned. -/
inductive PlainForm : List (Param × String) → Returned → Prop where
  | nothing : PlainForm [] .nothing
  | single {result : Param} (h : result.name = "") (type : String) :
      PlainForm [(result, type)] (.single type)
  | unnamed {typed : List (Param × String)} (hseveral : 2 ≤ typed.length)
      (h : Unnamed (typed.map Prod.fst)) : PlainForm typed (.tuple (typed.map Prod.snd))
  | named {typed : List (Param × String)} (hsome : typed ≠ [])
      (h : AllNamed (typed.map Prod.fst)) :
      PlainForm typed (.tuple (typed.map fun result => result.1.name ++ " " ++ result.2))

theorem map_resultText_of_unnamed (h : Unnamed (typed.map Prod.fst)) :
    typed.map resultText = typed.map Prod.snd := by
  refine List.map_congr_left fun result hresult => ?_
  rw [resultText, h result.1 (List.mem_map_of_mem hresult)]
  rfl

theorem map_resultText_of_allNamed (h : AllNamed (typed.map Prod.fst)) :
    typed.map resultText = typed.map fun result => result.1.name ++ " " ++ result.2 := by
  refine List.map_congr_left fun result hresult => ?_
  rw [resultText, if_neg]
  rw [String.isEmpty_iff]
  exact h result.1 (List.mem_map_of_mem hresult)

theorem any_named_of_unnamed (h : Unnamed results) :
    results.any (!·.name.isEmpty) = false := by
  rw [List.any_eq_false]
  intro result hresult
  simp [h result hresult]

theorem any_named_of_allNamed (hsome : results ≠ []) (h : AllNamed results) :
    results.any (!·.name.isEmpty) = true := by
  obtain ⟨result, rest, rfl⟩ := List.exists_cons_of_ne_nil hsome
  have hname := h result List.mem_cons_self
  simp [hname]

theorem returnsOfParts_of_two_le {parts : List String} (h : 2 ≤ parts.length) (haveNames : Bool) :
    returnsOfParts haveNames parts = .tuple parts := by
  match parts, h with
  | _ :: _ :: _, _ => rfl

theorem returnsOfParts_true {parts : List String} (h : parts ≠ []) :
    returnsOfParts true parts = .tuple parts := by
  match parts, h with
  | [_], _ => rfl
  | _ :: _ :: _, _ => rfl

/-- **What is returned for plain results,** if all of them have names or none has. -/
theorem plainForm_iff (h : Unnamed (typed.map Prod.fst) ∨ AllNamed (typed.map Prod.fst)) :
    PlainForm typed returned ↔
      returned = returnsOfParts ((typed.map Prod.fst).any (!·.name.isEmpty))
        (typed.map resultText) := by
  constructor
  · intro hform
    cases hform with
    | nothing => rfl
    | single hname type => simp [returnsOfParts, resultText, hname]
    | unnamed hseveral h =>
      rw [map_resultText_of_unnamed h, returnsOfParts_of_two_le (by simpa using hseveral)]
    | named hsome h =>
      rw [any_named_of_allNamed (by simpa using hsome) h, map_resultText_of_allNamed h,
        returnsOfParts_true (by simpa using hsome)]
  · rintro rfl
    -- Without names the form depends on how many there are; with names it is always a list.
    rcases h with h | h
    · rw [any_named_of_unnamed h, map_resultText_of_unnamed h]
      match typed, h with
      | [], _ => exact .nothing
      | [result], h => exact .single (h result.1 List.mem_cons_self) result.2
      | _ :: _ :: _, h => exact .unnamed (by simp) h
    · by_cases hsome : typed = []
      · subst hsome
        exact .nothing
      · rw [any_named_of_allNamed (by simpa using hsome) h, map_resultText_of_allNamed h,
          returnsOfParts_true (by simpa using hsome)]
        exact .named hsome h

/-- The results of a func that are returned as they are: each is there, and nothing is thrown. -/
theorem yields_plainResults_iff {func : Func} (h : Unnamed func.results ∨ AllNamed func.results)
    {form : ResultForm} :
    (plainResults func place).Yields c form ↔
      ∃ typed, SpelledResults c place func.results typed ∧ form.throws = none ∧
        PlainForm typed form.returned := by
  unfold plainResults
  rw [yields_bind]
  constructor
  · rintro ⟨parts, hparts, hform⟩
    obtain ⟨typed, htyped, rfl⟩ := yields_parts_iff.mp hparts
    obtain rfl := yields_pure.mp hform
    refine ⟨typed, htyped, rfl, (plainForm_iff ?_).mpr ?_⟩
    · rwa [htyped.1]
    · rw [htyped.1]
  · rintro ⟨typed, htyped, hthrows, hreturned⟩
    refine ⟨_, yields_parts_iff.mpr ⟨typed, htyped, rfl⟩, yields_pure.mpr ?_⟩
    rw [plainForm_iff (by rwa [htyped.1]), htyped.1] at hreturned
    rw [← hreturned, ← hthrows]

/-! ### One value and an exception -/

namespace ExceptionStyle

variable {convention : ExceptionStyle} {func : String}

/-- What is thrown and which results are left to be returned. -/
inductive Divided (convention : ExceptionStyle) : List Param → List Param → Option String → Prop
    where
  | thrown (values : List Param) {last : Param} (h : last.type = .failure) :
      Divided convention (values ++ [last]) values (some convention.failure)
  | kept {results : List Param} (h : ∀ last ∈ results.getLast?, last.type ≠ .failure) :
      Divided convention results results none

/-- What is returned for values of these types, where only one can be returned. The components of
a record have the names of the values, or else their numbers. -/
inductive BundledForm (convention : ExceptionStyle) (func : String) :
    List (Param × String) → Returned → Prop where
  | nothing : BundledForm convention func [] .nothing
  | single (value : Param) (type : String) :
      BundledForm convention func [(value, type)] (.single type)
  | record {typed : List (Param × String)} {components : List (String × String)}
      (hseveral : 2 ≤ typed.length) (htypes : components.map Prod.snd = typed.map Prod.snd)
      (hnames : AllNamed (typed.map Prod.fst) ∧
          components.map Prod.fst = typed.map (·.1.name) ∨
        Unnamed (typed.map Prod.fst) ∧
          components.map Prod.fst = typed.zipIdx.map fun value => "value" ++ toString (value.2 + 1))
      (hdistinct : (components.map Prod.fst).Nodup) :
      BundledForm convention func typed (.record (convention.recordName func) components)

theorem divided_iff {func : Func} {left : List Param} {throws : Option String} :
    Divided convention func.results left throws ↔
      left = (values func).1 ∧
        throws = if (values func).2 then some convention.failure else none := by
  -- A func can fail if the last of its results is a failure.
  have hcan : func.canFail = true ↔
      ∃ last, func.results.getLast? = some last ∧ last.type = .failure := by
    have hfailure (type : TypeExpr) : type.isFailureChannel = true ↔ type = .failure := by
      cases type <;> simp [TypeExpr.isFailureChannel]
    simp [Func.canFail, Option.any_eq_true, hfailure]
  unfold values
  constructor
  · intro h
    generalize hresults : func.results = results at h
    cases h with
    | thrown values hlast =>
      rw [if_pos (hcan.mpr ⟨_, by simp [hresults], hlast⟩)]
      simp [Func.leadingResults, hresults]
    | kept hkept =>
      rw [if_neg]
      · simp
      · intro hfails
        obtain ⟨last, hlast, hfailure⟩ := hcan.mp hfails
        exact hkept last (hresults ▸ hlast) hfailure
  · rintro ⟨rfl, rfl⟩
    split
    · rename_i hfails
      obtain ⟨last, hlast, hfailure⟩ := hcan.mp hfails
      have hresults : func.results = func.leadingResults ++ [last] :=
        (List.dropLast_append_getLast? last hlast).symm
      conv => rw [hresults]
      exact .thrown _ hfailure
    · rename_i hkeeps
      exact .kept fun last hlast hfailure => hkeeps (hcan.mpr ⟨last, hlast, hfailure⟩)

/-- The component for a value at an index, when its type is spelled. -/
def componentOf (value : (Param × String) × Nat) : String × String :=
  (partName value.2 value.1.1.name, value.1.2)

theorem yields_components_iff {values : List Param} {components : List (String × String)}
    (start : Nat) :
    ((values.zipIdx start).mapM (component place)).Yields c components ↔
      ∃ typed, SpelledResults c place values typed ∧
        components = (typed.zipIdx start).map componentOf := by
  rw [yields_mapM]
  induction values generalizing components start with
  | nil => simp [SpelledResults]
  | cons value rest ih =>
    have hcomponent (own : String × String) : (component place (value, start)).Yields c own ↔
        ∃ type, (spellType value.type place).Yields c type ∧
          own = componentOf ((value, type), start) := by
      unfold component componentOf
      simp only [yields_bind, yields_pure, eq_comm]
    simp only [List.zipIdx_cons, List.forall₂_cons_left_iff, ih, hcomponent,
      spelledResults_cons_iff]
    constructor
    · rintro ⟨_, _, ⟨type, htype, rfl⟩, ⟨typed, htyped, rfl⟩, rfl⟩
      exact ⟨_, ⟨type, typed, htype, htyped, rfl⟩, rfl⟩
    · rintro ⟨_, ⟨type, typed, htype, htyped, rfl⟩, rfl⟩
      exact ⟨_, _, ⟨type, htype, rfl⟩, ⟨typed, htyped, rfl⟩, rfl⟩

theorem map_fst_componentOf_of_allNamed (h : AllNamed (typed.map Prod.fst)) :
    (typed.zipIdx.map componentOf).map Prod.fst = typed.map (·.1.name) := by
  have hown : ∀ value ∈ typed.zipIdx, (componentOf value).1 = value.1.1.name := by
    intro value hvalue
    have hname := h value.1.1 (List.mem_map_of_mem (List.fst_mem_of_mem_zipIdx hvalue))
    rw [componentOf, partName, if_neg (by rwa [String.isEmpty_iff])]
  rw [List.map_map]
  calc typed.zipIdx.map (Prod.fst ∘ componentOf)
      = typed.zipIdx.map ((·.1.name) ∘ Prod.fst) := List.map_congr_left hown
    _ = typed.map (·.1.name) := by rw [← List.map_map, List.zipIdx_map_fst]

theorem map_fst_componentOf_of_unnamed (h : Unnamed (typed.map Prod.fst)) :
    (typed.zipIdx.map componentOf).map Prod.fst =
      typed.zipIdx.map fun value => "value" ++ toString (value.2 + 1) := by
  rw [List.map_map]
  refine List.map_congr_left fun value hvalue => ?_
  have hname := h value.1.1 (List.mem_map_of_mem (List.fst_mem_of_mem_zipIdx hvalue))
  rw [Function.comp_apply, componentOf, partName, hname]
  rfl

theorem map_snd_componentOf (typed : List (Param × String)) :
    (typed.zipIdx.map componentOf).map Prod.snd = typed.map Prod.snd := by
  rw [List.map_map]
  show typed.zipIdx.map (Prod.snd ∘ Prod.fst) = _
  rw [← List.map_map, List.zipIdx_map_fst]

/-- No two components are called the same: the names of the values are distinct, and so are their
numbers. -/
theorem nodup_names_componentOf
    (halike : Unnamed (typed.map Prod.fst) ∨ AllNamed (typed.map Prod.fst))
    (hdistinct : (((typed.map Prod.fst).map (·.name)).filter (!·.isEmpty)).Nodup) :
    ((typed.zipIdx.map componentOf).map Prod.fst).Nodup := by
  rcases halike with h | h
  · -- Without names the components are numbered.
    have hinjective : Function.Injective fun index => numbered "value" (index + 1) :=
      (numbered_injective "value").comp fun _ _ h => Nat.succ.inj h
    have hnumbers := (List.nodup_range' (s := 0) (n := typed.length) 1).map hinjective
    rw [← List.zipIdx_map_snd, List.map_map] at hnumbers
    rw [map_fst_componentOf_of_unnamed h]
    exact hnumbers
  · -- With names they are called after the results.
    have hkept : ∀ name ∈ (typed.map Prod.fst).map (·.name), (!name.isEmpty) = true := by
      intro name hname
      obtain ⟨value, hvalue, rfl⟩ := List.mem_map.mp hname
      simpa using h value hvalue
    rw [List.filter_eq_self.mpr hkept, List.map_map] at hdistinct
    rw [map_fst_componentOf_of_allNamed h]
    exact hdistinct

/-- **What is returned for values,** if their names are distinct and all of them have names or none
has. -/
theorem yields_returned_iff {values : List Param} (halike : Unnamed values ∨ AllNamed values)
    (hdistinct : ((values.map (·.name)).filter (!·.isEmpty)).Nodup) :
    (convention.returned func place values).Yields c returned ↔
      ∃ typed, SpelledResults c place values typed ∧
        BundledForm convention func typed returned := by
  match values with
  | [] =>
    unfold ExceptionStyle.returned
    rw [yields_pure]
    constructor
    · rintro rfl
      exact ⟨[], ⟨rfl, by simp⟩, .nothing⟩
    · rintro ⟨typed, ⟨hnone, _⟩, hform⟩
      obtain rfl := List.map_eq_nil_iff.mp hnone
      cases hform with
      | nothing => rfl
      | record hseveral => simp at hseveral
  | [value] =>
    unfold ExceptionStyle.returned
    simp only [yields_bind, spelledResults_cons_iff, yields_pure]
    constructor
    · rintro ⟨type, htype, rfl⟩
      exact ⟨_, ⟨type, [], htype, ⟨rfl, by simp⟩, rfl⟩, .single value type⟩
    · rintro ⟨_, ⟨type, others, htype, ⟨hnone, _⟩, rfl⟩, hform⟩
      obtain rfl := List.map_eq_nil_iff.mp hnone
      cases hform with
      | single => exact ⟨type, htype, rfl⟩
      | record hseveral => simp at hseveral
  | first :: second :: rest =>
    unfold ExceptionStyle.returned
    simp only [yields_bind, yields_components_iff, yields_pure]
    constructor
    · rintro ⟨_, ⟨typed, htyped, rfl⟩, rfl⟩
      rw [← htyped.1] at halike hdistinct
      have hlength : typed.length = (first :: second :: rest).length := by
        rw [← htyped.1, List.length_map]
      refine ⟨typed, htyped, .record (by simp [hlength]) (map_snd_componentOf typed) ?_
        (nodup_names_componentOf halike hdistinct)⟩
      exact halike.symm.imp (fun h => ⟨h, map_fst_componentOf_of_allNamed h⟩)
        fun h => ⟨h, map_fst_componentOf_of_unnamed h⟩
    · rintro ⟨typed, htyped, hform⟩
      have hlength : typed.length = (first :: second :: rest).length := by
        rw [← htyped.1, List.length_map]
      cases hform with
      | nothing => cases hlength
      | single => simp at hlength
      | @record _ components _ htypes hnames _ =>
        refine ⟨components, ⟨typed, htyped, ?_⟩, rfl⟩
        -- A component is its name and its type.
        have hfirst : components.map Prod.fst = (typed.zipIdx.map componentOf).map Prod.fst := by
          rcases hnames with ⟨h, hnames⟩ | ⟨h, hnames⟩
          · rw [hnames, map_fst_componentOf_of_allNamed h]
          · rw [hnames, map_fst_componentOf_of_unnamed h]
        rw [List.zip_of_prod hfirst (htypes.trans (map_snd_componentOf typed).symm)]
        exact (List.zip_of_prod rfl rfl).symm

theorem yields_resultForm_iff {func : Func}
    (halike : Unnamed func.results ∨ AllNamed func.results)
    (hdistinct : ((func.results.map (·.name)).filter (!·.isEmpty)).Nodup) {form : ResultForm} :
    (convention.resultForm func place).Yields c form ↔
      ∃ left typed, Divided convention func.results left form.throws ∧
        SpelledResults c place left typed ∧
        BundledForm convention func.name typed form.returned := by
  -- The values are the first of the results.
  have hfront : (values func).1 <+: func.results := by
    unfold values
    split
    · exact List.dropLast_prefix _
    · exact List.prefix_rfl
  have hvalues : Unnamed (values func).1 ∨ AllNamed (values func).1 :=
    halike.imp (fun h value hvalue => h value (hfront.subset hvalue))
      fun h value hvalue => h value (hfront.subset hvalue)
  have hnames : (((values func).1.map (·.name)).filter (!·.isEmpty)).Nodup :=
    hdistinct.sublist ((hfront.sublist.map _).filter _)
  unfold resultForm
  simp only [yields_bind, yields_pure, yields_returned_iff hvalues hnames, divided_iff]
  constructor
  · rintro ⟨returned, ⟨typed, htyped, hform⟩, rfl⟩
    exact ⟨_, typed, ⟨rfl, rfl⟩, htyped, hform⟩
  · rintro ⟨_, typed, ⟨rfl, hthrows⟩, htyped, hform⟩
    exact ⟨form.returned, ⟨typed, htyped, hform⟩, by rw [← hthrows]⟩

end ExceptionStyle

/-! ### Checked funcs -/

/-- **A func that passes its checks** has names for all of its results or for none, and no name
twice. -/
theorem Check.results_of_func_ok {tree : DeclTree} {id : FuncId}
    (h : Check.func tree id = .ok ()) :
    let results := (tree.func id).results
    (Unnamed results ∨ AllNamed results) ∧
      ((results.map (·.name)).filter (!·.isEmpty)).Nodup := by
  intro results
  unfold Check.func at h
  -- The last two of the checks are on the names of results.
  obtain ⟨_, _, h⟩ := bind_eq_ok.mp h
  obtain ⟨_, _, h⟩ := bind_eq_ok.mp h
  obtain ⟨_, _, h⟩ := bind_eq_ok.mp h
  obtain ⟨_, _, h⟩ := bind_eq_ok.mp h
  obtain ⟨_, hnames, h⟩ := bind_eq_ok.mp h
  constructor
  · unfold Check.resultNames at hnames
    by_cases hnamed : results.any (!·.name.isEmpty) = true
    · right
      intro result hresult hname
      rw [if_pos] at hnames
      · cases hnames
      · rw [Bool.and_eq_true]
        exact ⟨hnamed, List.any_eq_true.mpr ⟨result, hresult, by simp [hname]⟩⟩
    · left
      intro result hresult
      simpa using List.any_eq_false.mp (Bool.eq_false_iff.mpr hnamed) result hresult
  · have hdistinct := distinct_eq_ok_iff.mp h
    unfold signatureNames at hdistinct
    rw [List.map_append, List.filter_append] at hdistinct
    exact (List.nodup_append.mp hdistinct).2.1

/-- **No result is lost in a signature.** Where several values are returned, all results of a func
that passes its checks are, in order and with the names that they have, and nothing is thrown.
Where one value is returned, a failure is thrown exactly if the last result is one, and those
before it are nothing, one type, or the components of a record, called differently. -/
theorem results_kept {tree : DeclTree} {id : FuncId} (h : Check.func tree id = .ok ())
    (c : FileContext) (place : TreePath) :
    let func := tree.func id
    (∀ form, (plainResults func place).Yields c form ↔
      ∃ typed, SpelledResults c place func.results typed ∧ form.throws = none ∧
        PlainForm typed form.returned) ∧
    ∀ (convention : ExceptionStyle) form, (convention.resultForm func place).Yields c form ↔
      ∃ left typed, convention.Divided func.results left form.throws ∧
        SpelledResults c place left typed ∧
        convention.BundledForm func.name typed form.returned := by
  intro func
  obtain ⟨halike, hdistinct⟩ := Check.results_of_func_ok h
  exact ⟨fun form => yields_plainResults_iff halike,
    fun convention form => ExceptionStyle.yields_resultForm_iff halike hdistinct⟩

/-- A method with two values and a failure, none of them named, returns a record with components
that are numbered, and throws the failure. -/
theorem results_kept_load :
    let results : List Param :=
      [⟨"", .simple ⟨"string"⟩, none, []⟩, ⟨"", .slice (.simple ⟨"int"⟩), none, []⟩,
        ⟨"", .failure, none, []⟩]
    let tree := DeclTree.ofMembers "java" "Row" [] ["load"] results []
    let c := (RenderJob.ofTree tree).context (Plan.treeFile tree .java ⟨0⟩ ⟨0⟩ none ⟨0⟩)
    Check.func tree ⟨0⟩ = .ok () ∧
      (ExceptionStyle.standard.resultForm (tree.func ⟨0⟩) (tree.funcPath ⟨0⟩)).Yields c
        ⟨.record "LoadResult" [("value1", "String"), ("value2", "List<Integer>")],
          some "Exception"⟩ := by
  intro results tree c
  have hchecked : Check.func tree ⟨0⟩ = .ok () := by decide +kernel
  let typed := results.dropLast.zip ["String", "List<Integer>"]
  have hspelled : SpelledResults c (tree.funcPath ⟨0⟩) results.dropLast typed := by
    refine ⟨rfl, ?_⟩
    simp only [typed, results, List.dropLast, List.zip_cons_cons, List.zip_nil_left,
      List.forall_mem_cons, List.not_mem_nil, false_imp_iff, implies_true, and_true]
    exact ⟨rfl, rfl⟩
  have hname : ExceptionStyle.standard.recordName (tree.func ⟨0⟩).name = "LoadResult" := by
    decide +kernel
  have hunnamed : Unnamed (typed.map Prod.fst) := by simp [Unnamed, typed, results]
  have hform : ExceptionStyle.standard.BundledForm (tree.func ⟨0⟩).name typed
      (.record "LoadResult" [("value1", "String"), ("value2", "List<Integer>")]) := by
    rw [← hname]
    exact .record (by decide) rfl (.inr ⟨hunnamed, by decide +kernel⟩) (by decide)
  exact ⟨hchecked, ((results_kept hchecked c _).2 .standard _).mpr
    ⟨results.dropLast, typed, .thrown results.dropLast rfl, hspelled, hform⟩⟩

end DeclPrinter
