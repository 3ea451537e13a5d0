import DeclPrinter.Proofs.Failing
import DeclPrinter.Proofs.Idiom.BuiltIn
import DeclPrinter.Proofs.Writing.Bodies

/-!
# Where bodies fail

What is written of a func fails inside that func: in its signature at the func itself, in its body
at the block or the idiom that is at fault (`located_bodyScript`). An idiom that is expanded fails
where it stands, if its expander reports failures there (`Expander.FailsInPlace`), as all do that
come with a dialect, and what it is expanded to is written inside that place.
-/

namespace DeclPrinter

namespace FileM

/-- The computation fails in the places only. -/
def Located (c : FileContext) (places : TreePath → Prop) {α : Type} (x : FileM α) : Prop :=
  FailsIn places (x.run c).result

namespace Located

variable {α β : Type} {c : FileContext} {places : TreePath → Prop}

theorem pure (value : α) : Located c places (pure value) :=
  .ok value

theorem fail {failure : Failure} {path : TreePath} (hpath : failure.path? = some path)
    (h : places path) : Located c places (fail failure : FileM α) :=
  .error hpath h

theorem note (reference : Reference) : Located c places (note reference) :=
  .ok ()

/-- **One computation after another** fails where the first fails, or where what follows does on
the value of the first. -/
theorem bind {x : FileM α} {f : α → FileM β} (h : Located c places x)
    (hrest : ∀ value, Located c places (f value)) : Located c places (x >>= f) := by
  unfold Located at h hrest ⊢
  rcases hx : (x.run c).result with failure | value
  · rw [hx] at h
    rw [bind_run_of_error hx]
    intro other hother
    cases hother
    exact h failure rfl
  · rw [bind_run_of_yields hx]
    exact hrest value

/-- A computation of which something is made at the end. -/
theorem last {x : FileM α} {f : α → β} (h : Located c places x) :
    Located c places (x >>= fun value => Pure.pure (f value)) :=
  h.bind fun value => pure (f value)

theorem mapM {f : α → FileM β} {inputs : List α}
    (h : ∀ input ∈ inputs, Located c places (f input)) : Located c places (inputs.mapM f) := by
  induction inputs with
  | nil =>
    rw [List.mapM_nil]
    exact pure []
  | cons input rest ih =>
    rw [List.mapM_cons]
    refine (h input List.mem_cons_self).bind fun _ => ?_
    exact (ih fun other hother => h other (List.mem_cons_of_mem input hother)).last

theorem context {f : FileContext → FileM α} (h : Located c places (f c)) :
    Located c places (FileM.context >>= f) :=
  h

end Located

variable {c : FileContext} {places : TreePath → Prop} {place : TreePath}

/-! ### Spelling -/

theorem located_spell (reference : Reference) : Located c places (spell reference) := by
  unfold spell
  refine (Located.note reference).bind fun _ => ?_
  apply Located.context
  cases c.imports <;> exact Located.pure _

theorem located_spellDeclared (id : TypeId) : Located c places (spellDeclared id) := by
  unfold spellDeclared
  apply Located.context
  split
  · exact Located.pure _
  · split
    · exact Located.pure _
    · exact located_spell _

section

variable (h : places place)

include h

theorem located_meaning (symbol : Symbol) : Located c places (meaning symbol place) := by
  unfold meaning
  apply Located.context
  split
  · exact Located.pure _
  · exact Located.fail rfl h

theorem located_spellSymbol (symbol : Symbol) : Located c places (spellSymbol symbol place) := by
  unfold spellSymbol
  refine (located_meaning h symbol).bind fun target => ?_
  cases target with
  | declared id => exact located_spellDeclared id
  | external reference => exact located_spell reference

theorem located_spellCode (code : Code) : Located c places (spellCode code place) := by
  unfold spellCode
  refine (Located.mapM fun segment _ => ?_).last
  cases segment with
  | text text => exact Located.pure text
  | symbol symbol => exact located_spellSymbol h symbol
  | reference reference => exact located_spell reference

theorem located_goType (type : TypeExpr) : Located c places (goType place type) := by
  induction type with
  | simple symbol => exact located_spellSymbol h symbol
  | slice element ih => exact ih.last
  | map key value ihKey ihValue => exact ihKey.bind fun _ => ihValue.last
  | pointer element ih => exact ih.last
  | failure => exact Located.pure _

theorem located_javaType (type : TypeExpr) : Located c places (javaType place type) := by
  induction type with
  | simple symbol => exact located_spellSymbol h symbol
  | slice element ih => exact (located_spell _).bind fun _ => ih.last
  | map key value ihKey ihValue =>
    exact (located_spell _).bind fun _ => ihKey.bind fun _ => ihValue.last
  | pointer element ih => exact ih.last
  | failure => exact Located.pure _

theorem located_spellType (type : TypeExpr) : Located c places (spellType type place) := by
  unfold spellType
  apply Located.context
  split
  · exact located_goType h type
  · exact located_javaType h type

/-! ### Comments and results -/

theorem located_funcComment (func : Func) (subject : String) :
    Located c places (funcComment func subject place) := by
  unfold funcComment
  refine (Located.mapM fun result _ => ?_).last
  unfold resultComment?
  split
  · exact Located.pure none
  · split
    · exact (located_spellType h result.type).last
    · exact Located.pure _

theorem located_plainResults (func : Func) : Located c places (plainResults func place) := by
  unfold plainResults
  refine (Located.mapM fun result _ => ?_).last
  exact (located_spellType h result.type).last

theorem located_resultForm (convention : ExceptionStyle) (func : Func) :
    Located c places (convention.resultForm func place) := by
  unfold ExceptionStyle.resultForm
  apply Located.last
  unfold ExceptionStyle.returned
  split
  · exact Located.pure _
  · exact (located_spellType h _).last
  · refine (Located.mapM fun result _ => ?_).last
    exact (located_spellType h result.1.type).last

end

end FileM

open FileM

variable {c : FileContext} {places : TreePath → Prop}

/-! ### Statements -/

/-- What is done at an idiom fails inside the place around it. -/
def LocatesIdioms (c : FileContext) (places : TreePath → Prop) (onIdiom : IdiomWriter) : Prop :=
  ∀ block place idiom, Covers places place → Located c places (onIdiom block place idiom)

section

variable {onIdiom : IdiomWriter} (scope : BodyScope)

theorem located_spellHeader {place : TreePath} (h : places place) (header : Option Code) :
    Located c places (spellHeader place header) := by
  cases header with
  | none => exact Located.pure none
  | some code => exact (located_spellCode h code).last

-- A nested block is a place of its own, a chained clause stands where the block does.
mutual

theorem located_statementScript (hidioms : LocatesIdioms c places onIdiom) (block : Block)
    {place : TreePath} (h : Covers places place) (index : Nat) (statement : Statement) :
    Located c places (statementScript onIdiom scope block place index statement) := by
  cases statement with
  | code code => exact (located_spellCode h.self code).last
  | block inner => exact located_blockScript hidioms (h.below (.inr (.inl rfl)) _) inner
  | invoke idiom => exact hidioms block place idiom h
  | terminator => exact Located.pure _
termination_by structural statement

theorem located_statementsScript (hidioms : LocatesIdioms c places onIdiom) (block : Block)
    {place : TreePath} (h : Covers places place) (index : Nat) (statements : List Statement) :
    Located c places (statementsScript onIdiom scope block place index statements) := by
  cases statements with
  | nil => exact Located.pure []
  | cons statement rest =>
    refine (located_statementScript hidioms block h index statement).bind fun _ => ?_
    exact (located_statementsScript hidioms block h (index + 1) rest).last
termination_by structural statements

theorem located_blockScript (hidioms : LocatesIdioms c places onIdiom) {place : TreePath}
    (h : Covers places place) (block : Block) :
    Located c places (blockScript onIdiom scope place block) := by
  obtain ⟨doc, header, statements, chained⟩ := block
  refine (located_spellHeader h.self header).bind fun _ => ?_
  refine (located_statementsScript hidioms _ h 0 statements).bind fun _ => ?_
  exact (located_clausesScript hidioms h chained).last
termination_by structural block

theorem located_clausesScript (hidioms : LocatesIdioms c places onIdiom) {place : TreePath}
    (h : Covers places place) (chained : Option Block) :
    Located c places (clausesScript onIdiom scope place chained) := by
  cases chained with
  | none => exact Located.pure []
  | some clause =>
    obtain ⟨doc, header, statements, chained⟩ := clause
    refine (located_spellHeader h.self header).bind fun _ => ?_
    refine (located_statementsScript hidioms _ h 0 statements).bind fun _ => ?_
    exact (located_clausesScript hidioms h chained).last
termination_by structural chained

end

end

/-! ### Expanders -/

/-- The expander fails where the idiom stands, or inside that place. -/
def Expander.FailsInPlace (expander : Expander) : Prop :=
  ∀ idiom scope c, Located c (·.IsInside scope.path) (expander.expand idiom scope)

theorem located_ensureCanFail {scope : IdiomScope} (h : places scope.path) (kind : IdiomKind) :
    Located c places (scope.ensureCanFail kind) := by
  unfold IdiomScope.ensureCanFail
  split
  · exact Located.pure ()
  · exact Located.fail rfl h

theorem located_goFailureReturn {scope : IdiomScope} (h : places scope.path) (failure : Code) :
    Located c places (goFailureReturn scope failure) := by
  -- Only a zero value needs the place, for a symbol that means nothing.
  have hzero (type : TypeExpr) : Located c places (goZero type scope.path) := by
    cases type with
    | simple symbol =>
      unfold goZero
      refine (located_meaning h symbol).bind fun target => ?_
      unfold goTargetZero
      cases target with
      | declared id =>
        apply Located.context
        split
        · exact (located_spellDeclared id).last
        · exact Located.pure _
      | external reference =>
        dsimp only
        split
        · exact Located.pure _
        · exact (located_spell reference).last
    | _ => exact Located.pure _
  exact (Located.mapM fun result _ => hzero result.type).last

theorem located_goAttempt {scope : IdiomScope} (h : places scope.path) (operands : Attempt) :
    Located c places (goAttempt operands scope) := by
  unfold goAttempt
  refine (located_ensureCanFail h .attempt).bind fun _ => ?_
  refine (located_goFailureReturn h _).bind fun _ => ?_
  split
  · exact Located.pure _
  · exact Located.pure _

theorem located_javaAttempt {scope : IdiomScope} (h : places scope.path) (operands : Attempt) :
    Located c places (javaAttempt operands scope) := by
  have hbinding : Located c places (javaBinding operands scope) := by
    unfold javaBinding
    split
    · exact Located.pure _
    · split
      · exact Located.fail rfl h
      · exact (located_spellType h _).last
  unfold javaAttempt
  refine (located_ensureCanFail h .attempt).bind fun _ => ?_
  split
  · exact Located.fail rfl h
  · exact hbinding.last

/-- **The built-in expanders** fail where the idiom stands. -/
theorem located_of_mem_expanders {scope : IdiomScope} (h : places scope.path) {dialect : Dialect}
    {expander : Expander} (hexpander : expander ∈ dialect.expanders) (idiom : Idiom) :
    Located c places (expander.expand idiom scope) := by
  cases dialect with
  | go =>
    simp only [Dialect.expanders, goExpanders, List.mem_cons, List.not_mem_nil,
      or_false] at hexpander
    -- Terminators, attempts, failures; an expander refuses idioms of other kinds.
    rcases hexpander with rfl | rfl | rfl
    · exact Located.pure []
    · cases idiom with
      | attempt operands => exact located_goAttempt h operands
      | _ => exact Located.fail rfl h
    · cases idiom with
      | fail message =>
        refine (located_ensureCanFail h .fail).bind fun _ => ?_
        exact (located_goFailureReturn h _).last
      | _ => exact Located.fail rfl h
  | java =>
    simp only [Dialect.expanders, javaExpanders, List.mem_cons, List.not_mem_nil,
      or_false] at hexpander
    rcases hexpander with rfl | rfl | rfl
    · exact Located.pure _
    · cases idiom with
      | attempt operands => exact located_javaAttempt h operands
      | _ => exact Located.fail rfl h
    · cases idiom with
      | fail message => exact (located_ensureCanFail h .fail).last
      | _ => exact Located.fail rfl h

/-- An expander that refuses by its scope does so where the idiom stands. -/
theorem Expander.failsInPlace_refusing (kind : IdiomKind) (reason : String) :
    (Expander.refusing kind reason).FailsInPlace :=
  fun _ scope _ => Located.fail rfl (TreePath.IsInside.refl scope.path)

/-- Every expander of the registry comes with a dialect, or fails where the idiom stands as these
do. -/
def Registry.FailsInPlace (registry : Registry) : Prop :=
  ∀ entry ∈ registry.expanders,
    (∃ dialect : Dialect, entry.2 ∈ dialect.expanders) ∨ entry.2.FailsInPlace

theorem Registry.BuiltIn.failsInPlace {registry : Registry} (h : registry.BuiltIn) :
    registry.FailsInPlace :=
  fun entry hentry => .inl (h entry hentry)

theorem Registry.FailsInPlace.addExpander {registry : Registry} (h : registry.FailsInPlace)
    (tag : String) {expander : Expander} (hexpander : expander.FailsInPlace) :
    (registry.addExpander tag expander).FailsInPlace := by
  intro entry hentry
  rcases List.mem_append.mp hentry with hold | hnew
  · exact h entry (List.mem_of_mem_filter hold)
  · obtain rfl := List.mem_singleton.mp hnew
    exact .inr hexpander

/-! ### Bodies -/

variable {registry : Registry}

theorem Registry.FailsInPlace.of_expander? (h : registry.FailsInPlace) {tag : String}
    {kind : IdiomKind} {expander : Expander}
    (hfound : registry.expander? tag kind = some expander) : expander.FailsInPlace := by
  obtain ⟨entry, hentry, rfl⟩ := Option.map_eq_some_iff.mp hfound
  rcases h entry (List.mem_of_find?_eq_some hentry) with ⟨dialect, hdialect⟩ | hplace
  · intro idiom scope c
    let places : TreePath → Prop := (·.IsInside scope.path)
    have hscope : places scope.path := .refl scope.path
    exact located_of_mem_expanders hscope hdialect idiom
  · exact hplace

/-- **An idiom fails where it stands,** or inside that place, however deep expansions are nested in
each other. -/
theorem locatesIdioms_idiomScript (hregistry : registry.FailsInPlace) (scope : BodyScope)
    (remaining : Nat) : LocatesIdioms c places (idiomScript registry scope remaining) := by
  have hkind : StepKind.idiom = .param ∨ StepKind.idiom = .block ∨ StepKind.idiom = .idiom :=
    .inr (.inr rfl)
  induction remaining with
  | zero =>
    intro block place idiom h
    rcases hexpander : registry.expander? scope.language.tag idiom.kind with _ | expander
    · -- Without an expander, or at the limit, the idiom itself is at fault.
      rw [idiomScript_of_none hexpander]
      exact Located.fail rfl (h.below hkind _).self
    · rw [idiomScript_zero hexpander]
      exact Located.fail rfl (h.below hkind _).self
  | succ remaining ih =>
    intro block place idiom h
    have hhere : Covers places (place.below .idiom idiom.kind.label) := h.below hkind _
    rcases hexpander : registry.expander? scope.language.tag idiom.kind with _ | expander
    · rw [idiomScript_of_none hexpander]
      exact Located.fail rfl hhere.self
    · rw [idiomScript_succ hexpander]
      have hexpand := hregistry.of_expander? hexpander idiom
        ⟨scope.func, block, scope.language.tag, place.below .idiom idiom.kind.label⟩ c
      -- Else the expander is, or a statement that it expanded to, which is deeper.
      refine Located.bind ?_ fun statements => ?_
      · intro failure hfailure path hpath
        exact hhere path (hexpand failure hfailure path hpath)
      · exact located_statementsScript scope ih block hhere 0 statements

/-- **A body fails inside its func.** -/
theorem located_bodyScript (hregistry : registry.FailsInPlace) (func : Func) {place : TreePath}
    (h : Covers places place) : Located c places (bodyScript registry func place) := by
  unfold bodyScript
  apply Located.context
  have hidioms : LocatesIdioms c places
      (idiomScript registry ⟨c.language, func⟩ expansionLimit) :=
    locatesIdioms_idiomScript hregistry _ expansionLimit
  exact (located_statementsScript ⟨c.language, func⟩ hidioms _ h 0 _).last

end DeclPrinter
