import DeclPrinter.Proofs.Render.Expansion
import DeclPrinter.Proofs.Writing.Idioms

/-!
# Early returns in Go

A func that fails returns a zero value for each result but the last. What the zero value is follows
from the type: `nil`, a literal, or a value made from the type as it is spelled (`GoZero`). The
signature and the return spell a type alike, since what is spelled depends on nothing but the type
and the file, whatever the file imports. So every return fits the signature above it
(`go_early_returns`).
-/

namespace DeclPrinter

open FileM

variable {c : FileContext}

/-! ### Zero values -/

/-- The built-in types of Go that have a literal as their zero value. -/
def goBuiltinZeros : List (String × String) :=
  [("string", "\"\""), ("bool", "false"), ("any", "nil"), ("error", "nil"), ("int", "0"),
    ("int8", "0"), ("int16", "0"), ("int32", "0"), ("int64", "0"), ("uint", "0"), ("uint8", "0"),
    ("uint16", "0"), ("uint32", "0"), ("uint64", "0"), ("uintptr", "0"), ("float32", "0"),
    ("float64", "0"), ("complex64", "0"), ("complex128", "0"), ("byte", "0"), ("rune", "0")]

theorem goBuiltinZero?_eq_some {name zero : String} :
    goBuiltinZero? name = some zero ↔ (name, zero) ∈ goBuiltinZeros := by
  constructor
  · -- One branch for each kind of built-in type: texts, truth values, those that are nil, numbers.
    intro h
    have hnumber : ∀ number ∈ goNumberTypes, (number, "0") ∈ goBuiltinZeros := by decide
    unfold goBuiltinZero? at h
    split at h
    · rename_i hname
      obtain rfl := beq_iff_eq.mp hname
      obtain rfl := Option.some.inj h
      decide
    split at h
    · rename_i hname
      obtain rfl := beq_iff_eq.mp hname
      obtain rfl := Option.some.inj h
      decide
    split at h
    · rename_i hname
      obtain rfl := Option.some.inj h
      rcases Bool.or_eq_true_iff.mp hname with hname | hname
      · obtain rfl := beq_iff_eq.mp hname
        decide
      · obtain rfl := beq_iff_eq.mp hname
        decide
    split at h
    · rename_i hname
      obtain rfl := Option.some.inj h
      exact hnumber name (List.contains_iff_mem.mp hname)
    · cases h
  · have hall : ∀ builtin ∈ goBuiltinZeros, goBuiltinZero? builtin.1 = some builtin.2 := by decide
    exact hall (name, zero)

/-- What stands for the zero value of a type that is spelled like this in the file. -/
inductive GoZero (c : FileContext) : TypeExpr → String → String → Prop where
  | slice (element : TypeExpr) (spelled : String) : GoZero c (.slice element) spelled "nil"
  | map (key value : TypeExpr) (spelled : String) : GoZero c (.map key value) spelled "nil"
  | pointer (element : TypeExpr) (spelled : String) : GoZero c (.pointer element) spelled "nil"
  | failure (spelled : String) : GoZero c .failure spelled "nil"
  | interface {symbol : Symbol} {id : TypeId} (spelled : String)
      (htarget : c.target? symbol = some (.declared id))
      (hkind : (c.tree.type id).kind = .interface) : GoZero c (.simple symbol) spelled "nil"
  | struct {symbol : Symbol} {id : TypeId} (spelled : String)
      (htarget : c.target? symbol = some (.declared id))
      (hkind : (c.tree.type id).kind = .struct) :
      GoZero c (.simple symbol) spelled (spelled ++ "\x7b\x7d")
  | builtin {symbol : Symbol} {name zero : String} (spelled : String)
      (htarget : c.target? symbol = some (.external (.inScope name)))
      (hzero : (name, zero) ∈ goBuiltinZeros) : GoZero c (.simple symbol) spelled zero
  | named {symbol : Symbol} {reference : Reference} (spelled : String)
      (htarget : c.target? symbol = some (.external reference))
      (hother : ∀ builtin ∈ goBuiltinZeros, reference ≠ .inScope builtin.1) :
      GoZero c (.simple symbol) spelled ("*new(" ++ spelled ++ ")")

/-- The zero value of a built-in type is its literal. -/
theorem goTargetZero_of_builtin {builtin : String × String} (h : builtin ∈ goBuiltinZeros) :
    goTargetZero (.external (.inScope builtin.1)) = pure builtin.2 := by
  have hzero : goBuiltinZero? builtin.1 = some builtin.2 := goBuiltinZero?_eq_some.mpr h
  simp [goTargetZero, Reference.inScope, hzero]

/-- Of any other type that the resolver knows it is made from the type, even when that is called
like a built-in one. -/
theorem goTargetZero_of_other {reference : Reference}
    (h : ∀ builtin ∈ goBuiltinZeros, reference ≠ .inScope builtin.1) :
    goTargetZero (.external reference) = do
      return "*new(" ++ (← spell reference) ++ ")" := by
  unfold goTargetZero
  dsimp only
  split
  · rename_i zero hbuiltin
    split at hbuiltin
    · -- Without path and member the reference is the name, which is not built in.
      rename_i hscope
      obtain ⟨importPath, localName, member⟩ := reference
      rw [Bool.and_eq_true, Option.isNone_iff_eq_none, Option.isNone_iff_eq_none] at hscope
      obtain ⟨rfl, rfl⟩ := hscope
      exact absurd rfl (h _ (goBuiltinZero?_eq_some.mp hbuiltin))
    · cases hbuiltin
  · rfl

theorem yields_meaning {symbol : Symbol} {place : TreePath} {target : SymbolTarget} :
    (meaning symbol place).Yields c target ↔ c.target? symbol = some target := by
  rw [meaning, yields_context_bind]
  cases c.target? symbol with
  | none => simp
  | some found => simp

/-- **A type that is spelled has a zero value,** wherever the type stands. -/
theorem exists_goZero {type : TypeExpr} {place : TreePath} {spelled : String}
    (h : (goType place type).Yields c spelled) (spot : TreePath) :
    ∃ zero, (goZero type spot).Yields c zero ∧ GoZero c type spelled zero := by
  cases type with
  | slice element => exact ⟨"nil", yields_pure.mpr rfl, .slice element spelled⟩
  | map key value => exact ⟨"nil", yields_pure.mpr rfl, .map key value spelled⟩
  | pointer element => exact ⟨"nil", yields_pure.mpr rfl, .pointer element spelled⟩
  | failure => exact ⟨"nil", yields_pure.mpr rfl, .failure spelled⟩
  | simple symbol =>
    rw [goType, spellSymbol] at h
    obtain ⟨target, htarget, h⟩ := yields_bind.mp h
    have htarget := yields_meaning.mp htarget
    have hzero {zero : String} (hzero : (goTargetZero target).Yields c zero) :
        (goZero (.simple symbol) spot).Yields c zero :=
      yields_bind.mpr ⟨target, yields_meaning.mpr htarget, hzero⟩
    -- Declared types by their kind, others by whether they are built in.
    cases target with
    | declared id =>
      rcases hkind : (c.tree.type id).kind with _ | _
      · refine ⟨spelled ++ "\x7b\x7d", hzero ?_, .struct spelled htarget hkind⟩
        refine yields_context_bind.mpr ?_
        rw [if_pos (by rw [DeclTree.isStruct, hkind]; rfl)]
        exact yields_bind.mpr ⟨spelled, h, yields_pure.mpr rfl⟩
      · refine ⟨"nil", hzero ?_, .interface spelled htarget hkind⟩
        refine yields_context_bind.mpr ?_
        rw [if_neg (by rw [DeclTree.isStruct, hkind]; decide)]
        exact yields_pure.mpr rfl
    | external reference =>
      by_cases hbuiltin : ∃ builtin ∈ goBuiltinZeros, reference = .inScope builtin.1
      · obtain ⟨builtin, hbuiltin, rfl⟩ := hbuiltin
        refine ⟨builtin.2, hzero ?_, .builtin spelled htarget hbuiltin⟩
        rw [goTargetZero_of_builtin hbuiltin]
        exact yields_pure.mpr rfl
      · have hother : ∀ builtin ∈ goBuiltinZeros, reference ≠ .inScope builtin.1 :=
          fun builtin hmem heq => hbuiltin ⟨builtin, hmem, heq⟩
        refine ⟨"*new(" ++ spelled ++ ")", hzero ?_, .named spelled htarget hother⟩
        rw [goTargetZero_of_other hother]
        exact yields_bind.mpr ⟨spelled, h, yields_pure.mpr rfl⟩

theorem goZero_of_yields {type : TypeExpr} {place spot : TreePath} {spelled zero : String}
    (h : (goType place type).Yields c spelled) (hzero : (goZero type spot).Yields c zero) :
    GoZero c type spelled zero := by
  obtain ⟨other, hother, htype⟩ := exists_goZero h spot
  have heq : other = zero := Except.ok.inj (hother.symm.trans hzero)
  rwa [heq] at htype

/-! ### Results -/

section

variable {typed : List (Param × String)} {results : List Param} {place : TreePath}

/-- The values that are returned before the failure are the zero values of the results before the
last, in their order. -/
theorem forall₂_goZero (hresults : typed.map Prod.fst = results)
    (htyped : ∀ result ∈ typed, (goType place result.1.type).Yields c result.2) {spot : TreePath}
    {zeros : List String}
    (h : List.Forall₂ (fun result zero => (goZero result.type spot).Yields c zero)
      results.dropLast zeros) :
    List.Forall₂ (fun result zero => GoZero c result.1.type result.2 zero) typed.dropLast
      zeros := by
  rw [← hresults, ← List.map_dropLast, List.forall₂_map_left_iff] at h
  have hleading : ∀ result ∈ typed.dropLast, (goType place result.1.type).Yields c result.2 :=
    fun result hmem => htyped result (List.mem_of_mem_dropLast hmem)
  refine ((List.forall₂_and_left _ _).mpr ⟨hleading, h⟩).imp fun result zero hboth => ?_
  exact goZero_of_yields hboth.1 hboth.2

/-- There are such values for every func whose signature is spelled. -/
theorem exists_goZeros (hresults : typed.map Prod.fst = results)
    (htyped : ∀ result ∈ typed, (goType place result.1.type).Yields c result.2)
    (spot : TreePath) :
    ∃ zeros, List.Forall₂ (fun result zero => (goZero result.type spot).Yields c zero)
      results.dropLast zeros := by
  rw [← hresults, ← List.map_dropLast]
  have hleading : ∀ result ∈ typed.dropLast, (goType place result.1.type).Yields c result.2 :=
    fun result hmem => htyped result (List.mem_of_mem_dropLast hmem)
  -- Only the leading results need a zero value, and each of them has its type spelled.
  generalize typed.dropLast = leading at hleading ⊢
  induction leading with
  | nil => exact ⟨[], .nil⟩
  | cons result rest ih =>
    obtain ⟨hresult, hrest⟩ := List.forall_mem_cons.mp hleading
    obtain ⟨zero, hzero, _⟩ := exists_goZero hresult spot
    obtain ⟨zeros, hzeros⟩ := ih hrest
    exact ⟨zero :: zeros, .cons hzero hzeros⟩

/-- **An idiom of a failure expands** in every func that has the channel and whose signature is
spelled. -/
theorem exists_goExpansion (hresults : typed.map Prod.fst = results)
    (htyped : ∀ result ∈ typed, (goType place result.1.type).Yields c result.2)
    {scope : IdiomScope} (hscope : scope.func.results = results)
    (hcan : scope.func.canFail = true) {expander : Expander} (hgo : expander ∈ goExpanders)
    {idiom : Idiom} (hkind : expander.kind = idiom.kind) :
    ∃ statements, (expander.expand idiom scope).Yields c statements := by
  have hensured (kind : IdiomKind) : (scope.ensureCanFail kind).Yields c () := by
    rw [IdiomScope.ensureCanFail, if_pos hcan]
    exact yields_pure.mpr rfl
  have hreturn (failure : Code) :
      ∃ statement, (goFailureReturn scope failure).Yields c statement := by
    obtain ⟨zeros, hzeros⟩ := exists_goZeros hresults htyped scope.path
    exact ⟨_, yields_goFailureReturn.mpr ⟨zeros, by rwa [Func.leadingResults, hscope], rfl⟩⟩
  simp only [goExpanders, List.mem_cons, List.not_mem_nil, or_false] at hgo
  -- Expanders of terminators, attempts and failures, each for its own kind of idiom only.
  rcases hgo with rfl | rfl | rfl
  · exact ⟨[], yields_pure.mpr rfl⟩
  · cases idiom with
    | attempt operands =>
      obtain ⟨statement, hstatement⟩ := hreturn (goWrapped operands.message)
      show ∃ statements, (goAttempt operands scope).Yields c statements
      simp only [goAttempt, yields_bind]
      by_cases hnames : operands.names.isEmpty = true
      · simp only [if_pos hnames]
        exact ⟨_, (), hensured _, statement, hstatement, yields_pure.mpr rfl⟩
      · simp only [if_neg hnames]
        exact ⟨_, (), hensured _, statement, hstatement, yields_pure.mpr rfl⟩
    | _ => cases hkind
  · cases idiom with
    | fail message =>
      obtain ⟨statement, hstatement⟩ := hreturn (goFailure message)
      exact ⟨[statement], yields_bind.mpr ⟨(), hensured _,
        yields_bind.mpr ⟨statement, hstatement, yields_pure.mpr rfl⟩⟩⟩
    | _ => cases hkind

end

/-! ### Bodies -/

/-- **Early returns fit the signature.** In a file of the Go dialect, in either pass through it, a
func whose last result is the failure channel has an expansion for each failure in it once its
signature is spelled.

In a file that is written, a func stands as a line with the types of its results, and its body
below. Wherever the body comes to an attempt or a failure, however deep, the lines for it leave the
func with one return, which lists the zero value of each result but the last, in order, and then
the failure. The zero value of a type is made from the text that stands for the type in the
signature. -/
theorem go_early_returns (registry : Registry) (c : FileContext)
    (hgo : c.language.dialect = .go) :
    (∀ func place signature, func.canFail = true → (goSignature func place).Yields c signature →
      ∀ expander ∈ goExpanders, ∀ idiom scope, expander.kind = idiom.kind → scope.func = func →
        ∃ statements, (expander.expand idiom scope).Yields c statements) ∧
    ∀ script, (fileScript registry).Yields c script → ∀ id, c.contents.HasBody c.tree id →
      let func := c.tree.func id
      let place := c.tree.funcPath id
      ∃ (receiver params : String) (typed : List (Param × String)) (body : Script),
        typed.map Prod.fst = func.results ∧
        (∀ result ∈ typed, (goType place result.1.type).Yields c result.2) ∧
        (bodyScript registry func place).Yields c body ∧
        (let returned := returnsOfParts (func.results.any (!·.name.isEmpty)) (typed.map resultText)
        let head := "func " ++ receiver ++ goName func.name func.visibility ++
          ("(" ++ params ++ ")" ++ goReturns returned)
        ([.line (head ++ " \x7b"), .indent] ++ body ++ [.dedent, .line "\x7d"]) <:+: script) ∧
        ∀ depth block below idiom expander,
          Relation.ReflTransGen (BodyTask.Calls registry ⟨c.language, func⟩ c)
            (.ofBody func place) (.invoked depth block below idiom) →
          registry.expander? c.language.tag idiom.kind = some expander →
          expander ∈ goExpanders → idiom.kind ≠ .terminator →
          ∃ zeros failure own,
            List.Forall₂ (fun result zero => GoZero c result.1.type result.2 zero) typed.dropLast
              zeros ∧
            GoFailure c idiom failure ∧ GoLines c (goReturn zeros failure) idiom own ∧
            own <:+: body := by
  constructor
  · -- A func that can fail and has a signature.
    rintro func place signature hcan hsignature expander hexpander idiom scope hkind rfl
    obtain ⟨_, parts, hparts, _⟩ := yields_goSignature hsignature
    obtain ⟨typed, hresults, htyped, _⟩ := yields_resultParts hgo hparts
    exact exists_goExpansion hresults htyped rfl hcan hexpander hkind
  · -- A func with a body in a file: its results are typed once, for the signature and the returns.
    intro script hscript id hid func place
    obtain ⟨own, hown, hin⟩ := exists_func_of_fileScript hscript hid
    rw [hgo] at hown
    obtain ⟨receiver, doc, signature, body, _, _, hsignature, hbody, rfl⟩ := yields_goFunc hown
    obtain ⟨params, parts, hparts, rfl⟩ := yields_goSignature hsignature
    obtain ⟨typed, hresults, htyped, rfl⟩ := yields_resultParts hgo hparts
    refine ⟨receiver, params, typed, body, hresults, htyped, hbody, ?_, ?_⟩
    · exact (List.suffix_append (goFuncComment doc) _).isInfix.trans hin
    · intro depth block below idiom expander hreached hexpander hexpanders hkind
      obtain ⟨lines, hlines, hinfix⟩ := BodyTask.exists_own_of_body hreached hbody
      obtain ⟨zeros, failure, hzeros, hfailure, hform⟩ :=
        yields_goIdiom hexpander hexpanders hkind hlines
      exact ⟨zeros, failure, lines, forall₂_goZero hresults htyped hzeros, hfailure, hform, hinfix⟩

/-- A func that yields a time or fails returns one zero value with its failure. -/
theorem go_early_returns_time :
    let time : Param := ⟨"", .simple ⟨"time"⟩, none, []⟩
    let tree := RenderJob.ofFailing "go" [time, ⟨"", .failure, none, []⟩]
    let job := RenderJob.ofTree tree
    let c := job.context (Plan.treeFile tree .go ⟨0⟩ ⟨0⟩ none ⟨0⟩)
    ∃ script zero failure, (fileScript job.registry).Yields c script ∧
      GoZero c time.type "time.Time" zero ∧ .line (goReturn [zero] failure) ∈ script := by
  intro time tree job c
  let func := tree.func ⟨0⟩
  let place := tree.funcPath ⟨0⟩
  have hwritten : ((fileScript job.registry).run c).result.isOk = true := by decide +kernel
  obtain ⟨script, hscript⟩ := exists_of_isOk hwritten
  obtain ⟨_, hfuncs⟩ := go_early_returns job.registry c rfl
  obtain ⟨_, _, typed, body, hresults, htyped, _, hfunc, hidioms⟩ :=
    hfuncs script hscript ⟨0⟩ (.inl List.mem_cons_self)
  have hheader (header : String) (spot : TreePath) :
      (spellHeader spot (some (.ofText header))).Yields c (some header) := rfl
  -- The failure stands in the clause that is chained to the first statement.
  have hblock : Relation.ReflTransGen (BodyTask.Calls job.registry ⟨c.language, func⟩ c)
      (.ofBody func place) (.nested 0 (blockPath place 0) _) :=
    .single (.nested 0 func.body _ place 0 [])
  have hclauses := hblock.tail (.chained 0 _ _ (hheader _ _) (yields_pure.mpr rfl))
  have hclause := hclauses.tail (.clauseBody 0 _ _ (hheader _ _))
  have hidiom := hclause.tail (.idiom 0 _ _ 0 (.fail "no store") [])
  obtain ⟨zeros, failure, own, hzeros, hfailure, hlines, hown⟩ :=
    hidioms _ _ _ _ goExpanders[2] hidiom rfl (List.getElem_mem _) (by decide)
  have hspelled : (goType place time.type).Yields c "time.Time" := rfl
  have hlength : typed.length = 2 := by rw [← List.length_map Prod.fst, hresults]; rfl
  obtain ⟨⟨result, spelled⟩, _, rfl⟩ := List.length_eq_two.mp hlength
  obtain ⟨rfl, _⟩ := List.cons.inj hresults
  obtain rfl : spelled = "time.Time" :=
    Except.ok.inj ((htyped _ List.mem_cons_self).symm.trans hspelled)
  cases hzeros with
  | cons hzero hnone =>
    rename_i zero _
    cases hnone
    cases hlines
    -- The line is the only one for the failure, so it is in the body, and the body in the file.
    have hbody : .line (goReturn [zero] failure) ∈ body := hown.subset List.mem_cons_self
    exact ⟨script, zero, failure, hscript, hzero, hfunc.subset (by simp [hbody])⟩

end DeclPrinter
