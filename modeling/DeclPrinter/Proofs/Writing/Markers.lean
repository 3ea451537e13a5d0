import DeclPrinter.Proofs.Idiom.BuiltIn
import DeclPrinter.Proofs.Tree.Markers
import DeclPrinter.Proofs.Writing.Bodies

/-!
# Metadata and bodies in what is written

A parameter or a result is written by its name, its type and its documentation. So what is written
for a func above its body, its comment and its signature, is the same without metadata and whatever
is in the body (`Func.hollow`). Expanders are given the func as a whole and the block around an
idiom; those that come with a dialect ask for the types of the results and for nothing else that is
left out.
-/

namespace DeclPrinter

open FileM

variable (func : Func) (place : TreePath)

/-! ### Comments and signatures -/

theorem funcComment_hollow (subject : String) :
    funcComment func.hollow subject place = funcComment func subject place := by
  have hparams : paramDocs func.hollow.params = paramDocs func.params := by
    rw [paramDocs, Func.hollow, Func.unmarked, List.filterMap_map]
    rfl
  unfold funcComment
  rw [hparams, Func.hollow, Func.unmarked, List.mapM_map]
  rfl

theorem plainResults_hollow : plainResults func.hollow place = plainResults func place := by
  unfold plainResults
  rw [Func.hollow, Func.unmarked, List.mapM_map, List.any_map]
  rfl

theorem goSignature_hollow : goSignature func.hollow place = goSignature func place := by
  unfold goSignature
  rw [plainResults_hollow, Func.hollow, Func.unmarked, List.mapM_map]
  rfl

/-- The results that are returned as values. -/
theorem values_hollow : ExceptionStyle.values func.hollow =
    ((ExceptionStyle.values func).1.map Param.unmarked, (ExceptionStyle.values func).2) := by
  unfold ExceptionStyle.values
  rw [Func.canFail_hollow, Func.leadingResults_hollow]
  split
  · rfl
  · rfl

theorem returned_unmarked (convention : ExceptionStyle) (name : String) (results : List Param) :
    convention.returned name place (results.map Param.unmarked) =
      convention.returned name place results := by
  rcases results with _ | ⟨first, _ | ⟨second, rest⟩⟩
  · rfl
  · rfl
  · show (do
      return Returned.record (convention.recordName name)
        (← ((first :: second :: rest).map Param.unmarked).zipIdx.mapM
          (ExceptionStyle.component place))) = _
    rw [List.zipIdx_map, List.mapM_map]
    rfl

theorem resultForm_hollow (convention : ExceptionStyle) :
    convention.resultForm func.hollow place = convention.resultForm func place := by
  unfold ExceptionStyle.resultForm
  rw [values_hollow]
  dsimp only
  rw [returned_unmarked]
  rfl

theorem mapM_javaParam_hollow :
    func.hollow.params.mapM (javaParam place) = func.params.mapM (javaParam place) := by
  rw [Func.hollow, Func.unmarked, List.mapM_map]
  rfl

/-! ### Expanders -/

/-- The scope of an idiom, with neither metadata nor statements around it. -/
def IdiomScope.hollow (scope : IdiomScope) : IdiomScope :=
  { scope with func := scope.func.hollow, block := .empty }

theorem ensureCanFail_hollow (scope : IdiomScope) (kind : IdiomKind) :
    scope.hollow.ensureCanFail kind = scope.ensureCanFail kind := by
  unfold IdiomScope.ensureCanFail
  rw [IdiomScope.hollow, Func.canFail_hollow]
  rfl

theorem goFailureReturn_hollow (scope : IdiomScope) (failure : Code) :
    goFailureReturn scope.hollow failure = goFailureReturn scope failure := by
  unfold goFailureReturn
  rw [IdiomScope.hollow, Func.leadingResults_hollow, List.mapM_map]
  rfl

theorem goAttempt_hollow (operands : Attempt) (scope : IdiomScope) :
    goAttempt operands scope.hollow = goAttempt operands scope := by
  unfold goAttempt
  rw [ensureCanFail_hollow, goFailureReturn_hollow]

theorem javaAttempt_hollow (operands : Attempt) (scope : IdiomScope) :
    javaAttempt operands scope.hollow = javaAttempt operands scope := by
  unfold javaAttempt
  rw [ensureCanFail_hollow]
  rfl

/-- **The built-in expanders** expand an idiom alike whatever metadata and statements are around
it. -/
theorem expand_hollow {dialect : Dialect} {expander : Expander}
    (hexpander : expander ∈ dialect.expanders) (idiom : Idiom) (scope : IdiomScope) :
    expander.expand idiom scope.hollow = expander.expand idiom scope := by
  cases dialect with
  | go =>
    simp only [Dialect.expanders, goExpanders, List.mem_cons, List.not_mem_nil,
      or_false] at hexpander
    -- Terminators, attempts, failures; no expander looks at the block around the idiom.
    rcases hexpander with rfl | rfl | rfl
    · rfl
    · cases idiom with
      | attempt operands => exact goAttempt_hollow operands scope
      | _ => rfl
    · cases idiom with
      | fail message =>
        dsimp only
        rw [ensureCanFail_hollow, goFailureReturn_hollow]
      | _ => rfl
  | java =>
    simp only [Dialect.expanders, javaExpanders, List.mem_cons, List.not_mem_nil,
      or_false] at hexpander
    rcases hexpander with rfl | rfl | rfl
    · rfl
    · cases idiom with
      | attempt operands => exact javaAttempt_hollow operands scope
      | _ => rfl
    · cases idiom with
      | fail message =>
        dsimp only
        rw [ensureCanFail_hollow]
      | _ => rfl

end DeclPrinter
