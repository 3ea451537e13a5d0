import DeclPrinter.Proofs.Writing.Yields

/-!
# What Go declarations are made of

One lemma for each function that writes a Go declaration says all that it can yield: a func is a
comment and a block (`yields_goFunc`), a struct a line or a block of fields, an interface a line or
a block of signatures, and a type is one of the two under a comment, with the methods of a struct
after it (`yields_goTypeScript`). A file is its types and then its funcs, each after a blank line
(`yields_goScript`). What is said about Go files is said along these.
-/

namespace DeclPrinter

open FileM

variable {c : FileContext} {registry : Registry} {script : Script}

/-! ### Funcs -/

/-- A result as it stands in a signature when its type is spelled like this. -/
def resultText (result : Param × String) : String :=
  if result.1.name.isEmpty then result.2 else result.1.name ++ " " ++ result.2

/-- These are the parameters or the results, each with its type spelled. -/
def SpelledResults (c : FileContext) (place : TreePath) (results : List Param)
    (typed : List (Param × String)) : Prop :=
  typed.map Prod.fst = results ∧ ∀ result ∈ typed, (spellType result.1.type place).Yields c result.2

theorem spelledResults_cons_iff {place : TreePath} {result : Param} {rest : List Param}
    {typed : List (Param × String)} :
    SpelledResults c place (result :: rest) typed ↔
      ∃ type others, (spellType result.type place).Yields c type ∧
        SpelledResults c place rest others ∧ typed = (result, type) :: others := by
  constructor
  · rintro ⟨hresults, htyped⟩
    obtain ⟨⟨_, type⟩, others, rfl, rfl, hrest⟩ := List.map_eq_cons_iff.mp hresults
    obtain ⟨htype, hothers⟩ := List.forall_mem_cons.mp htyped
    exact ⟨type, others, htype, ⟨hrest, hothers⟩, rfl⟩
  · rintro ⟨type, others, htype, ⟨rfl, hothers⟩, rfl⟩
    exact ⟨rfl, List.forall_mem_cons.mpr ⟨htype, hothers⟩⟩

/-- What is written for each parameter or result alone, from its spelled type, is written for all of
them when all types are spelled. -/
theorem yields_mapM_spelled_iff {β : Type} {write : Param → FileM β} {text : Param × String → β}
    {place : TreePath} (hwrite : ∀ param value, (write param).Yields c value ↔
      ∃ type, (spellType param.type place).Yields c type ∧ value = text (param, type))
    {params : List Param} {values : List β} :
    (params.mapM write).Yields c values ↔
      ∃ typed, SpelledResults c place params typed ∧ values = typed.map text := by
  rw [yields_mapM]
  induction params generalizing values with
  | nil => simp [SpelledResults]
  | cons param rest ih =>
    simp only [List.forall₂_cons_left_iff, ih, spelledResults_cons_iff]
    simp only [hwrite]
    constructor
    · rintro ⟨_, _, ⟨type, htype, rfl⟩, ⟨typed, htyped, rfl⟩, rfl⟩
      exact ⟨_, ⟨type, typed, htype, htyped, rfl⟩, rfl⟩
    · rintro ⟨_, ⟨type, typed, htype, htyped, rfl⟩, rfl⟩
      exact ⟨_, _, ⟨type, htype, rfl⟩, ⟨typed, htyped, rfl⟩, rfl⟩

/-- The results of a func as they stand in a signature. -/
theorem yields_parts_iff {results : List Param} {place : TreePath} {parts : List String} :
    (results.mapM (resultPart place)).Yields c parts ↔
      ∃ typed, SpelledResults c place results typed ∧ parts = typed.map resultText := by
  refine yields_mapM_spelled_iff fun result part => ?_
  unfold resultPart resultText
  simp only [yields_bind, yields_pure, eq_comm]

/-- A parameter as it stands in a Go signature when its type is spelled like this. -/
def goParamText (param : Param × String) : String :=
  param.1.name ++ " " ++ param.2

theorem yields_goParams_iff {params : List Param} {place : TreePath} {texts : List String} :
    (params.mapM (goParam place)).Yields c texts ↔
      ∃ typed, SpelledResults c place params typed ∧ texts = typed.map goParamText := by
  refine yields_mapM_spelled_iff fun param text => ?_
  unfold goParam goParamText
  simp only [yields_bind, yields_pure, eq_comm]

/-- The results of a func in a signature: each has its type spelled, and stands with it. -/
theorem yields_resultParts (hgo : c.language.dialect = .go) {results : List Param}
    {place : TreePath} {parts : List String}
    (h : (results.mapM (resultPart place)).Yields c parts) :
    ∃ typed : List (Param × String), typed.map Prod.fst = results ∧
      (∀ result ∈ typed, (goType place result.1.type).Yields c result.2) ∧
      parts = typed.map resultText := by
  obtain ⟨typed, ⟨hresults, htyped⟩, hparts⟩ := yields_parts_iff.mp h
  refine ⟨typed, hresults, fun result hresult => ?_, hparts⟩
  have htype := htyped result hresult
  unfold spellType at htype
  have htype := yields_context_bind.mp htype
  rwa [hgo] at htype

/-- **A signature** is the parameters, each before its type, and then the types of the results, each
after its name if it has one. -/
theorem exists_params_of_goSignature {func : Func} {place : TreePath} {signature : String}
    (h : (goSignature func place).Yields c signature) :
    ∃ params parts, SpelledResults c place func.params params ∧
      (func.results.mapM (resultPart place)).Yields c parts ∧
      signature = "(" ++ ", ".intercalate (params.map goParamText) ++ ")" ++
        goReturns (returnsOfParts (func.results.any (!·.name.isEmpty)) parts) := by
  unfold goSignature at h
  obtain ⟨texts, htexts, h⟩ := yields_bind.mp h
  obtain ⟨params, hparams, rfl⟩ := yields_goParams_iff.mp htexts
  obtain ⟨results, hresults, h⟩ := yields_bind.mp h
  unfold plainResults at hresults
  obtain ⟨parts, hparts, hresults⟩ := yields_bind.mp hresults
  have heq := yields_pure.mp hresults
  subst heq
  exact ⟨params, parts, hparams, hparts, (yields_pure.mp h).symm⟩

/-- It ends with the types of the results. -/
theorem yields_goSignature {func : Func} {place : TreePath} {signature : String}
    (h : (goSignature func place).Yields c signature) :
    ∃ params parts, (func.results.mapM (resultPart place)).Yields c parts ∧
      signature = "(" ++ params ++ ")" ++
        goReturns (returnsOfParts (func.results.any (!·.name.isEmpty)) parts) := by
  obtain ⟨params, parts, _, hparts, heq⟩ := exists_params_of_goSignature h
  exact ⟨_, parts, hparts, heq⟩

/-- A signature starts with the parameters. -/
theorem opens_goSignature {func : Func} {place : TreePath} {signature : String}
    (h : (goSignature func place).Yields c signature) : ∃ rest, signature = "(" ++ rest := by
  obtain ⟨params, parts, _, heq⟩ := yields_goSignature h
  subst heq
  simp only [String.append_assoc]
  exact ⟨_, rfl⟩

/-- What stands between the keyword and the name of a func: a receiver in parentheses, or
nothing. -/
theorem yields_goReceiver {func : Func} {home : FuncHome} {receiver : String}
    (h : (goReceiver func home).Yields c receiver) :
    receiver = "" ∨ ∃ own, receiver = "(" ++ own ++ ") " := by
  unfold goReceiver at h
  split at h
  · rename_i id
    obtain ⟨type, _, h⟩ := yields_bind.mp h
    have h := yields_context_bind.mp h
    have heq := yields_pure.mp h
    subst heq
    let receiver := func.receiver.getD (implicitReceiver (c.tree.type id).name)
    exact .inr ⟨receiver ++ " *" ++ type, by simp only [receiver, String.append_assoc]⟩
  · exact .inl (yields_pure.mp h).symm

/-- **A func** is a block under its comment. -/
theorem yields_goFunc {id : FuncId} (h : (goFunc registry id).Yields c script) :
    let func := c.tree.func id
    let name := goName func.name func.visibility
    ∃ receiver doc signature body,
      (goReceiver func (c.tree.funcHome id)).Yields c receiver ∧
      (funcComment func name (c.tree.funcPath id)).Yields c doc ∧
      (goSignature func (c.tree.funcPath id)).Yields c signature ∧
      (bodyScript registry func (c.tree.funcPath id)).Yields c body ∧
      script = goFuncComment doc ++
        ([.line ("func " ++ receiver ++ name ++ signature ++ " \x7b"), .indent] ++ body ++
          [.dedent, .line "\x7d"]) := by
  unfold goFunc at h
  obtain ⟨receiver, hreceiver, h⟩ := yields_bind.mp (yields_context_bind.mp h)
  obtain ⟨doc, hdoc, h⟩ := yields_bind.mp h
  obtain ⟨signature, hsignature, h⟩ := yields_bind.mp h
  obtain ⟨body, hbody, h⟩ := yields_bind.mp h
  have heq := yields_pure.mp h
  subst heq
  refine ⟨receiver, doc, signature, body, hreceiver, hdoc, hsignature, hbody, ?_⟩
  simp only [List.append_assoc]

/-- A signature in an interface is a line under its comment. -/
theorem yields_goInterfaceMethod {id : FuncId} (h : (goInterfaceMethod id).Yields c script) :
    let func := c.tree.func id
    let name := goName func.name func.visibility
    ∃ doc rest, (funcComment func name (c.tree.funcPath id)).Yields c doc ∧
      script = goFuncComment doc ++ [.line (name ++ "(" ++ rest)] := by
  unfold goInterfaceMethod at h
  obtain ⟨doc, hdoc, h⟩ := yields_bind.mp (yields_context_bind.mp h)
  obtain ⟨signature, hsignature, h⟩ := yields_bind.mp h
  have heq := yields_pure.mp h
  subst heq
  obtain ⟨rest, rfl⟩ := opens_goSignature hsignature
  exact ⟨doc, rest, hdoc, by simp only [String.append_assoc]⟩

/-! ### Types -/

/-- The row of a field starts with its name and its type, and ends with its tag, if it has one. -/
theorem yields_goFieldRow {id : FieldId} {row : FieldRow} (h : (goFieldRow id).Yields c row) :
    let field := c.tree.field id
    let name := goName field.name field.visibility
    row.doc = Comment.lines name field.doc ∧
      ∃ type, row.cells = name :: type :: (goTag? field.markers).toList := by
  unfold goFieldRow at h
  obtain ⟨type, _, h⟩ := yields_bind.mp (yields_context_bind.mp h)
  have heq := yields_pure.mp h
  subst heq
  exact ⟨rfl, type, rfl⟩

/-- A struct is one line if it has no fields, and otherwise a block of them. -/
theorem yields_goStruct {type : TypeNode} {name : String}
    (h : (goStruct type name).Yields c script) :
    (type.fields = [] ∧ script = [.line ("type " ++ name ++ " struct\x7b\x7d")]) ∨
    ∃ rows, List.Forall₂ (fun id row => (goFieldRow id).Yields c row) type.fields rows ∧
      script = [.line ("type " ++ name ++ " struct \x7b"), .indent] ++ goFieldRows rows ++
        [.dedent, .line "\x7d"] := by
  unfold goStruct at h
  split at h
  · rename_i hempty
    exact .inl ⟨List.isEmpty_iff.mp hempty, (yields_pure.mp h).symm⟩
  · obtain ⟨rows, hrows, h⟩ := yields_bind.mp h
    exact .inr ⟨rows, yields_mapM.mp hrows, (yields_pure.mp h).symm⟩

/-- An interface is one line if it has no methods, and otherwise a block of signatures. -/
theorem yields_goInterface {type : TypeNode} {name : String}
    (h : (goInterface type name).Yields c script) :
    (type.methods = [] ∧ script = [.line ("type " ++ name ++ " interface\x7b\x7d")]) ∨
    ∃ methods,
      List.Forall₂ (fun id method => (goInterfaceMethod id).Yields c method) type.methods
        methods ∧
      script = [.line ("type " ++ name ++ " interface \x7b"), .indent] ++ methods.flatten ++
        [.dedent, .line "\x7d"] := by
  unfold goInterface at h
  split at h
  · rename_i hempty
    exact .inl ⟨List.isEmpty_iff.mp hempty, (yields_pure.mp h).symm⟩
  · obtain ⟨methods, hmethods, h⟩ := yields_bind.mp h
    exact .inr ⟨methods, yields_mapM.mp hmethods, (yields_pure.mp h).symm⟩

/-- **A type** stands under its comment, and the methods of a struct after it. -/
theorem yields_goTypeScript {id : TypeId} (h : (goTypeScript registry id).Yields c script) :
    let type := c.tree.type id
    let name := goName type.name type.visibility
    ∃ declaration methods,
      script = goComment (Comment.lines name type.doc) ++ declaration ++ methods.flatten ∧
      match type.kind with
      | .struct => (goStruct type name).Yields c declaration ∧
          Spaced c (goFunc registry) type.methods methods
      | .interface => (goInterface type name).Yields c declaration ∧ methods = [] := by
  unfold goTypeScript at h
  have h := yields_context_bind.mp h
  dsimp only at h ⊢
  generalize (c.tree.type id).kind = kind at h ⊢
  cases kind with
  | struct =>
    -- The fields, and then the methods below the type.
    obtain ⟨struct, hstruct, h⟩ := yields_bind.mp h
    obtain ⟨methods, hmethods, h⟩ := yields_bind.mp h
    have heq := yields_pure.mp h
    subst heq
    exact ⟨struct, methods, rfl, hstruct, yields_spaced hmethods⟩
  | interface =>
    -- All methods are in the type itself.
    obtain ⟨interface, hinterface, h⟩ := yields_bind.mp h
    have heq := yields_pure.mp h
    subst heq
    exact ⟨interface, [], (List.append_nil _).symm, hinterface, rfl⟩

/-! ### Files -/

/-- **The declarations of a file** are its types and then its funcs. -/
theorem yields_goScript {contents : FileContents}
    (h : (Dialect.go.plainScript registry contents).Yields c script) :
    ∃ types funcs, Spaced c (goTypeScript registry) contents.types types ∧
      Spaced c (goFunc registry) contents.funcs funcs ∧
      script = types.flatten ++ funcs.flatten :=
  yields_plainScript h

end DeclPrinter
