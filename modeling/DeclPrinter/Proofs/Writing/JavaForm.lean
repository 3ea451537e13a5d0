import DeclPrinter.Proofs.Writing.Nesting

/-!
# What Java declarations are made of

One lemma for each function that writes a Java declaration says all that it can yield: a method
is the record that it returns, a comment and the method itself (`yields_javaMethod`), a type is a
comment and a class with fields and methods in it (`yields_javaTypeScript`), and a file that is
not just one type is a class with types and methods in it (`yields_javaWrapped`). What is said
about Java files is said along these.

So Java declarations, too, end at the level at which they start.
-/

namespace DeclPrinter

open FileM

variable {c : FileContext} {registry : Registry} {script : Script}

/-! ### Records -/

/-- The name of the record that a func returns, if it returns one. -/
def javaRecordName? (func : Func) : Option String :=
  if 2 ≤ (ExceptionStyle.values func).1.length then
    some (ExceptionStyle.standard.recordName func.name)
  else none

/-- What stands above a func: the record of this name, which is free there, or nothing. -/
inductive RecordAbove (c : FileContext) (kind : MethodForm) (home : FuncHome) :
    Option String → Script → Prop where
  | nothing : RecordAbove c kind home none []
  | record {name : String} (components : List (String × String))
      (hfree : name ∉ takenClasses c home) :
      RecordAbove c kind home (some name) (javaRecord kind name components)

/-- Several values are returned in a record. -/
theorem yields_returned {convention : ExceptionStyle} {func : String} {place : TreePath}
    {results : List Param} {returned : Returned}
    (h : (convention.returned func place results).Yields c returned) :
    (javaRecord? func returned).map Prod.fst =
      if 2 ≤ results.length then some (convention.recordName func) else none := by
  unfold ExceptionStyle.returned at h
  split at h
  · have heq := yields_pure.mp h
    subst heq
    rfl
  · obtain ⟨type, _, h⟩ := yields_bind.mp h
    have heq := yields_pure.mp h
    subst heq
    rfl
  · rename_i hnone hone
    obtain ⟨components, _, h⟩ := yields_bind.mp h
    have heq := yields_pure.mp h
    subst heq
    -- Neither no result nor a single one, so at least two.
    have hseveral : 2 ≤ results.length := by
      match results, hnone, hone with
      | [], hnone, _ => exact absurd rfl hnone
      | [result], _, hone => exact absurd rfl (hone result)
      | _ :: _ :: rest, _, _ => simp
    rw [if_pos hseveral]
    rfl

theorem yields_resultForm {func : Func} {place : TreePath} {results : ResultForm}
    (h : (ExceptionStyle.standard.resultForm func place).Yields c results) :
    (javaRecord? func.name results.returned).map Prod.fst = javaRecordName? func := by
  unfold ExceptionStyle.resultForm at h
  obtain ⟨returned, hreturned, h⟩ := yields_bind.mp h
  have heq := yields_pure.mp h
  subst heq
  exact yields_returned hreturned

theorem yields_javaRecordOf {kind : MethodForm} {home : FuncHome} {place : TreePath}
    {func : String} {returns : Returned}
    (h : (javaRecordOf kind home place func returns).Yields c script) :
    RecordAbove c kind home ((javaRecord? func returns).map Prod.fst) script := by
  unfold javaRecordOf at h
  split at h
  · -- Without a record nothing is written above the method.
    rename_i hnone
    have heq := yields_pure.mp h
    subst heq
    rw [hnone]
    exact .nothing
  · rename_i name components hsome
    have h := yields_context_bind.mp h
    split at h
    · exact absurd h not_yields_fail
    · -- Written only where no class around has its name.
      rename_i hfree
      have heq := yields_pure.mp h
      subst heq
      rw [hsome]
      exact .record components (by simpa using hfree)

/-! ### Methods -/

/-- A method, given what its first line says: that line alone, or a body below it. -/
inductive MethodBlock (head : String) : Script → Prop where
  | signature : MethodBlock head [.line (head ++ ";")]
  | body {inner : Script} (h : WellNested inner) :
      MethodBlock head ([.line (head ++ " \x7b"), .indent] ++ inner ++ [.dedent, .line "\x7d"])

theorem wellNested_javaReceiver {func : Func} {home : FuncHome}
    (h : (javaReceiver func home).Yields c script) : WellNested script := by
  unfold javaReceiver at h
  split at h
  · obtain ⟨text, _, hline⟩ := yields_bind.mp h
    have heq := yields_pure.mp hline
    subst heq
    exact .line _
  · have heq := yields_pure.mp h
    subst heq
    exact .nil

/-- A parameter as it stands in a Java method when its type is spelled like this. -/
def javaParamText (param : Param × String) : String :=
  param.2 ++ " " ++ param.1.name

theorem yields_javaParams_iff {params : List Param} {place : TreePath} {texts : List String} :
    (params.mapM (javaParam place)).Yields c texts ↔
      ∃ typed, SpelledResults c place params typed ∧ texts = typed.map javaParamText := by
  refine yields_mapM_spelled_iff fun param text => ?_
  unfold javaParam javaParamText
  simp only [yields_bind, yields_pure, eq_comm]

/-- **A method with a body** has its parameters on its first line, each after its type, and binds
its receiver before its statements. -/
theorem exists_block_of_javaMethod {kind : MethodForm} {id : FuncId} (hkind : kind ≠ .ofInterface)
    (h : (javaMethod registry kind id).Yields c script) :
    let func := c.tree.func id
    ∃ above returns params throws receiver body,
      SpelledResults c (c.tree.funcPath id) func.params params ∧
      (javaReceiver func (c.tree.funcHome id)).Yields c receiver ∧
      (bodyScript registry func (c.tree.funcPath id)).Yields c body ∧
      script = above ++ [.line (returns ++ " " ++ Text.uncapitalize func.name ++ "(" ++
        ", ".intercalate (params.map javaParamText) ++ ")" ++ throws ++ " \x7b"), .indent] ++
        receiver ++ body ++ [.dedent, .line "\x7d"] := by
  unfold javaMethod at h
  obtain ⟨_, _, h⟩ := yields_bind.mp (yields_context_bind.mp h)
  obtain ⟨_, _, h⟩ := yields_bind.mp h
  obtain ⟨_, _, h⟩ := yields_bind.mp h
  obtain ⟨texts, htexts, h⟩ := yields_bind.mp h
  obtain ⟨params, hparams, rfl⟩ := yields_javaParams_iff.mp htexts
  dsimp only at h
  rw [if_neg hkind] at h
  obtain ⟨receiver, hreceiver, h⟩ := yields_bind.mp h
  obtain ⟨body, hbody, h⟩ := yields_bind.mp h
  exact ⟨_, _, params, _, receiver, body, hparams, hreceiver, hbody, (yields_pure.mp h).symm⟩

/-- **A method** stands below the record that it returns and its comment, and its name stands
between what it returns and its parameters. -/
theorem yields_javaMethod {kind : MethodForm} {id : FuncId}
    (h : (javaMethod registry kind id).Yields c script) :
    let func := c.tree.func id
    let name := Text.uncapitalize func.name
    ∃ record doc returns params body,
      script = record ++ docComment (funcCommentLines doc) ++ body ∧
      RecordAbove c kind (c.tree.funcHome id) (javaRecordName? func) record ∧
      (funcComment func name (c.tree.funcPath id)).Yields c doc ∧
      MethodBlock (returns ++ " " ++ name ++ "(" ++ params) body := by
  unfold javaMethod at h
  obtain ⟨results, hresults, h⟩ := yields_bind.mp (yields_context_bind.mp h)
  obtain ⟨record, hrecord, h⟩ := yields_bind.mp h
  obtain ⟨doc, hdoc, h⟩ := yields_bind.mp h
  obtain ⟨params, _, h⟩ := yields_bind.mp h
  have hrecord := yields_javaRecordOf hrecord
  rw [yields_resultForm hresults] at hrecord
  let func := c.tree.func id
  let returns := methodModifiers func.visibility kind ++ javaReturnType func.name results.returned
  let throws := (results.throws.map (" throws " ++ ·)).getD ""
  -- Behind the name stand the parameters, and then what is thrown.
  have hhead : returns ++ " " ++ Text.uncapitalize func.name ++ "(" ++ ", ".intercalate params ++
      ")" ++ throws = returns ++ " " ++ Text.uncapitalize func.name ++ "(" ++
        (", ".intercalate params ++ ")" ++ throws) := by simp only [String.append_assoc]
  refine ⟨record, doc, returns, ", ".intercalate params ++ ")" ++ throws, ?_⟩
  rw [← hhead]
  dsimp only at h
  split at h
  · have heq := yields_pure.mp h
    subst heq
    exact ⟨_, rfl, hrecord, hdoc, .signature⟩
  · obtain ⟨receiver, hreceiver, h⟩ := yields_bind.mp h
    obtain ⟨body, hbody, h⟩ := yields_bind.mp h
    have heq := yields_pure.mp h
    subst heq
    have hinner := (wellNested_javaReceiver hreceiver).join (wellNested_bodyScript hbody)
    exact ⟨_, by simp [func, returns, throws], hrecord, hdoc, .body hinner⟩

theorem MethodBlock.wellNested {head : String} (h : MethodBlock head script) :
    WellNested script := by
  cases h with
  | signature => exact .line _
  | body hinner => exact hinner.block _ _

theorem RecordAbove.wellNested {kind : MethodForm} {home : FuncHome} {name : Option String}
    (h : RecordAbove c kind home name script) : WellNested script := by
  cases h with
  | nothing => exact .nil
  | record components _ => exact (WellNested.line _).join .blank

theorem wellNested_javaMethod {kind : MethodForm} {id : FuncId}
    (h : (javaMethod registry kind id).Yields c script) : WellNested script := by
  obtain ⟨record, doc, _, _, body, rfl, hrecord, _, hbody⟩ := yields_javaMethod h
  exact (hrecord.wellNested.join (wellNested_docComment _)).join hbody.wellNested

/-- A func is written as a method. -/
theorem yields_javaFunc {id : FuncId} (h : (javaFunc registry id).Yields c script) :
    ∃ kind, (javaMethod registry kind id).Yields c script := by
  unfold javaFunc at h
  have h := yields_context_bind.mp h
  split at h
  · exact ⟨_, h⟩
  · exact ⟨_, h⟩

theorem wellNested_javaFunc {id : FuncId} (h : (javaFunc registry id).Yields c script) :
    WellNested script := by
  obtain ⟨_, hmethod⟩ := yields_javaFunc h
  exact wellNested_javaMethod hmethod

/-! ### Types -/

/-- A field is a line that ends in its name, below its comment. -/
theorem yields_javaField {id : FieldId} (h : (javaField id).Yields c script) :
    let field := c.tree.field id
    let name := Text.uncapitalize field.name
    ∃ type, script = docComment (Comment.lines name field.doc) ++
      [.line (accessModifier field.visibility false ++ type ++ " " ++ name ++ ";")] := by
  unfold javaField at h
  obtain ⟨type, _, h⟩ := yields_bind.mp (yields_context_bind.mp h)
  have heq := yields_pure.mp h
  subst heq
  exact ⟨type, rfl⟩

/-- The members of a type are its fields and its methods, with blank lines between. -/
theorem yields_javaMembers {type : TypeNode}
    (h : (javaMembers registry type).Yields c script) :
    ∃ fields methods between,
      List.Forall₂ (fun id field => (javaField id).Yields c field) (javaFields type) fields ∧
      List.Forall₂ (fun id method => (javaMethod registry (javaMethodForm type) id).Yields c method)
        type.methods methods ∧
      (between = [] ∨ between = [.blank]) ∧
      script = fields.flatten ++ between ++ separated methods := by
  unfold javaMembers at h
  obtain ⟨fields, hfields, h⟩ := yields_bind.mp h
  obtain ⟨methods, hmethods, h⟩ := yields_bind.mp h
  have heq := yields_pure.mp h
  subst heq
  refine ⟨fields, methods, _, yields_mapM.mp hfields, yields_mapM.mp hmethods, ?_, rfl⟩
  -- A blank line stands between if there are both fields and methods.
  split
  · exact .inl rfl
  · exact .inr rfl

theorem wellNested_javaMembers {type : TypeNode}
    (h : (javaMembers registry type).Yields c script) : WellNested script := by
  obtain ⟨fields, methods, between, hfields, hmethods, hbetween, rfl⟩ := yields_javaMembers h
  have hallFields : ∀ field ∈ fields, WellNested field := by
    intro field hfield
    obtain ⟨id, _, hid⟩ := exists_of_mem_of_forall₂ hfields field hfield
    obtain ⟨text, rfl⟩ := yields_javaField hid
    exact (wellNested_docComment _).join (.line _)
  have hallMethods : ∀ method ∈ methods, WellNested method := by
    intro method hmethod
    obtain ⟨id, _, hid⟩ := exists_of_mem_of_forall₂ hmethods method hmethod
    exact wellNested_javaMethod hid
  have hbetween : WellNested between := by
    rcases hbetween with rfl | rfl
    · exact .nil
    · exact .blank
  exact ((WellNested.flatten hallFields).join hbetween).join (wellNested_separated hallMethods)

/-- What the declaration of a Java type says of it. -/
def javaTypeHead (type : TypeNode) (topLevel : Bool) : String :=
  let keyword := match type.kind with
    | .struct => "class"
    | .interface => "interface"
  accessModifier type.visibility topLevel ++ (if topLevel then "" else "static ") ++
    keyword ++ " " ++ Dialect.java.nameOfType type

/-- A class, given what its first line says: empty on that line, or what is in it between that
line and the brace that closes it. -/
inductive ClassOf (head : String) : Option Script → Script → Prop where
  | empty : ClassOf head none [.line (head ++ " \x7b\x7d")]
  | body (inner : Script) :
      ClassOf head (some inner)
        ([.line (head ++ " \x7b"), .indent] ++ inner ++ [.dedent, .line "\x7d"])

/-- **A type** is a class below its comment, with its members in it if it has any. -/
theorem yields_javaTypeScript {id : TypeId} (h : (javaTypeScript registry id).Yields c script) :
    let type := c.tree.type id
    ∃ members body,
      script = docComment (Comment.lines (Dialect.java.nameOfType type) type.doc) ++ body ∧
      ClassOf (javaTypeHead type (standsAlone c.contents.types c.contents.funcs)) members body ∧
      match members with
      | none => javaFields type = [] ∧ type.methods = []
      | some inner => (javaMembers registry type).Yields c inner := by
  intro type
  unfold javaTypeScript at h
  have h := yields_context_bind.mp h
  dsimp only at h
  split at h
  · -- A type without members is on one line.
    rename_i hnone
    have heq := yields_pure.mp h
    subst heq
    rw [Bool.and_eq_true, List.isEmpty_iff, List.isEmpty_iff] at hnone
    exact ⟨none, _, rfl, .empty, hnone⟩
  · obtain ⟨members, hmembers, h⟩ := yields_bind.mp h
    have heq := yields_pure.mp h
    subst heq
    refine ⟨some members, _, ?_, .body members, hmembers⟩
    simp only [List.append_assoc]
    rfl

/-! ### Files -/

/-- **A file that is not just one type** is a class with its types and then its funcs in it, none
of the types being called like the class. -/
theorem yields_javaWrapped {contents : FileContents}
    (h : (javaWrapped registry contents).Yields c script) :
    ∃ types funcs,
      List.Forall₂ (fun id type => (javaTypeScript registry id).Yields c type)
        contents.types types ∧
      List.Forall₂ (fun id func => (javaFunc registry id).Yields c func) contents.funcs funcs ∧
      (∀ id ∈ contents.types,
        Dialect.java.nameOfType (c.tree.type id) ≠ wrappingClass contents.name) ∧
      script = [.blank, .line ("public final class " ++ wrappingClass contents.name ++ " \x7b"),
        .indent] ++ separated (types ++ funcs) ++ [.dedent, .line "\x7d"] := by
  unfold javaWrapped at h
  dsimp only at h
  obtain ⟨_, hcheck, h⟩ := yields_bind.mp h
  obtain ⟨types, htypes, h⟩ := yields_bind.mp h
  obtain ⟨funcs, hfuncs, h⟩ := yields_bind.mp h
  have heq := yields_pure.mp h
  subst heq
  refine ⟨types, funcs, yields_mapM.mp htypes, yields_mapM.mp hfuncs, ?_, rfl⟩
  -- A type called like the class would have been found by the check.
  intro id hid hsame
  unfold checkWrapping at hcheck
  have hcheck := yields_context_bind.mp hcheck
  dsimp only at hcheck
  split at hcheck
  · exact absurd hcheck not_yields_fail
  · rename_i hnone
    have hother := List.find?_eq_none.mp hnone id hid
    exact hother (beq_iff_eq.mpr hsame)

theorem standsAlone_iff {types : List TypeId} {funcs : List FuncId} :
    standsAlone types funcs = true ↔ ∃ type, types = [type] ∧ funcs = [] := by
  rw [standsAlone, Bool.and_eq_true, beq_iff_eq, List.isEmpty_iff, List.length_eq_one_iff]
  simp

/-- A Java file is empty, its one type, or a class that holds its declarations. -/
theorem yields_javaScript (h : (javaScript registry).Yields c script) :
    (c.contents.types = [] ∧ c.contents.funcs = [] ∧ script = []) ∨
    (∃ id own, c.contents.types = [id] ∧ c.contents.funcs = [] ∧
      (javaTypeScript registry id).Yields c own ∧ script = .blank :: own) ∨
    (standsAlone c.contents.types c.contents.funcs = false ∧
      (c.contents.types.isEmpty && c.contents.funcs.isEmpty) = false ∧
      (javaWrapped registry c.contents).Yields c script) := by
  unfold javaScript at h
  have h := yields_context_bind.mp h
  dsimp only at h
  split at h
  · -- Nothing is declared.
    rename_i htypes hfuncs
    exact .inl ⟨htypes, hfuncs, (yields_pure.mp h).symm⟩
  · -- One type alone.
    rename_i id htypes hfuncs
    obtain ⟨own, hown, h⟩ := yields_bind.mp h
    exact .inr (.inl ⟨id, own, htypes, hfuncs, hown, (yields_pure.mp h).symm⟩)
  · -- Anything else is put into a class.
    rename_i hnone hone
    refine .inr (.inr ⟨?_, ?_, h⟩)
    · rw [Bool.eq_false_iff]
      intro halone
      obtain ⟨id, htypes, hfuncs⟩ := standsAlone_iff.mp halone
      exact hone id htypes hfuncs
    · rw [Bool.eq_false_iff, ne_eq, Bool.and_eq_true, List.isEmpty_iff, List.isEmpty_iff]
      exact fun hempty => hnone hempty.1 hempty.2

end DeclPrinter
