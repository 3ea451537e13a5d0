import DeclPrinter.Proofs.Writing.Failing

/-!
# Where files fail

A declaration is written at its own path, so a file fails inside one of its declarations
(`located_fileScript`): a field or a func at itself or, a func, in its body, and a type of a Java
file where it is called like the class around it.
-/

namespace DeclPrinter

open FileM

variable {c : FileContext} {places : TreePath → Prop} {registry : Registry}

/-! ### Go -/

theorem located_goSignature {place : TreePath} (h : places place) (func : Func) :
    Located c places (goSignature func place) := by
  unfold goSignature
  refine (Located.mapM fun param _ => (located_spellType h param.type).last).bind fun _ => ?_
  exact (located_plainResults h func).last

theorem located_goReceiver (func : Func) (home : FuncHome) :
    Located c places (goReceiver func home) := by
  cases home with
  | type id =>
    unfold goReceiver
    refine (located_spellDeclared id).bind fun _ => ?_
    exact Located.context (Located.pure _)
  | file id => exact Located.pure ""
  | package id => exact Located.pure ""

theorem located_goFunc (hregistry : registry.FailsInPlace) {id : FuncId}
    (h : Covers places (c.tree.funcPath id)) : Located c places (goFunc registry id) := by
  unfold goFunc
  apply Located.context
  refine (located_goReceiver _ _).bind fun _ => ?_
  refine (located_funcComment h.self _ _).bind fun _ => ?_
  refine (located_goSignature h.self _).bind fun _ => ?_
  exact (located_bodyScript hregistry _ h).last

theorem located_goFieldRow {id : FieldId} (h : places (c.tree.fieldPath id)) :
    Located c places (goFieldRow id) := by
  unfold goFieldRow
  apply Located.context
  exact (located_spellType h _).last

theorem located_goInterfaceMethod {id : FuncId} (h : places (c.tree.funcPath id)) :
    Located c places (goInterfaceMethod id) := by
  unfold goInterfaceMethod
  apply Located.context
  refine (located_funcComment h _ _).bind fun _ => ?_
  exact (located_goSignature h _).last

theorem located_goTypeScript (hregistry : registry.FailsInPlace) {id : TypeId}
    (h : CoversType places c.tree id) : Located c places (goTypeScript registry id) := by
  have hstruct (name : String) : Located c places (goStruct (c.tree.type id) name) := by
    unfold goStruct
    split
    · exact Located.pure _
    · exact (Located.mapM fun field hfield => located_goFieldRow (h.fields field hfield).self).last
  have hinterface (name : String) : Located c places (goInterface (c.tree.type id) name) := by
    unfold goInterface
    split
    · exact Located.pure _
    · refine (Located.mapM fun method hmethod => ?_).last
      exact located_goInterfaceMethod (h.methods method hmethod).self
  unfold goTypeScript
  apply Located.context
  dsimp only
  -- Fields and methods are listed by the type, also the methods that stand below a struct.
  split
  · refine (hstruct _).bind fun _ => ?_
    refine (Located.mapM fun method hmethod => ?_).last
    exact (located_goFunc hregistry (h.methods method hmethod)).last
  · exact (hinterface _).last

/-! ### Java -/

/-- A record whose name is taken is at fault where its func is. -/
theorem located_javaRecordOf {place : TreePath} (h : places place) (kind : MethodForm)
    (home : FuncHome) (func : String) (returns : Returned) :
    Located c places (javaRecordOf kind home place func returns) := by
  unfold javaRecordOf
  split
  · exact Located.pure []
  · apply Located.context
    split
    · exact Located.fail rfl h
    · exact Located.pure _

theorem located_javaReceiver (func : Func) (home : FuncHome) :
    Located c places (javaReceiver func home) := by
  unfold javaReceiver
  split
  · exact (located_spellDeclared _).last
  · exact Located.pure []

theorem located_javaMethod (hregistry : registry.FailsInPlace) (kind : MethodForm) {id : FuncId}
    (h : Covers places (c.tree.funcPath id)) :
    Located c places (javaMethod registry kind id) := by
  unfold javaMethod
  apply Located.context
  dsimp only
  refine (located_resultForm h.self _ _).bind fun _ => ?_
  refine (located_javaRecordOf h.self kind _ _ _).bind fun _ => ?_
  refine (located_funcComment h.self _ _).bind fun _ => ?_
  refine (Located.mapM fun param _ => (located_spellType h.self param.type).last).bind fun _ => ?_
  split
  · exact Located.pure _
  · refine (located_javaReceiver _ _).bind fun _ => ?_
    exact (located_bodyScript hregistry _ h).last

theorem located_javaFunc (hregistry : registry.FailsInPlace) {id : FuncId}
    (h : Covers places (c.tree.funcPath id)) : Located c places (javaFunc registry id) := by
  unfold javaFunc
  apply Located.context
  split
  · exact located_javaMethod hregistry _ h
  · exact located_javaMethod hregistry _ h

theorem located_javaField {id : FieldId} (h : places (c.tree.fieldPath id)) :
    Located c places (javaField id) := by
  unfold javaField
  apply Located.context
  exact (located_spellType h _).last

theorem located_javaTypeScript (hregistry : registry.FailsInPlace) {id : TypeId}
    (h : CoversType places c.tree id) : Located c places (javaTypeScript registry id) := by
  -- An interface has no fields of its own in Java.
  have hfields : javaFields (c.tree.type id) ⊆ (c.tree.type id).fields := by
    unfold javaFields
    split
    · exact List.Subset.refl _
    · exact List.nil_subset _
  have hmembers : Located c places (javaMembers registry (c.tree.type id)) := by
    unfold javaMembers
    refine (Located.mapM fun field hfield => ?_).bind fun _ => ?_
    · exact located_javaField (h.fields field (hfields hfield)).self
    · refine (Located.mapM fun method hmethod => ?_).last
      exact located_javaMethod hregistry _ (h.methods method hmethod)
  unfold javaTypeScript
  apply Located.context
  dsimp only
  split
  · exact Located.pure _
  · exact hmembers.last

/-- A type that is called like the class around it is at fault. -/
theorem located_checkWrapping {types : List TypeId}
    (h : ∀ id ∈ types, CoversType places c.tree id) (wrapper : String) :
    Located c places (checkWrapping wrapper types) := by
  unfold checkWrapping
  apply Located.context
  dsimp only
  split
  · rename_i id hid
    exact Located.fail rfl (h id (List.mem_of_find?_eq_some hid)).own.self
  · exact Located.pure ()

/-! ### Files -/

section

variable (h : CoversFile places c.tree c.contents.types c.contents.funcs)

include h

theorem located_javaScript (hregistry : registry.FailsInPlace) :
    Located c places (javaScript registry) := by
  have htype {id : TypeId} (hid : id ∈ c.contents.types) :
      Located c places (javaTypeScript registry id) :=
    located_javaTypeScript hregistry (h.types id hid)
  unfold javaScript
  apply Located.context
  dsimp only
  split
  · exact Located.pure []
  · rename_i id hid _
    exact (htype (hid ▸ List.mem_singleton_self id)).last
  · unfold javaWrapped
    refine (located_checkWrapping h.types _).bind fun _ => ?_
    refine (Located.mapM fun id hid => htype hid).bind fun _ => ?_
    exact (Located.mapM fun id hid => located_javaFunc hregistry (h.funcs id hid)).last

theorem located_plainScript (hregistry : registry.FailsInPlace) (dialect : Dialect) :
    Located c places (dialect.plainScript registry c.contents) := by
  have htype {id : TypeId} (hid : id ∈ c.contents.types) :
      Located c places (dialect.typeScript registry id) := by
    cases dialect with
    | go => exact located_goTypeScript hregistry (h.types id hid)
    | java => exact located_javaTypeScript hregistry (h.types id hid)
  have hfunc {id : FuncId} (hid : id ∈ c.contents.funcs) :
      Located c places (dialect.funcScript registry id) := by
    cases dialect with
    | go => exact located_goFunc hregistry (h.funcs id hid)
    | java => exact located_javaFunc hregistry (h.funcs id hid)
  unfold Dialect.plainScript
  refine (Located.mapM fun id hid => (htype hid).last).bind fun _ => ?_
  exact (Located.mapM fun id hid => (hfunc hid).last).last

/-- **A file fails inside one of its declarations.** -/
theorem located_fileScript (hregistry : registry.FailsInPlace) :
    Located c places (fileScript registry) := by
  unfold fileScript
  apply Located.context
  apply Located.last
  unfold declsScript
  apply Located.context
  split
  · exact located_javaScript h hregistry
  · exact located_plainScript h hregistry _

end

end DeclPrinter
