import DeclPrinter.Proofs.Writing.Rewriting

/-!
# Files in other trees

The declarations of a file are written the same in every tree that has in common what the file
declares, but for its bodies. What is written for these may differ within a tolerance, and then so
may the file as a whole (`agree_fileScript`). With the same bodies they are the same
(`same_declsScript`). A declaration is looked up only where a node of the part lists it or records
it as its home, so it is the same node in both trees.
-/

namespace DeclPrinter

open FileM

@[simp]
theorem FileContext.inTree_tree (c : FileContext) (tree : DeclTree) (frame : Frame) :
    (c.inTree tree frame).tree = tree :=
  rfl

variable {c : FileContext} {other : DeclTree} {frame : Frame} {part : TreeNode → Prop}
  {registry : Registry}

/-- The body that the func has in the other tree comes to the same there, within the tolerance. -/
def Tolerance.BodyInTree (t : Tolerance) (registry : Registry) (c : FileContext) (other : DeclTree)
    (frame : Frame) (id : FuncId) : Prop :=
  t.Agree c (c.inTree other frame) (bodyScript registry (c.tree.func id) (c.tree.funcPath id))
    (bodyScript registry (other.func id) (c.tree.funcPath id))

section

variable (h : c.SharesDeclarations part other)

include h

/-! ### Funcs in the other tree -/

theorem goReceiver_inTree {id : FuncId} (hid : part (.func id)) :
    goReceiver (other.func id) = goReceiver (c.tree.func id) :=
  Func.eq_of_hollow (fun _ => rfl) _ _ (h.alike.func hid)

theorem funcComment_inTree {id : FuncId} (hid : part (.func id)) :
    funcComment (other.func id) = funcComment (c.tree.func id) :=
  Func.eq_of_hollow (fun func => funext₂ fun subject place => funcComment_hollow func place subject)
    _ _ (h.alike.func hid)

theorem goSignature_inTree {id : FuncId} (hid : part (.func id)) :
    goSignature (other.func id) = goSignature (c.tree.func id) :=
  Func.eq_of_hollow (fun func => funext (goSignature_hollow func)) _ _ (h.alike.func hid)

theorem resultForm_inTree {id : FuncId} (hid : part (.func id)) (convention : ExceptionStyle) :
    convention.resultForm (other.func id) = convention.resultForm (c.tree.func id) :=
  Func.eq_of_hollow (fun func => funext fun place => resultForm_hollow func place convention)
    _ _ (h.alike.func hid)

theorem mapM_javaParam_inTree {id : FuncId} (hid : part (.func id)) (place : TreePath) :
    (other.func id).params.mapM (javaParam place) =
      (c.tree.func id).params.mapM (javaParam place) :=
  Func.eq_of_hollow (f := fun func => func.params.mapM (javaParam place))
    (mapM_javaParam_hollow · place) _ _ (h.alike.func hid)

theorem javaReceiver_inTree {id : FuncId} (hid : part (.func id)) :
    javaReceiver (other.func id) = javaReceiver (c.tree.func id) :=
  Func.eq_of_hollow (fun _ => rfl) _ _ (h.alike.func hid)

/-! ### Types, comments and results -/

theorem same_spellType (type : TypeExpr) (place : TreePath) :
    Same c other frame (spellType type place) :=
  .of_agree (agree_spellType ⟨part, other, frame, h, rfl⟩ (.refl .none place) type)

theorem same_funcComment (func : Func) (subject : String) (place : TreePath) :
    Same c other frame (funcComment func subject place) := by
  unfold funcComment
  apply Same.last
  apply Same.mapM
  intro result _
  unfold resultComment?
  split
  · exact Same.pure none
  · split
    · exact (same_spellType h result.type place).last
    · exact Same.pure _

theorem same_plainResults (func : Func) (place : TreePath) :
    Same c other frame (plainResults func place) := by
  unfold plainResults
  apply Same.last
  apply Same.mapM
  intro result _
  exact (same_spellType h result.type place).last

theorem same_resultForm (convention : ExceptionStyle) (func : Func) (place : TreePath) :
    Same c other frame (convention.resultForm func place) := by
  unfold ExceptionStyle.resultForm
  apply Same.last
  unfold ExceptionStyle.returned
  split
  · exact Same.pure _
  · exact (same_spellType h _ place).last
  · apply Same.last
    apply Same.mapM
    intro result _
    exact (same_spellType h result.1.type place).last

/-! ### Go -/

theorem same_goSignature (func : Func) (place : TreePath) :
    Same c other frame (goSignature func place) := by
  unfold goSignature
  apply Same.bind
  · apply Same.mapM
    intro param _
    exact (same_spellType h param.type place).last
  · intro _ _
    exact (same_plainResults h func place).last

theorem same_goReceiver (func : Func) {home : FuncHome} (hhome : part home.node) :
    Same c other frame (goReceiver func home) := by
  -- Only the receiver of a method asks the tree, and it asks for the type of the method.
  cases home with
  | type id =>
    unfold goReceiver
    apply (same_spellDeclared h hhome).bind
    intro _ _
    apply Same.context
    · unfold FileContext.inTree
      dsimp only
      rw [h.alike.type hhome]
    · exact Same.pure _
  | file id => exact Same.pure ""
  | package id => exact Same.pure ""

theorem agree_goFunc (t : Tolerance) {id : FuncId} (hid : part (.func id))
    (hbody : t.BodyInTree registry c other frame id) :
    t.Agree c (c.inTree other frame) (goFunc registry id) (goFunc registry id) := by
  unfold goFunc
  apply Agree.context
  rw [FileContext.inTree_tree]
  dsimp only
  -- What is around the body is told by parts of the func that both trees have in common.
  rw [h.alike.func_name hid, h.alike.func_visibility hid, h.alike.funcHome hid,
    h.alike.funcPath h.closed hid, goReceiver_inTree h hid, funcComment_inTree h hid,
    goSignature_inTree h hid]
  apply (same_goReceiver h _ (h.closed.home_of_func hid)).bindAgree t.failures_equiv
  intro _ _
  apply (same_funcComment h _ _ _).bindAgree t.failures_equiv
  intro _ _
  apply (same_goSignature h _ _).bindAgree t.failures_equiv
  intro _ _
  exact hbody.last fun _ _ hscripts => t.scripts_between _ _ hscripts

/-- With the same metadata a field has the same tag. -/
theorem same_goFieldRow {id : FieldId} (hid : part (.field id))
    (htag : (other.field id).markers = (c.tree.field id).markers) :
    Same c other frame (goFieldRow id) := by
  have hfield : other.field id = c.tree.field id :=
    Field.ext_of_unmarked (h.alike.field hid) htag
  unfold goFieldRow
  apply Same.context
  · unfold FileContext.inTree
    dsimp only
    rw [hfield, h.alike.fieldPath h.closed hid]
  · exact (same_spellType h _ _).last

theorem same_goStruct (hgo : c.language.dialect = .go) {id : TypeId}
    (hid : id ∈ c.contents.types) (name : String) :
    Same c other frame (goStruct (c.tree.type id) name) := by
  unfold goStruct
  split
  · exact Same.pure _
  · apply Same.last
    apply Same.mapM
    intro field hfield
    exact same_goFieldRow h (h.closed.field_of_type (h.types id hid) hfield)
      (h.tags hgo id hid field hfield)

theorem same_goInterfaceMethod {id : FuncId} (hid : part (.func id)) :
    Same c other frame (goInterfaceMethod id) := by
  unfold goInterfaceMethod
  apply Same.context
  · rw [FileContext.inTree_tree]
    dsimp only
    rw [h.alike.func_name hid, h.alike.func_visibility hid, h.alike.funcPath h.closed hid,
      funcComment_inTree h hid, goSignature_inTree h hid]
  · apply (same_funcComment h _ _ _).bind
    intro _ _
    exact (same_goSignature h _ _).last

theorem same_goInterface {id : TypeId} (hid : part (.type id)) (name : String) :
    Same c other frame (goInterface (c.tree.type id) name) := by
  unfold goInterface
  split
  · exact Same.pure _
  · apply Same.last
    apply Same.mapM
    intro method hmethod
    exact same_goInterfaceMethod h (h.closed.func_of_type hid hmethod)

theorem agree_goTypeScript (t : Tolerance) (hgo : c.language.dialect = .go)
    (hbodies : ∀ id, c.contents.HasBody c.tree id → t.BodyInTree registry c other frame id)
    {id : TypeId} (hid : id ∈ c.contents.types) :
    t.Agree c (c.inTree other frame) (goTypeScript registry id) (goTypeScript registry id) := by
  have hpart := h.types id hid
  unfold goTypeScript
  apply Agree.context
  rw [FileContext.inTree_tree, h.alike.type hpart]
  dsimp only
  split
  · -- The struct itself is written alike in both. Its methods agree, as their bodies do.
    rename_i hkind
    apply (same_goStruct h hgo hid _).bindAgree t.failures_equiv
    intro _ _
    refine (Agree.mapM_self fun method hmethod => ?_).last fun _ _ hmethods =>
      t.scripts_below _ (t.scripts_flatten hmethods)
    have hbody := hbodies method (.inr ⟨id, hid, hkind, hmethod⟩)
    exact (agree_goFunc h t (h.closed.func_of_type hpart hmethod) hbody).last
      fun _ _ => t.scripts_below [.blank]
  · apply (same_goInterface h hpart _).bindAgree t.failures_equiv
    intro _ _
    exact Agree.pure (t.scripts_refl _)

/-! ### Java -/

/-- The classes around a func are those of types in the part. -/
theorem takenClasses_inTree {home : FuncHome} (hhome : part home.node) :
    takenClasses (c.inTree other frame) home = takenClasses c home := by
  have htypes : c.contents.types.map (fun id => Dialect.java.nameOfType (other.type id)) =
      c.contents.types.map fun id => Dialect.java.nameOfType (c.tree.type id) := by
    apply List.map_congr_left
    intro id hid
    rw [h.alike.type (h.types id hid)]
  unfold takenClasses FileContext.inTree
  dsimp only
  -- The class around a method is its type; around other funcs stand all types of the file.
  cases home with
  | type id =>
    dsimp only
    rw [h.alike.type hhome]
  | file id => exact congrArg _ htypes
  | package id => exact congrArg _ htypes

theorem same_javaRecordOf (kind : MethodForm) {home : FuncHome} (hhome : part home.node)
    (place : TreePath) (func : String) (returns : Returned) :
    Same c other frame (javaRecordOf kind home place func returns) := by
  unfold javaRecordOf
  split
  · exact Same.pure []
  · apply Same.context
    · rw [takenClasses_inTree h hhome]
    · split
      · exact Same.fail _
      · exact Same.pure _

theorem same_javaReceiver (func : Func) {home : FuncHome} (hhome : part home.node) :
    Same c other frame (javaReceiver func home) := by
  unfold javaReceiver
  split
  · exact (same_spellDeclared h hhome).last
  · exact Same.pure []

theorem agree_javaMethod (t : Tolerance) (kind : MethodForm) {id : FuncId} (hid : part (.func id))
    (hbody : kind ≠ .ofInterface → t.BodyInTree registry c other frame id) :
    t.Agree c (c.inTree other frame) (javaMethod registry kind id)
      (javaMethod registry kind id) := by
  have hhome := h.closed.home_of_func hid
  unfold javaMethod
  apply Agree.context
  rw [FileContext.inTree_tree]
  dsimp only
  -- What is around the body is told by parts of the func that both trees have in common.
  rw [h.alike.func_name hid, h.alike.func_visibility hid, h.alike.funcHome hid,
    h.alike.funcPath h.closed hid, resultForm_inTree h hid, funcComment_inTree h hid,
    mapM_javaParam_inTree h hid, javaReceiver_inTree h hid]
  apply (same_resultForm h _ _ _).bindAgree t.failures_equiv
  intro _ _
  apply (same_javaRecordOf h kind hhome _ _ _).bindAgree t.failures_equiv
  intro _ _
  apply (same_funcComment h _ _ _).bindAgree t.failures_equiv
  intro _ _
  apply Same.bindAgree _ t.failures_equiv
  · intro _ _
    split
    · exact Agree.pure (t.scripts_refl _)
    · rename_i hkind
      apply (same_javaReceiver h _ hhome).bindAgree t.failures_equiv
      intro _ _
      exact (hbody hkind).last fun _ _ hscripts => t.scripts_between _ _ hscripts
  · apply Same.mapM
    intro param _
    exact (same_spellType h param.type _).last

theorem agree_javaFunc (t : Tolerance) {id : FuncId} (hid : part (.func id))
    (hbody : t.BodyInTree registry c other frame id) :
    t.Agree c (c.inTree other frame) (javaFunc registry id) (javaFunc registry id) := by
  unfold javaFunc
  apply Agree.context
  rw [FileContext.inTree_tree, h.alike.funcHome hid]
  split
  · exact agree_javaMethod h t _ hid fun _ => hbody
  · exact agree_javaMethod h t _ hid fun _ => hbody

theorem same_javaField {id : FieldId} (hid : part (.field id)) :
    Same c other frame (javaField id) := by
  unfold javaField
  apply Same.context
  · unfold FileContext.inTree
    dsimp only
    rw [h.alike.field_name hid, h.alike.field_type hid, h.alike.field_doc hid,
      h.alike.field_visibility hid, h.alike.fieldPath h.closed hid]
  · exact (same_spellType h _ _).last

theorem agree_javaMembers (t : Tolerance)
    (hbodies : ∀ id, c.contents.HasBody c.tree id → t.BodyInTree registry c other frame id)
    {id : TypeId} (hid : id ∈ c.contents.types) :
    t.Agree c (c.inTree other frame) (javaMembers registry (c.tree.type id))
      (javaMembers registry (c.tree.type id)) := by
  have hpart := h.types id hid
  have hfields : javaFields (c.tree.type id) ⊆ (c.tree.type id).fields := by
    unfold javaFields
    split
    · exact List.Subset.refl _
    · exact List.nil_subset _
  -- Only methods of structs have bodies.
  have hmethods : Agree t.failures (List.Forall₂ t.scripts) c (c.inTree other frame)
      ((c.tree.type id).methods.mapM (javaMethod registry (javaMethodForm (c.tree.type id))))
      ((c.tree.type id).methods.mapM (javaMethod registry (javaMethodForm (c.tree.type id)))) := by
    apply Agree.mapM_self
    intro method hmethod
    apply agree_javaMethod h t _ (h.closed.func_of_type hpart hmethod)
    intro hkind
    have hstruct : (c.tree.type id).kind = .struct := by
      unfold javaMethodForm at hkind
      split at hkind
      · assumption
      · exact absurd rfl hkind
    exact hbodies method (.inr ⟨id, hid, hstruct, hmethod⟩)
  unfold javaMembers
  apply Same.bindAgree _ t.failures_equiv
  · intro _ _
    apply hmethods.last
    intro first second hscripts
    have hempty : first.isEmpty = second.isEmpty := by
      cases hscripts with
      | nil => rfl
      | cons _ _ => rfl
    rw [hempty]
    exact t.scripts_below _ (t.scripts_separated hscripts)
  · apply Same.mapM
    intro field hfield
    exact same_javaField h (h.closed.field_of_type hpart (hfields hfield))

theorem agree_javaTypeScript (t : Tolerance)
    (hbodies : ∀ id, c.contents.HasBody c.tree id → t.BodyInTree registry c other frame id)
    {id : TypeId} (hid : id ∈ c.contents.types) :
    t.Agree c (c.inTree other frame) (javaTypeScript registry id)
      (javaTypeScript registry id) := by
  unfold javaTypeScript
  apply Agree.context
  rw [FileContext.inTree_tree, h.alike.type (h.types id hid)]
  dsimp only
  split
  · exact Agree.pure (t.scripts_refl _)
  · exact (agree_javaMembers h t hbodies hid).last fun _ _ hscripts =>
      t.scripts_between _ _ hscripts

/-- A type with the name of the wrapping class is one of the file's own. -/
theorem same_checkWrapping (wrapper : String) :
    Same c other frame (checkWrapping wrapper c.contents.types) := by
  -- The first type with the name of the wrapper is the same in both trees.
  have hfind : c.contents.types.find?
        (fun id => Dialect.java.nameOfType (other.type id) == wrapper) =
      c.contents.types.find? fun id => Dialect.java.nameOfType (c.tree.type id) == wrapper := by
    apply List.find?_congr
    intro id hid
    rw [h.alike.type (h.types id hid)]
  unfold checkWrapping
  apply Same.context
  · unfold FileContext.inTree
    dsimp only
    rw [hfind]
    split
    · rename_i id hid
      rw [h.alike.typePath h.closed (h.types id (List.mem_of_find?_eq_some hid))]
    · rfl
  · dsimp only
    split
    · exact Same.fail _
    · exact Same.pure ()

theorem agree_javaScript (t : Tolerance)
    (hbodies : ∀ id, c.contents.HasBody c.tree id → t.BodyInTree registry c other frame id) :
    t.Agree c (c.inTree other frame) (javaScript registry) (javaScript registry) := by
  have htype (id : TypeId) (hid : id ∈ c.contents.types) :
      t.Agree c (c.inTree other frame) (javaTypeScript registry id) (javaTypeScript registry id) :=
    agree_javaTypeScript h t hbodies hid
  have hfunc (id : FuncId) (hid : id ∈ c.contents.funcs) :
      t.Agree c (c.inTree other frame) (javaFunc registry id) (javaFunc registry id) :=
    agree_javaFunc h t (h.funcs id hid) (hbodies id (.inl hid))
  unfold javaScript
  apply Agree.contextSame (by rfl)
  dsimp only
  split
  · exact Agree.pure (t.scripts_refl _)
  · -- One type alone.
    rename_i id hid _
    exact (htype id (hid ▸ List.mem_singleton_self id)).last fun _ _ => t.scripts_below [.blank]
  · -- Types and funcs in a class, each alike.
    unfold javaWrapped
    apply (same_checkWrapping h _).bindAgree t.failures_equiv
    intro _ _
    apply (Agree.mapM_self htype).bind
    intro _ _ _ _ htypes
    apply (Agree.mapM_self hfunc).last
    intro _ _ hfuncs
    exact t.scripts_between _ _ (t.scripts_separated (List.rel_append htypes hfuncs))

/-! ### Files -/

theorem agree_plainScript (t : Tolerance) {dialect : Dialect}
    (hdialect : c.language.dialect = dialect)
    (hbodies : ∀ id, c.contents.HasBody c.tree id → t.BodyInTree registry c other frame id) :
    t.Agree c (c.inTree other frame) (dialect.plainScript registry c.contents)
      (dialect.plainScript registry c.contents) := by
  have htype (id : TypeId) (hid : id ∈ c.contents.types) :
      t.Agree c (c.inTree other frame) (dialect.typeScript registry id)
        (dialect.typeScript registry id) := by
    cases dialect with
    | go => exact agree_goTypeScript h t hdialect hbodies hid
    | java => exact agree_javaTypeScript h t hbodies hid
  have hfunc (id : FuncId) (hid : id ∈ c.contents.funcs) :
      t.Agree c (c.inTree other frame) (dialect.funcScript registry id)
        (dialect.funcScript registry id) := by
    cases dialect with
    | go => exact agree_goFunc h t (h.funcs id hid) (hbodies id (.inl hid))
    | java => exact agree_javaFunc h t (h.funcs id hid) (hbodies id (.inl hid))
  unfold Dialect.plainScript
  apply (Agree.mapM_self fun id hid => (htype id hid).last fun _ _ => t.scripts_below [.blank]).bind
  intro _ _ _ _ htypes
  apply (Agree.mapM_self fun id hid => (hfunc id hid).last fun _ _ => t.scripts_below [.blank]).last
  intro _ _ hfuncs
  exact t.scripts_append (t.scripts_flatten htypes) (t.scripts_flatten hfuncs)

/-- **The declarations of a file** come to the same in every tree that has in common what the file
declares, within the tolerance that there is for its bodies. -/
theorem agree_declsScript (t : Tolerance)
    (hbodies : ∀ id, c.contents.HasBody c.tree id → t.BodyInTree registry c other frame id) :
    t.Agree c (c.inTree other frame) (declsScript registry) (declsScript registry) := by
  unfold declsScript
  apply Agree.contextSame (by rfl)
  split
  · exact agree_javaScript h t hbodies
  · exact agree_plainScript h t rfl hbodies

/-- So does the file as a whole, under the same preamble. -/
theorem agree_fileScript (t : Tolerance)
    (hbodies : ∀ id, c.contents.HasBody c.tree id → t.BodyInTree registry c other frame id)
    (hpreamble : frame.preamble = c.contents.preamble) :
    t.Agree c (c.inTree other frame) (fileScript registry) (fileScript registry) := by
  have hdecls := agree_declsScript h t hbodies
  have htop : fileTop (c.inTree other frame) = fileTop c := by
    unfold fileTop FileContext.inTree
    dsimp only
    rw [hpreamble, h.alike.module h.module, h.alike.package h.package]
  unfold Tolerance.Agree Agree at hdecls ⊢
  rw [run_fileScript, run_fileScript, htop]
  exact ⟨hdecls.references_eq, hdecls.cancels_eq,
    hdecls.results.map fun _ _ => t.scripts_below (fileTop c)⟩

end

/-! ### The same bodies -/

/-- Bodies that come to the same in one file do so in both trees, since the built-in expanders look
at no body but their own. -/
theorem bodyInTree_of_agree {t : Tolerance} (h : c.SharesDeclarations part other)
    (hregistry : registry.BuiltIn) {id : FuncId}
    (hbody : t.Agree c c (bodyScript registry (c.tree.func id) (c.tree.funcPath id))
      (bodyScript registry (other.func id) (c.tree.funcPath id))) :
    t.BodyInTree registry c other frame id := by
  have hsame : Same c other frame (bodyScript registry (other.func id) (c.tree.funcPath id)) :=
    .of_agree (Tolerance.agree_bodyScript_self (t := .none) ⟨part, other, frame, h, rfl⟩ hregistry
      rfl rfl _)
  unfold Tolerance.BodyInTree Tolerance.Agree Agree
  rw [hsame]
  exact hbody

section

variable (h : c.RestsOn part other) (hregistry : registry.BuiltIn)

include h

/-- What has a body in the file is in the part. -/
theorem part_of_hasBody {id : FuncId} (hid : c.contents.HasBody c.tree id) : part (.func id) := by
  rcases hid with hid | ⟨type, htype, _, hid⟩
  · exact h.funcs id hid
  · exact h.closed.func_of_type (h.types type htype) hid

include hregistry

/-- A body that is the same in the other tree comes to the same there. -/
theorem bodyInTree_self (t : Tolerance) {id : FuncId} (hid : part (.func id)) :
    t.BodyInTree registry c other frame id :=
  bodyInTree_of_agree h.toSharesDeclarations hregistry
    (Tolerance.agree_bodyScript_self (.refl c) hregistry (h.alike.func hid) (h.bodies hid) _)

/-- **The declarations of a file** are written the same in every tree that has in common what the
file rests on. -/
theorem same_declsScript : Same c other frame (declsScript registry) := by
  have hbodies (id : FuncId) (hid : c.contents.HasBody c.tree id) :
      Tolerance.none.BodyInTree registry c other frame id :=
    bodyInTree_self h hregistry .none (part_of_hasBody h hid)
  exact .of_agree (agree_declsScript h.toSharesDeclarations .none hbodies)

end

end DeclPrinter
