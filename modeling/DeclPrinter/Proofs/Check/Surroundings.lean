import DeclPrinter.Proofs.Check.Docs
import DeclPrinter.Proofs.Tree.Part

/-!
# Checks in other trees

A check on a declaration looks at the declaration, at its members and, for the path in its failure,
at what these are in, but at no metadata, and of what is in bodies only at whether there is anything
in the body of an interface method. So in every tree that has these in common it passes, or fails
with the same failure (`Check.declarations_inTree`). The documentation of a package is told by
the package and its files alone (`Check.doc_inTree`).
-/

namespace DeclPrinter

namespace Check

variable {tree other : DeclTree} {part : TreeNode → Prop} {language : Language}
  (h : DeclTree.AlikeWithin part tree other) (hclosed : tree.Closed part)

include h hclosed

/-! ### Funcs -/

theorem receiver_inTree {id : FuncId} (hid : part (.func id)) :
    receiver other id = receiver tree id := by
  unfold receiver
  rw [h.func_receiver hid, h.funcHome hid, h.funcPath hclosed hid]

theorem bodyShape_inTree {id : FuncId} (hid : part (.func id)) :
    bodyShape other id = bodyShape tree id := by
  unfold bodyShape
  dsimp only
  rw [h.func_body_header hid, h.func_body_chained hid, h.funcPath hclosed hid]

theorem resultNames_inTree {id : FuncId} (hid : part (.func id)) :
    resultNames other id = resultNames tree id := by
  unfold resultNames
  rw [h.funcPath hclosed hid]
  have hfunc := h.func hid
  revert hfunc
  generalize other.func id = first, tree.func id = second
  revert first second
  refine Func.eq_of_hollow fun func => ?_
  dsimp only [Func.hollow, Func.unmarked]
  rw [List.any_map, List.any_map]
  rfl

omit h hclosed in
theorem signatureNames_hollow (func : Func) :
    signatureNames func.hollow = signatureNames func := by
  unfold signatureNames
  dsimp only [Func.hollow, Func.unmarked]
  rw [← List.map_append, List.map_map]
  rfl

omit h hclosed in
theorem paramNames_hollow (func : Func) (path : TreePath) :
    (func.hollow.params.zipIdx.forM fun param =>
        hasName param.1.name (path.below .param (toString param.2)) .parameter) =
      func.params.zipIdx.forM fun param =>
        hasName param.1.name (path.below .param (toString param.2)) .parameter := by
  dsimp only [Func.hollow, Func.unmarked]
  rw [List.zipIdx_map, List.forM_eq_forM, List.forM_map]
  rfl

theorem func_inTree {id : FuncId} (hid : part (.func id)) :
    Check.func other id = Check.func tree id := by
  unfold Check.func
  rw [h.funcPath hclosed hid, receiver_inTree h hclosed hid, bodyShape_inTree h hclosed hid,
    resultNames_inTree h hclosed hid]
  -- The funcs differ in statements at most, which these checks do not look at.
  have hfunc := h.func hid
  revert hfunc
  generalize other.func id = first, tree.func id = second
  revert first second
  refine Func.eq_of_hollow fun func => ?_
  dsimp only
  rw [signatureNames_hollow, paramNames_hollow]
  rfl

/-! ### Types -/

theorem interfaceMethod_inTree {id : FuncId} (hid : part (.func id))
    (hempty : (other.func id).body.isEmpty = (tree.func id).body.isEmpty) :
    interfaceMethod other id = interfaceMethod tree id := by
  unfold interfaceMethod
  dsimp only
  rw [hempty, h.func_body_doc hid, h.func_body_header hid, h.func_body_chained hid, h.func_name hid,
    h.funcPath hclosed hid]

theorem interface_inTree {id : TypeId} (hid : part (.type id))
    (hempty : ∀ method ∈ (tree.type id).methods,
      (other.func method).body.isEmpty = (tree.func method).body.isEmpty) :
    interface other id = interface tree id := by
  unfold interface
  rw [h.type hid]
  dsimp only
  split
  · -- An interface with fields: the first of them is at fault.
    rename_i field _ hfields
    have hfield : field ∈ (tree.type id).fields := hfields ▸ List.mem_cons_self
    rw [h.fieldPath hclosed (hclosed.field_of_type hid hfield)]
  · apply forM_congr
    intro method hmethod
    exact interfaceMethod_inTree h hclosed (hclosed.func_of_type hid hmethod)
      (hempty method hmethod)

theorem fieldNames_inTree {id : TypeId} (hid : part (.type id)) :
    fieldNames other language id = fieldNames tree language id := by
  unfold fieldNames
  rw [h.type hid]
  apply List.map_congr_left
  intro field hfield
  have hpart := hclosed.field_of_type hid hfield
  rw [h.field_name hpart, h.field_visibility hpart]

theorem methodNames_inTree {id : TypeId} (hid : part (.type id)) :
    methodNames other language id = methodNames tree language id := by
  unfold methodNames
  rw [h.type hid]
  apply List.map_congr_left
  intro method hmethod
  have hpart := hclosed.func_of_type hid hmethod
  rw [h.func_name hpart, h.func_visibility hpart]

/-- The methods of the interfaces among the types have bodies in one tree if they have them in the
other. -/
def SameInterfaceBodies (tree other : DeclTree) (types : List TypeId) : Prop :=
  ∀ type ∈ types, (tree.type type).kind = .interface → ∀ method ∈ (tree.type type).methods,
    (other.func method).body.isEmpty = (tree.func method).body.isEmpty

theorem type_inTree {types : List TypeId} (hbodies : SameInterfaceBodies tree other types)
    {id : TypeId} (htype : id ∈ types) (hid : part (.type id)) :
    Check.type other language id = Check.type tree language id := by
  have hfields : ((tree.type id).fields.forM fun field =>
        hasName (other.field field).name (other.fieldPath field) .field) =
      (tree.type id).fields.forM fun field =>
        hasName (tree.field field).name (tree.fieldPath field) .field := by
    apply forM_congr
    intro field hfield
    have hpart := hclosed.field_of_type hid hfield
    rw [h.field_name hpart, h.fieldPath hclosed hpart]
  have hmethods : (tree.type id).methods.forM (Check.func other) =
      (tree.type id).methods.forM (Check.func tree) := by
    apply forM_congr
    intro method hmethod
    exact func_inTree h hclosed (hclosed.func_of_type hid hmethod)
  unfold Check.type
  rw [h.type hid, h.typePath hclosed hid, fieldNames_inTree h hclosed hid,
    methodNames_inTree h hclosed hid]
  dsimp only
  rw [hfields, hmethods]
  -- Only an interface is asked about the bodies of its methods.
  by_cases hkind : (tree.type id).kind = .interface
  · rw [interface_inTree h hclosed hid (hbodies id htype hkind)]
  · simp only [if_neg hkind]

/-! ### Files and packages -/

/-- **The checks on the declarations of a file** come to the same. -/
theorem declarations_inTree {types : List TypeId} {funcs : List FuncId}
    (hbodies : SameInterfaceBodies tree other types)
    (htypes : ∀ id ∈ types, part (.type id)) (hfuncs : ∀ id ∈ funcs, part (.func id)) :
    declarations other language types funcs = declarations tree language types funcs := by
  have htypesEq : types.forM (Check.type other language) = types.forM (Check.type tree language) :=
    forM_congr fun id hid => type_inTree h hclosed hbodies hid (htypes id hid)
  have hfuncsEq : funcs.forM (Check.func other) = funcs.forM (Check.func tree) :=
    forM_congr fun id hid => func_inTree h hclosed (hfuncs id hid)
  unfold declarations
  rw [htypesEq, hfuncsEq]

theorem docOrigins_inTree {id : PackageId} (hid : part (.package id)) :
    docOrigins other id = docOrigins tree id := by
  unfold docOrigins
  rw [h.package hid]
  dsimp only
  congr 1
  apply List.filterMap_congr
  intro file hfile
  rw [h.file (hclosed.file_of_package hid hfile)]

/-- **The documentation of a package** is the same wherever the package passes its checks. -/
theorem doc_inTree {id : PackageId} (hid : part (.package id))
    {doc docOther : Option PackageComment} (hdoc : Check.package tree language id = .ok doc)
    (hother : Check.package other language id = .ok docOther) : docOther = doc := by
  rw [doc_eq_of_package_ok hdoc, doc_eq_of_package_ok hother, docOrigins_inTree h hclosed hid]

end Check

end DeclPrinter
