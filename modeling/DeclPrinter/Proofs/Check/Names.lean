import DeclPrinter.Check.Basic
import DeclPrinter.Proofs.Success
import Mathlib.Data.List.Nodup

/-!
# Names that pass the checks

A check on names passes exactly if no two of them are the same (`distinct_eq_ok_iff`). So in a
package that passes its checks the types have distinct names, and so have the funcs
(`names_of_package_ok`), and in a file that passes its own so have the fields of each type and
its methods (`names_of_declarations_ok`). Each kind is compared on its own.
-/

namespace DeclPrinter.Check

variable {tree : DeclTree} {language : Language} {path : TreePath} {scope : NameScope}
  {names : List String}

/-! ### One scope -/

theorem firstRepeated?_eq_none_iff (seen names : List String) :
    firstRepeated? seen names = none ↔ names.Nodup ∧ ∀ name ∈ names, name ∉ seen := by
  induction names generalizing seen with
  | nil => simp [firstRepeated?]
  | cons name rest ih =>
    unfold firstRepeated?
    by_cases hseen : name ∈ seen
    · simp [hseen]
    · have hnot : seen.contains name = false := by simpa using hseen
      rw [hnot, if_neg Bool.false_ne_true, ih, List.nodup_cons]
      -- Past the first name it is one of those seen, and so kept apart from the rest.
      constructor
      · rintro ⟨hdistinct, hothers⟩
        refine ⟨⟨fun hmem => hothers name hmem List.mem_cons_self, hdistinct⟩, ?_⟩
        intro other hother
        rcases List.mem_cons.mp hother with rfl | hmem
        · exact hseen
        · intro hold
          exact hothers other hmem (List.mem_cons_of_mem name hold)
      · rintro ⟨⟨hname, hdistinct⟩, hothers⟩
        refine ⟨hdistinct, ?_⟩
        intro other hother hold
        rcases List.mem_cons.mp hold with rfl | hmem
        · exact hname hother
        · exact hothers other (List.mem_cons_of_mem name hother) hmem

/-- **The check on names passes exactly if they are distinct.** -/
theorem distinct_eq_ok_iff : distinct names path scope = .ok () ↔ names.Nodup := by
  have hnone := firstRepeated?_eq_none_iff [] names
  have hdistinct : names.Nodup ↔ firstRepeated? [] names = none := by simp [hnone]
  rw [hdistinct]
  unfold distinct
  split
  · rename_i name hname
    simp [hname]
  · rename_i hname
    simp [hname]

/-- One more name leaves distinct names so unless it is one of them. -/
theorem nodup_toList_append_iff (h : names.Nodup) {own : Option String} :
    (own.toList ++ names).Nodup ↔ ∀ name ∈ own, name ∉ names := by
  cases own with
  | none => simpa using h
  | some name => simp [h]

theorem name_ne_empty_of_hasName {name : String} {what : NameBearer}
    (h : hasName name path what = .ok ()) : name ≠ "" := by
  rintro rfl
  cases h

/-! ### Signatures -/

/-- A func that passes its checks has names for all of its parameters, and the names in its
signature are distinct. -/
theorem names_of_func_ok {id : FuncId} (h : func tree id = .ok ()) :
    (∀ param ∈ (tree.func id).params, param.name ≠ "") ∧ (signatureNames (tree.func id)).Nodup := by
  obtain ⟨_, _, h⟩ := bind_eq_ok.mp h
  obtain ⟨_, _, h⟩ := bind_eq_ok.mp h
  obtain ⟨_, _, h⟩ := bind_eq_ok.mp h
  obtain ⟨_, hparams, h⟩ := bind_eq_ok.mp h
  obtain ⟨_, _, hdistinct⟩ := bind_eq_ok.mp h
  refine ⟨fun param hparam => ?_, distinct_eq_ok_iff.mp hdistinct⟩
  rw [← List.zipIdx_map_fst 0 (tree.func id).params] at hparam
  obtain ⟨indexed, hindexed, rfl⟩ := List.mem_map.mp hparam
  exact name_ne_empty_of_hasName (eq_ok_of_forM_eq_ok hparams indexed hindexed)

/-! ### Packages and files -/

/-- The names that are compared in a package. -/
theorem names_of_package_ok {package : PackageId} {doc : Option PackageComment}
    (h : Check.package tree language package = .ok doc) :
    (typeNames tree language package).Nodup ∧ (funcNames tree language package).Nodup := by
  obtain ⟨_, _, h⟩ := bind_eq_ok.mp h
  obtain ⟨_, _, h⟩ := bind_eq_ok.mp h
  obtain ⟨_, htypes, h⟩ := bind_eq_ok.mp h
  obtain ⟨_, hfuncs, _⟩ := bind_eq_ok.mp h
  exact ⟨distinct_eq_ok_iff.mp htypes, distinct_eq_ok_iff.mp hfuncs⟩

/-- What is checked in a type besides that it has a name and its fields have. -/
theorem parts_of_type_ok {id : TypeId} (h : Check.type tree language id = .ok ()) :
    ((tree.type id).kind = .interface → interface tree id = .ok ()) ∧
      distinct (fieldNames tree language id) (tree.typePath id) .field = .ok () ∧
      distinct (methodNames tree language id) (tree.typePath id) .method = .ok () ∧
      (tree.type id).methods.forM (func tree) = .ok () := by
  obtain ⟨_, _, h⟩ := bind_eq_ok.mp h
  -- What interfaces must satisfy besides is checked before the members of any type are.
  have hmembers : ((tree.type id).kind = .interface → interface tree id = .ok ()) ∧ (do
      (tree.type id).fields.forM fun field =>
        hasName (tree.field field).name (tree.fieldPath field) .field
      distinct (fieldNames tree language id) (tree.typePath id) .field
      distinct (methodNames tree language id) (tree.typePath id) .method
      (tree.type id).methods.forM (func tree)) = .ok () := by
    dsimp only at h
    split at h
    · obtain ⟨_, hinterface, h⟩ := bind_eq_ok.mp h
      exact ⟨fun _ => hinterface, h⟩
    · rename_i hkind
      exact ⟨fun hinterface => absurd hinterface hkind, h⟩
  obtain ⟨hinterface, hmembers⟩ := hmembers
  obtain ⟨_, _, hmembers⟩ := bind_eq_ok.mp hmembers
  obtain ⟨_, hfields, hmembers⟩ := bind_eq_ok.mp hmembers
  obtain ⟨_, hmethods, hbodies⟩ := bind_eq_ok.mp hmembers
  exact ⟨hinterface, hfields, hmethods, hbodies⟩

/-- The names that are compared in a type. -/
theorem names_of_type_ok {id : TypeId} (h : Check.type tree language id = .ok ()) :
    (fieldNames tree language id).Nodup ∧ (methodNames tree language id).Nodup := by
  obtain ⟨_, hfields, hmethods, _⟩ := parts_of_type_ok h
  exact ⟨distinct_eq_ok_iff.mp hfields, distinct_eq_ok_iff.mp hmethods⟩

theorem names_of_declarations_ok {types : List TypeId} {funcs : List FuncId}
    (h : declarations tree language types funcs = .ok ()) :
    ∀ id ∈ types, (fieldNames tree language id).Nodup ∧ (methodNames tree language id).Nodup := by
  obtain ⟨_, htypes, _⟩ := bind_eq_ok.mp h
  intro id hid
  exact names_of_type_ok (eq_ok_of_forM_eq_ok htypes id hid)

end DeclPrinter.Check
