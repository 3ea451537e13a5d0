import DeclPrinter.Proofs.Check.Names

/-!
# Bodies that pass the checks

The body of a func is a block, and a block may have a header and a clause chained to it. In a
body neither would be written, so the checks refuse both; and a method of an interface, which is
written without a body, may not have any statements (`body_of_declarations_ok`).
-/

namespace DeclPrinter.Check

variable {tree : DeclTree} {language : Language}

theorem body_of_func_ok {id : FuncId} (h : func tree id = .ok ()) :
    (tree.func id).body.header = none ∧ (tree.func id).body.chained = none := by
  obtain ⟨_, _, h⟩ := bind_eq_ok.mp h
  obtain ⟨_, _, h⟩ := bind_eq_ok.mp h
  obtain ⟨_, hshape, _⟩ := bind_eq_ok.mp h
  unfold bodyShape at hshape
  dsimp only at hshape
  split at hshape
  · cases hshape
  · rename_i hnone
    simpa using hnone

theorem statements_of_interface_ok {type : TypeId} (h : interface tree type = .ok ()) :
    ∀ id ∈ (tree.type type).methods, (tree.func id).body.statements = [] := by
  intro id hid
  unfold interface at h
  dsimp only at h
  split at h
  · cases h
  · have hmethod := eq_ok_of_forM_eq_ok h id hid
    unfold interfaceMethod at hmethod
    dsimp only at hmethod
    split at hmethod
    · cases hmethod
    · rename_i hnone
      simp only [Block.isEmpty, Bool.or_eq_true, not_or] at hnone
      simpa using hnone.1.1.1

/-- In a file that passes its checks every func passes its own, and so does every method. -/
theorem func_of_declarations_ok {types : List TypeId} {funcs : List FuncId}
    (h : declarations tree language types funcs = .ok ()) {id : FuncId}
    (hid : id ∈ funcs ∨ ∃ type ∈ types, id ∈ (tree.type type).methods) :
    func tree id = .ok () := by
  obtain ⟨_, htypes, hfuncs⟩ := bind_eq_ok.mp h
  rcases hid with hid | ⟨type, hmem, hid⟩
  · exact eq_ok_of_forM_eq_ok hfuncs id hid
  · obtain ⟨_, _, _, hmethods⟩ := parts_of_type_ok (eq_ok_of_forM_eq_ok htypes type hmem)
    exact eq_ok_of_forM_eq_ok hmethods id hid

/-- **What is checked of bodies.** In a file that passes its checks a body has no header and no
chained clause, and it has no statements if it is that of an interface method. -/
theorem body_of_declarations_ok {types : List TypeId} {funcs : List FuncId}
    (h : declarations tree language types funcs = .ok ()) {id : FuncId}
    (hid : id ∈ funcs ∨ ∃ type ∈ types, id ∈ (tree.type type).methods) :
    (tree.func id).body.header = none ∧ (tree.func id).body.chained = none ∧
      ∀ type ∈ types, (tree.type type).kind = .interface → id ∈ (tree.type type).methods →
        (tree.func id).body.statements = [] := by
  obtain ⟨_, htypes, _⟩ := bind_eq_ok.mp h
  obtain ⟨hheader, hchained⟩ := body_of_func_ok (func_of_declarations_ok h hid)
  refine ⟨hheader, hchained, ?_⟩
  intro type hmem hkind hmethod
  obtain ⟨hinterface, _⟩ := parts_of_type_ok (eq_ok_of_forM_eq_ok htypes type hmem)
  exact statements_of_interface_ok (hinterface hkind) id hmethod

end DeclPrinter.Check
