import DeclPrinter.Check.Cycle
import DeclPrinter.Proofs.Success
import Mathlib.Data.List.Perm.Subperm
import Mathlib.Logic.Relation

/-!
# The search for a cycle finds every cycle

The search is done with a node once it is done with all that the node leads to. So the nodes
it is done with lead only to one another, and each new one comes after all that it leads to:
none of them lies on a cycle (`Finished`). A search that ends without a cycle is done with
every node it was given, hence there is none (`not_leadsTo_of_cycle?_eq_none`).

The depth at which the search gives up is never reached. The path holds no node twice, and
there are fewer nodes than the search may go deep.
-/

namespace DeclPrinter.Check

variable {next : TypeId → List TypeId} {nodes : List TypeId}

/-- A node leads to another in one step or more. -/
def LeadsTo (next : TypeId → List TypeId) : TypeId → TypeId → Prop :=
  Relation.TransGen fun first second => second ∈ next first

/-- Nodes that lead only to one another and lie on no cycle. -/
structure Finished (next : TypeId → List TypeId) (done : List TypeId) : Prop where
  /-- What they lead to is among them. -/
  closed : ∀ node ∈ done, ∀ other ∈ next node, other ∈ done
  /-- None leads to itself. -/
  acyclic : ∀ node ∈ done, ¬ LeadsTo next node node

namespace Finished

theorem empty : Finished next [] where
  closed _ h := absurd h List.not_mem_nil
  acyclic _ h := absurd h List.not_mem_nil

theorem mem_of_reaches {done : List TypeId} (h : Finished next done) {first last : TypeId}
    (hfirst : first ∈ done)
    (hreach : Relation.ReflTransGen (fun first second => second ∈ next first) first last) :
    last ∈ done := by
  induction hreach with
  | refl => exact hfirst
  | tail _ hstep ih => exact h.closed _ ih _ hstep

/-- A new node may join those that it leads to. -/
theorem cons {done : List TypeId} {node : TypeId} (h : Finished next done)
    (hnode : node ∉ done) (hnext : ∀ other ∈ next node, other ∈ done) :
    Finished next (node :: done) where
  closed other hother following hfollowing := by
    right
    rcases List.mem_cons.mp hother with rfl | hold
    · exact hnext following hfollowing
    · exact h.closed other hold following hfollowing
  acyclic other hother hcycle := by
    rcases List.mem_cons.mp hother with rfl | hold
    · -- A way from the new node back to it would pass through an old one.
      obtain ⟨middle, hstep, hback⟩ := Relation.TransGen.head'_iff.mp hcycle
      exact hnode (h.mem_of_reaches (hnext middle hstep) hback)
    · exact h.acyclic other hold hcycle

end Finished

/-- What is true before and after each search at the end of a path: the search is done with
nodes that are finished, and none of the path is among them. -/
structure Searching (next : TypeId → List TypeId) (path done : List TypeId) : Prop where
  /-- The nodes done with are finished. -/
  finished : Finished next done
  /-- The path goes through none of them. -/
  apart : ∀ node ∈ path, node ∉ done

/-- Searches from several nodes in turn are done with all of them, if each search is done with
its own. -/
theorem Searching.foldlM {search : List TypeId → TypeId → Except (List TypeId) (List TypeId)}
    {path done after inputs : List TypeId}
    (hsearch : ∀ done node after, node ∈ nodes → Searching next path done →
      search done node = .ok after → Searching next path after ∧ done ⊆ after ∧ node ∈ after)
    (hstart : Searching next path done) (hinputs : inputs ⊆ nodes)
    (h : inputs.foldlM search done = .ok after) :
    Searching next path after ∧ done ⊆ after ∧ inputs ⊆ after := by
  -- After each input the state is one of a search, and holds what was done and the inputs so far.
  have hrun := foldlM_invariant
    (fun used state => used ⊆ nodes → Searching next path state ∧ done ⊆ state ∧ used ⊆ state)
    ?_ (fun _ => ⟨hstart, List.Subset.refl done, List.nil_subset done⟩) h
  · exact hrun hinputs
  · intro used state node following hkeeps hstep hused
    obtain ⟨hused, hnode⟩ := List.append_subset.mp hused
    obtain ⟨hstate, hdone, hmem⟩ := hkeeps hused
    have hnode : node ∈ nodes := hnode (List.mem_singleton_self node)
    obtain ⟨hfollowing, hgrown, hself⟩ := hsearch state node following hnode hstate hstep
    refine ⟨hfollowing, List.Subset.trans hdone hgrown, ?_⟩
    exact List.append_subset.mpr ⟨List.Subset.trans hmem hgrown, by simpa using hself⟩

/-- **A search that finds no cycle is done with its node,** and keeps what is true of a search
at the end of its path. -/
theorem searchFrom_ok (hnext : ∀ node ∈ nodes, next node ⊆ nodes) {depth : Nat}
    {path done after : List TypeId} {node : TypeId} (hpath : path.Nodup) (hnodes : path ⊆ nodes)
    (hdepth : nodes.length < depth + path.length) (hnode : node ∈ nodes)
    (hstart : Searching next path done) (h : searchFrom next depth path done node = .ok after) :
    Searching next path after ∧ done ⊆ after ∧ node ∈ after := by
  induction depth generalizing path done after node with
  | zero =>
    -- The path would hold more nodes than there are.
    have hshort : path.length ≤ nodes.length := (hpath.subperm hnodes).length_le
    omega
  | succ depth ih =>
    rw [searchFrom] at h
    split at h
    · rename_i hdone
      cases h
      exact ⟨hstart, List.Subset.refl done, List.contains_iff_mem.mp hdone⟩
    · rename_i hdone
      split at h
      · cases h
      · rename_i honPath
        have hdone : node ∉ done := fun hmem => hdone (List.contains_iff_mem.mpr hmem)
        have hfresh : node ∉ path := fun hmem => honPath (List.contains_iff_mem.mpr hmem)
        obtain ⟨below, hbelow, hafter⟩ := bind_eq_ok.mp h
        have heq := pure_eq_ok.mp hafter
        subst heq
        -- The search goes on from the path with the node at its end.
        have hlonger : (path ++ [node]).Nodup :=
          (List.perm_append_singleton node path).nodup_iff.mpr (List.nodup_cons.mpr ⟨hfresh, hpath⟩)
        have hlongerNodes : path ++ [node] ⊆ nodes :=
          List.append_subset.mpr ⟨hnodes, by simpa using hnode⟩
        have hlongerDepth : nodes.length < depth + (path ++ [node]).length := by
          rw [List.length_append, List.length_singleton]
          omega
        have hlongerStart : Searching next (path ++ [node]) done := by
          refine ⟨hstart.finished, ?_⟩
          intro other hother
          rcases List.mem_append.mp hother with hold | hnew
          · exact hstart.apart other hold
          · rwa [List.mem_singleton.mp hnew]
        obtain ⟨hstate, hgrown, hall⟩ := hlongerStart.foldlM
          (fun done node after hnode hstart =>
            ih hlonger hlongerNodes hlongerDepth hnode hstart) (hnext node hnode) hbelow
        have hself : node ∉ below := hstate.apart node (by simp)
        refine ⟨⟨hstate.finished.cons hself fun other hother => hall hother, ?_⟩, ?_, ?_⟩
        · intro other hother hmem
          rcases List.mem_cons.mp hmem with rfl | hold
          · exact hfresh hother
          · exact hstate.apart other (List.mem_append_left _ hother) hold
        · exact List.Subset.trans hgrown (List.subset_cons_self node below)
        · exact List.mem_cons_self

/-- What a search finds goes through nodes only. -/
theorem subset_of_searchFrom_eq_error (hnext : ∀ node ∈ nodes, next node ⊆ nodes) {depth : Nat}
    {path done cycle : List TypeId} {node : TypeId} (hnodes : path ⊆ nodes) (hnode : node ∈ nodes)
    (h : searchFrom next depth path done node = .error cycle) : cycle ≠ [] ∧ cycle ⊆ nodes := by
  induction depth generalizing path done node with
  | zero => cases h
  | succ depth ih =>
    have hone : [node] ⊆ nodes := by simpa using hnode
    rw [searchFrom] at h
    split at h
    · cases h
    · split at h
      · cases h
        refine ⟨List.append_ne_nil_of_right_ne_nil _ (List.cons_ne_nil _ _), ?_⟩
        have hclosed := List.Subset.trans (List.dropWhile_sublist (· != node)).subset hnodes
        exact List.append_subset.mpr ⟨hclosed, hone⟩
      · -- It is found on the way from one of the next nodes.
        rcases bind_eq_error.mp h with hfirst | ⟨_, _, hlast⟩
        · obtain ⟨before, other, after, _, hinputs, _, hfound⟩ := foldlM_eq_error hfirst
          have hother : other ∈ next node := by
            rw [hinputs]
            exact List.mem_append_right _ List.mem_cons_self
          exact ih (List.append_subset.mpr ⟨hnodes, hone⟩) (hnext node hnode hother) hfound
        · cases hlast

theorem subset_of_cycle?_eq_some (hnext : ∀ node ∈ nodes, next node ⊆ nodes)
    {cycle : List TypeId} (h : cycle? next nodes = some cycle) : cycle ≠ [] ∧ cycle ⊆ nodes := by
  unfold cycle? at h
  split at h
  · rename_i found hfound
    cases h
    obtain ⟨before, node, after, _, hinputs, _, hsearch⟩ := foldlM_eq_error hfound
    have hnode : node ∈ nodes := by
      rw [hinputs]
      exact List.mem_append_right _ List.mem_cons_self
    exact subset_of_searchFrom_eq_error hnext (List.nil_subset nodes) hnode hsearch
  · cases h

/-- **A search that finds no cycle leaves none.** -/
theorem not_leadsTo_of_cycle?_eq_none (hnext : ∀ node ∈ nodes, next node ⊆ nodes)
    (h : cycle? next nodes = none) {node : TypeId} (hnode : node ∈ nodes) :
    ¬ LeadsTo next node node := by
  unfold cycle? at h
  split at h
  · cases h
  · rename_i after hafter
    -- From the empty search on, each node is finished by the search that starts at it.
    have hstart : Searching next [] [] := ⟨.empty, fun _ h => absurd h List.not_mem_nil⟩
    obtain ⟨hstate, _, hall⟩ := hstart.foldlM
      (fun done node after hnode hstart =>
        searchFrom_ok hnext List.nodup_nil (List.nil_subset nodes) (by simp) hnode hstart)
      (List.Subset.refl nodes) hafter
    exact hstate.finished.acyclic node (hall hnode)

end DeclPrinter.Check
