import DeclPrinter.Proofs.Check.FiniteStructs
import Mathlib.Data.List.Chain

/-!
# What the search for a cycle reports and how deep it goes

The search visits a node at the end of a path (`Visits`). The path leads from a root to the node
and passes through no node twice (`OnWay`): that holds at a root, and a visit that goes on from
a node off the path keeps it. So a visit is no deeper than there are nodes, the closing one apart
(`Visits.length_le`), and a limit above that makes no difference
(`foldlM_searchFrom_eq_of_lt`). Where the search meets a node of the path, the path from there on
is closed by it (`IsClosedWalk`).

With the search being complete, this settles what the check on the structs of a package reports
(`value_cycle_search`).
-/

namespace DeclPrinter.Check

variable {next : TypeId → List TypeId} {nodes path done : List TypeId} {node other : TypeId}

/-! ### Ways -/

/-- The path leads to the node along the graph, and through no node twice. -/
structure OnWay (next : TypeId → List TypeId) (nodes path : List TypeId) (node : TypeId) :
    Prop where
  /-- Each node leads to the one after it. -/
  chain : (path ++ [node]).IsChain fun first second => second ∈ next first
  /-- No node of the path comes again. -/
  nodup : path.Nodup
  /-- All are nodes of the graph. -/
  nodes : path ++ [node] ⊆ nodes

namespace OnWay

theorem root (h : node ∈ nodes) : OnWay next nodes [] node where
  chain := .singleton node
  nodup := List.nodup_nil
  nodes := by simpa using h

theorem step (h : OnWay next nodes path node) (hfresh : node ∉ path) (hother : other ∈ next node)
    (hnodes : other ∈ nodes) : OnWay next nodes (path ++ [node]) other where
  chain := by
    refine h.chain.append (.singleton other) fun last hlast first hfirst => ?_
    rw [List.getLast?_concat] at hlast
    cases hlast
    cases hfirst
    exact hother
  nodup := (List.perm_append_singleton node path).nodup_iff.mpr
    (List.nodup_cons.mpr ⟨hfresh, h.nodup⟩)
  nodes := List.append_subset.mpr ⟨h.nodes, by simpa using hnodes⟩

/-- **A way is no longer than there are nodes.** -/
theorem length_le (h : OnWay next nodes path node) : path.length ≤ nodes.length := by
  have hpath : path ⊆ nodes := (List.append_subset.mp h.nodes).1
  exact (h.nodup.subperm hpath).length_le

end OnWay

/-! ### Closed walks -/

/-- The walk goes along the graph, ends where it starts, and passes through no other node
twice. -/
def IsClosedWalk (next : TypeId → List TypeId) (walk : List TypeId) : Prop :=
  ∃ first middle, walk = first :: middle ++ [first] ∧
    walk.IsChain (fun first second => second ∈ next first) ∧ (first :: middle).Nodup

/-- A way that meets one of its nodes again is closed there. -/
theorem OnWay.isClosedWalk (h : OnWay next nodes path node) (hmem : node ∈ path) :
    IsClosedWalk next (closeAt path node) := by
  obtain ⟨before, middle, rfl, hbefore⟩ := List.eq_append_cons_of_mem hmem
  have hclosed : closeAt (before ++ node :: middle) node = node :: middle ++ [node] := by
    have hother : ∀ other ∈ before, (other != node) = true := fun other hmem =>
      bne_iff_ne.mpr fun heq => hbefore (heq ▸ hmem)
    rw [closeAt, List.dropWhile_append_of_pos hother, List.dropWhile_cons_of_neg (by simp)]
  refine ⟨node, middle, hclosed, ?_, (List.nodup_append.mp h.nodup).2.1⟩
  have hchain := h.chain
  rw [List.append_assoc] at hchain
  rw [hclosed]
  exact hchain.right_of_append

/-- Where a walk starts there is a cycle. -/
theorem IsClosedWalk.leadsTo {walk : List TypeId} (h : IsClosedWalk next walk) :
    ∃ first, walk.head? = some first ∧ LeadsTo next first first := by
  obtain ⟨first, middle, rfl, hchain, _⟩ := h
  refine ⟨first, rfl, ?_⟩
  cases middle with
  | nil => exact .single (List.isChain_pair.mp hchain)
  | cons second rest =>
    obtain ⟨hstep, hrest⟩ := List.isChain_cons_cons.mp hchain
    have hback : Relation.ReflTransGen (fun first second => second ∈ next first) second first :=
      List.relationReflTransGen_of_exists_isChain_cons (rest ++ [first]) hrest (by simp)
    exact .head' hstep hback

/-- **What a search reports is a closed walk.** -/
theorem isClosedWalk_of_searchFrom_eq_error (hnext : ∀ node ∈ nodes, next node ⊆ nodes)
    {depth : Nat} {walk : List TypeId} (hway : OnWay next nodes path node)
    (h : searchFrom next depth path done node = .error walk) : IsClosedWalk next walk := by
  induction depth generalizing path done node with
  | zero => cases h
  | succ depth ih =>
    have hnode : node ∈ nodes := hway.nodes (by simp)
    rw [searchFrom] at h
    split at h
    · cases h
    · split at h
      · rename_i hmem
        cases h
        exact hway.isClosedWalk (List.contains_iff_mem.mp hmem)
      · rename_i hfresh
        have hfresh : node ∉ path := fun hmem => hfresh (List.contains_iff_mem.mpr hmem)
        -- It is reported from one of the next nodes.
        rcases bind_eq_error.mp h with hfirst | ⟨_, _, hlast⟩
        · obtain ⟨before, other, after, _, hinputs, _, hfound⟩ := foldlM_eq_error hfirst
          have hother : other ∈ next node := by
            rw [hinputs]
            exact List.mem_append_right _ List.mem_cons_self
          exact ih (hway.step hfresh hother (hnext node hnode hother)) hfound
        · cases hlast

theorem isClosedWalk_of_cycle?_eq_some (hnext : ∀ node ∈ nodes, next node ⊆ nodes)
    {walk : List TypeId} (h : cycle? next nodes = some walk) : IsClosedWalk next walk := by
  unfold cycle? at h
  split at h
  · rename_i found hfound
    cases h
    obtain ⟨before, node, after, _, hinputs, _, hsearch⟩ := foldlM_eq_error hfound
    have hnode : node ∈ nodes := by
      rw [hinputs]
      exact List.mem_append_right _ List.mem_cons_self
    exact isClosedWalk_of_searchFrom_eq_error hnext (.root hnode) hsearch
  · cases h

/-- **The search finds a cycle exactly if there is one.** -/
theorem cycle?_eq_none_iff (hnext : ∀ node ∈ nodes, next node ⊆ nodes) :
    cycle? next nodes = none ↔ ∀ node ∈ nodes, ¬ LeadsTo next node node := by
  constructor
  · intro hnone node hnode
    exact not_leadsTo_of_cycle?_eq_none hnext hnone hnode
  · intro hacyclic
    rcases hfound : cycle? next nodes with _ | walk
    · rfl
    · obtain ⟨first, hfirst, hcycle⟩ := (isClosedWalk_of_cycle?_eq_some hnext hfound).leadsTo
      have hmem : first ∈ nodes :=
        (subset_of_cycle?_eq_some hnext hfound).2 (List.mem_of_mem_head? hfirst)
      exact absurd hcycle (hacyclic first hmem)

/-! ### Depth -/

/-- The searches that are made within a limit: at the end of the path, with these nodes done
with, the node is looked at. A search from a node that is neither done with nor on the path goes
on to the nodes that it leads to, one after another. -/
inductive Visits (next : TypeId → List TypeId) (nodes : List TypeId) (limit : Nat) :
    List TypeId → List TypeId → TypeId → Prop where
  | root {before after done : List TypeId} {node : TypeId}
      (hnodes : nodes = before ++ node :: after)
      (hbefore : before.foldlM (searchFrom next limit []) [] = .ok done) :
      Visits next nodes limit [] done node
  | step {path done before after below : List TypeId} {node other : TypeId}
      (hvisit : Visits next nodes limit path done node) (hdone : node ∉ done) (hpath : node ∉ path)
      (hnext : next node = before ++ other :: after)
      (hbefore : before.foldlM (searchFrom next (limit - path.length - 1) (path ++ [node])) done =
        .ok below) :
      Visits next nodes limit (path ++ [node]) below other

theorem Visits.onWay {limit : Nat} (hnext : ∀ node ∈ nodes, next node ⊆ nodes)
    (h : Visits next nodes limit path done node) : OnWay next nodes path node := by
  induction h with
  | root hnodes _ =>
    refine .root ?_
    rw [hnodes]
    exact List.mem_append_right _ List.mem_cons_self
  | @step path _ before after _ node other _ _ hpath hinputs _ ih =>
    have hother : other ∈ next node := by
      rw [hinputs]
      exact List.mem_append_right _ List.mem_cons_self
    exact ih.step hpath hother (hnext node (ih.nodes (by simp)) hother)

/-- **No visit is deeper than there are nodes,** and one more for the node that closes a cycle. -/
theorem Visits.length_le {limit : Nat} (hnext : ∀ node ∈ nodes, next node ⊆ nodes)
    (h : Visits next nodes limit path done node) : path.length + 1 ≤ nodes.length + 1 :=
  Nat.succ_le_succ (h.onWay hnext).length_le

/-- Runs of steps that are the same one by one are the same. -/
theorem foldlM_congr {α σ ε : Type} {first second : σ → α → Except ε σ} {inputs : List α}
    (h : ∀ state, ∀ input ∈ inputs, first state input = second state input) (state : σ) :
    inputs.foldlM first state = inputs.foldlM second state := by
  induction inputs generalizing state with
  | nil => rfl
  | cons input rest ih =>
    rw [List.foldlM_cons, List.foldlM_cons, h state input List.mem_cons_self]
    congr 1
    funext middle
    exact ih (fun state other hother => h state other (List.mem_cons_of_mem input hother)) middle

/-- Two limits that a search does not come to are the same to it. -/
theorem searchFrom_eq_of_lt (hnext : ∀ node ∈ nodes, next node ⊆ nodes) {depth limit : Nat}
    (hway : OnWay next nodes path node) (hdepth : nodes.length < depth + path.length)
    (hlimit : nodes.length < limit + path.length) :
    searchFrom next depth path done node = searchFrom next limit path done node := by
  have hlength := hway.length_le
  induction depth generalizing limit path done node with
  | zero => omega
  | succ depth ih =>
    obtain ⟨limit, rfl⟩ : ∃ below, limit = below + 1 := ⟨limit - 1, by omega⟩
    rw [searchFrom, searchFrom]
    split
    · rfl
    · split
      · rfl
      · rename_i hfresh
        have hfresh : node ∉ path := fun hmem => hfresh (List.contains_iff_mem.mpr hmem)
        -- The way grows by the node as the limit shrinks, so the two limits stay large enough.
        have hbelow : (next node).foldlM (searchFrom next depth (path ++ [node])) done =
            (next node).foldlM (searchFrom next limit (path ++ [node])) done := by
          refine foldlM_congr (fun done other hother => ?_) done
          have hstep := hway.step hfresh hother (hnext node (hway.nodes (by simp)) hother)
          have hlonger : (path ++ [node]).length = path.length + 1 := by simp
          exact ih hstep (by omega) (by omega) hstep.length_le
        rw [hbelow]

/-- **A limit above the number of nodes makes no difference.** -/
theorem foldlM_searchFrom_eq_of_lt (hnext : ∀ node ∈ nodes, next node ⊆ nodes) {limit : Nat}
    (hlimit : nodes.length < limit) :
    nodes.foldlM (searchFrom next limit []) [] =
      nodes.foldlM (searchFrom next (nodes.length + 1) []) [] := by
  refine foldlM_congr (fun done node hnode => ?_) []
  exact searchFrom_eq_of_lt hnext (.root hnode) (by simpa using hlimit) (by simp)

/-! ### The structs of a package -/

variable {tree : DeclTree} {package : PackageId}

/-- A field of the one struct has as its type a symbol that is the name of the other, among the
types of the package. -/
def HoldsNamed (tree : DeclTree) (package : PackageId) (holder held : TypeId) : Prop :=
  holder ∈ structsOf tree package ∧ held ∈ structsOf tree package ∧
    ∃ field ∈ (tree.type holder).fields, ∃ symbol, (tree.field field).type = .simple symbol ∧
      tree.typeNamed? package symbol.name = some held

theorem holdsNamed_iff {holder held : TypeId} :
    HoldsNamed tree package holder held ↔
      holder ∈ structsOf tree package ∧ held ∈ heldStructs tree package holder := by
  refine and_congr_right fun _ => ?_
  rw [mem_heldStructs]
  constructor
  · rintro ⟨hheld, field, hfield, symbol, htype, hnamed⟩
    exact ⟨field, hfield, symbol, htype, hnamed, (mem_structsOf.mp hheld).2⟩
  · rintro ⟨field, hfield, symbol, htype, hnamed, hstruct⟩
    exact ⟨mem_structsOf.mpr ⟨mem_typesIn_of_typeNamed? hnamed, hstruct⟩, field, hfield, symbol,
      htype, hnamed⟩

/-- What a struct leads to is a struct, so a cycle is one of structs. -/
theorem transGen_holdsNamed_iff {struct held : TypeId} :
    Relation.TransGen (HoldsNamed tree package) struct held ↔
      struct ∈ structsOf tree package ∧ LeadsTo (heldStructs tree package) struct held := by
  constructor
  · intro h
    obtain ⟨_, hfirst, _⟩ := Relation.TransGen.head'_iff.mp h
    exact ⟨hfirst.1, Relation.TransGen.mono (fun _ _ hstep => (holdsNamed_iff.mp hstep).2) _ _ h⟩
  · rintro ⟨hstruct, h⟩
    induction h with
    | single hstep => exact .single (holdsNamed_iff.mpr ⟨hstruct, hstep⟩)
    | tail _ hstep ih =>
      obtain ⟨_, _, hmiddle⟩ := Relation.TransGen.tail'_iff.mp ih
      exact ih.tail (holdsNamed_iff.mpr ⟨hmiddle.2.1, hstep⟩)

/-- A chain of what structs hold that starts with a struct is one of structs. -/
theorem isChain_holdsNamed {first : TypeId} {rest : List TypeId}
    (hfirst : first ∈ structsOf tree package)
    (h : (first :: rest).IsChain fun holder held => held ∈ heldStructs tree package holder) :
    (first :: rest).IsChain (HoldsNamed tree package) := by
  induction rest generalizing first with
  | nil => exact .singleton first
  | cons second rest ih =>
    obtain ⟨hstep, hrest⟩ := List.isChain_cons_cons.mp h
    exact .cons_cons (holdsNamed_iff.mpr ⟨hfirst, hstep⟩)
      (ih (heldStructs_subset first hstep) hrest)

theorem finiteStructs_eq_error_iff {failure : Failure} :
    finiteStructs tree package = .error failure ↔ ∃ cycle,
      valueCycle? tree package = some cycle ∧
        failure = .valueCycle (tree.typePath (cycle.headD default))
          (cycle.map fun type => (tree.type type).name) := by
  unfold finiteStructs
  rcases valueCycle? tree package with _ | cycle
  · simp
  · simp [eq_comm]

/-- A package that fails its check on structs is not accepted. -/
theorem not_ok_of_finiteStructs_eq_error {language : Language} {failure : Failure}
    (h : finiteStructs tree package = .error failure) (doc : Option PackageComment) :
    Check.package tree language package ≠ .ok doc := by
  intro hok
  obtain ⟨cycle, hcycle, _⟩ := finiteStructs_eq_error_iff.mp h
  rw [valueCycle?_of_package_ok hok] at hcycle
  cases hcycle

/-- **The search for structs that hold themselves.** Take the structs of a package, and say that
one holds another when a field has the other's name as its type.

The check on them fails exactly if a struct leads back to itself, and then no language accepts
the package. What it reports is the names along a closed walk, which goes from each struct to one
that it holds and passes through none twice but the first; and the path of that first struct. The
search looks at a struct only at the end of a way from a root that is no longer than there are
structs, so it is nowhere deeper than their number and one more; and a search that might go
deeper gives the same. -/
theorem value_cycle_search (tree : DeclTree) (package : PackageId) :
    let structs := structsOf tree package
    let Holds := HoldsNamed tree package
    ((∃ failure, finiteStructs tree package = .error failure) ↔
      ∃ struct, Relation.TransGen Holds struct struct) ∧
    (∀ struct, Relation.TransGen Holds struct struct →
      ∀ language doc, Check.package tree language package ≠ .ok doc) ∧
    (∀ failure, finiteStructs tree package = .error failure → ∃ first middle,
      (first :: middle ++ [first]).IsChain Holds ∧ (first :: middle).Nodup ∧
        failure = .valueCycle (tree.typePath first)
          ((first :: middle ++ [first]).map fun type => (tree.type type).name)) ∧
    (∀ path done struct,
      Visits (heldStructs tree package) structs (structs.length + 1) path done struct →
        path.length + 1 ≤ structs.length + 1) ∧
    ∀ limit, structs.length < limit →
      structs.foldlM (searchFrom (heldStructs tree package) limit []) [] =
        structs.foldlM (searchFrom (heldStructs tree package) (structs.length + 1) []) [] := by
  intro structs Holds
  have hnext : ∀ holder ∈ structs, heldStructs tree package holder ⊆ structs :=
    fun holder _ => heldStructs_subset holder
  -- The check fails where the search finds a cycle, which it does where there is one.
  have hfails : (∃ failure, finiteStructs tree package = .error failure) ↔
      ∃ struct, Relation.TransGen Holds struct struct := by
    simp only [finiteStructs_eq_error_iff, Holds, transGen_holdsNamed_iff]
    constructor
    · rintro ⟨_, cycle, hcycle, _⟩
      by_contra hacyclic
      have hnone := (cycle?_eq_none_iff hnext).mpr fun struct hstruct hleads =>
        hacyclic ⟨struct, hstruct, hleads⟩
      exact absurd (hnone.symm.trans hcycle) (by simp)
    · rintro ⟨struct, hstruct, hleads⟩
      rcases hcycle : valueCycle? tree package with _ | cycle
      · exact absurd hleads ((cycle?_eq_none_iff hnext).mp hcycle struct hstruct)
      · exact ⟨_, cycle, rfl, rfl⟩
  refine ⟨hfails, ?_, ?_, ?_, ?_⟩
  · -- No language accepts the package.
    intro struct hcycle language doc
    obtain ⟨failure, hfailure⟩ := hfails.mpr ⟨struct, hcycle⟩
    exact not_ok_of_finiteStructs_eq_error hfailure doc
  · -- The walk that is reported is what the search returns: from where it is closed, around once.
    intro failure hfailure
    obtain ⟨cycle, hcycle, rfl⟩ := finiteStructs_eq_error_iff.mp hfailure
    have hmem := (subset_of_cycle?_eq_some hnext hcycle).2
    obtain ⟨first, middle, rfl, hchain, hnodup⟩ := isClosedWalk_of_cycle?_eq_some hnext hcycle
    exact ⟨first, middle, isChain_holdsNamed (hmem List.mem_cons_self) hchain, hnodup, rfl⟩
  · -- The depth of a visit.
    intro path done struct hvisit
    exact hvisit.length_le hnext
  · -- Any larger limit.
    intro limit hlimit
    exact foldlM_searchFrom_eq_of_lt hnext hlimit

/-- The walk that is reported starts where it is closed and not where the search started, and the
visit that closes it is as deep as any can be. -/
theorem value_cycle_search_tail :
    let tree := (ofStructs [("Root", [("Next", "First")]), ("First", [("Next", "Second")]),
      ("Second", [("Name", "string"), ("Next", "First")])]).tree
    let structs := structsOf tree ⟨0⟩
    let way : List TypeId := [⟨0⟩, ⟨1⟩, ⟨2⟩]
    finiteStructs tree ⟨0⟩ =
        .error (.valueCycle (tree.typePath ⟨1⟩) ["First", "Second", "First"]) ∧
      (∃ struct, Relation.TransGen (HoldsNamed tree ⟨0⟩) struct struct) ∧
      (∀ language doc, Check.package tree language ⟨0⟩ ≠ .ok doc) ∧
      Visits (heldStructs tree ⟨0⟩) structs (structs.length + 1) way [] ⟨1⟩ ∧
      way.length + 1 ≤ structs.length + 1 := by
  intro tree structs way
  have hfails : finiteStructs tree ⟨0⟩ =
      .error (.valueCycle (tree.typePath ⟨1⟩) ["First", "Second", "First"]) := by decide +kernel
  -- The search goes from the root over both structs of the cycle, and back to the first of them.
  let next := heldStructs tree ⟨0⟩
  have hroot : Visits next structs (structs.length + 1) [] [] ⟨0⟩ :=
    .root (show structs = [] ++ ⟨0⟩ :: [⟨1⟩, ⟨2⟩] by decide +kernel) rfl
  have hfirst : Visits next structs (structs.length + 1) [⟨0⟩] [] ⟨1⟩ := hroot.step (by decide)
    (by decide) (show next ⟨0⟩ = [] ++ ⟨1⟩ :: [] by decide +kernel) rfl
  have hsecond : Visits next structs (structs.length + 1) [⟨0⟩, ⟨1⟩] [] ⟨2⟩ := hfirst.step
    (by decide) (by decide) (show next ⟨1⟩ = [] ++ ⟨2⟩ :: [] by decide +kernel) rfl
  have hclosing : Visits next structs (structs.length + 1) way [] ⟨1⟩ := hsecond.step
    (by decide) (by decide) (show next ⟨2⟩ = [] ++ ⟨1⟩ :: [] by decide +kernel) rfl
  obtain ⟨hiff, hrefused, _, hdepth, _⟩ := value_cycle_search tree ⟨0⟩
  obtain ⟨struct, hcycle⟩ := hiff.mp ⟨_, hfails⟩
  exact ⟨hfails, ⟨struct, hcycle⟩, hrefused struct hcycle, hclosing, hdepth way [] ⟨1⟩ hclosing⟩

end DeclPrinter.Check
