import DeclPrinter.Proofs.Artifact.Place
import Mathlib.Data.List.Nodup

/-!
# The leaves of an artifact with their chains

The list of leaves gives each leaf with its path as one text, and different chains of names
may join to one text. Here each leaf is listed with its chain (`Directory.located`), in the
same order, so that the list of leaves is this one with its chains joined
(`Artifact.leaves_eq`).

As long as no directory has two entries of one name, the list is what the places of the
tree say: it holds the leaf at a chain exactly when it stands there (`mem_located`), and no
chain twice (`nodup_located`).
-/

namespace DeclPrinter

mutual

/-- The leaves of a directory with the chains that lead to them, depth first. -/
def Directory.located : Directory → List (List String × Leaf)
  | .mk _ entries => Entry.locatedIn entries

/-- The leaves that an entry is or holds, with the chains that lead to them from it. -/
def Entry.located : Entry → List (List String × Leaf)
  | .leaf file => [([], file)]
  | .directory child => child.located

/-- The leaves that entries are or hold, with the chains that start at their names. -/
def Entry.locatedIn : List (String × Entry) → List (List String × Leaf)
  | [] => []
  | (name, entry) :: rest =>
    (entry.located.map fun place => (name :: place.1, place.2)) ++ Entry.locatedIn rest

end

/-- The text of a chain: its names joined by slashes, as the list of leaves joins them. -/
def chainText (chain : List String) : String :=
  chain.foldl belowPath ""

/-! ### The paths of the list of leaves -/

mutual

theorem Directory.leavesBelow_eq (directory : Directory) (path : String) :
    directory.leavesBelow path =
      directory.located.map fun place => (place.1.foldl belowPath path, place.2) := by
  obtain ⟨mediaType, entries⟩ := directory
  rw [Directory.leavesBelow, Directory.located]
  exact Entry.leavesOf_eq entries path

theorem Entry.leavesAt_eq (entry : Entry) (path : String) :
    entry.leavesAt path =
      entry.located.map fun place => (place.1.foldl belowPath path, place.2) := by
  cases entry with
  | leaf file =>
    rw [Entry.leavesAt, Entry.located]
    rfl
  | directory child =>
    rw [Entry.leavesAt, Entry.located]
    exact child.leavesBelow_eq path

theorem Entry.leavesOf_eq (entries : List (String × Entry)) (path : String) :
    Entry.leavesOf path entries =
      (Entry.locatedIn entries).map fun place => (place.1.foldl belowPath path, place.2) := by
  match entries with
  | [] =>
    rw [Entry.leavesOf, Entry.locatedIn]
    rfl
  | (name, entry) :: rest =>
    rw [Entry.leavesOf, Entry.locatedIn, List.map_append, List.map_map, Entry.leavesAt_eq entry,
      Entry.leavesOf_eq rest]
    rfl

end

theorem Artifact.leaves_eq (artifact : Artifact) :
    artifact.leaves =
      artifact.root.located.map fun place => (chainText place.1, place.2) := by
  rw [leaves, Directory.leavesBelow_eq]
  rfl

/-! ### Distinct names -/

/-- No directory of the tree has two entries of one name. -/
def Directory.HasDistinctNames (directory : Directory) : Prop :=
  ∀ chain names, directory.placeAt? chain = some (.directory names) → names.Nodup

namespace Directory

/-- Where names are distinct, each leads to its own entry. -/
theorem lookup_of_mem {entries : List (String × Entry)} {name : String} {entry : Entry}
    (h : (entries.map Prod.fst).Nodup) (hmem : (name, entry) ∈ entries) :
    entries.lookup name = some entry := by
  induction entries with
  | nil => simp at hmem
  | cons old rest ih =>
    obtain ⟨key, value⟩ := old
    rw [List.map_cons, List.nodup_cons] at h
    rcases List.mem_cons.mp hmem with hhead | htail
    · obtain ⟨rfl, rfl⟩ := Prod.mk.inj hhead
      exact List.lookup_cons_self
    · -- The first entry is called differently, as the names are distinct.
      have hne : (name == key) = false := by
        rw [beq_eq_false_iff_ne]
        rintro rfl
        exact h.1 (List.mem_map.mpr ⟨(name, entry), htail, rfl⟩)
      rw [List.lookup_cons, hne]
      exact ih h.2 htail

theorem get?_of_mem {directory : Directory} {name : String} {entry : Entry}
    (h : directory.names.Nodup) (hmem : (name, entry) ∈ directory.entries) :
    directory.get? name = some entry :=
  lookup_of_mem h hmem

namespace HasDistinctNames

variable {directory : Directory}

theorem nodup_names (h : directory.HasDistinctNames) : directory.names.Nodup :=
  h [] directory.names (placeAt?_nil directory)

theorem below {name : String} {child : Directory} (h : directory.HasDistinctNames)
    (hmem : (name, Entry.directory child) ∈ directory.entries) : child.HasDistinctNames := by
  intro chain names hplace
  apply h (name :: chain) names
  rw [placeAt?_cons, get?_of_mem h.nodup_names hmem]
  exact hplace

end HasDistinctNames

/-! ### The list and the places -/

theorem locatedIn_eq_flatMap (entries : List (String × Entry)) :
    Entry.locatedIn entries =
      entries.flatMap fun item => item.2.located.map fun place => (item.1 :: place.1, place.2) := by
  induction entries with
  | nil => rw [Entry.locatedIn, List.flatMap_nil]
  | cons item rest ih => rw [Entry.locatedIn, List.flatMap_cons, ih]

theorem located_eq_flatMap (directory : Directory) :
    directory.located =
      directory.entries.flatMap fun item =>
        item.2.located.map fun place => (item.1 :: place.1, place.2) := by
  obtain ⟨mediaType, entries⟩ := directory
  rw [located, locatedIn_eq_flatMap]
  rfl

theorem cons_mem_located_iff (directory : Directory) (name : String) (chain : List String)
    (leaf : Leaf) :
    (name :: chain, leaf) ∈ directory.located ↔
      ∃ entry, (name, entry) ∈ directory.entries ∧ (chain, leaf) ∈ entry.located := by
  rw [located_eq_flatMap, List.mem_flatMap]
  constructor
  · rintro ⟨⟨key, entry⟩, hentry, hplace⟩
    obtain ⟨⟨rest, file⟩, hrest, heq⟩ := List.mem_map.mp hplace
    simp only [Prod.mk.injEq, List.cons.injEq] at heq
    obtain ⟨⟨rfl, rfl⟩, rfl⟩ := heq
    exact ⟨entry, hentry, hrest⟩
  · rintro ⟨entry, hentry, hplace⟩
    exact ⟨(name, entry), hentry, List.mem_map.mpr ⟨(chain, leaf), hplace, rfl⟩⟩

theorem nil_not_mem_located (directory : Directory) (leaf : Leaf) :
    ([], leaf) ∉ directory.located := by
  rw [located_eq_flatMap, List.mem_flatMap]
  rintro ⟨item, _, hplace⟩
  obtain ⟨place, _, heq⟩ := List.mem_map.mp hplace
  simp at heq

/-- **The list of leaves says where they stand.** -/
theorem mem_located {directory : Directory} (h : directory.HasDistinctNames)
    (chain : List String) (leaf : Leaf) :
    (chain, leaf) ∈ directory.located ↔ directory.placeAt? chain = some (.leaf leaf) := by
  induction chain generalizing directory with
  | nil => simp [nil_not_mem_located]
  | cons name chain ih =>
    rw [cons_mem_located_iff, placeAt?_cons]
    constructor
    · -- An entry in the list is the one its name leads to, since names are distinct.
      rintro ⟨entry, hentry, hplace⟩
      rw [get?_of_mem h.nodup_names hentry, Option.bind_some]
      cases entry with
      | leaf file =>
        rw [Entry.located, List.mem_singleton] at hplace
        obtain ⟨rfl, rfl⟩ := Prod.mk.inj hplace
        simp [Entry.placeAt?]
      | directory child =>
        rw [Entry.located] at hplace
        exact (ih (h.below hentry)).mp hplace
    · intro hplace
      rcases hfound : directory.get? name with _ | entry
      · rw [hfound] at hplace
        cases hplace
      have hentry : (name, entry) ∈ directory.entries := by
        obtain ⟨before, after, heq, _⟩ := List.lookup_eq_some_iff.mp hfound
        rw [heq]
        simp
      rw [hfound, Option.bind_some] at hplace
      refine ⟨entry, hentry, ?_⟩
      cases entry with
      | leaf file =>
        by_cases hchain : chain = []
        · subst hchain
          simp only [Entry.placeAt?, if_true, Option.some.injEq, Place.leaf.injEq] at hplace
          rw [Entry.located, hplace]
          exact List.mem_singleton_self _
        · simp [Entry.placeAt?, hchain] at hplace
      | directory child =>
        rw [Entry.located]
        exact (ih (h.below hentry)).mpr hplace

theorem sizeOf_lt_of_mem {directory child : Directory} {name : String}
    (h : (name, Entry.directory child) ∈ directory.entries) :
    sizeOf child < sizeOf directory := by
  obtain ⟨mediaType, entries⟩ := directory
  have hsize := List.sizeOf_lt_of_mem (show (name, Entry.directory child) ∈ entries from h)
  simp only [Prod.mk.sizeOf_spec, Entry.directory.sizeOf_spec] at hsize
  simp only [mk.sizeOf_spec]
  omega

/-- **No place is listed twice.** -/
theorem nodup_located (directory : Directory) (h : directory.HasDistinctNames) :
    (directory.located.map Prod.fst).Nodup := by
  have hchains : directory.located.map Prod.fst =
      directory.entries.flatMap fun item =>
        (item.2.located.map Prod.fst).map (item.1 :: ·) := by
    rw [located_eq_flatMap, List.map_flatMap]
    simp only [List.map_map]
    rfl
  rw [hchains, List.nodup_flatMap]
  constructor
  · rintro ⟨name, entry⟩ hentry
    apply List.Nodup.map (List.cons_injective)
    -- Within one entry the chains differ further down.
    cases entry with
    | leaf file => simp [Entry.located]
    | directory child =>
      have := sizeOf_lt_of_mem hentry
      rw [Entry.located]
      exact nodup_located child (h.below hentry)
  · -- Chains from different entries differ in their first name.
    have hnames : directory.entries.Pairwise fun first second => first.1 ≠ second.1 :=
      List.pairwise_map.mp h.nodup_names
    apply hnames.imp
    intro first second hne chain hfirst hsecond
    obtain ⟨_, _, rfl⟩ := List.mem_map.mp hfirst
    obtain ⟨_, _, heq⟩ := List.mem_map.mp hsecond
    exact hne (List.cons.inj heq).1.symm
termination_by sizeOf directory

end Directory

end DeclPrinter
