import DeclPrinter.Proofs.Artifact.Located

/-!
# Artifacts and what was asked of them

An artifact grows by requests: a chain of directories is to be there, or a leaf is to
stand in a directory under a name. The requests that were met, in order, say everything
about the tree that they led to (`Directory.Shows`): which places are leaves, which are
directories, and in which order the names of each directory stand, namely the order in
which the requests first needed them. The invariant holds of the empty tree, and one more
request that is met keeps it (`Shows.snoc`). A request that fails does so because an
earlier one is in the way (`ensureDirectory_result`, `addLeaf_result`).

An artifact that shows its requests lists exactly the leaves that were asked for, each once
(`Shows.located_perm`).
-/

namespace DeclPrinter

/-- What is asked of an artifact. -/
inductive Request where
  /-- A chain of directories. -/
  | directory (dir : List String)
  /-- A leaf under a name in a directory. -/
  | leaf (dir : List String) (name : String) (file : Leaf)
  deriving DecidableEq, Repr, Inhabited

namespace Request

/-- The chain of directories that is needed. -/
def dir : Request → List String
  | directory dir => dir
  | leaf dir _ _ => dir

/-- The whole chain of names, that of the leaf included. -/
def chain : Request → List String
  | directory dir => dir
  | leaf dir name _ => dir ++ [name]

/-- The leaf that is asked for, with the chain that is to lead to it. -/
def leaf? : Request → Option (List String × Leaf)
  | directory _ => none
  | leaf dir name file => some (dir ++ [name], file)

/-- The name that is needed in the directory at the end of a chain, when that directory is
needed. -/
def nameIn? (chain : List String) (request : Request) : Option String :=
  if chain <+: request.dir then request.chain[chain.length]? else none

/-- The leaves that are asked for. -/
def leaves (requests : List Request) : List (List String × Leaf) :=
  requests.filterMap leaf?

/-- The names that are needed in the directory at the end of a chain, in the order in which
they are first needed. -/
def namesIn (requests : List Request) (chain : List String) : List String :=
  (requests.filterMap (nameIn? chain)).eraseDups

/-- A place that an earlier request takes, for a leaf or on the way to one. -/
def Takes (requests : List Request) (chain : List String) : Prop :=
  (∃ file, (chain, file) ∈ leaves requests) ∨ ∃ request ∈ requests, chain <+: request.dir

theorem leaves_append (first second : List Request) :
    leaves (first ++ second) = leaves first ++ leaves second :=
  List.filterMap_append ..

theorem leaves_snoc (requests : List Request) (request : Request) :
    leaves (requests ++ [request]) = leaves requests ++ request.leaf?.toList := by
  rw [leaves_append]
  rcases hrequest : request.leaf? with _ | place
  · rw [leaves, leaves, List.filterMap_cons_none hrequest]
    rfl
  · rw [leaves, leaves, List.filterMap_cons_some hrequest]
    rfl

theorem exists_dir_snoc (requests : List Request) (request : Request) (chain : List String) :
    (∃ other ∈ requests ++ [request], chain <+: other.dir) ↔
      (∃ other ∈ requests, chain <+: other.dir) ∨ chain <+: request.dir := by
  simp [or_and_right, exists_or]

/-- A place is one of the directories that a request needs, or that of its leaf, or neither. -/
theorem place_cases (request : Request) (chain : List String) :
    chain <+: request.dir ∨
      ¬ chain <+: request.dir ∧ ((∃ file, request.leaf? = some (chain, file)) ∨
        ∀ file, request.leaf? ≠ some (chain, file)) := by
  by_cases hpart : chain <+: request.dir
  · exact Or.inl hpart
  · right
    refine ⟨hpart, ?_⟩
    by_cases hnew : ∃ file, request.leaf? = some (chain, file)
    · exact Or.inl hnew
    · exact Or.inr fun file hfile => hnew ⟨file, hfile⟩

/-- One more request adds the name it needs, unless an earlier one needed it. -/
theorem namesIn_snoc (requests : List Request) (request : Request) (chain : List String) :
    namesIn (requests ++ [request]) chain =
      withName (namesIn requests chain) (request.nameIn? chain) := by
  unfold namesIn
  rw [List.filterMap_append, List.eraseDups_append]
  rcases hname : request.nameIn? chain with _ | name
  · rw [List.filterMap_cons_none hname]
    simp [withName]
  · rw [List.filterMap_cons_some hname, List.filterMap_nil]
    generalize requests.filterMap (nameIn? chain) = needed
    simp only [withName, List.mem_eraseDups]
    -- A name that was needed before keeps its place.
    by_cases hmem : name ∈ needed
    · simp [List.removeAll, hmem]
    · simp [List.removeAll, hmem, List.eraseDups_cons]

theorem nodup_eraseDups (names : List String) : names.eraseDups.Nodup := by
  induction hlength : names.length using Nat.strong_induction_on generalizing names with
  | _ length ih =>
    cases names with
    | nil => simp
    | cons name rest =>
      -- What is left to clear is filtered, hence no tail of the list, but shorter.
      rw [List.eraseDups_cons, List.nodup_cons]
      constructor
      · simp
      · have hshort : (rest.filter fun other => !other == name).length ≤ rest.length :=
          List.length_filter_le ..
        rw [List.length_cons] at hlength
        exact ih _ (by omega) _ rfl

/-- A tree `after` that differs from the tree `before` by a request that was met: nothing was
in its way, the places that it needs are as it asks, and all others are as before. -/
structure Met (request : Request) (before after : Directory) : Prop where
  /-- No leaf stood where a directory is needed. -/
  way : ∀ chain, chain <+: request.dir → ∀ file, before.placeAt? chain ≠ some (.leaf file)
  /-- Nothing stood where the leaf goes. -/
  free : ∀ chain file, request.leaf? = some (chain, file) → before.placeAt? chain = none
  /-- Each directory has the next name. -/
  dir_eq : ∀ chain, chain <+: request.dir →
    after.placeAt? chain =
      some (.directory (withName (before.namesAt chain) request.chain[chain.length]?))
  /-- The leaf stands at its place. -/
  leaf_eq : ∀ chain file, request.leaf? = some (chain, file) →
    after.placeAt? chain = some (.leaf file)
  /-- The rest stays. -/
  other_eq : ∀ chain, ¬ chain <+: request.dir → (∀ file, request.leaf? ≠ some (chain, file)) →
    after.placeAt? chain = before.placeAt? chain

end Request

/-- The tree shows that these requests were met, and nothing else. -/
structure Directory.Shows (directory : Directory) (requests : List Request) : Prop where
  /-- The leaves are those asked for. -/
  leaf_iff : ∀ chain file,
    directory.placeAt? chain = some (.leaf file) ↔ (chain, file) ∈ Request.leaves requests
  /-- The directories are the top and those that a request needed. -/
  directory_iff : ∀ chain,
    (∃ names, directory.placeAt? chain = some (.directory names)) ↔
      chain = [] ∨ ∃ request ∈ requests, chain <+: request.dir
  /-- The names of a directory stand in the order in which they were first needed. -/
  names_eq : ∀ chain names,
    directory.placeAt? chain = some (.directory names) → names = Request.namesIn requests chain
  /-- No two leaves were asked for at one place. -/
  distinct : ((Request.leaves requests).map Prod.fst).Nodup

namespace Directory.Shows

variable {directory after : Directory} {requests : List Request}

theorem empty : Directory.empty.Shows [] where
  leaf_iff chain file := by
    rw [placeAt?_empty]
    split <;> simp [Request.leaves]
  directory_iff chain := by
    rw [placeAt?_empty]
    split <;> simp_all
  names_eq chain names h := by
    rw [placeAt?_empty] at h
    split at h
    · cases h
      rfl
    · cases h
  distinct := List.nodup_nil

/-- The names at any chain are those needed there; where there is no directory, none are. -/
theorem namesAt_eq (h : directory.Shows requests) (chain : List String) :
    directory.namesAt chain = Request.namesIn requests chain := by
  unfold namesAt
  split
  · rename_i names hplace
    exact h.names_eq chain names hplace
  · rename_i hplace
    -- Where no directory is, none was needed, so no names were needed in it.
    have hno : ¬ ∃ request ∈ requests, chain <+: request.dir := by
      intro hneeded
      obtain ⟨names, hnames⟩ := (h.directory_iff chain).mpr (Or.inr hneeded)
      exact hplace names hnames
    have hnone : requests.filterMap (Request.nameIn? chain) = [] := by
      rw [List.filterMap_eq_nil_iff]
      intro request hrequest
      exact if_neg fun hpart => hno ⟨request, hrequest, hpart⟩
    rw [Request.namesIn, hnone]
    rfl

/-! ### One more request -/

section

variable {request : Request} (h : directory.Shows requests) (hmet : request.Met directory after)

include h hmet

theorem leaf_iff_snoc (chain : List String) (file : Leaf) :
    after.placeAt? chain = some (.leaf file) ↔
      (chain, file) ∈ Request.leaves (requests ++ [request]) := by
  rw [Request.leaves_snoc, List.mem_append, Option.mem_toList]
  rcases request.place_cases chain with hpart | ⟨hpart, ⟨other, hnew⟩ | hnone⟩
  · -- A directory now, and no leaf was asked for here.
    have hold : (chain, file) ∉ Request.leaves requests :=
      fun hmem => hmet.way chain hpart file ((h.leaf_iff chain file).mpr hmem)
    rw [hmet.dir_eq chain hpart]
    constructor
    · intro hplace
      cases hplace
    · rintro (hmem | hnew)
      · exact absurd hmem hold
      · rw [← hmet.leaf_eq chain file hnew, hmet.dir_eq chain hpart]
  · -- The new leaf, where nothing stood.
    have hold : (chain, file) ∉ Request.leaves requests := by
      intro hmem
      have hplace := (h.leaf_iff chain file).mpr hmem
      rw [hmet.free chain other hnew] at hplace
      cases hplace
    rw [hmet.leaf_eq chain other hnew, hnew]
    simp [hold]
  · rw [hmet.other_eq chain hpart hnone, h.leaf_iff chain file]
    simp [hnone file]

theorem directory_iff_snoc (chain : List String) :
    (∃ names, after.placeAt? chain = some (.directory names)) ↔
      chain = [] ∨ ∃ other ∈ requests ++ [request], chain <+: other.dir := by
  rw [Request.exists_dir_snoc, ← or_assoc, ← h.directory_iff chain]
  rcases request.place_cases chain with hpart | ⟨hpart, ⟨file, hnew⟩ | hnone⟩
  · simp [hmet.dir_eq chain hpart, hpart]
  · simp [hmet.leaf_eq chain file hnew, hmet.free chain file hnew, hpart]
  · rw [hmet.other_eq chain hpart hnone]
    simp [hpart]

theorem names_eq_snoc (chain names : List String)
    (hplace : after.placeAt? chain = some (.directory names)) :
    names = Request.namesIn (requests ++ [request]) chain := by
  rw [Request.namesIn_snoc, ← h.namesAt_eq chain]
  rcases request.place_cases chain with hpart | ⟨hpart, ⟨file, hnew⟩ | hnone⟩
  · -- The next name of the chain is added on both sides.
    rw [hmet.dir_eq chain hpart] at hplace
    rw [Request.nameIn?, if_pos hpart]
    cases hplace
    rfl
  · rw [hmet.leaf_eq chain file hnew] at hplace
    cases hplace
  · rw [hmet.other_eq chain hpart hnone] at hplace
    rw [Request.nameIn?, if_neg hpart, namesAt, hplace]
    rfl

theorem distinct_snoc : ((Request.leaves (requests ++ [request])).map Prod.fst).Nodup := by
  rw [Request.leaves_snoc, List.map_append, List.nodup_append]
  refine ⟨h.distinct, ?_, ?_⟩
  · cases request.leaf? <;> simp
  · -- Where the new leaf goes nothing stood, so no leaf was asked for.
    rintro chain hold other hnew rfl
    obtain ⟨⟨_, file⟩, hmem, rfl⟩ := List.mem_map.mp hold
    obtain ⟨⟨_, newFile⟩, hnewMem, rfl⟩ := List.mem_map.mp hnew
    have hplace := (h.leaf_iff _ file).mpr hmem
    rw [hmet.free _ newFile (Option.mem_toList.mp hnewMem)] at hplace
    cases hplace

/-- **One more request that is met keeps the invariant.** -/
theorem snoc : after.Shows (requests ++ [request]) :=
  ⟨h.leaf_iff_snoc hmet, h.directory_iff_snoc hmet, h.names_eq_snoc hmet, h.distinct_snoc hmet⟩

end

/-! ### What the requests say -/

/-- What the requests say about a place at which nothing stands. -/
theorem placeAt?_eq_none_iff (h : directory.Shows requests) {chain : List String}
    (hchain : chain ≠ []) :
    directory.placeAt? chain = none ↔ ¬ Request.Takes requests chain := by
  rw [Request.Takes, not_or]
  constructor
  · intro hnone
    refine ⟨?_, ?_⟩
    · rintro ⟨file, hfile⟩
      rw [(h.leaf_iff chain file).mpr hfile] at hnone
      cases hnone
    · intro hneeded
      obtain ⟨names, hnames⟩ := (h.directory_iff chain).mpr (Or.inr hneeded)
      rw [hnames] at hnone
      cases hnone
  · rintro ⟨hleaf, hneeded⟩
    -- What stands there is asked for, except for the top.
    rcases hplace : directory.placeAt? chain with _ | names | file
    · rfl
    · rcases (h.directory_iff chain).mp ⟨names, hplace⟩ with hnil | hdir
      · exact absurd hnil hchain
      · exact absurd hdir hneeded
    · exact absurd ⟨file, (h.leaf_iff chain file).mp hplace⟩ hleaf

theorem hasDistinctNames (h : directory.Shows requests) : directory.HasDistinctNames := by
  intro chain names hplace
  rw [h.names_eq chain names hplace]
  exact Request.nodup_eraseDups _

/-- **The leaves of a tree are those asked for,** each once. -/
theorem located_perm (h : directory.Shows requests) :
    directory.located.Perm (Request.leaves requests) := by
  have hnames := h.hasDistinctNames
  have hlocated : directory.located.Nodup := List.Nodup.of_map _ (nodup_located directory hnames)
  rw [List.perm_ext_iff_of_nodup hlocated (List.Nodup.of_map _ h.distinct)]
  rintro ⟨chain, file⟩
  rw [mem_located hnames, h.leaf_iff]

end Directory.Shows

namespace Artifact

variable {artifact : Artifact} {requests : List Request} {segments : List String}

/-! ### Ensuring directories -/

theorem met_ensureDirectory {mediaType : MediaType}
    (h : (artifact.ensureDirectory segments mediaType).1 = .ok ()) :
    (Request.directory segments).Met artifact.root
      (artifact.ensureDirectory segments mediaType).2.root where
  way := by
    rcases Directory.ensure_result [] mediaType segments artifact.root with ⟨_, hway⟩ | hblocked
    · exact hway
    · obtain ⟨chain, _, _, herror⟩ := hblocked
      have hok : (artifact.root.ensure [] mediaType segments).1 = .ok () := h
      rw [herror] at hok
      cases hok
  free chain file hleaf := by cases hleaf
  dir_eq chain hchain := (Directory.placeAt?_ensure h chain).trans (if_pos hchain)
  leaf_eq chain file hleaf := by cases hleaf
  other_eq chain hchain _ := (Directory.placeAt?_ensure h chain).trans (if_neg hchain)

/-- Directories are ensured unless a leaf that was asked for is one of them. -/
theorem ensureDirectory_result (hshows : artifact.root.Shows requests) (segments : List String)
    (mediaType : MediaType) :
    ((artifact.ensureDirectory segments mediaType).1 = .ok () ∧
        ¬ ∃ chain, chain <+: segments ∧ ∃ file, (chain, file) ∈ Request.leaves requests) ∨
      ∃ chain, chain <+: segments ∧ (∃ file, (chain, file) ∈ Request.leaves requests) ∧
        (artifact.ensureDirectory segments mediaType).1 = .error ⟨joinPath chain⟩ := by
  rcases Directory.ensure_result [] mediaType segments artifact.root with ⟨hok, hway⟩ | hblocked
  · left
    refine ⟨hok, ?_⟩
    rintro ⟨chain, hchain, file, hfile⟩
    exact hway chain hchain file ((hshows.leaf_iff chain file).mpr hfile)
  · obtain ⟨chain, hchain, ⟨file, hfile⟩, herror⟩ := hblocked
    right
    exact ⟨chain, hchain, ⟨file, (hshows.leaf_iff chain file).mp hfile⟩, herror⟩

/-- Where directories were ensured, none of them is a leaf that was asked for. -/
theorem ensureDirectory_ok (hshows : artifact.root.Shows requests) {mediaType : MediaType}
    (h : (artifact.ensureDirectory segments mediaType).1 = .ok ()) :
    ¬ ∃ chain, chain <+: segments ∧ ∃ file, (chain, file) ∈ Request.leaves requests := by
  rcases ensureDirectory_result hshows segments mediaType with ⟨_, hway⟩ | ⟨_, _, _, herror⟩
  · exact hway
  · rw [h] at herror
    cases herror

/-- What keeps directories from being ensured is a leaf that was asked for. -/
theorem ensureDirectory_error (hshows : artifact.root.Shows requests) {mediaType : MediaType}
    {obstacle : Obstacle} (h : (artifact.ensureDirectory segments mediaType).1 = .error obstacle) :
    ∃ chain, chain <+: segments ∧ (∃ file, (chain, file) ∈ Request.leaves requests) ∧
      obstacle.path = joinPath chain := by
  rcases ensureDirectory_result hshows segments mediaType with
    ⟨hok, _⟩ | ⟨chain, hchain, hleaf, herror⟩
  · rw [hok] at h
    cases h
  · rw [herror] at h
    cases h
    exact ⟨chain, hchain, hleaf, rfl⟩

/-! ### Adding a leaf -/

theorem addLeaf_of_ensured {name : String} {file : Leaf}
    (h : (artifact.ensureDirectory segments .directory).1 = .ok ()) :
    artifact.addLeaf segments name file =
      (((artifact.ensureDirectory segments .directory).2.root.insert [] name file segments).1,
        ⟨((artifact.ensureDirectory segments .directory).2.root.insert [] name file
          segments).2⟩) := by
  unfold addLeaf
  rcases hensured : artifact.ensureDirectory segments .directory with ⟨_ | _, ensured⟩
  · rw [hensured] at h
    cases h
  · rfl

/-- The place of a leaf is none of the directories that lead to it. -/
theorem not_snoc_part (segments : List String) (name : String) :
    ¬ segments ++ [name] <+: segments := by
  intro hpart
  have hlength := hpart.length_le
  rw [List.length_append, List.length_singleton] at hlength
  omega

theorem addLeaf_ok {name : String} {file : Leaf}
    (h : (artifact.addLeaf segments name file).1 = .ok ()) :
    (artifact.ensureDirectory segments .directory).1 = .ok () := by
  unfold addLeaf at h
  rcases hensured : artifact.ensureDirectory segments .directory with ⟨obstacle | _, ensured⟩
  · rw [hensured] at h
    cases h
  · rfl

theorem met_addLeaf {name : String} {file : Leaf}
    (h : (artifact.addLeaf segments name file).1 = .ok ()) :
    (Request.leaf segments name file).Met artifact.root
      (artifact.addLeaf segments name file).2.root := by
  have hensured := addLeaf_ok h
  have hmet := met_ensureDirectory hensured
  rw [addLeaf_of_ensured hensured] at h ⊢
  generalize (artifact.ensureDirectory segments .directory).2.root = middle at h hmet ⊢
  have hdir := hmet.dir_eq segments (List.prefix_refl segments)
  have hleafMiddle : middle.placeAt? (segments ++ [name]) =
      artifact.root.placeAt? (segments ++ [name]) :=
    hmet.other_eq _ (not_snoc_part segments name) fun _ hleaf => by cases hleaf
  have hfree : artifact.root.placeAt? (segments ++ [name]) = none := by
    rw [← hleafMiddle]
    by_contra hsome
    have hresult := Directory.insert_result [] name file hdir
    rw [if_neg hsome, h] at hresult
    cases hresult
  refine ⟨hmet.way, ?_, ?_, ?_, ?_⟩
  · rintro chain other hleaf
    obtain ⟨rfl, -⟩ := Prod.mk.inj (Option.some.inj hleaf)
    exact hfree
  · intro chain hchain
    have hne : chain ≠ segments ++ [name] := by
      rintro rfl
      exact not_snoc_part segments name hchain
    rw [Directory.placeAt?_insert h, if_neg hne]
    by_cases heq : chain = segments
    · subst heq
      rw [if_pos rfl, Directory.namesAt, hdir]
      simp [Request.chain, withName]
    · -- Inside the chain the next name is that of the directories alone.
      have hlt : chain.length < segments.length := by
        rcases Nat.lt_or_ge chain.length segments.length with hlt | hge
        · exact hlt
        · exact absurd (hchain.eq_of_length_le hge) heq
      rw [if_neg heq, hmet.dir_eq chain hchain]
      simp [Request.chain, List.getElem?_append_left hlt]
  · rintro chain other hleaf
    obtain ⟨rfl, rfl⟩ := Prod.mk.inj (Option.some.inj hleaf)
    rw [Directory.placeAt?_insert h, if_pos rfl]
  · intro chain hchain hnot
    have hne : chain ≠ segments ++ [name] := by
      rintro rfl
      exact hnot file rfl
    have hne' : chain ≠ segments := by
      rintro rfl
      exact hchain (List.prefix_refl chain)
    rw [Directory.placeAt?_insert h, if_neg hne, if_neg hne']
    exact hmet.other_eq chain hchain fun _ hleaf => by cases hleaf

/-- In a directory that was asked for, a leaf is added unless its place is taken. -/
theorem addLeaf_result (hshows : artifact.root.Shows requests) {name : String} {file : Leaf}
    (hneeded : ∃ request ∈ requests, segments <+: request.dir) :
    (artifact.addLeaf segments name file).1 = .ok () ∧
        ¬ Request.Takes requests (segments ++ [name]) ∨
      (artifact.addLeaf segments name file).1 = .error ⟨joinPath (segments ++ [name])⟩ ∧
        Request.Takes requests (segments ++ [name]) := by
  obtain ⟨request, hrequest, hsegments⟩ := hneeded
  have hensured : (artifact.ensureDirectory segments .directory).1 = .ok () := by
    rcases ensureDirectory_result hshows segments .directory with ⟨hok, _⟩ | hblocked
    · exact hok
    · obtain ⟨chain, hchain, ⟨blocking, hblocking⟩, _⟩ := hblocked
      -- A part of the chain would be a leaf and a directory at once.
      have hleaf := (hshows.leaf_iff chain blocking).mpr hblocking
      obtain ⟨names, hnames⟩ := (hshows.directory_iff chain).mpr
        (Or.inr ⟨request, hrequest, hchain.trans hsegments⟩)
      rw [hleaf] at hnames
      cases hnames
  have hmet := met_ensureDirectory hensured
  have hdir := hmet.dir_eq segments (List.prefix_refl segments)
  have hplace := hmet.other_eq (segments ++ [name]) (not_snoc_part segments name)
    fun _ hleaf => by cases hleaf
  have hnil : segments ++ [name] ≠ [] :=
    List.append_ne_nil_of_right_ne_nil segments (List.cons_ne_nil name [])
  have htaken := hshows.placeAt?_eq_none_iff hnil
  rw [addLeaf_of_ensured hensured]
  show (Directory.insert [] name file segments _).1 = _ ∧ _ ∨
    (Directory.insert [] name file segments _).1 = _ ∧ _
  rw [Directory.insert_result [] name file hdir, hplace]
  by_cases hnone : artifact.root.placeAt? (segments ++ [name]) = none
  · left
    exact ⟨if_pos hnone, htaken.mp hnone⟩
  · right
    refine ⟨if_neg hnone, ?_⟩
    by_contra hfree
    exact hnone (htaken.mpr hfree)

end Artifact

end DeclPrinter
