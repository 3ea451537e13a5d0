import DeclPrinter.Proofs.Artifact.Located

/-!
# Artifacts without their texts

The skeleton of an artifact has all its directories and leaves, each leaf with an empty text. What
an operation on an artifact does, and whether it fails, is told by the skeleton and by the leaf
without its text (`Artifact.skeleton_ensureDirectory`, `Artifact.skeleton_addLeaf`). So texts have
no part in where files go.
-/

namespace DeclPrinter

/-- The leaf with an empty text. -/
def Leaf.skeleton (leaf : Leaf) : Leaf :=
  { leaf with content := "" }

mutual

/-- The directory with all texts left out. -/
def Directory.skeleton : Directory → Directory
  | .mk mediaType entries => .mk mediaType (Entry.skeletons entries)

/-- The entry with all texts left out. -/
def Entry.skeleton : Entry → Entry
  | .leaf leaf => .leaf leaf.skeleton
  | .directory directory => .directory directory.skeleton

/-- The entries with all texts left out. -/
def Entry.skeletons : List (String × Entry) → List (String × Entry)
  | [] => []
  | (name, entry) :: rest => (name, entry.skeleton) :: Entry.skeletons rest

end

/-- The artifact with all texts left out. -/
def Artifact.skeleton (artifact : Artifact) : Artifact :=
  ⟨artifact.root.skeleton⟩

theorem Entry.skeletons_eq_map (entries : List (String × Entry)) :
    Entry.skeletons entries = entries.map fun item => (item.1, item.2.skeleton) := by
  induction entries with
  | nil => rw [Entry.skeletons, List.map_nil]
  | cons item rest ih => rw [Entry.skeletons, List.map_cons, ih]

namespace Directory

@[simp]
theorem mediaType_skeleton (directory : Directory) :
    directory.skeleton.mediaType = directory.mediaType := by
  obtain ⟨mediaType, entries⟩ := directory
  rw [skeleton]
  rfl

theorem entries_skeleton (directory : Directory) :
    directory.skeleton.entries = directory.entries.map fun item => (item.1, item.2.skeleton) := by
  obtain ⟨mediaType, entries⟩ := directory
  rw [skeleton, Entry.skeletons_eq_map]
  rfl

/-- Directories are the same if they are of the same media type and have the same entries. -/
theorem eq_of_entries {first second : Directory} (hmediaType : first.mediaType = second.mediaType)
    (hentries : first.entries = second.entries) : first = second := by
  obtain ⟨_, _⟩ := first
  obtain ⟨_, _⟩ := second
  exact congr (congrArg mk hmediaType) hentries

/-! ### Looking up and putting -/

theorem get?_skeleton (directory : Directory) (name : String) :
    directory.skeleton.get? name = (directory.get? name).map Entry.skeleton := by
  rw [get?, get?, entries_skeleton]
  induction directory.entries with
  | nil => rfl
  | cons item rest ih =>
    rw [List.map_cons, List.lookup_cons, List.lookup_cons]
    split
    · rfl
    · exact ih

theorem skeleton_put (directory : Directory) (name : String) (entry : Entry) :
    (directory.put name entry).skeleton = directory.skeleton.put name entry.skeleton := by
  apply eq_of_entries
  · rw [mediaType_skeleton]
    exact directory.mediaType_skeleton.symm
  · rw [entries_skeleton]
    unfold put
    rw [get?_skeleton, Option.isSome_map, entries_skeleton]
    show List.map _ (if (directory.get? name).isSome then _ else _) =
      if (directory.get? name).isSome then _ else _
    split
    · -- The name is taken in the one exactly if it is in the other, and then replaced in both.
      rw [List.map_map, List.map_map]
      apply List.map_congr_left
      intro item _
      show ((if item.1 == name then (name, entry) else item : String × Entry).1, _) =
        if item.1 == name then (name, entry.skeleton) else (item.1, item.2.skeleton)
      split <;> rename_i hname <;> simp [hname]
    · rw [List.map_append]
      rfl

theorem skeleton_mark (directory : Directory) (mediaType : MediaType) :
    (directory.mark mediaType).skeleton = directory.skeleton.mark mediaType := by
  unfold mark
  split
  · rfl
  · apply eq_of_entries
    · rw [mediaType_skeleton]
      rfl
    · rw [entries_skeleton]
      exact (entries_skeleton directory).symm

theorem skeleton_empty : empty.skeleton = empty := by
  rw [empty, skeleton, Entry.skeletons]

/-! ### Operations -/

/-- **Ensuring a chain of directories** does the same to the skeleton. -/
theorem skeleton_ensure (above : List String) (mediaType : MediaType) (segments : List String)
    (directory : Directory) :
    directory.skeleton.ensure above mediaType segments =
      ((directory.ensure above mediaType segments).1,
        (directory.ensure above mediaType segments).2.skeleton) := by
  induction segments generalizing above directory with
  | nil => rfl
  | cons segment rest ih =>
    -- What the chain goes on in is marked as what it is asked to be when it is the last.
    have hmarked (child : Directory) :
        (if rest.isEmpty then child.skeleton.mark mediaType else child.skeleton) =
          (if rest.isEmpty then child.mark mediaType else child).skeleton := by
      split
      · rw [skeleton_mark]
      · rfl
    have hfound := get?_skeleton directory segment
    unfold ensure
    rcases hget : directory.get? segment with _ | child | leaf
    · rw [hget, Option.map_none] at hfound
      -- A new directory is its own skeleton, and so is what is made in it.
      have hnew := ih (above ++ [segment]) (if rest.isEmpty then empty.mark mediaType else empty)
      rw [← hmarked, skeleton_empty] at hnew
      have hfilled := congrArg Prod.snd hnew
      dsimp only at hfilled
      simp only [hfound, skeleton_put, Entry.skeleton, ← hfilled]
    · rw [hget, Option.map_some, Entry.skeleton] at hfound
      simp only [hfound, hmarked, ih, skeleton_put, Entry.skeleton]
    · rw [hget, Option.map_some, Entry.skeleton] at hfound
      simp only [hfound]

/-- **Putting a leaf in its place** does the same to the skeleton. -/
theorem skeleton_insert (above : List String) (name : String) (leaf : Leaf)
    (segments : List String) (directory : Directory) :
    directory.skeleton.insert above name leaf.skeleton segments =
      ((directory.insert above name leaf segments).1,
        (directory.insert above name leaf segments).2.skeleton) := by
  induction segments generalizing above directory with
  | nil =>
    have hfound := get?_skeleton directory name
    unfold insert
    rcases hget : directory.get? name with _ | entry
    · rw [hget, Option.map_none] at hfound
      simp only [hfound, skeleton_put, Entry.skeleton]
    · rw [hget, Option.map_some] at hfound
      simp only [hfound]
  | cons segment rest ih =>
    have hfound := get?_skeleton directory segment
    unfold insert
    rcases hget : directory.get? segment with _ | child | other
    · rw [hget, Option.map_none] at hfound
      simp only [hfound]
    · rw [hget, Option.map_some, Entry.skeleton] at hfound
      simp only [hfound, ih, skeleton_put, Entry.skeleton]
    · rw [hget, Option.map_some, Entry.skeleton] at hfound
      simp only [hfound]

end Directory

namespace Artifact

variable (artifact : Artifact)

theorem skeleton_ensureDirectory (segments : List String) (mediaType : MediaType) :
    artifact.skeleton.ensureDirectory segments mediaType =
      ((artifact.ensureDirectory segments mediaType).1,
        (artifact.ensureDirectory segments mediaType).2.skeleton) := by
  unfold ensureDirectory skeleton
  simp only [Directory.skeleton_ensure]

theorem skeleton_addLeaf (segments : List String) (name : String) (leaf : Leaf) :
    artifact.skeleton.addLeaf segments name leaf.skeleton =
      ((artifact.addLeaf segments name leaf).1,
        (artifact.addLeaf segments name leaf).2.skeleton) := by
  unfold addLeaf
  rw [skeleton_ensureDirectory]
  rcases artifact.ensureDirectory segments .directory with ⟨obstacle | _, ensured⟩
  · rfl
  · unfold skeleton
    simp only [Directory.skeleton_insert]

end Artifact

/-! ### Leaves -/

mutual

theorem Directory.located_skeleton (directory : Directory) :
    directory.skeleton.located =
      directory.located.map fun place => (place.1, place.2.skeleton) := by
  obtain ⟨mediaType, entries⟩ := directory
  rw [Directory.skeleton, Directory.located, Directory.located]
  exact Entry.locatedIn_skeletons entries

theorem Entry.located_skeleton (entry : Entry) :
    entry.skeleton.located = entry.located.map fun place => (place.1, place.2.skeleton) := by
  cases entry with
  | leaf leaf =>
    rw [Entry.skeleton, Entry.located, Entry.located]
    rfl
  | directory child =>
    rw [Entry.skeleton, Entry.located, Entry.located]
    exact child.located_skeleton

theorem Entry.locatedIn_skeletons (entries : List (String × Entry)) :
    Entry.locatedIn (Entry.skeletons entries) =
      (Entry.locatedIn entries).map fun place => (place.1, place.2.skeleton) := by
  match entries with
  | [] =>
    rw [Entry.skeletons, Entry.locatedIn]
    rfl
  | (name, entry) :: rest =>
    rw [Entry.skeletons, Entry.locatedIn, Entry.locatedIn, List.map_append, List.map_map,
      Entry.located_skeleton entry, Entry.locatedIn_skeletons rest, List.map_map]
    rfl

end

/-- The leaves of a skeleton stand where those of the artifact do, in the same order. -/
theorem Artifact.chains_skeleton (artifact : Artifact) :
    artifact.skeleton.root.located.map Prod.fst = artifact.root.located.map Prod.fst := by
  rw [skeleton, Directory.located_skeleton, List.map_map]
  rfl

end DeclPrinter
