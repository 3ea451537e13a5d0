import DeclPrinter.Proofs.Artifact.Addressable
import DeclPrinter.Proofs.Artifact.Request
import DeclPrinter.Proofs.Artifact.Skeleton

/-!
# Artifacts only grow

An artifact is built by calls: ensure a chain of directories, or add a leaf. A call that is
refused leaves the artifact as it was (`Directory.ensure_of_error`, `Artifact.addLeaf_of_error`):
directories are made on the way to a leaf that is in the way only if there are none on this way
yet, and in a directory that was just made nothing is in the way. A call that is met only adds
(`Entry.Extends`): leaves stay what they are, and a directory keeps its names in front of the new
ones.

No two entries of a directory have one name, for all that calls lead to; without this an entry
could not be put back in its place.
-/

namespace DeclPrinter

/-- Names stand in front of one that is added to them. -/
theorem prefix_withName (names : List String) (name : Option String) :
    names <+: withName names name := by
  cases name with
  | none => exact List.prefix_refl names
  | some name =>
    unfold withName
    dsimp only
    split
    · exact List.prefix_refl names
    · exact List.prefix_append names [name]

/-! ### Entries at the end of chains -/

/-- The entry at the end of a chain of names below an entry. -/
def Entry.entryAt? : Entry → List String → Option Entry
  | entry, [] => some entry
  | .directory child, name :: rest => (child.get? name).bind (·.entryAt? rest)
  | .leaf _, _ :: _ => none

/-- What stands where the entry is. -/
def Entry.place : Entry → Place
  | .directory child => .directory child.names
  | .leaf file => .leaf file

/-- The entry at the end of a chain of names; the top itself at the end of none. -/
def Artifact.entryAt? (artifact : Artifact) (chain : List String) : Option Entry :=
  (Entry.directory artifact.root).entryAt? chain

namespace Entry

@[simp]
theorem entryAt?_nil (entry : Entry) : entry.entryAt? [] = some entry := by
  cases entry <;> rfl

theorem entryAt?_cons (directory : Directory) (name : String) (rest : List String) :
    (Entry.directory directory).entryAt? (name :: rest) =
      (directory.get? name).bind (·.entryAt? rest) :=
  rfl

/-- What stands at a place tells what the entry there is, but for what is below it. -/
theorem placeAt?_eq_map_place (entry : Entry) (chain : List String) :
    entry.placeAt? chain = (entry.entryAt? chain).map place := by
  induction chain generalizing entry with
  | nil =>
    cases entry with
    | directory child => exact child.placeAt?_nil
    | leaf file => rfl
  | cons name rest ih =>
    cases entry with
    | leaf file => rfl
    | directory child =>
      show child.placeAt? (name :: rest) = _
      rw [Directory.placeAt?_cons, entryAt?_cons]
      rcases child.get? name with _ | found
      · rfl
      · exact ih found

end Entry

namespace Directory

variable {directory : Directory} {name : String} {segments above : List String}
  {mediaType : MediaType} {obstacle : Obstacle}

theorem entryAt?_eq_leaf_iff {chain : List String} {file : Leaf} :
    (Entry.directory directory).entryAt? chain = some (.leaf file) ↔
      directory.placeAt? chain = some (.leaf file) := by
  have hplace : directory.placeAt? chain =
      ((Entry.directory directory).entryAt? chain).map Entry.place :=
    Entry.placeAt?_eq_map_place (.directory directory) chain
  rw [hplace]
  rcases (Entry.directory directory).entryAt? chain with _ | child | other
  · simp
  · simp [Entry.place]
  · simp [Entry.place]

/-- What stands at a place is an entry. -/
theorem exists_entryAt? {chain : List String} (h : directory.placeAt? chain ≠ none) :
    ∃ entry, (Entry.directory directory).entryAt? chain = some entry := by
  have hplace : directory.placeAt? chain =
      ((Entry.directory directory).entryAt? chain).map Entry.place :=
    Entry.placeAt?_eq_map_place (.directory directory) chain
  rw [hplace, ne_eq, Option.map_eq_none_iff] at h
  exact Option.ne_none_iff_exists'.mp h

/-- Where something stands, there is a directory around it. -/
theorem exists_directory_of_snoc (h : directory.placeAt? (segments ++ [name]) ≠ none) :
    ∃ names, directory.placeAt? segments = some (.directory names) := by
  induction segments generalizing directory with
  | nil => exact ⟨directory.names, placeAt?_nil directory⟩
  | cons segment rest ih =>
    rw [List.cons_append, placeAt?_cons] at h
    rw [placeAt?_cons]
    rcases hfound : directory.get? segment with _ | child | file
    · simp [hfound] at h
    · rw [hfound] at h
      exact ih h
    · simp [hfound, Entry.placeAt?] at h

/-- A chain that is not empty leads where it is looked up. -/
theorem find?_eq_entryAt? {chain : List String} (h : chain ≠ []) :
    directory.find? chain = (Entry.directory directory).entryAt? chain := by
  induction chain generalizing directory with
  | nil => exact absurd rfl h
  | cons name rest ih =>
    rw [Entry.entryAt?_cons]
    -- The last name is looked up among the entries here, and any other leads into a directory.
    cases rest with
    | nil =>
      rw [find?]
      rcases directory.get? name with _ | found
      · rfl
      · exact found.entryAt?_nil.symm
    | cons second others =>
      unfold find?
      rcases directory.get? name with _ | child | file
      · rfl
      · exact ih (List.cons_ne_nil second others)
      · rfl

/-! ### Refused calls change nothing -/

/-- An entry put where it is already leaves the directory as it was. -/
theorem put_of_get? {entry : Entry} (hnames : directory.names.Nodup)
    (h : directory.get? name = some entry) : directory.put name entry = directory := by
  have hmediaType : (directory.put name entry).mediaType = directory.mediaType := rfl
  apply eq_of_entries hmediaType
  -- By name there is one entry only, the one that is put.
  have hsame : ∀ old ∈ directory.entries,
      (if old.1 == name then (name, entry) else old) = old := by
    rintro ⟨key, value⟩ hold
    split
    · rename_i hkey
      obtain rfl : key = name := beq_iff_eq.mp hkey
      have hvalue := get?_of_mem hnames hold
      rw [h] at hvalue
      rw [Option.some.inj hvalue]
    · rfl
  show (if (directory.get? name).isSome then directory.entries.map _ else _) = directory.entries
  rw [h, Option.isSome_some, if_pos rfl, List.map_congr_left hsame, List.map_id']

theorem mem_of_get? {entry : Entry} (h : directory.get? name = some entry) :
    (name, entry) ∈ directory.entries := by
  obtain ⟨before, after, heq, _⟩ := List.lookup_eq_some_iff.mp h
  rw [heq]
  simp

/-- In a directory without entries nothing is in the way. -/
theorem ensure_empty (above : List String) (mediaType marked : MediaType)
    (segments : List String) :
    ((empty.mark marked).ensure above mediaType segments).1 = .ok () := by
  rcases ensure_result above mediaType segments (empty.mark marked) with
    ⟨hok, _⟩ | ⟨chain, _, ⟨file, hfile⟩, _⟩
  · exact hok
  · rw [placeAt?_mark, placeAt?_empty] at hfile
    split at hfile <;> cases hfile

/-- **Directories that are refused leave the tree as it was.** -/
theorem ensure_of_error (hnames : directory.HasDistinctNames)
    (h : (directory.ensure above mediaType segments).1 = .error obstacle) :
    (directory.ensure above mediaType segments).2 = directory := by
  induction segments generalizing above directory with
  | nil => cases h
  | cons segment rest ih =>
    rw [ensure] at h ⊢
    rcases hfound : directory.get? segment with _ | child | file
    · -- A new directory is made, in which nothing is in the way.
      simp only [hfound] at h
      have hok : ((if rest.isEmpty then empty.mark mediaType else empty).ensure
          (above ++ [segment]) mediaType rest).1 = .ok () := by
        split
        · exact ensure_empty _ _ _ _
        · exact ensure_empty _ mediaType .directory rest
      rw [hok] at h
      cases h
    · simp only [hfound] at h ⊢
      rcases rest with _ | ⟨next, others⟩
      · cases h
      · -- The chain ends further down, so this directory is not marked.
        have hsame := ih (hnames.below (mem_of_get? hfound)) h
        rw [if_neg (by simp)]
        rw [hsame]
        exact put_of_get? hnames.nodup_names hfound
    · simp only

/-- Plain directories that are there already leave the tree as it was. -/
theorem ensure_of_placeAt? {names : List String} (hnames : directory.HasDistinctNames)
    (h : directory.placeAt? segments = some (.directory names)) :
    directory.ensure above .directory segments = (.ok (), directory) := by
  induction segments generalizing above directory with
  | nil => rfl
  | cons segment rest ih =>
    rw [placeAt?_cons] at h
    rcases hfound : directory.get? segment with _ | child | file
    · -- Nothing is called so, but the chain leads somewhere.
      rw [hfound] at h
      cases h
    · -- The directory below stays as it is, so it is put back where it was.
      rw [hfound] at h
      have hmark : (if rest.isEmpty then child.mark .directory else child) = child := by
        split <;> rfl
      have hsame : child.ensure (above ++ [segment]) .directory rest = (.ok (), child) :=
        ih (hnames.below (mem_of_get? hfound)) h
      rw [ensure]
      simp only [hfound, hmark, hsame]
      rw [put_of_get? hnames.nodup_names hfound]
    · -- From a leaf the chain leads nowhere.
      rw [hfound] at h
      simp only [Option.bind_some, Entry.placeAt?] at h
      split at h <;> cases h

/-- A leaf that is refused leaves the tree as it was. -/
theorem insert_of_error {file : Leaf} (hnames : directory.HasDistinctNames)
    (h : (directory.insert above name file segments).1 = .error obstacle) :
    (directory.insert above name file segments).2 = directory := by
  induction segments generalizing above directory with
  | nil =>
    rw [insert] at h ⊢
    rcases hfound : directory.get? name with _ | entry
    · -- The place is free, so the leaf is not refused.
      simp only [hfound] at h
      cases h
    · simp only
  | cons segment rest ih =>
    rw [insert] at h ⊢
    rcases hfound : directory.get? segment with _ | child | other
    · simp only
    · -- Refused below, where nothing changed, so what is put back is what was there.
      simp only [hfound] at h ⊢
      rw [ih (hnames.below (mem_of_get? hfound)) h]
      exact put_of_get? hnames.nodup_names hfound
    · simp only

/-! ### The way to a leaf -/

/-- The way to a directory comes to a segment that is no directory. -/
inductive LosesWay : Directory → List String → Prop where
  | here {directory : Directory} {segment : String} {rest : List String}
      (h : ∀ child, directory.get? segment ≠ some (.directory child)) :
      LosesWay directory (segment :: rest)
  | further {directory child : Directory} {segment : String} {rest : List String}
      (hchild : directory.get? segment = some (.directory child)) (h : LosesWay child rest) :
      LosesWay directory (segment :: rest)

/-- Inserting a leaf reports a bare segment where it loses its way. -/
theorem insert_of_losesWay (h : directory.LosesWay segments) (above : List String) (name : String)
    (file : Leaf) : ∃ segment ∈ segments,
      (directory.insert above name file segments).1 = .error ⟨segment⟩ := by
  induction h generalizing above with
  | @here directory segment rest hnone =>
    -- No directory is called so: there is nothing or a leaf.
    refine ⟨segment, List.mem_cons_self, ?_⟩
    rw [insert]
    rcases hfound : directory.get? segment with _ | child | other
    · rfl
    · exact absurd hfound (hnone child)
    · rfl
  | @further directory child segment rest hchild _ ih =>
    obtain ⟨lost, hlost, herror⟩ := ih (above ++ [segment])
    refine ⟨lost, List.mem_cons_of_mem segment hlost, ?_⟩
    rw [insert]
    simp only [hchild]
    exact herror

theorem not_losesWay_of_placeAt? {names : List String}
    (h : directory.placeAt? segments = some (.directory names)) :
    ¬ directory.LosesWay segments := by
  intro hlost
  induction hlost with
  | @here directory segment rest hnone =>
    rw [placeAt?_cons] at h
    rcases hfound : directory.get? segment with _ | child | other
    · rw [hfound] at h
      cases h
    · exact hnone child hfound
    · rw [hfound] at h
      -- Behind a leaf there is no directory.
      simp only [Option.bind_some, Entry.placeAt?] at h
      split at h <;> cases h
  | @further directory child segment rest hchild _ ih =>
    rw [placeAt?_cons, hchild] at h
    exact ih h

end Directory

/-! ### Growing entries -/

/-- The media type stays, or turns into the one that is asked for. -/
def MediaType.TurnsInto (asked old new : MediaType) : Prop :=
  new = old ∨ asked ≠ .directory ∧ new = asked

/-- What an entry may become: a leaf stays what it is, and a directory has its old names in
front. -/
inductive Entry.Becomes (asked : MediaType) : Entry → Entry → Prop where
  | leaf (file : Leaf) : Becomes asked (.leaf file) (.leaf file)
  | directory {old new : Directory} (names : old.names <+: new.names)
      (mediaType : asked.TurnsInto old.mediaType new.mediaType) :
      Becomes asked (.directory old) (.directory new)

/-- Every entry below the one is, at the same place below the other, what it may become. -/
def Entry.Extends (asked : MediaType) (before after : Entry) : Prop :=
  ∀ chain old, before.entryAt? chain = some old →
    ∃ new, after.entryAt? chain = some new ∧ old.Becomes asked new

theorem MediaType.TurnsInto.trans {asked first second third : MediaType}
    (hfirst : asked.TurnsInto first second) (hsecond : asked.TurnsInto second third) :
    asked.TurnsInto first third := by
  rcases hsecond with rfl | hasked
  · exact hfirst
  · exact .inr hasked

/-- A module's directory stays one as long as no other media type is asked for. -/
theorem MediaType.TurnsInto.moduleDirectory {asked new : MediaType}
    (h : asked.TurnsInto .moduleDirectory new)
    (hasked : asked = .directory ∨ asked = .moduleDirectory) : new = .moduleDirectory := by
  rcases h with rfl | ⟨hne, rfl⟩
  · rfl
  · exact hasked.resolve_left hne

namespace Entry

variable {asked : MediaType} {first second third : Entry}

theorem Becomes.refl (entry : Entry) : entry.Becomes asked entry := by
  cases entry with
  | leaf file => exact .leaf file
  | directory child => exact .directory (List.prefix_refl _) (.inl rfl)

theorem Becomes.trans (hfirst : first.Becomes asked second) (hsecond : second.Becomes asked third) :
    first.Becomes asked third := by
  cases hfirst with
  | leaf file => exact hsecond
  | directory hnames hmediaType =>
    cases hsecond with
    | directory hnames' hmediaType' =>
      exact .directory (hnames.trans hnames') (hmediaType.trans hmediaType')

theorem Extends.refl (entry : Entry) : entry.Extends asked entry :=
  fun _ old hold => ⟨old, hold, .refl old⟩

theorem Extends.trans (hfirst : first.Extends asked second) (hsecond : second.Extends asked third) :
    first.Extends asked third := by
  intro chain old hold
  obtain ⟨middle, hmiddle, hbecomes⟩ := hfirst chain old hold
  obtain ⟨new, hnew, hrest⟩ := hsecond chain middle hmiddle
  exact ⟨new, hnew, hbecomes.trans hrest⟩

end Entry

namespace Directory

variable {asked : MediaType} {directory : Directory} {name : String}
  {above segments : List String}

/-- **An entry put in the place of one that it extends** extends the directory. -/
theorem extends_put {entry : Entry}
    (h : ∀ old, directory.get? name = some old → old.Extends asked entry) :
    (Entry.directory directory).Extends asked (.directory (directory.put name entry)) := by
  intro chain old hold
  cases chain with
  | nil =>
    -- The directory itself: a name that is put is an old one or comes last.
    rw [Entry.entryAt?_nil] at hold
    cases hold
    refine ⟨_, Entry.entryAt?_nil _, .directory ?_ (.inl rfl)⟩
    rw [names_put]
    exact prefix_withName _ _
  | cons other rest =>
    -- Below it only the entry that was put differs.
    rw [Entry.entryAt?_cons] at hold
    rw [Entry.entryAt?_cons, get?_put]
    split
    · rename_i hother
      subst hother
      obtain ⟨found, hfound, hrest⟩ := Option.bind_eq_some_iff.mp hold
      exact h found hfound rest old hrest
    · exact ⟨old, hold, .refl old⟩

theorem extends_mark (directory : Directory) (asked : MediaType) :
    (Entry.directory directory).Extends asked (.directory (directory.mark asked)) := by
  by_cases hplain : asked = .directory
  · rw [mark, if_pos hplain]
    exact .refl _
  · rw [mark, if_neg hplain]
    -- A directory of a module is asked for: the mark is all that changes.
    intro chain old hold
    cases chain with
    | nil =>
      rw [Entry.entryAt?_nil] at hold
      cases hold
      exact ⟨_, Entry.entryAt?_nil _, .directory (List.prefix_refl _) (.inr ⟨hplain, rfl⟩)⟩
    | cons other rest => exact ⟨old, hold, .refl old⟩

/-- **Ensuring directories extends the tree,** also where it is refused in the end. -/
theorem extends_ensure (above : List String) (asked : MediaType) (segments : List String)
    (directory : Directory) :
    (Entry.directory directory).Extends asked
      (.directory (directory.ensure above asked segments).2) := by
  induction segments generalizing above directory with
  | nil => exact .refl _
  | cons segment rest ih =>
    rw [ensure]
    rcases hfound : directory.get? segment with _ | child | file
    · -- Nothing is called so, and nothing that was there is replaced by the new directories.
      simp only
      refine extends_put fun old hold => ?_
      rw [hfound] at hold
      cases hold
    · -- The last directory of the chain is marked; the others are only walked through.
      simp only
      refine extends_put fun old hold => ?_
      rw [hfound] at hold
      cases hold
      have hmarked : (Entry.directory child).Extends asked
          (.directory (if rest.isEmpty then child.mark asked else child)) := by
        split
        · exact extends_mark child asked
        · exact .refl _
      exact hmarked.trans (ih _ _)
    · exact .refl _

/-- **Inserting a leaf extends the tree.** -/
theorem extends_insert (above : List String) (name : String) (file : Leaf) (segments : List String)
    (directory : Directory) :
    (Entry.directory directory).Extends asked
      (.directory (directory.insert above name file segments).2) := by
  induction segments generalizing above directory with
  | nil =>
    rw [insert]
    rcases hfound : directory.get? name with _ | entry
    · -- The name is free, so the leaf replaces nothing.
      simp only
      refine extends_put fun old hold => ?_
      rw [hfound] at hold
      cases hold
    · exact .refl _
  | cons segment rest ih =>
    rw [insert]
    rcases hfound : directory.get? segment with _ | child | other
    · exact .refl _
    · simp only
      refine extends_put fun old hold => ?_
      rw [hfound] at hold
      cases hold
      exact ih _ _
    · exact .refl _

end Directory

namespace Artifact

variable {artifact : Artifact} {segments : List String} {name : String} {file : Leaf}
  {obstacle : Obstacle}

/-! ### Paths -/

/-- **The text of a chain is its names joined by slashes,** if the first is not empty. -/
theorem chainText_eq_joinPath {chain : List String} (h : ∀ name ∈ chain, IsPathName name) :
    chainText chain = joinPath chain := by
  -- Behind a text that is not empty each name follows a slash.
  have hbehind (path : String) (hpath : path ≠ "") (rest : List String)
      (hrest : ∀ name ∈ rest, IsPathName name) :
      rest.foldl belowPath path = joinPath (path :: rest) := by
    induction rest generalizing path with
    | nil => exact String.intercalate_singleton.symm
    | cons name others ih =>
      have hbelow : belowPath path name = path ++ "/" ++ name := by
        rw [belowPath, if_neg (by simpa [String.isEmpty_iff] using hpath)]
      have hne : path ++ "/" ++ name ≠ "" := by
        intro hempty
        have hlist := congrArg String.toList hempty
        simp at hlist
      rw [List.foldl_cons, hbelow,
        ih _ hne fun other hother => hrest other (List.mem_cons_of_mem name hother)]
      rw [joinPath, joinPath, String.intercalate_cons_append, String.intercalate_cons_cons]
  cases chain with
  | nil => rfl
  | cons name rest =>
    have hname := (h name List.mem_cons_self).ne_empty
    have hempty : "".isEmpty = true := rfl
    rw [chainText, List.foldl_cons, belowPath, if_pos hempty]
    exact hbehind name hname rest fun other hother => h other (List.mem_cons_of_mem name hother)

/-- An entry is found at its names joined by slashes. -/
theorem get?_joinPath {chain : List String} (hne : chain ≠ [])
    (h : ∀ name ∈ chain, IsPathName name) :
    artifact.get? (joinPath chain) = artifact.entryAt? chain := by
  rw [get?, ← chainText_eq_joinPath h, pathNames_chainText h]
  exact Directory.find?_eq_entryAt? hne

/-! ### Refused calls change nothing -/

/-- Where a leaf is refused in a directory that could be ensured, something stands at its place,
and that is what is reported. -/
theorem taken_of_addLeaf_eq_error
    (hensured : (artifact.ensureDirectory segments .directory).1 = .ok ())
    (h : (artifact.addLeaf segments name file).1 = .error obstacle) :
    artifact.root.placeAt? (segments ++ [name]) ≠ none ∧
      obstacle.path = joinPath (segments ++ [name]) := by
  have hmet := met_ensureDirectory hensured
  rw [addLeaf_of_ensured hensured] at h
  -- Making the directories did not touch the place of the leaf.
  have hdir := hmet.dir_eq segments (List.prefix_refl segments)
  have hplace := hmet.other_eq (segments ++ [name]) (not_snoc_part segments name)
    fun _ hleaf => by cases hleaf
  have hresult := (Directory.insert_result [] name file hdir).symm.trans h
  rw [hplace] at hresult
  split at hresult
  · cases hresult
  · rename_i htaken
    cases hresult
    exact ⟨htaken, rfl⟩

theorem addLeaf_of_not_ensured
    (h : (artifact.ensureDirectory segments .directory).1 = .error obstacle) :
    artifact.addLeaf segments name file =
      (.error obstacle, (artifact.ensureDirectory segments .directory).2) := by
  unfold addLeaf
  rcases hpair : artifact.ensureDirectory segments .directory with ⟨result, ensured⟩
  rw [hpair] at h
  subst h
  rfl

/-- **A leaf that is refused leaves the artifact as it was,** the directories that it needed
included. -/
theorem addLeaf_of_error (hnames : artifact.root.HasDistinctNames)
    (h : (artifact.addLeaf segments name file).1 = .error obstacle) :
    (artifact.addLeaf segments name file).2 = artifact := by
  rcases hensured : (artifact.ensureDirectory segments .directory).1 with blocking | ⟨⟩
  · rw [addLeaf_of_not_ensured hensured]
    exact congrArg Artifact.mk (Directory.ensure_of_error hnames hensured)
  · -- What is in the way of the leaf was there before, and with it the directory.
    obtain ⟨htaken, _⟩ := taken_of_addLeaf_eq_error hensured h
    obtain ⟨names, hthere⟩ := Directory.exists_directory_of_snoc htaken
    have hsame : artifact.root.ensure [] .directory segments = (.ok (), artifact.root) :=
      Directory.ensure_of_placeAt? hnames hthere
    have hroot : (artifact.ensureDirectory segments .directory).2.root = artifact.root :=
      congrArg Prod.snd hsame
    rw [addLeaf_of_ensured hensured, hroot] at h ⊢
    exact congrArg Artifact.mk (Directory.insert_of_error hnames h)

/-! ### Calls -/

/-- A call on an artifact. -/
inductive Call where
  /-- A chain of directories is to be there, the last one of a media type. -/
  | ensure (segments : List String) (mediaType : MediaType)
  /-- A leaf is to be in a directory under a name. -/
  | add (segments : List String) (name : String) (file : Leaf)
  deriving DecidableEq, Repr, Inhabited

namespace Call

/-- The media type that the last directory is asked to be of. -/
def asked : Call → MediaType
  | ensure _ mediaType => mediaType
  | add _ _ _ => .directory

/-- What the call asks for. -/
def request : Call → Request
  | ensure segments _ => .directory segments
  | add segments name file => .leaf segments name file

/-- The names that the call gives. -/
def chain (call : Call) : List String :=
  call.request.chain

end Call

/-- Carries out a call. -/
def run (artifact : Artifact) : Call → Except Obstacle Unit × Artifact
  | .ensure segments mediaType => artifact.ensureDirectory segments mediaType
  | .add segments name file => artifact.addLeaf segments name file

/-- The artifact after calls on the empty one, refused calls among them. -/
def after (calls : List Call) : Artifact :=
  calls.foldl (fun artifact call => (artifact.run call).2) empty

/-- The artifact has all that was there, as it was, and what is new stands after it. -/
def Extends (asked : MediaType) (before after : Artifact) : Prop :=
  (Entry.directory before.root).Extends asked (.directory after.root)

/-- The directory of a module is at the end of the chain. -/
def IsModuleAt (artifact : Artifact) (chain : List String) : Prop :=
  ∃ directory, artifact.entryAt? chain = some (.directory directory) ∧
    directory.mediaType = .moduleDirectory

theorem Extends.isModuleAt {asked : MediaType} {before after : Artifact} {chain : List String}
    (h : before.Extends asked after) (hasked : asked = .directory ∨ asked = .moduleDirectory)
    (hmodule : before.IsModuleAt chain) : after.IsModuleAt chain := by
  obtain ⟨old, hold, hmediaType⟩ := hmodule
  obtain ⟨new, hnew, hbecomes⟩ := h chain _ hold
  cases hbecomes with
  | directory _ hturns =>
    rw [hmediaType] at hturns
    exact ⟨_, hnew, hturns.moduleDirectory hasked⟩

theorem Extends.leaf {asked : MediaType} {before after : Artifact} {chain : List String}
    (h : before.Extends asked after) (hleaf : before.entryAt? chain = some (.leaf file)) :
    after.entryAt? chain = some (.leaf file) := by
  obtain ⟨new, hnew, hbecomes⟩ := h chain _ hleaf
  cases hbecomes with
  | leaf file => exact hnew

theorem extends_ensureDirectory (artifact : Artifact) (segments : List String)
    (mediaType : MediaType) :
    artifact.Extends mediaType (artifact.ensureDirectory segments mediaType).2 :=
  Directory.extends_ensure [] mediaType segments artifact.root

theorem extends_run (artifact : Artifact) (call : Call) :
    artifact.Extends call.asked (artifact.run call).2 := by
  cases call with
  | ensure segments mediaType => exact artifact.extends_ensureDirectory segments mediaType
  | add segments name file =>
    show artifact.Extends .directory (artifact.addLeaf segments name file).2
    -- The directories are made first, and stay if the leaf is then refused.
    have hensured := artifact.extends_ensureDirectory segments .directory
    unfold addLeaf
    rcases hpair : artifact.ensureDirectory segments .directory with ⟨_ | ⟨⟩, ensured⟩
    · rw [hpair] at hensured
      exact hensured
    · rw [hpair] at hensured
      exact Entry.Extends.trans hensured
        (Directory.extends_insert [] name file segments ensured.root)

/-- **A call that is met** adds its request to those that the artifact shows, and one that is
refused leaves it as it was. -/
theorem shows_run {requests : List Request} (h : artifact.root.Shows requests) (call : Call) :
    (artifact.run call).1 = .ok () ∧
        (artifact.run call).2.root.Shows (requests ++ [call.request]) ∨
      (∃ obstacle, (artifact.run call).1 = .error obstacle) ∧ (artifact.run call).2 = artifact := by
  cases call with
  | ensure segments mediaType =>
    rcases hresult : (artifact.ensureDirectory segments mediaType).1 with obstacle | _
    · have hsame := Directory.ensure_of_error h.hasDistinctNames hresult
      exact .inr ⟨⟨obstacle, hresult⟩, congrArg Artifact.mk hsame⟩
    · exact .inl ⟨hresult, h.snoc (met_ensureDirectory hresult)⟩
  | add segments name file =>
    rcases hresult : (artifact.addLeaf segments name file).1 with obstacle | _
    · exact .inr ⟨⟨obstacle, hresult⟩, addLeaf_of_error h.hasDistinctNames hresult⟩
    · exact .inl ⟨hresult, h.snoc (met_addLeaf hresult)⟩

/-- **What calls lead to shows the requests of those that were met.** -/
theorem exists_shows_after (calls : List Call) :
    ∃ requests, (after calls).root.Shows requests ∧
      ∀ request ∈ requests, ∃ call ∈ calls, call.request = request := by
  induction calls using List.reverseRecOn with
  | nil => exact ⟨[], .empty, by simp⟩
  | append_singleton earlier call ih =>
    obtain ⟨requests, hshows, hasked⟩ := ih
    have hstep : after (earlier ++ [call]) = ((after earlier).run call).2 := by
      rw [after, List.foldl_append]
      rfl
    have hearlier : ∀ request ∈ requests, ∃ other ∈ earlier ++ [call], other.request = request := by
      intro request hrequest
      obtain ⟨other, hother, hsame⟩ := hasked request hrequest
      exact ⟨other, List.mem_append_left _ hother, hsame⟩
    rw [hstep]
    rcases shows_run hshows call with ⟨_, hmet⟩ | ⟨_, hsame⟩
    · -- A call that is met adds its request to those met before.
      refine ⟨requests ++ [call.request], hmet, ?_⟩
      intro request hrequest
      rcases List.mem_append.mp hrequest with hold | hnew
      · exact hearlier request hold
      · refine ⟨call, by simp, ?_⟩
        exact (List.mem_singleton.mp hnew).symm
    · rw [hsame]
      exact ⟨requests, hshows, hearlier⟩

theorem hasDistinctNames_after (calls : List Call) : (after calls).root.HasDistinctNames := by
  obtain ⟨_, hshows, _⟩ := exists_shows_after calls
  exact hshows.hasDistinctNames

/-- **What is in the way is there.** The path that is reported is that of an entry on the chain
of names that the call gives. -/
theorem exists_entryAt?_of_error {call : Call} (h : (artifact.run call).1 = .error obstacle) :
    ∃ chain entry, chain ≠ [] ∧ chain <+: call.chain ∧ artifact.entryAt? chain = some entry ∧
      obstacle.path = joinPath chain := by
  -- Only a leaf stops the making of directories.
  have hensure {segments : List String} {mediaType : MediaType}
      (herror : (artifact.ensureDirectory segments mediaType).1 = .error obstacle) :
      ∃ chain entry, chain ≠ [] ∧ chain <+: segments ∧ artifact.entryAt? chain = some entry ∧
        obstacle.path = joinPath chain := by
    rcases Directory.ensure_result [] mediaType segments artifact.root with
      ⟨hok, _⟩ | ⟨chain, hpart, ⟨blocking, hblocking⟩, hreported⟩
    · exact absurd (hok.symm.trans herror) (by simp)
    · have hpath := hreported.symm.trans herror
      cases hpath
      refine ⟨chain, .leaf blocking, ?_, hpart, Directory.entryAt?_eq_leaf_iff.mpr hblocking, rfl⟩
      rintro rfl
      simp at hblocking
  cases call with
  | ensure segments mediaType => exact hensure h
  | add segments name file =>
    rcases hensured : (artifact.ensureDirectory segments .directory).1 with blocking | ⟨⟩
    · -- The directory of the leaf is not to be had, and its chain is part of that of the leaf.
      have hsame : (artifact.addLeaf segments name file).1 = .error blocking := by
        rw [addLeaf_of_not_ensured hensured]
      obtain rfl : blocking = obstacle := Except.error.inj (hsame.symm.trans h)
      obtain ⟨chain, entry, hne, hpart, hentry, hpath⟩ := hensure hensured
      exact ⟨chain, entry, hne, hpart.trans (List.prefix_append ..), hentry, hpath⟩
    · -- The directory is there, so the place in it is taken.
      obtain ⟨htaken, hpath⟩ := taken_of_addLeaf_eq_error hensured h
      obtain ⟨entry, hentry⟩ := Directory.exists_entryAt? htaken
      exact ⟨segments ++ [name], entry, by simp, List.prefix_refl _, hentry, hpath⟩

/-- The way to directories that were ensured is never lost. -/
theorem not_losesWay_ensured {mediaType : MediaType}
    (h : (artifact.ensureDirectory segments mediaType).1 = .ok ()) :
    ¬ (artifact.ensureDirectory segments mediaType).2.root.LosesWay segments :=
  Directory.not_losesWay_of_placeAt? ((met_ensureDirectory h).dir_eq segments (List.prefix_refl _))

/-- **An artifact only grows.** Take what calls lead to, and one more call. If it is refused, the
artifact is as it was, and the path that is reported is that of an entry that is there. If it is
met, all that was there is there as it was, in order and in front of what is new; and where only
directories and directories of modules are asked for, the latter stay what they are. A leaf is
never stopped on the way to its directory once that is ensured. -/
theorem run_after (calls : List Call) (call : Call) :
    (match (after calls).run call with
      | (.error obstacle, ended) => ended = after calls ∧
        ∃ chain entry, chain ≠ [] ∧ chain <+: call.chain ∧
          (after calls).entryAt? chain = some entry ∧ obstacle.path = joinPath chain ∧
          ((∀ name ∈ chain, IsPathName name) → (after calls).get? obstacle.path = some entry)
      | (.ok (), ended) => (after calls).Extends call.asked ended ∧
        (call.asked = .directory ∨ call.asked = .moduleDirectory →
          ∀ chain, (after calls).IsModuleAt chain → ended.IsModuleAt chain)) ∧
      ∀ segments, ((after calls).ensureDirectory segments .directory).1 = .ok () →
        ¬ ((after calls).ensureDirectory segments .directory).2.root.LosesWay segments := by
  obtain ⟨requests, hshows, _⟩ := exists_shows_after calls
  refine ⟨?_, fun segments => not_losesWay_ensured⟩
  have hextends := (after calls).extends_run call
  rcases hrun : (after calls).run call with ⟨obstacle | ⟨⟩, ended⟩
  · -- Refused: the artifact is as it was, and what is reported stands in it.
    have herror : ((after calls).run call).1 = .error obstacle := by rw [hrun]
    rcases shows_run hshows call with ⟨hok, _⟩ | ⟨_, hsame⟩
    · exact absurd (hok.symm.trans herror) (by simp)
    · rw [hrun] at hsame
      obtain ⟨chain, entry, hne, hpart, hentry, hpath⟩ := exists_entryAt?_of_error herror
      refine ⟨hsame, chain, entry, hne, hpart, hentry, hpath, fun hnames => ?_⟩
      rw [hpath, get?_joinPath hne hnames, hentry]
  · rw [hrun] at hextends
    exact ⟨hextends, fun hasked chain => hextends.isModuleAt hasked⟩

/-- A leaf is never replaced. -/
example : ((after [.add ["pkg"] "a.go" ⟨.source "text/x-go", "1"⟩]).run
    (.add ["pkg"] "a.go" ⟨.source "text/x-go", "2"⟩)).1 = .error ⟨"pkg/a.go"⟩ :=
  rfl

end Artifact

end DeclPrinter
