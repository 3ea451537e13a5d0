import DeclPrinter.Proofs.Artifact.Located
import DeclPrinter.Proofs.Text.Pieces

/-!
# Finding leaves by their paths

The list of leaves joins the names that lead to a leaf by slashes, and a path is looked up by
the names that its slashes separate. What the one joins the other separates again, as long as
every name on the way is one name: not empty, and without a slash (`pathNames_chainText`). So an
artifact all of whose leaves stand below such names is addressed by the list of its leaves.
-/

namespace DeclPrinter

/-- A name that is one name in a path. -/
abbrev IsPathName (name : String) : Prop :=
  Text.IsPiece (· == '/') name

namespace Artifact

/-- The list of leaves gives no path twice, and the text at each path is that of its leaf. -/
def Addressable (artifact : Artifact) : Prop :=
  (artifact.leaves.map Prod.fst).Nodup ∧
    ∀ path leaf, (path, leaf) ∈ artifact.leaves → artifact.text? path = some leaf.content

/-! ### Paths and names -/

theorem pathNames_eq_pieces (path : String) :
    pathNames path = Text.pieces (· == '/') path := by
  have hempty (name : List Char) : (String.ofList name).isEmpty = name.isEmpty := by
    rw [Bool.eq_iff_iff, String.isEmpty_iff, String.ofList_eq_empty_iff, List.isEmpty_iff]
  rw [pathNames, Text.pieces, Text.splitAt, List.filter_map]
  simp only [Function.comp_def, hempty]

/-- The names in a path one name further down are those of the path and those of the name. -/
theorem pathNames_belowPath (path name : String) :
    pathNames (belowPath path name) = pathNames path ++ pathNames name := by
  simp only [pathNames_eq_pieces]
  unfold belowPath
  by_cases hpath : path = ""
  · subst hpath
    rw [Text.pieces_empty]
    rfl
  · have hkept : path.isEmpty = false := by simpa [String.isEmpty_iff] using hpath
    have hslash : "/".toList = ['/'] := rfl
    rw [hkept]
    exact Text.pieces_append hslash rfl

theorem pathNames_foldl_belowPath (chain : List String) (path : String) :
    pathNames (chain.foldl belowPath path) = pathNames path ++ chain.flatMap pathNames := by
  induction chain generalizing path with
  | nil => simp
  | cons name rest ih =>
    rw [List.foldl_cons, ih, pathNames_belowPath, List.flatMap_cons, List.append_assoc]

/-- **The names in the text of a chain are the chain.** -/
theorem pathNames_chainText {chain : List String} (h : ∀ name ∈ chain, IsPathName name) :
    pathNames (chainText chain) = chain := by
  have hself : chain.flatMap pathNames = chain.flatMap fun name => [name] := by
    refine List.flatMap_congr fun name hname => ?_
    rw [pathNames_eq_pieces, (h name hname).pieces_eq]
  have hnone : pathNames "" = [] := by
    rw [pathNames_eq_pieces, Text.pieces_empty]
  rw [chainText, pathNames_foldl_belowPath, hnone, hself]
  simp

end Artifact

/-- A leaf is looked up where it stands. -/
theorem Directory.find?_of_placeAt? {directory : Directory} {chain : List String} {leaf : Leaf}
    (h : directory.placeAt? chain = some (.leaf leaf)) :
    directory.find? chain = some (.leaf leaf) := by
  induction chain generalizing directory with
  | nil =>
    rw [placeAt?_nil] at h
    cases h
  | cons name rest ih =>
    rw [placeAt?_cons] at h
    rcases hfound : directory.get? name with _ | child | other
    · rw [hfound] at h
      cases h
    · -- The chain goes on, so it is not at its end here.
      rw [hfound] at h
      cases rest with
      | nil => simp [Entry.placeAt?] at h
      | cons second others =>
        simp only [find?, hfound]
        exact ih h
    · rw [hfound] at h
      by_cases hrest : rest = []
      · subst hrest
        simp only [Option.bind_some, Entry.placeAt?, if_true, Option.some.injEq,
          Place.leaf.injEq] at h
        rw [find?, hfound, h]
      · simp [Entry.placeAt?, hrest] at h

namespace Artifact

variable {artifact : Artifact}

/-- **An artifact is addressed by the list of its leaves** if all names that lead to leaves are
single names. -/
theorem addressable_of_names (hdistinct : artifact.root.HasDistinctNames)
    (hnames : ∀ chain leaf, (chain, leaf) ∈ artifact.root.located →
      ∀ name ∈ chain, IsPathName name) : artifact.Addressable := by
  constructor
  · -- Two leaves with one path would have one chain.
    have hpaths : artifact.leaves.map Prod.fst =
        (artifact.root.located.map Prod.fst).map chainText := by
      rw [leaves_eq, List.map_map, List.map_map]
      rfl
    rw [hpaths]
    refine List.Nodup.map_on ?_ (Directory.nodup_located artifact.root hdistinct)
    intro first hfirst second hsecond heq
    obtain ⟨⟨chain, leaf⟩, hplace, rfl⟩ := List.mem_map.mp hfirst
    obtain ⟨⟨other, file⟩, hother, rfl⟩ := List.mem_map.mp hsecond
    have hback := congrArg pathNames heq
    rwa [pathNames_chainText (hnames chain leaf hplace),
      pathNames_chainText (hnames other file hother)] at hback
  · intro path leaf hmem
    rw [leaves_eq] at hmem
    obtain ⟨⟨chain, file⟩, hplace, heq⟩ := List.mem_map.mp hmem
    obtain ⟨rfl, rfl⟩ := Prod.mk.inj heq
    have hstands := (Directory.mem_located hdistinct chain file).mp hplace
    have hfound := Directory.find?_of_placeAt? hstands
    rw [text?, get?, pathNames_chainText (hnames chain file hplace), hfound]

end Artifact

end DeclPrinter
