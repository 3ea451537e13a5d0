import DeclPrinter.Proofs.Artifact.Growth

/-!
# The list of leaves and the look-up by path

The list of leaves joins the names that lead to a leaf, and the look-up takes a path apart again.
As long as calls give single names, the two agree: the list holds a leaf with a path exactly when
the look-up finds it there (`Artifact.leaves_agree`). For this the path has to be the text of its
names, that is without a slash at its start, at its end, or next to another
(`chainText_pathNames`): the look-up does not see such slashes, and the list never writes them.

What was added stays where it was put (`Artifact.leaf_foldl`), so each leaf that a call added is
in the list, and there only once.
-/

namespace DeclPrinter

/-- A path without a slash at its start, at its end, or next to another. -/
structure IsTidyPath (path : String) : Prop where
  leading : ¬ ['/'] <+: path.toList
  trailing : ¬ ['/'] <:+ path.toList
  doubled : ¬ ['/', '/'] <:+: path.toList

/-- **Between the slashes of a tidy path there are names.** -/
theorem IsTidyPath.not_mem_splitAt {path : String} (h : IsTidyPath path) (hne : path ≠ "") :
    "" ∉ Text.splitAt (· == '/') path := by
  intro hmem
  obtain ⟨before, after, hcut⟩ := List.append_of_mem hmem
  have hslash : "/".toList = ['/'] := rfl
  have hpath := Text.intercalate_splitAt hslash path
  rw [hcut] at hpath
  -- What is around the empty piece tells which slashes are around it.
  rcases before with _ | ⟨first, earlier⟩
  · cases after with
    | nil => exact hne (by simpa using hpath.symm)
    | cons next others =>
      apply h.leading
      rw [← hpath, List.nil_append, String.intercalate_cons_cons]
      simp
  · rw [String.intercalate_append_of_ne_nil (List.cons_ne_nil first earlier)
      (List.cons_ne_nil "" after)] at hpath
    cases after with
    | nil =>
      apply h.trailing
      rw [← hpath, String.intercalate_singleton, String.append_empty, String.toList_append]
      exact List.suffix_append _ _
    | cons next others =>
      apply h.doubled
      rw [← hpath, String.intercalate_cons_cons]
      refine ⟨("/".intercalate (first :: earlier)).toList,
        ("/".intercalate (next :: others)).toList, ?_⟩
      simp

instance (name : String) : Decidable (IsPathName name) :=
  decidable_of_iff (name ≠ "" ∧ name.toList.any (· == '/') = false)
    ⟨fun h => ⟨h.1, by simpa using h.2⟩, fun h => ⟨h.ne_empty, by simpa using h.unbroken⟩⟩

namespace Artifact

/-- **A tidy path is the text of its names.** -/
theorem chainText_pathNames {path : String} (h : IsTidyPath path) :
    chainText (pathNames path) = path := by
  have hslash : "/".toList = ['/'] := rfl
  have hnames : ∀ name ∈ pathNames path, IsPathName name := by
    intro name hname
    rw [pathNames_eq_pieces] at hname
    exact Text.isPiece_of_mem_pieces hname
  rw [chainText_eq_joinPath hnames, pathNames_eq_pieces]
  by_cases hempty : path = ""
  · subst hempty
    rw [Text.pieces_empty]
    rfl
  · -- A tidy path has no empty piece, so none is left out.
    have hall : Text.pieces (· == '/') path = Text.splitAt (· == '/') path := by
      refine List.filter_eq_self.mpr fun name hname => ?_
      have hne : name ≠ "" := by
        rintro rfl
        exact h.not_mem_splitAt hempty hname
      simpa [String.isEmpty_iff] using hne
    rw [hall]
    exact Text.intercalate_splitAt hslash path

variable {artifact : Artifact}

/-- A leaf is listed with its path exactly where it is looked up, if names are single names. -/
theorem mem_leaves_iff (hdistinct : artifact.root.HasDistinctNames)
    (hnames : ∀ chain leaf, (chain, leaf) ∈ artifact.root.located →
      ∀ name ∈ chain, IsPathName name) {path : String} (htidy : IsTidyPath path) (leaf : Leaf) :
    (path, leaf) ∈ artifact.leaves ↔ artifact.get? path = some (.leaf leaf) := by
  rw [leaves_eq, List.mem_map]
  constructor
  · rintro ⟨⟨chain, file⟩, hplace, heq⟩
    obtain ⟨rfl, rfl⟩ := Prod.mk.inj heq
    rw [get?, pathNames_chainText (hnames chain file hplace)]
    exact Directory.find?_of_placeAt? ((Directory.mem_located hdistinct chain file).mp hplace)
  · intro hfound
    refine ⟨(pathNames path, leaf), ?_, ?_⟩
    · -- What is found is no directory, so the path has names.
      rw [Directory.mem_located hdistinct, ← Directory.entryAt?_eq_leaf_iff]
      have hne : pathNames path ≠ [] := by
        intro hnone
        rw [get?, hnone] at hfound
        cases hfound
      rw [← Directory.find?_eq_entryAt? hne]
      exact hfound
    · dsimp only
      rw [chainText_pathNames htidy]

/-! ### What calls lead to -/

theorem after_append (earlier later : List Call) :
    after (earlier ++ later) =
      later.foldl (fun artifact call => (artifact.run call).2) (after earlier) :=
  List.foldl_append ..

/-- **What was added stays** where it was put, whatever calls follow. -/
theorem leaf_foldl {chain : List String} {file : Leaf} (calls : List Call)
    (h : artifact.entryAt? chain = some (.leaf file)) :
    (calls.foldl (fun artifact call => (artifact.run call).2) artifact).entryAt? chain =
      some (.leaf file) := by
  induction calls generalizing artifact with
  | nil => exact h
  | cons call rest ih => exact ih ((artifact.extends_run call).leaf h)

/-- A leaf that is added stands at its place. -/
theorem entryAt?_addLeaf {segments : List String} {name : String} {file : Leaf}
    (h : (artifact.addLeaf segments name file).1 = .ok ()) :
    (artifact.addLeaf segments name file).2.entryAt? (segments ++ [name]) = some (.leaf file) :=
  Directory.entryAt?_eq_leaf_iff.mpr ((met_addLeaf h).leaf_eq _ _ rfl)

/-- All names that lead to leaves were given by calls. -/
theorem isPathName_after {calls : List Call}
    (h : ∀ call ∈ calls, ∀ name ∈ call.chain, IsPathName name) {chain : List String} {file : Leaf}
    (hplace : (chain, file) ∈ (after calls).root.located) : ∀ name ∈ chain, IsPathName name := by
  obtain ⟨requests, hshows, hasked⟩ := exists_shows_after calls
  have hleaf := hshows.located_perm.mem_iff.mp hplace
  obtain ⟨request, hrequest, hown⟩ := List.mem_filterMap.mp hleaf
  obtain ⟨call, hcall, rfl⟩ := hasked request hrequest
  -- Only a call that adds a leaf asks for one.
  have hchain : call.chain = chain := by
    cases call with
    | ensure segments mediaType => cases hown
    | add segments name leaf =>
      obtain ⟨rfl, _⟩ := Prod.mk.inj (Option.some.inj hown)
      rfl
  rw [← hchain]
  exact h call hcall

/-- **The list of leaves and the look-up agree.** In what calls lead to that give single names, no
path is listed twice, a tidy path is listed with a leaf exactly when the leaf is found there, and
every leaf that a call added is listed once, at its directory and name joined by slashes. -/
theorem leaves_agree (calls : List Call)
    (h : ∀ call ∈ calls, ∀ name ∈ call.chain, IsPathName name) :
    ((after calls).leaves.map Prod.fst).Nodup ∧
      (∀ path leaf, IsTidyPath path →
        ((path, leaf) ∈ (after calls).leaves ↔ (after calls).get? path = some (.leaf leaf))) ∧
      ∀ earlier segments name leaf later, calls = earlier ++ .add segments name leaf :: later →
        ((after earlier).addLeaf segments name leaf).1 = .ok () →
        (joinPath (segments ++ [name]), leaf) ∈ (after calls).leaves ∧
          ((after calls).leaves.map Prod.fst).count (joinPath (segments ++ [name])) = 1 := by
  have hdistinct := hasDistinctNames_after calls
  have hnames : ∀ chain leaf, (chain, leaf) ∈ (after calls).root.located →
      ∀ name ∈ chain, IsPathName name := fun _ _ => isPathName_after h
  have haddressable := addressable_of_names hdistinct hnames
  refine ⟨haddressable.1, fun path leaf htidy => mem_leaves_iff hdistinct hnames htidy leaf, ?_⟩
  intro earlier segments name leaf later hcalls hadded
  have hchain : ∀ other ∈ segments ++ [name], IsPathName other := by
    refine h (.add segments name leaf) ?_
    rw [hcalls]
    simp
  -- It stood there after its call, and later calls leave it.
  have hstands : (after calls).entryAt? (segments ++ [name]) = some (.leaf leaf) := by
    rw [hcalls, after_append, List.foldl_cons]
    exact leaf_foldl later (entryAt?_addLeaf hadded)
  have hlisted : (joinPath (segments ++ [name]), leaf) ∈ (after calls).leaves := by
    rw [leaves_eq, List.mem_map]
    refine ⟨(segments ++ [name], leaf), ?_, ?_⟩
    · rw [Directory.mem_located hdistinct, ← Directory.entryAt?_eq_leaf_iff]
      exact hstands
    · rw [chainText_eq_joinPath hchain]
  exact ⟨hlisted, List.count_eq_one_of_mem haddressable.1 (List.mem_map_of_mem hlisted)⟩

/-- A module, two files of a package in it, and a leaf that is refused. -/
def helloCalls : List Call :=
  [.ensure ["example.com", "app"] .moduleDirectory,
    .add ["example.com", "app", "hello"] "a.go" ⟨.source "text/x-go", "package hello\n"⟩,
    .add ["example.com", "app"] "hello" ⟨.source "text/x-go", ""⟩,
    .add ["example.com", "app", "hello"] "b.go" ⟨.source "text/x-go", "package hello\n"⟩]

/-- A path is found with its leaf, as listed, or not at all. -/
theorem leaves_agree_hello :
    (∀ call ∈ helloCalls, ∀ name ∈ call.chain, IsPathName name) ∧
      ((after helloCalls).leaves.map Prod.fst).count "example.com/app/hello/b.go" = 1 ∧
      ("example.com/app/hello/a.go", ⟨.source "text/x-go", "package hello\n"⟩) ∈
        (after helloCalls).leaves ∧
      (after helloCalls).get? "example.com/app/hello/a.go" =
        some (.leaf ⟨.source "text/x-go", "package hello\n"⟩) := by
  have hnames : ∀ call ∈ helloCalls, ∀ name ∈ call.chain, IsPathName name := by decide
  obtain ⟨_, hfound, hadded⟩ := leaves_agree helloCalls hnames
  have hfirst := hadded [.ensure ["example.com", "app"] .moduleDirectory] _ _ _ _ rfl rfl
  have hsecond := hadded (helloCalls.take 3) _ _ _ [] rfl rfl
  have htidy : IsTidyPath "example.com/app/hello/a.go" := ⟨by decide, by decide, by decide⟩
  exact ⟨hnames, hsecond.2, hfirst.1, (hfound _ _ htidy).mp hfirst.1⟩

end Artifact

end DeclPrinter
