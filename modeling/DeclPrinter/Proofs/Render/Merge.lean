import DeclPrinter.Proofs.Artifact.Request
import DeclPrinter.Proofs.Render.Plan
import DeclPrinter.Proofs.Render.Run

/-!
# Putting the texts into directories

After all files are written their texts are put into one artifact, in the order of the
plan. A file asks for the directory of its module, for its own directory, and for its leaf
if it has a text (`FileResult.requests`). The artifact that is built shows just these
requests, so

* its leaves are one per text, where the file asked for it, and nothing else;
* in each directory the names stand in the order in which files first needed them;
* a file is refused exactly when it failed itself or an earlier file is in its way
  (`FileResult.Refused`), and the render fails for the first file that is.
-/

namespace DeclPrinter

namespace FileResult

/-- The file with its text, if it has one. -/
def written? (entry : FileResult) : Option (PlannedFile × String) :=
  entry.2.toOption.map (entry.1, ·)

/-- Why the file has no text. -/
def failure? (entry : FileResult) : Option Failure :=
  match entry.2 with
  | .ok _ => none
  | .error failure => some failure

/-- The leaf of a text with the chain that is to lead to it. -/
def leafPlace (written : PlannedFile × String) : List String × Leaf :=
  (written.1.dir ++ [written.1.leaf], Rendering.leafOf written.1 written.2)

/-- What a file asks of the artifact. -/
def requests (entry : FileResult) : List Request :=
  [.directory entry.1.moduleSegments, .directory entry.1.dir] ++
    (written? entry).toList.map fun written =>
      .leaf written.1.dir written.1.leaf (Rendering.leafOf written.1 written.2)

/-- What files ask of the artifact, one after another. -/
def allRequests (entries : List FileResult) : List Request :=
  entries.flatMap requests

/-- A leaf of an earlier file stands where the file needs a directory. -/
def Blocked (earlier : List FileResult) (entry : FileResult) (chain : List String) : Prop :=
  chain <+: entry.1.dir ∧ ∃ written ∈ earlier.filterMap written?, chain = (leafPlace written).1

/-- An earlier file has a leaf or a directory where the leaf of the file goes. -/
def Occupied (earlier : List FileResult) (file : PlannedFile) : Prop :=
  (∃ written ∈ earlier.filterMap written?, file.dir ++ [file.leaf] = (leafPlace written).1) ∨
    ∃ other ∈ earlier, file.dir ++ [file.leaf] <+: other.1.dir

/-- Why a file cannot be put beside earlier ones: a directory that it needs is a leaf of
theirs, or it has no text, or the place of its leaf is taken by one of theirs. -/
inductive Refused (earlier : List FileResult) : FileResult → Failure → Prop where
  | directory (entry : FileResult) (chain : List String) (h : Blocked earlier entry chain) :
      Refused earlier entry (.duplicateName entry.1.path .artifact (joinPath chain))
  | text (file : PlannedFile) (failure : Failure)
      (h : ∀ chain, ¬ Blocked earlier (file, .error failure) chain) :
      Refused earlier (file, .error failure) failure
  | leaf (file : PlannedFile) (text : String)
      (h : ∀ chain, ¬ Blocked earlier (file, .ok text) chain) (hleaf : Occupied earlier file) :
      Refused earlier (file, .ok text)
        (.duplicateName file.path .artifact (joinPath (file.dir ++ [file.leaf])))

/-! ### What files ask for -/

theorem allRequests_snoc (earlier : List FileResult) (entry : FileResult) :
    allRequests (earlier ++ [entry]) = allRequests earlier ++ entry.requests := by
  rw [allRequests, List.flatMap_append, List.flatMap_singleton]
  rfl

/-- The leaves that files ask for are those of their texts. -/
theorem leaves_allRequests (entries : List FileResult) :
    Request.leaves (allRequests entries) = (entries.filterMap written?).map leafPlace := by
  induction entries with
  | nil => rfl
  | cons entry rest ih =>
    have hentry : Request.leaves entry.requests = (written? entry).toList.map leafPlace := by
      unfold requests
      cases written? entry <;> rfl
    rw [allRequests, List.flatMap_cons, Request.leaves_append, hentry]
    rw [allRequests] at ih
    rw [ih]
    rcases hwritten : written? entry with _ | written
    · rw [List.filterMap_cons_none hwritten]
      rfl
    · rw [List.filterMap_cons_some hwritten]
      rfl

/-- The directories that a file asks for lie in its own directory, given that the directory
of the module does. -/
theorem exists_request_dir_iff {entry : FileResult}
    (h : entry.1.moduleSegments <+: entry.1.dir) (chain : List String) :
    (∃ request ∈ entry.requests, chain <+: request.dir) ↔ chain <+: entry.1.dir := by
  constructor
  · rintro ⟨request, hrequest, hchain⟩
    rw [requests, List.mem_append, List.mem_pair, List.mem_map] at hrequest
    rcases hrequest with (rfl | rfl) | ⟨written, hwritten, rfl⟩
    · exact hchain.trans h
    · exact hchain
    · obtain ⟨text, _, rfl⟩ := Option.map_eq_some_iff.mp (Option.mem_toList.mp hwritten)
      exact hchain
  · intro hchain
    exact ⟨.directory entry.1.dir, by simp [requests], hchain⟩

/-- A file has a text or a failure, and not both. -/
theorem length_written_add_failures (entries : List FileResult) :
    (entries.filterMap written?).length + (entries.filterMap failure?).length =
      entries.length := by
  induction entries with
  | nil => rfl
  | cons entry rest ih =>
    obtain ⟨file, failure | text⟩ := entry
    · -- The file adds one to the failures.
      have hwritten : written? (file, .error failure) = none := rfl
      have hfailure : failure? (file, .error failure) = some failure := rfl
      rw [List.filterMap_cons_none hwritten, List.filterMap_cons_some hfailure]
      rw [List.length_cons, List.length_cons]
      omega
    · -- The file adds one to the texts.
      have hwritten : written? (file, .ok text) = some (file, text) := rfl
      have hfailure : failure? (file, .ok text) = none := rfl
      rw [List.filterMap_cons_some hwritten, List.filterMap_cons_none hfailure]
      rw [List.length_cons, List.length_cons]
      omega

theorem blocked_iff (earlier : List FileResult) (entry : FileResult) (chain : List String) :
    Blocked earlier entry chain ↔
      chain <+: entry.1.dir ∧ ∃ file, (chain, file) ∈ Request.leaves (allRequests earlier) := by
  rw [Blocked, leaves_allRequests]
  simp only [List.mem_map]
  constructor
  · rintro ⟨hchain, written, hwritten, rfl⟩
    exact ⟨hchain, (leafPlace written).2, written, hwritten, rfl⟩
  · rintro ⟨hchain, file, written, hwritten, heq⟩
    exact ⟨hchain, written, hwritten, by rw [heq]⟩

theorem occupied_iff {earlier : List FileResult}
    (h : ∀ entry ∈ earlier, entry.1.moduleSegments <+: entry.1.dir) (file : PlannedFile) :
    Occupied earlier file ↔ Request.Takes (allRequests earlier) (file.dir ++ [file.leaf]) := by
  rw [Occupied, Request.Takes, leaves_allRequests]
  apply or_congr
  · -- A leaf stands there.
    simp only [List.mem_map]
    constructor
    · rintro ⟨written, hwritten, heq⟩
      exact ⟨(leafPlace written).2, written, hwritten, by rw [heq]⟩
    · rintro ⟨leaf, written, hwritten, heq⟩
      exact ⟨written, hwritten, by rw [heq]⟩
  · -- A directory is needed there.
    constructor
    · rintro ⟨other, hother, hpart⟩
      obtain ⟨request, hrequest, hdir⟩ := (exists_request_dir_iff (h other hother) _).mpr hpart
      exact ⟨request, List.mem_flatMap.mpr ⟨other, hother, hrequest⟩, hdir⟩
    · rintro ⟨request, hrequest, hdir⟩
      obtain ⟨other, hother, hrequest⟩ := List.mem_flatMap.mp hrequest
      have hneeded := (exists_request_dir_iff (h other hother) _).mp ⟨request, hrequest, hdir⟩
      exact ⟨other, hother, hneeded⟩

end FileResult

namespace Rendering

open FileResult

variable {mode : Bool} {rendering next : Rendering} {earlier entries : List FileResult}

/-! ### Adding a file -/

theorem settled_eq_ok {file : PlannedFile} {result : Except Obstacle Unit × Artifact}
    {artifact : Artifact} :
    settled file result = .ok artifact ↔ result.1 = .ok () ∧ result.2 = artifact := by
  obtain ⟨_ | _, after⟩ := result
  · simp [settled]
  · simp [settled]

theorem settled_eq_error {file : PlannedFile} {result : Except Obstacle Unit × Artifact}
    {failure : Failure} :
    settled file result = .error failure ↔
      ∃ obstacle, result.1 = .error obstacle ∧
        failure = .duplicateName file.path .artifact obstacle.path := by
  obtain ⟨obstacle | _, after⟩ := result
  · simp [settled, eq_comm]
  · simp [settled]

/-- Asking for a directory adds no leaf. -/
theorem leaves_directory (requests : List Request) (dir : List String) :
    Request.leaves (requests ++ [.directory dir]) = Request.leaves requests := by
  rw [Request.leaves_append]
  exact List.append_nil _

/-- The directories of a file are added unless a leaf is in the way. -/
theorem addDirectories_ok {artifact after : Artifact} {requests : List Request}
    {file : PlannedFile} (hshows : artifact.root.Shows requests)
    (h : addDirectories artifact file = .ok after) :
    after.root.Shows (requests ++ [.directory file.moduleSegments, .directory file.dir]) ∧
      ¬ ∃ chain, chain <+: file.dir ∧ ∃ leaf, (chain, leaf) ∈ Request.leaves requests := by
  -- The directory of the module comes first, and that of the file is made below it.
  obtain ⟨middle, hfirst, hsecond⟩ := bind_eq_ok.mp h
  obtain ⟨hmodule, rfl⟩ := settled_eq_ok.mp hfirst
  obtain ⟨hdir, rfl⟩ := settled_eq_ok.mp hsecond
  have hmiddle := hshows.snoc (Artifact.met_ensureDirectory hmodule)
  constructor
  · have hafter := hmiddle.snoc (Artifact.met_ensureDirectory hdir)
    rw [List.append_assoc] at hafter
    exact hafter
  · have hway := Artifact.ensureDirectory_ok hmiddle hdir
    rw [leaves_directory] at hway
    exact hway

theorem addDirectories_error {artifact : Artifact} {requests : List Request}
    {file : PlannedFile} {failure : Failure} (hshows : artifact.root.Shows requests)
    (hfile : file.moduleSegments <+: file.dir)
    (h : addDirectories artifact file = .error failure) :
    ∃ chain, chain <+: file.dir ∧ (∃ leaf, (chain, leaf) ∈ Request.leaves requests) ∧
      failure = .duplicateName file.path .artifact (joinPath chain) := by
  rcases bind_eq_error.mp h with hfirst | ⟨middle, hfirst, hsecond⟩
  · -- The directory of the module is not to be had, and it is part of that of the file.
    obtain ⟨obstacle, hobstacle, rfl⟩ := settled_eq_error.mp hfirst
    obtain ⟨chain, hchain, hleaf, hpath⟩ := Artifact.ensureDirectory_error hshows hobstacle
    rw [hpath]
    exact ⟨chain, hchain.trans hfile, hleaf, rfl⟩
  · obtain ⟨hmodule, rfl⟩ := settled_eq_ok.mp hfirst
    obtain ⟨obstacle, hobstacle, rfl⟩ := settled_eq_error.mp hsecond
    have hmiddle := hshows.snoc (Artifact.met_ensureDirectory hmodule)
    obtain ⟨chain, hchain, hleaf, hpath⟩ := Artifact.ensureDirectory_error hmiddle hobstacle
    rw [leaves_directory] at hleaf
    rw [hpath]
    exact ⟨chain, hchain, hleaf, rfl⟩

/-- With its own directories asked for, the place of a leaf is taken by earlier requests or
not at all. -/
theorem takes_own_iff {requests : List Request} {file : PlannedFile}
    (hfile : file.moduleSegments <+: file.dir) :
    Request.Takes (requests ++ [.directory file.moduleSegments, .directory file.dir])
        (file.dir ++ [file.leaf]) ↔
      Request.Takes requests (file.dir ++ [file.leaf]) := by
  -- A leaf in a directory is no part of the way to that directory.
  have hdir : ¬ file.dir ++ [file.leaf] <+: file.dir := Artifact.not_snoc_part file.dir file.leaf
  have hmodule : ¬ file.dir ++ [file.leaf] <+: file.moduleSegments :=
    fun hpart => hdir (hpart.trans hfile)
  have hleaves : Request.leaves
      (requests ++ [.directory file.moduleSegments, .directory file.dir]) =
        Request.leaves requests := by
    rw [Request.leaves_append]
    exact List.append_nil _
  rw [Request.Takes, Request.Takes, hleaves]
  simp [Request.dir, or_and_right, exists_or, hdir, hmodule]

/-- What adding a file comes to, one way for each way in which it can go. -/
theorem add_ok_cases {entry : FileResult} (h : add mode rendering entry = .ok next) :
    ∃ middle, addDirectories rendering.artifact entry.1 = .ok middle ∧
      ((∃ text, entry.2 = .ok text ∧
          (middle.addLeaf entry.1.dir entry.1.leaf (leafOf entry.1 text)).1 = .ok () ∧
          next.artifact =
            (middle.addLeaf entry.1.dir entry.1.leaf (leafOf entry.1 text)).2 ∧
          next.diagnostics = rendering.diagnostics) ∨
        ∃ failure, entry.2 = .error failure ∧ mode = true ∧ next.artifact = middle ∧
          next.diagnostics = rendering.diagnostics ++ [failure]) := by
  obtain ⟨file, failure | text⟩ := entry
  · -- A file without a text is only let through to be reported.
    rw [add_failure] at h
    obtain ⟨middle, hmiddle, hrest⟩ := bind_eq_ok.mp h
    split at hrest
    · rename_i hreport
      have heq := pure_eq_ok.mp hrest
      refine ⟨middle, hmiddle, Or.inr ?_⟩
      exact ⟨failure, rfl, hreport.1, by rw [← heq], by rw [← heq]⟩
    · cases hrest
  · -- A file with a text has become a leaf.
    obtain ⟨middle, hmiddle, hrest⟩ := bind_eq_ok.mp h
    obtain ⟨after, hafter, hnext⟩ := bind_eq_ok.mp hrest
    obtain ⟨hleaf, rfl⟩ := settled_eq_ok.mp hafter
    have heq := pure_eq_ok.mp hnext
    refine ⟨middle, hmiddle, Or.inl ?_⟩
    exact ⟨text, rfl, hleaf, by rw [← heq], by rw [← heq]⟩

theorem add_error_cases {entry : FileResult} {failure : Failure}
    (h : add mode rendering entry = .error failure) :
    addDirectories rendering.artifact entry.1 = .error failure ∨
      ∃ middle, addDirectories rendering.artifact entry.1 = .ok middle ∧
        ((∃ text obstacle, entry.2 = .ok text ∧
            (middle.addLeaf entry.1.dir entry.1.leaf (leafOf entry.1 text)).1 = .error obstacle ∧
            failure = .duplicateName entry.1.path .artifact obstacle.path) ∨
          entry.2 = .error failure) := by
  obtain ⟨file, failure | text⟩ := entry
  · -- A file without a text: its directories are not to be had, or it failed itself.
    rw [add_failure] at h
    rcases bind_eq_error.mp h with hdirectories | ⟨middle, hmiddle, hrest⟩
    · exact Or.inl hdirectories
    · right
      refine ⟨middle, hmiddle, Or.inr ?_⟩
      split at hrest
      · cases hrest
      · cases hrest
        rfl
  · -- A file with a text: its directories are not to be had, or the place of its leaf is taken.
    rcases bind_eq_error.mp h with hdirectories | ⟨middle, hmiddle, hrest⟩
    · exact Or.inl hdirectories
    · right
      refine ⟨middle, hmiddle, Or.inl ?_⟩
      rcases bind_eq_error.mp hrest with hleaf | ⟨after, _, hnext⟩
      · obtain ⟨obstacle, hobstacle, rfl⟩ := settled_eq_error.mp hleaf
        exact ⟨text, obstacle, rfl, hobstacle, rfl⟩
      · cases hnext

/-- **Adding a file meets what it asks for,** in either mode. -/
theorem shows_add {entry : FileResult}
    (hshows : rendering.artifact.root.Shows (allRequests earlier))
    (h : add mode rendering entry = .ok next) :
    next.artifact.root.Shows (allRequests (earlier ++ [entry])) := by
  obtain ⟨middle, hmiddle, hcases⟩ := add_ok_cases h
  obtain ⟨hdirectories, _⟩ := addDirectories_ok hshows hmiddle
  rw [allRequests_snoc, FileResult.requests, ← List.append_assoc]
  rcases hcases with ⟨text, htext, hleaf, hnext, _⟩ | ⟨failure, hfailure, _, hnext, _⟩
  · have hwritten : written? entry = some (entry.1, text) := by
      rw [written?, htext]
      rfl
    -- The leaf is one request more than the directories.
    rw [hnext, hwritten]
    exact hdirectories.snoc (Artifact.met_addLeaf hleaf)
  · have hwritten : written? entry = none := by
      rw [written?, hfailure]
      rfl
    rw [hnext, hwritten]
    simpa using hdirectories

/-- A file without a text gives one diagnostic, any other none. -/
theorem diagnostics_add {entry : FileResult} (h : add mode rendering entry = .ok next) :
    next.diagnostics = rendering.diagnostics ++ (failure? entry).toList := by
  obtain ⟨middle, _, hcases⟩ := add_ok_cases h
  rcases hcases with ⟨text, htext, _, _, hnext⟩ | ⟨failure, hfailure, _, _, hnext⟩
  · have hnone : failure? entry = none := by
      rw [failure?, htext]
    rw [hnext, hnone]
    simp
  · have hsome : failure? entry = some failure := by
      rw [failure?, hfailure]
    rw [hnext, hsome]
    rfl

/-- A file that is added outside diagnostic mode is not refused. -/
theorem not_refused_of_add {entry : FileResult}
    (hshows : rendering.artifact.root.Shows (allRequests earlier))
    (hearlier : ∀ other ∈ earlier, other.1.moduleSegments <+: other.1.dir)
    (hentry : entry.1.moduleSegments <+: entry.1.dir)
    (h : add false rendering entry = .ok next) (failure : Failure) :
    ¬ Refused earlier entry failure := by
  obtain ⟨middle, hmiddle, hcases⟩ := add_ok_cases h
  obtain ⟨hdirectories, hway⟩ := addDirectories_ok hshows hmiddle
  rcases hcases with ⟨text, htext, hleaf, _, _⟩ | ⟨_, _, hmode, _, _⟩
  · -- Each reason to refuse the file contradicts a step that went well.
    intro hrefused
    cases hrefused with
    | directory _ chain hblocked =>
      obtain ⟨hchain, leaf, hmem⟩ := (blocked_iff earlier entry chain).mp hblocked
      exact hway ⟨chain, hchain, leaf, hmem⟩
    | text file failure _ => cases htext
    | leaf file own _ hoccupied =>
      have htakes := (takes_own_iff hentry).mpr ((occupied_iff hearlier file).mp hoccupied)
      have hneeded : ∃ request ∈ allRequests earlier ++
          [.directory file.moduleSegments, .directory file.dir], file.dir <+: request.dir :=
        ⟨.directory file.dir, by simp, List.prefix_refl _⟩
      rcases Artifact.addLeaf_result hdirectories hneeded with ⟨_, hfree⟩ | ⟨herror, _⟩
      · exact hfree htakes
      · rw [herror] at hleaf
        cases hleaf
  · cases hmode

/-- **Where adding a file fails** the file is refused, for this very failure. -/
theorem refused_of_add {entry : FileResult} {failure : Failure}
    (hshows : rendering.artifact.root.Shows (allRequests earlier))
    (hearlier : ∀ other ∈ earlier, other.1.moduleSegments <+: other.1.dir)
    (hentry : entry.1.moduleSegments <+: entry.1.dir)
    (h : add mode rendering entry = .error failure) : Refused earlier entry failure := by
  rcases add_error_cases h with hdirectories | ⟨middle, hmiddle, hcases⟩
  · obtain ⟨chain, hchain, hleaf, rfl⟩ := addDirectories_error hshows hentry hdirectories
    exact .directory entry chain ((blocked_iff earlier entry chain).mpr ⟨hchain, hleaf⟩)
  · obtain ⟨hdirectories, hway⟩ := addDirectories_ok hshows hmiddle
    have hunblocked : ∀ chain, ¬ Blocked earlier entry chain := by
      intro chain hblocked
      obtain ⟨hchain, leaf, hmem⟩ := (blocked_iff earlier entry chain).mp hblocked
      exact hway ⟨chain, hchain, leaf, hmem⟩
    obtain ⟨file, result⟩ := entry
    rcases hcases with ⟨text, obstacle, htext, hobstacle, rfl⟩ | hfailure
    · have hneeded : ∃ request ∈ allRequests earlier ++
          [.directory file.moduleSegments, .directory file.dir], file.dir <+: request.dir :=
        ⟨.directory file.dir, by simp, List.prefix_refl _⟩
      subst htext
      rcases Artifact.addLeaf_result hdirectories hneeded with ⟨hok, _⟩ | ⟨herror, htakes⟩
      · rw [hok] at hobstacle
        cases hobstacle
      · rw [herror] at hobstacle
        cases hobstacle
        have hoccupied := (occupied_iff hearlier file).mpr ((takes_own_iff hentry).mp htakes)
        exact .leaf file text hunblocked hoccupied
    · -- Nothing is in the way, so the failure is that of the file itself.
      subst hfailure
      exact .text file failure hunblocked

/-! ### Adding all files -/

/-- **What a rendering shows.** The files that were added one after another are all in it,
and nothing else is. -/
structure Holds (rendering : Rendering) (entries : List FileResult) : Prop where
  /-- The artifact met what the files ask for. -/
  shows_requests : rendering.artifact.root.Shows (allRequests entries)
  /-- The diagnostics are those of the files without a text. -/
  diagnostics_eq : rendering.diagnostics = entries.filterMap failure?

theorem Holds.empty : Rendering.empty.Holds [] :=
  ⟨Directory.Shows.empty, rfl⟩

theorem Holds.add {entry : FileResult} (hholds : rendering.Holds earlier)
    (h : add mode rendering entry = .ok next) : next.Holds (earlier ++ [entry]) := by
  refine ⟨shows_add hholds.shows_requests h, ?_⟩
  rw [diagnostics_add h, hholds.diagnostics_eq, List.filterMap_append]
  rcases hfailure : failure? entry with _ | failure
  · rw [List.filterMap_cons_none hfailure]
    rfl
  · rw [List.filterMap_cons_some hfailure]
    rfl

/-- **The merge of all files holds them.** -/
theorem holds_of_foldlM (h : entries.foldlM (add mode) .empty = .ok rendering) :
    rendering.Holds entries :=
  foldlM_invariant (fun used state => state.Holds used)
    (fun _ _ _ _ hholds hadd => hholds.add hadd) Holds.empty h

/-- The leaves of a rendering that holds files are those of their texts, each once. -/
theorem Holds.located_perm (h : rendering.Holds entries) :
    rendering.artifact.root.located.Perm ((entries.filterMap written?).map leafPlace) := by
  have hperm := h.shows_requests.located_perm
  rw [leaves_allRequests] at hperm
  exact hperm

/-- **The first file that is refused ends the merge.** Outside diagnostic mode none before
it was. -/
theorem refused_of_foldlM {failure : Failure}
    (hentries : ∀ entry ∈ entries, entry.1.moduleSegments <+: entry.1.dir)
    (h : entries.foldlM (add false) .empty = .error failure) :
    ∃ before entry after, entries = before ++ entry :: after ∧ Refused before entry failure ∧
      ∀ first other rest, before = first ++ other :: rest →
        ∀ reason, ¬ Refused first other reason := by
  obtain ⟨before, entry, after, middle, rfl, hbefore, hentry⟩ := foldlM_eq_error h
  have hearlier : ∀ other ∈ before, other.1.moduleSegments <+: other.1.dir :=
    fun other hother => hentries other (List.mem_append_left _ hother)
  have hown : entry.1.moduleSegments <+: entry.1.dir :=
    hentries entry (List.mem_append_right _ List.mem_cons_self)
  refine ⟨before, entry, after, rfl, ?_, ?_⟩
  · exact refused_of_add (holds_of_foldlM hbefore).shows_requests hearlier hown hentry
  · -- A file before it was added to the merge of those before that one.
    rintro first other rest rfl reason
    rw [List.foldlM_append] at hbefore
    obtain ⟨start, hstart, hrest⟩ := bind_eq_ok.mp hbefore
    rw [List.foldlM_cons] at hrest
    obtain ⟨added, hadded, _⟩ := bind_eq_ok.mp hrest
    have hfirst : ∀ entry ∈ first, entry.1.moduleSegments <+: entry.1.dir :=
      fun entry hmem => hearlier entry (List.mem_append_left _ hmem)
    have hother := hearlier other (List.mem_append_right _ List.mem_cons_self)
    exact not_refused_of_add (holds_of_foldlM hstart).shows_requests hfirst hother hadded reason

end Rendering

namespace RenderJob

open FileResult

variable {job : RenderJob} {plan : List PlannedFile}

/-- The directory of a planned file lies in that of its module, whatever the file came to. -/
theorem moduleSegments_dir_entry
    (h : Plan.project job.tree job.registry job.options.cancelled = .ok plan) :
    ∀ entry ∈ plan.map job.entry, entry.1.moduleSegments <+: entry.1.dir := by
  intro entry hentry
  obtain ⟨file, hfile, rfl⟩ := List.mem_map.mp hentry
  exact Plan.moduleSegments_dir h file hfile

/-- The directories of a merge are those that files ask for, and the top. -/
theorem directory_iff_of_holds {rendering : Rendering} {entries : List FileResult}
    (hentries : ∀ entry ∈ entries, entry.1.moduleSegments <+: entry.1.dir)
    (h : rendering.Holds entries) (chain : List String) :
    (∃ names, rendering.artifact.root.placeAt? chain = some (.directory names)) ↔
      chain = [] ∨ ∃ entry ∈ entries, chain <+: entry.1.dir := by
  rw [h.shows_requests.directory_iff chain]
  apply or_congr_right
  constructor
  · rintro ⟨request, hrequest, hchain⟩
    obtain ⟨entry, hentry, hmem⟩ := List.mem_flatMap.mp hrequest
    have hdir := (exists_request_dir_iff (hentries entry hentry) chain).mp ⟨request, hmem, hchain⟩
    exact ⟨entry, hentry, hdir⟩
  · rintro ⟨entry, hentry, hchain⟩
    obtain ⟨request, hmem, hdir⟩ :=
      (exists_request_dir_iff (hentries entry hentry) chain).mpr hchain
    exact ⟨request, List.mem_flatMap.mpr ⟨entry, hentry, hmem⟩, hdir⟩

/-- **Nothing is lost in a render and nothing is there twice.** Every planned file has either
a text or a diagnostic, and the diagnostics stand in the order of the plan. The leaves of the
artifact, listed with their paths, are up to order one for each text, in the directory of the
file and under its name, with the text and the media type of the dialect, and there are no
directories but those of files. In every directory the names stand in the order in which the
files of the plan first needed them.

When a render fails outside diagnostic mode, after planning and without being cancelled, it
does so for the first file of the plan that is refused. -/
theorem render_complete (job : RenderJob) :
    (∀ rendering, job.render = .ok rendering →
      ∃ plan, Plan.project job.tree job.registry job.options.cancelled = .ok plan ∧
        ((plan.map job.entry).filterMap written?).length + rendering.diagnostics.length =
          plan.length ∧
        rendering.diagnostics = (plan.map job.entry).filterMap failure? ∧
        rendering.artifact.leaves =
          rendering.artifact.root.located.map (fun place => (chainText place.1, place.2)) ∧
        rendering.artifact.root.located.Perm
          (((plan.map job.entry).filterMap written?).map fun written =>
            (written.1.dir ++ [written.1.leaf],
              ⟨.source written.1.language.dialect.mediaType, written.2⟩)) ∧
        (rendering.artifact.root.located.map Prod.fst).Nodup ∧
        (∀ chain,
          (∃ names, rendering.artifact.root.placeAt? chain = some (.directory names)) ↔
            chain = [] ∨ ∃ file ∈ plan, chain <+: file.dir) ∧
        ∀ chain names, rendering.artifact.root.placeAt? chain = some (.directory names) →
          names = Request.namesIn (allRequests (plan.map job.entry)) chain) ∧
    ∀ plan failure, job.options.diagnosticMode = false →
      Plan.project job.tree job.registry job.options.cancelled = .ok plan →
      job.endsCancelled plan = false → job.render = .error failure →
      ∃ before file after, plan = before ++ file :: after ∧
        Refused (before.map job.entry) (job.entry file) failure ∧
        ∀ first other rest, before = first ++ other :: rest →
          ∀ reason, ¬ Refused (first.map job.entry) (job.entry other) reason := by
  constructor
  · -- A render that succeeds merged all files of its plan, so what it holds is known.
    intro rendering h
    obtain ⟨plan, hplan, _, hmerge⟩ := job.render_eq_ok.mp h
    have hholds := Rendering.holds_of_foldlM hmerge
    have hcount := length_written_add_failures (plan.map job.entry)
    rw [← hholds.diagnostics_eq, List.length_map] at hcount
    refine ⟨plan, hplan, hcount, hholds.diagnostics_eq, Artifact.leaves_eq _,
      hholds.located_perm, Directory.nodup_located _ hholds.shows_requests.hasDistinctNames, ?_,
      hholds.shows_requests.names_eq⟩
    -- The directories: what an entry asks for is what its file asks for.
    intro chain
    have hdirectories :=
      directory_iff_of_holds (moduleSegments_dir_entry hplan) hholds chain
    rw [hdirectories]
    simp only [List.mem_map, exists_exists_and_eq_and]
    rfl
  · -- A render that fails after planning, uncancelled, fails in the merge.
    intro plan failure hmode hplan hends h
    have hmerge : (plan.map job.entry).foldlM (Rendering.add false) .empty = .error failure := by
      rw [render_eq, hplan, hmode] at h
      rw [← h]
      show _ = if job.endsCancelled plan then _ else _
      rw [hends]
      rfl
    obtain ⟨before, entry, after, hentries, hrefused, hbefore⟩ :=
      Rendering.refused_of_foldlM (moduleSegments_dir_entry hplan) hmerge
    -- Where the merge stops among the entries, the plan is split as they are.
    obtain ⟨beforeFiles, rest, rfl, rfl, hrest⟩ := List.map_eq_append_iff.mp hentries
    obtain ⟨file, afterFiles, rfl, rfl, rfl⟩ := List.map_eq_cons_iff.mp hrest
    refine ⟨beforeFiles, file, afterFiles, rfl, hrefused, ?_⟩
    -- Each file before is one before which the merge had not stopped.
    rintro first other others rfl reason
    have hsplit : (first ++ other :: others).map job.entry =
        first.map job.entry ++ job.entry other :: others.map job.entry := by
      rw [List.map_append, List.map_cons]
    exact hbefore _ _ _ hsplit reason

/-- Two files give two leaves in the directory of their package. -/
theorem render_complete_pair :
    ∃ rendering, (ofTypes .standard ["time", "string"]).render = .ok rendering ∧
      (rendering.artifact.root.located.map Prod.fst).Perm
        [["demo", "lib", "time.go"], ["demo", "lib", "string.go"]] := by
  generalize hjob : ofTypes .standard ["time", "string"] = job
  have hok : job.render.isOk = true := by
    subst hjob
    decide +kernel
  have hplaces : (Plan.project job.tree job.registry job.options.cancelled).toOption.map
      (fun plan => (((plan.map job.entry).filterMap written?).map leafPlace).map Prod.fst) =
      some [["demo", "lib", "time.go"], ["demo", "lib", "string.go"]] := by
    subst hjob
    decide +kernel
  rcases hrender : job.render with failure | rendering
  · rw [hrender] at hok
    cases hok
  · obtain ⟨hsucceeds, _⟩ := render_complete job
    obtain ⟨plan, hplan, _, _, _, hperm, _⟩ := hsucceeds rendering hrender
    rw [hplan] at hplaces
    have hpair : (((plan.map job.entry).filterMap written?).map leafPlace).map Prod.fst = _ :=
      Option.some.inj hplaces
    have hleaves : (rendering.artifact.root.located.map Prod.fst).Perm
        ((((plan.map job.entry).filterMap written?).map leafPlace).map Prod.fst) :=
      hperm.map Prod.fst
    rw [hpair] at hleaves
    exact ⟨rendering, rfl, hleaves⟩

end RenderJob

end DeclPrinter
