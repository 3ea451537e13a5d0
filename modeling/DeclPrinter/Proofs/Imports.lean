import DeclPrinter.Imports
import DeclPrinter.Proofs.Dictionary
import DeclPrinter.Proofs.Keyed
import Mathlib.Data.List.Induction

/-!
# The imports are those that were noted

The imports of a file have one entry for each path that a reference noted, in ascending
order, whatever local names there are and however clashes are settled. So a reference that
was noted finds its entry, and is spelled through it.
-/

namespace DeclPrinter

/-! ### What is noted -/

/-- The paths noted are those of the references, and in ascending order. -/
theorem keys_notedImports (references : List Reference) :
    (notedImports references).Ascending ∧
      ∀ path, path ∈ (notedImports references).keys ↔
        ∃ reference ∈ references, reference.importPath = some path := by
  unfold notedImports
  -- The references are noted from the first on, so the last one is split off.
  induction references using List.reverseRecOn with
  | nil => exact ⟨List.Pairwise.nil, by simp [Dictionary.empty, Dictionary.keys]⟩
  | append_singleton references reference ih =>
    obtain ⟨hascending, hkeys⟩ := ih
    rw [List.foldl_append, List.foldl_cons, List.foldl_nil]
    generalize List.foldl _ _ references = noted at hascending hkeys ⊢
    rcases hpath : reference.importPath with _ | own
    · refine ⟨hascending, ?_⟩
      intro path
      simp [hkeys, hpath, or_and_right, exists_or]
    · refine ⟨hascending.putNew own reference.localName, ?_⟩
      intro path
      rw [Dictionary.mem_keys_putNew, hkeys]
      simp [hpath, or_and_right, exists_or, or_comm, eq_comm]

/-- Each entry that is noted is that of a reference. -/
theorem exists_reference_of_mem_notedImports {references : List Reference}
    {entry : String × String} (h : entry ∈ (notedImports references).entries) :
    ∃ reference ∈ references, reference.importPath = some entry.1 ∧
      reference.localName = entry.2 := by
  unfold notedImports at h
  induction references using List.reverseRecOn with
  | nil => cases h
  | append_singleton references reference ih =>
    rw [List.foldl_append, List.foldl_cons, List.foldl_nil] at h
    have hearlier {earlier : Reference} (hmem : earlier ∈ references) :
        earlier ∈ references ++ [reference] := List.mem_append_left _ hmem
    split at h
    · -- The last reference has a path: the entry is its own or was there before.
      rename_i path hpath
      rcases Dictionary.mem_putNew h with rfl | hold
      · exact ⟨reference, by simp, hpath, rfl⟩
      · obtain ⟨earlier, hmem, hentry⟩ := ih hold
        exact ⟨earlier, hearlier hmem, hentry⟩
    · obtain ⟨earlier, hmem, hentry⟩ := ih h
      exact ⟨earlier, hearlier hmem, hentry⟩

namespace Imports

/-! ### The entries -/

theorem path_settle (clashRemedy : String → List String → ClashRemedy) (taken : List String)
    (path localName : String) : (settle clashRemedy taken path localName).1.path = path := by
  unfold settle
  split
  · split <;> rfl
  · rfl

/-- Settling the names leaves the paths as they are. -/
theorem map_path_entriesFrom (clashRemedy : String → List String → ClashRemedy)
    (taken : List String) (noted : List (String × String)) :
    (entriesFrom clashRemedy taken noted).map Import.path = noted.map Prod.fst := by
  induction noted generalizing taken with
  | nil => rfl
  | cons entry rest ih =>
    obtain ⟨path, localName⟩ := entry
    unfold entriesFrom
    dsimp only
    rw [List.map_cons, List.map_cons, path_settle, ih]

theorem map_path_build (clashRemedy : String → List String → ClashRemedy)
    (noted : Dictionary String) :
    (build clashRemedy noted).entries.map Import.path = noted.keys :=
  map_path_entriesFrom clashRemedy [] noted.entries

/-- The path of an entry leads to it, when no other entry has that path. -/
theorem get?_of_mem {imports : Imports} (h : (imports.entries.map Import.path).Nodup)
    {entry : Import} (hentry : entry ∈ imports.entries) :
    imports.get? entry.path = some entry := by
  exact find?_of_mem h hentry

/-- **A reference with an entry is spelled through it,** never by its local name alone. -/
theorem spell_of_get? {imports : Imports} {reference : Reference} {path : String} {entry : Import}
    (hpath : reference.importPath = some path) (hentry : imports.get? path = some entry) :
    imports.spell reference = reference.select entry.spelledAs := by
  unfold spell
  rw [hpath, Option.bind_some, hentry]
  rfl

end Imports

end DeclPrinter
