import DeclPrinter.Proofs.Idiom.BuiltIn
import DeclPrinter.Proofs.Imports
import DeclPrinter.Proofs.Render.Run
import DeclPrinter.Proofs.Writing.File

/-!
# The two passes through a file

The imports of a file are settled between two passes through it, from what the first noted.
They fit the second because the second goes the same way: it refers to the same things, in
the same order. So no import is missing and none is there for nothing.
-/

namespace DeclPrinter

namespace RenderJob

variable {job : RenderJob} {file : PlannedFile}

/-- The expanders that the registry has for the language of the file come with a dialect. -/
def BuiltInExpanders (job : RenderJob) (file : PlannedFile) : Prop :=
  ∀ kind expander, job.registry.expander? file.language.tag kind = some expander →
    ∃ dialect : Dialect, expander ∈ dialect.expanders

theorem BuiltInExpanders.blind (h : job.BuiltInExpanders file) :
    job.registry.Blind file.language := by
  intro kind expander hexpander
  obtain ⟨dialect, hmem⟩ := h kind expander hexpander
  exact blind_of_mem_expanders hmem

/-- The second pass leaves the same trace as the first, and it fails as the first does or
succeeds as well. -/
theorem passes_alike (h : job.registry.Blind file.language) :
    (job.firstPass file).Alike Eq FileM.Anything (job.secondPass file) := by
  have hblind : FileM.Blind (job.context file) (fileScript job.registry) := blind_fileScript h
  exact hblind none (some (job.imports file))

theorem map_path_imports (job : RenderJob) (file : PlannedFile) :
    (job.imports file).entries.map Import.path =
      (notedImports (job.firstPass file).references).keys :=
  Imports.map_path_build _ _

/-- **A file imports what it refers to.** When the first pass through a file succeeds, the
second does too and makes the same references. The imports settled in between have the paths
of these references, each once, and no others; and each reference with a path finds its
entry and is spelled through it, also by the writer of the second pass. -/
theorem imports_exact (job : RenderJob) (file : PlannedFile) (h : job.BuiltInExpanders file)
    (hfirst : (job.firstPass file).result.isOk = true) :
    (job.secondPass file).result.isOk = true ∧
      (job.secondPass file).references = (job.firstPass file).references ∧
      ((job.imports file).entries.map Import.path).Nodup ∧
      (∀ path, path ∈ (job.imports file).entries.map Import.path ↔
        ∃ reference ∈ (job.secondPass file).references, reference.importPath = some path) ∧
      ∀ reference ∈ (job.secondPass file).references, ∀ path,
        reference.importPath = some path →
        ∃ entry ∈ (job.imports file).entries, (job.imports file).get? path = some entry ∧
          (job.imports file).spell reference = reference.select entry.spelledAs ∧
          (FileM.spell reference).Yields (job.writingContext file)
            (reference.select entry.spelledAs) := by
  obtain ⟨hreferences, _, hresults⟩ := job.passes_alike h.blind
  obtain ⟨hascending, hkeys⟩ := keys_notedImports (job.firstPass file).references
  have hpaths := job.map_path_imports file
  have hnodup : ((job.imports file).entries.map Import.path).Nodup := by
    rw [hpaths]
    exact hascending.nodup
  have hmem (path : String) : path ∈ (job.imports file).entries.map Import.path ↔
      ∃ reference ∈ (job.secondPass file).references, reference.importPath = some path := by
    rw [hpaths, hkeys, hreferences]
  refine ⟨?_, hreferences.symm, hnodup, hmem, ?_⟩
  · -- Results that are alike are both failures or both values.
    rcases hone : (job.firstPass file).result with failure | script
    · rw [hone] at hfirst
      cases hfirst
    · rcases htwo : (job.secondPass file).result with failure | written
      · rw [hone, htwo] at hresults
        exact hresults.elim
      · rfl
  · intro reference hreference path hpath
    have hnoted : path ∈ (job.imports file).entries.map Import.path :=
      (hmem path).mpr ⟨reference, hreference, hpath⟩
    obtain ⟨entry, hentry, rfl⟩ := List.mem_map.mp hnoted
    have hget := Imports.get?_of_mem hnodup hentry
    have hspelled := Imports.spell_of_get? hpath hget
    exact ⟨entry, hentry, hget, hspelled, (FileM.yields_spell rfl).mpr hspelled⟩

/-- A Go func that reads a clock and passes a failure on, in a project of its own. -/
def clockJob : RenderJob where
  tree :=
    let (module, tree) := (DeclTree.empty "demo").addModule "example.com/demo" "go"
    let (package, tree) := tree.addPackage module "clock" "clock"
    let (file, tree) := tree.addFile package "clock"
    let attempt : Attempt := ⟨["now"], .ofText "now()", "reading", none⟩
    let results : List Param := [⟨"", .simple ⟨"time"⟩, none, []⟩, ⟨"", .failure, none, []⟩]
    let body : Block := ⟨none, none, [.invoke (.attempt attempt)], none⟩
    (tree.addFunc file ⟨"Read", .exported, none, [], results, body, none⟩).2
  registry := .standard
  resolver := ReferenceTable.standard.lookup
  options := .standard

/-- The file of the func. -/
def clockFile : PlannedFile where
  language := .go
  module := ⟨0⟩
  package := ⟨0⟩
  moduleSegments := []
  dir := ["clock"]
  leaf := "clock.go"
  contents := ⟨"clock", [], [⟨0⟩], none, none⟩
  path := clockJob.tree.filePath ⟨0⟩

/-- The func returns a zero time and a wrapped failure, so its file imports two packages. -/
theorem imports_exact_clock :
    ((clockJob.imports clockFile).entries.map Import.path = ["fmt", "time"]) ∧
      (clockJob.secondPass clockFile).result.isOk = true ∧
      ((clockJob.imports clockFile).entries.map Import.path).Nodup := by
  have hexpanders : clockJob.BuiltInExpanders clockFile :=
    fun _ _ hfound => Registry.BuiltIn.standard.of_expander? hfound
  obtain ⟨hsecond, _, hnodup, _, _⟩ :=
    imports_exact clockJob clockFile hexpanders (by decide +kernel)
  exact ⟨by decide +kernel, hsecond, hnodup⟩

end RenderJob

end DeclPrinter
