import DeclPrinter.Proofs.Check.Names
import DeclPrinter.Proofs.Imports.Bindings
import DeclPrinter.Proofs.Render.Plan
import DeclPrinter.Proofs.Render.References
import DeclPrinter.Proofs.Render.Run

/-!
# Java imports and the class of the file

A Java import binds the simple name of its path, and so does the class that a file declares. What is
bound by two imports is settled when the imports are, but the class of the file has no part in that.
So the imports of a file keep clear of its class exactly if nothing that the file refers to is
called like the class (`RenderJob.javaImports_apart_iff`), and only then does a simple name lead to
what was imported by it. A file may well refer to a class that is called like its own
(`RenderJob.javaImports_clash`).
-/

namespace DeclPrinter

open FileM

/-! ### Simple names -/

theorem splitQualified?_append {name : String} (h : '.' ∉ name.toList) (above : String) :
    splitQualified? (above ++ "." ++ name) = some (above, name) := by
  have hname : ∀ c ∈ name.toList.reverse, (c != '.') = true := by
    intro c hc
    rw [bne_iff_ne]
    rintro rfl
    exact h (List.mem_reverse.mp hc)
  -- The name is cut off from behind, at the last dot.
  have hbackwards : (above ++ "." ++ name).toList.reverse =
      name.toList.reverse ++ '.' :: above.toList.reverse := by simp
  unfold splitQualified?
  dsimp only
  rw [hbackwards, List.takeWhile_append_of_pos hname, List.dropWhile_append_of_pos hname,
    List.takeWhile_cons_of_neg (by simp), List.dropWhile_cons_of_neg (by simp)]
  simp

/-- What follows the last dot of a path; the path itself, if it has no dot. -/
def simpleName (path : String) : String :=
  ((splitQualified? path).map Prod.snd).getD path

theorem simpleName_append {name : String} (h : '.' ∉ name.toList) (above : String) :
    simpleName (above ++ "." ++ name) = name := by
  rw [simpleName, splitQualified?_append h]
  rfl

/-- The name by which a reference goes is the simple name of what it imports. -/
def Reference.BySimpleName (reference : Reference) : Prop :=
  ∀ path ∈ reference.importPath, reference.localName = simpleName path

/-- Types of the tree are referred to by simple names, if these have no dot. -/
theorem bySimpleName_typeReference {tree : DeclTree} {language : Language} {module : ModuleId}
    {package : PackageId} {file : FileId} {id : TypeId} (hlinked : tree.Linked)
    (hdeclared : tree.Declares module package file id) (hjava : language.dialect = .java)
    (hdot : '.' ∉ (language.typeReference tree id).localName.toList) :
    (language.typeReference tree id).BySimpleName := by
  intro path hpath
  rw [(typeReference_parts hlinked hdeclared hjava).1] at hpath
  obtain rfl := Option.some.inj hpath
  exact (simpleName_append hdot _).symm

/-! ### What imports bind -/

namespace Imports

variable {references : List Reference}

/-- An entry is that of a reference, which gives it its name. -/
theorem exists_reference_of_mem_build {clashRemedy : String → List String → ClashRemedy}
    {entry : Import} (h : entry ∈ (build clashRemedy (notedImports references)).entries) :
    ∃ reference ∈ references, reference.importPath = some entry.path ∧
      reference.localName = entry.localName := by
  have hnoted : (entry.path, entry.localName) ∈ (notedImports references).entries := by
    have hentries : (build clashRemedy (notedImports references)).entries.map
        (fun entry => (entry.path, entry.localName)) = (notedImports references).entries :=
      map_entriesFrom [] _
    rw [← hentries]
    exact List.mem_map_of_mem h
  exact exists_reference_of_mem_notedImports hnoted

theorem localName_of_bySimpleName {clashRemedy : String → List String → ClashRemedy}
    (hsimple : ∀ reference ∈ references, reference.BySimpleName) {entry : Import}
    (h : entry ∈ (build clashRemedy (notedImports references)).entries) :
    entry.localName = simpleName entry.path := by
  obtain ⟨reference, hreference, hpath, hname⟩ := exists_reference_of_mem_build h
  rw [← hname]
  exact hsimple reference hreference entry.path hpath

/-- **The simple names that Java imports bind** are distinct, and they are those of all paths that
are referred to. -/
theorem simpleNames_of_java (hsimple : ∀ reference ∈ references, reference.BySimpleName) :
    let imports := build Dialect.java.clashRemedy (notedImports references)
    let names := (imports.listed.map Import.path).map simpleName
    names.Nodup ∧ ∀ name, name ∈ names ↔
      ∃ reference ∈ references, ∃ path ∈ reference.importPath, simpleName path = name := by
  intro imports names
  obtain ⟨hnodup, hall⟩ := localNames_of_java (notedImports references)
  have hnames : names = imports.listed.map Import.localName := by
    rw [show names = imports.listed.map (simpleName ∘ Import.path) from List.map_map]
    refine List.map_congr_left fun entry hentry => ?_
    exact (localName_of_bySimpleName hsimple (List.mem_filter.mp hentry).1).symm
  refine ⟨hnames ▸ hnodup, fun name => ⟨fun hname => ?_, ?_⟩⟩
  · obtain ⟨path, hpath, rfl⟩ := List.mem_map.mp hname
    obtain ⟨entry, hentry, rfl⟩ := List.mem_map.mp hpath
    obtain ⟨reference, hreference, himport, _⟩ :=
      exists_reference_of_mem_build (List.mem_filter.mp hentry).1
    exact ⟨reference, hreference, entry.path, himport, rfl⟩
  · rintro ⟨reference, hreference, path, hpath, rfl⟩
    have hnoted : path ∈ imports.entries.map Import.path := by
      rw [map_path_build]
      exact ((keys_notedImports references).2 path).mpr ⟨reference, hreference, hpath⟩
    -- The path may be written in full, but then another import binds its simple name.
    obtain ⟨entry, hentry, rfl⟩ := List.mem_map.mp hnoted
    rw [hnames, ← localName_of_bySimpleName hsimple hentry]
    exact hall entry hentry

/-- What is imported in Java is spelled by its simple name. -/
theorem spell_of_java (hsimple : ∀ reference ∈ references, reference.BySimpleName)
    {reference : Reference} {path : String} (himport : reference.importPath = some path)
    (hpath : path ∈ (build Dialect.java.clashRemedy (notedImports references)).listed.map
      Import.path) :
    (build Dialect.java.clashRemedy (notedImports references)).spell reference =
      reference.select (simpleName path) := by
  obtain ⟨entry, hentry, rfl⟩ := List.mem_map.mp hpath
  have hmem := (List.mem_filter.mp hentry).1
  have hnodup : ((build Dialect.java.clashRemedy (notedImports references)).entries.map
      Import.path).Nodup := by
    rw [map_path_build]
    exact (keys_notedImports references).1.nodup
  rw [spell_of_get? himport (get?_of_mem hnodup hmem), spelledAs_of_java hentry,
    localName_of_bySimpleName hsimple hmem]

end Imports

/-! ### Java units -/

/-- What a simple name leads to in a Java file of the package: the class that the file declares, and
only then what is imported. -/
def denotedIn (packageName : String) (own : Option String) (paths : List String) (name : String) :
    Option String :=
  if own = some name then some (packageName ++ "." ++ name)
  else paths.find? (simpleName · == name)

/-- What is imported under a simple name of its own is what the name leads to, unless the class of
the file has that name and is another. -/
theorem denotedIn_simpleName_iff {packageName path : String} {own : Option String}
    {paths : List String} (hnodup : (paths.map simpleName).Nodup) (hpath : path ∈ paths) :
    denotedIn packageName own paths (simpleName path) = some path ↔
      (own = some (simpleName path) → path = packageName ++ "." ++ simpleName path) := by
  unfold denotedIn
  by_cases hown : own = some (simpleName path)
  · simp [hown, eq_comm]
  · rw [if_neg hown]
    exact ⟨fun _ hsame => absurd hsame hown, fun _ => find?_of_mem hnodup hpath⟩

/-- A Java file of the package, with a line for each of these imports right above the class that it
declares. -/
structure JavaUnit (c : FileContext) (packageName : String) (own : Option String)
    (paths : List String) (script : Script) : Prop where
  /-- It says that it is in the package. -/
  clause : DeclaredAt 0 ["package " ++ packageName ++ ";"] (fileTop c)
  /-- The imports are the last above the declarations. -/
  imports : paths.map (fun path => .line ("import " ++ path ++ ";")) <:+ fileTop c
  /-- It is the class, or declares nothing. -/
  file : match own with
    | none => script = fileTop c
    | some name => JavaFile c name script

theorem suffix_fileTop_of_java {c : FileContext} {imports : Imports}
    (hjava : c.language.dialect = .java) (himports : c.imports = some imports) :
    (imports.listed.map Import.path).map (fun path => .line ("import " ++ path ++ ";")) <:+
      fileTop c := by
  unfold fileTop
  refine List.IsSuffix.trans ?_ (List.suffix_append _ _)
  unfold importScript
  rw [himports]
  dsimp only
  split
  · -- Without imports there are no lines to end with.
    rename_i hempty
    rw [List.isEmpty_iff.mp hempty]
    exact List.suffix_rfl
  · rw [hjava, List.map_map]
    exact List.suffix_cons _ _

theorem javaUnit_of_fileScript {c : FileContext} {registry : Registry} {script : Script}
    {imports : Imports} (hjava : c.language.dialect = .java)
    (hderived : c.language.derived = false) (himports : c.imports = some imports)
    (h : (fileScript registry).Yields c script) :
    JavaUnit c (javaPackageName (c.tree.module c.module) (c.tree.package c.package))
      (javaClass? c.tree c.contents) (imports.listed.map Import.path) script where
  clause := declaredAt_fileTop_of_java hjava
  imports := suffix_fileTop_of_java hjava himports
  file := javaFile_of_fileScript hjava hderived h

namespace RenderJob

/-- **Imports keep clear of the class of the file exactly if all references do.** A Java file that
has a text and refers to what it imports by simple names has a line for each import, and right below
them the class that it declares, if any. The simple names that these lines bind are distinct, and
distinct from the class, exactly if no path that the file refers to has the simple name of the
class. What is imported is spelled by its simple name, and this leads to what was imported unless
the class of the file is another of that name. -/
theorem javaImports_apart_iff (job : RenderJob) (file : PlannedFile)
    (hjava : file.language.dialect = .java) (hderived : file.language.derived = false)
    (hsimple : ∀ reference ∈ (job.firstPass file).references, reference.BySimpleName)
    {text : String} (h : (job.writeText file).1 = .ok text) :
    let own := javaClass? job.tree file.contents
    let paths := (job.imports file).listed.map Import.path
    let packageName :=
      javaPackageName (job.tree.module file.module) (job.tree.package file.package)
    (∃ script, text = script.text (job.indentUnit file.language) ∧
      JavaUnit (job.writingContext file) packageName own paths script) ∧
    ((own.toList ++ paths.map simpleName).Nodup ↔
      ∀ reference ∈ (job.firstPass file).references, ∀ path ∈ reference.importPath,
        own ≠ some (simpleName path)) ∧
    ∀ reference, ∀ path ∈ paths, reference.importPath = some path →
      (job.imports file).spell reference = reference.select (simpleName path) ∧
      (denotedIn packageName own paths (simpleName path) = some path ↔
        (own = some (simpleName path) → path = packageName ++ "." ++ simpleName path)) := by
  intro own paths packageName
  -- All that the imports are made of is what the first pass noted.
  have himports : job.imports file =
      .build Dialect.java.clashRemedy (notedImports (job.firstPass file).references) := by
    rw [imports, hjava]
  obtain ⟨hnodup, hnames⟩ := Imports.simpleNames_of_java hsimple
  rw [← himports] at hnodup hnames
  refine ⟨?_, ?_, ?_⟩
  · obtain ⟨script, hscript, rfl⟩ := exists_script_of_writeText h
    exact ⟨script, rfl, javaUnit_of_fileScript hjava hderived rfl hscript⟩
  · rw [Check.nodup_toList_append_iff hnodup]
    constructor
    · intro hfree reference hreference path hpath hown
      exact hfree _ hown ((hnames _).mpr ⟨reference, hreference, path, hpath, rfl⟩)
    · intro hother name hown hmem
      obtain ⟨reference, hreference, path, hpath, rfl⟩ := (hnames name).mp hmem
      exact hother reference hreference path hpath hown
  · intro reference path hpath himport
    refine ⟨?_, denotedIn_simpleName_iff hnodup hpath⟩
    have hlisted : path ∈ (job.imports file).listed.map Import.path := hpath
    rw [himports] at hlisted ⊢
    exact Imports.spell_of_java hsimple himport hlisted

/-- A Java module `com.acme` with a class `Store` in its package `db`, and in its package `lib` a
class of this name with a field of this type. -/
def ofImporting (name : String) (type : TypeExpr) : DeclTree :=
  let (module, tree) := (DeclTree.empty "demo").addModule "com.acme" "java"
  let (package, tree) := tree.addPackage module "db" "db"
  let (file, tree) := tree.addFile package "store"
  let tree := (tree.addType file .struct "Store").2
  let (package, tree) := tree.addPackage module "lib" "lib"
  let (file, tree) := tree.addFile package "shelf"
  let (id, tree) := tree.addType file .struct name
  (tree.addField id ⟨"items", .exported, type, none, []⟩).2

/-- A class with a name of its own among those that it imports. -/
theorem javaImports_apart_iff_shelf :
    let job := ofTree (ofImporting "Shelf" (.slice (.simple ⟨"db.Store"⟩)))
    let file := Plan.treeFile job.tree .java ⟨0⟩ ⟨1⟩ none ⟨1⟩
    let paths := (job.imports file).listed.map Import.path
    paths = ["com.acme.db.Store", "java.util.List"] ∧
      ((javaClass? job.tree file.contents).toList ++ paths.map simpleName).Nodup ∧
      denotedIn "com.acme.lib" (javaClass? job.tree file.contents) paths "List" =
        some "java.util.List" := by
  intro job file paths
  have hpaths : paths = ["com.acme.db.Store", "java.util.List"] := by decide +kernel
  have hown : javaClass? job.tree file.contents = some "Shelf" := by decide +kernel
  have hpackage : javaPackageName (job.tree.module file.module) (job.tree.package file.package) =
      "com.acme.lib" := by decide +kernel
  have hok : (job.writeText file).1.isOk = true := by decide +kernel
  obtain ⟨text, htext⟩ := exists_of_isOk hok
  have hreferences : (job.firstPass file).references =
      [.ofImport "java.util.List" "List", .ofImport "com.acme.db.Store" "Store"] := by
    decide +kernel
  -- Both references are by simple name.
  have hsimple : ∀ reference ∈ (job.firstPass file).references, reference.BySimpleName := by
    rw [hreferences]
    unfold Reference.BySimpleName
    decide +kernel
  obtain ⟨_, hnodup, hspelled⟩ := javaImports_apart_iff job file rfl rfl hsimple htext
  rw [hown, hpaths]
  rw [hown, hpackage, show (job.imports file).listed.map Import.path = _ from hpaths] at hspelled
  rw [hown, hreferences, show (job.imports file).listed.map Import.path = _ from hpaths] at hnodup
  refine ⟨rfl, hnodup.mpr (by decide +kernel), ?_⟩
  obtain ⟨_, hdenoted⟩ := hspelled (.ofImport "java.util.List" "List") "java.util.List"
    (by decide) rfl
  exact hdenoted.mpr (by decide +kernel)

/-- **Imports called like the class of the file.** The class `List` refers to the class of that name
in the library of Java, and the class `Store` to that of another package. Both files are rendered
without diagnostics, and in both the simple name leads to the class of the file. -/
theorem javaImports_clash :
    let listed := ofTree (ofImporting "List" (.slice (.simple ⟨"string"⟩)))
    let stored := ofTree (ofImporting "Store" (.simple ⟨"db.Store"⟩))
    let file (job : RenderJob) := Plan.treeFile job.tree .java ⟨0⟩ ⟨1⟩ none ⟨1⟩
    let own (job : RenderJob) := javaClass? job.tree (file job).contents
    let paths (job : RenderJob) := (job.imports (file job)).listed.map Import.path
    (listed.render.toOption.map (fun rendering =>
        (rendering.diagnostics, rendering.artifact.leaves.map (·.2.content))) =
      some ([], ["package com.acme.db;\n\npublic class Store \x7b\x7d\n",
        "package com.acme.lib;\n\nimport java.util.List;\n\n" ++
          "public class List \x7b\n    public List<String> items;\n\x7d\n"]) ∧
      ¬ ((own listed).toList ++ (paths listed).map simpleName).Nodup ∧
      denotedIn "com.acme.lib" (own listed) (paths listed) "List" = some "com.acme.lib.List") ∧
    (stored.render.toOption.map (fun rendering =>
        (rendering.diagnostics, rendering.artifact.leaves.map (·.2.content))) =
      some ([], ["package com.acme.db;\n\npublic class Store \x7b\x7d\n",
        "package com.acme.lib;\n\nimport com.acme.db.Store;\n\n" ++
          "public class Store \x7b\n    public Store items;\n\x7d\n"]) ∧
      ¬ ((own stored).toList ++ (paths stored).map simpleName).Nodup ∧
      denotedIn "com.acme.lib" (own stored) (paths stored) "Store" =
        some "com.acme.lib.Store") := by
  refine ⟨⟨?_, ?_, ?_⟩, ?_, ?_, ?_⟩ <;> decide +kernel

end RenderJob

end DeclPrinter
