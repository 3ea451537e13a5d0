import DeclPrinter.Proofs.Artifact.Addressable
import DeclPrinter.Proofs.Render.Merge
import DeclPrinter.Proofs.Text.Case

/-!
# The paths of rendered files

Directories are named by the pieces of paths, so a slash in the path of a module or package only
makes more of them. Files are named by the names of files, packages and types as they are, and a
slash in such a name stays in it. Nothing in a check keeps it out, and in the list of leaves it
cannot be told from one between names. A name of white space alone is refused, but in Java the
path of a module may be made of separators, and a package without a word in its name goes to a
directory without a name.

Where neither happens (`NamesPlainly`) every name that leads to a planned file is a single name
(`isPathName_of_planned`), hence the leaves of a rendering are found by the paths they are
listed with.
-/

namespace DeclPrinter

namespace Plan

open Check (PackageComment)

variable {tree : DeclTree} {language : Language} {module : ModuleId} {id : PackageId}

/-- The names after which the files of a package are called hold no slash, and its directory has
a name. -/
structure NamesPlainly (tree : DeclTree) (language : Language) (module : ModuleId)
    (id : PackageId) : Prop where
  /-- The name of the documentation file. -/
  docFile : IsPathName language.docFile
  /-- The names of the files of the package. -/
  files : ∀ file ∈ (tree.package id).files, '/' ∉ (tree.file file).name.toList
  /-- The names of types, after which Java files may be called. -/
  types : language.dialect = .java → ∀ file ∈ (tree.package id).files,
    ∀ type ∈ (tree.file file).types, '/' ∉ (tree.type type).name.toList
  /-- The name of the package, if a file is called after it. -/
  funcs : (tree.package id).funcs ≠ [] → '/' ∉ (tree.package id).name.toList
  /-- The words of a Java package name. -/
  words : language.dialect = .java →
    javaPackageWords (tree.module module) (tree.package id) ≠ []

/-! ### Directories -/

theorem isPathName_of_mem_pathDirs {path name : String} (h : name ∈ pathDirs path) :
    IsPathName name :=
  Text.isPiece_of_mem_pieces h

theorem isPiece_of_mem_javaPackageWords {module : ModuleNode} {package : PackageNode}
    {word : String} (h : word ∈ javaPackageWords module package) :
    Text.IsPiece isPathBreak word := by
  rcases List.mem_append.mp h with hmodule | hpackage
  · exact Text.isPiece_of_mem_pieces hmodule
  · exact Text.isPiece_of_mem_pieces hpackage

/-- A piece between path breaks holds neither a slash nor a dot. -/
theorem ne_of_isPathBreak_eq_false {c : Char} (h : isPathBreak c = false) : c ≠ '/' ∧ c ≠ '.' := by
  rw [isPathBreak, Bool.or_eq_false_iff] at h
  exact ⟨beq_eq_false_iff_ne.mp h.1, beq_eq_false_iff_ne.mp h.2⟩

/-- **The directories of a Java package are the words of its name.** -/
theorem splitAt_javaPackageName {module : ModuleNode} {package : PackageNode}
    (h : javaPackageWords module package ≠ []) :
    Text.splitAt (· == '.') (javaPackageName module package) = javaPackageWords module package := by
  have hdot : ".".toList = ['.'] := rfl
  refine Text.splitAt_intercalate hdot rfl h fun word hword c hc => ?_
  have hbreak := (isPiece_of_mem_javaPackageWords hword).unbroken c hc
  simpa using (ne_of_isPathBreak_eq_false hbreak).2

theorem isPathName_of_mem_packageSegments {name : String}
    (h : NamesPlainly tree language module id)
    (hname : name ∈ language.packageSegments (tree.module module) (tree.package id)) :
    IsPathName name := by
  rw [Language.packageSegments] at hname
  rcases hdialect : language.dialect with _ | _
  · rw [hdialect] at hname
    exact isPathName_of_mem_pathDirs hname
  · rw [hdialect, Dialect.packageSegments, splitAt_javaPackageName (h.words hdialect)] at hname
    have hword := isPiece_of_mem_javaPackageWords hname
    refine ⟨hword.ne_empty, fun c hc => ?_⟩
    simpa using (ne_of_isPathBreak_eq_false (hword.unbroken c hc)).1

/-! ### Files -/

/-- A slash in the name of a source file comes from that of its contents or of its type. -/
theorem slash_of_mem_fileStem {dialect : Dialect} {contents : FileContents}
    (h : '/' ∈ (dialect.fileStem tree contents).toList) :
    '/' ∈ contents.name.toList ∨
      dialect = .java ∧ ∃ type ∈ contents.types, '/' ∈ (tree.type type).name.toList := by
  cases dialect with
  | go => exact Or.inl h
  | java =>
    unfold Dialect.fileStem at h
    dsimp only at h
    split at h
    · rename_i type htypes _
      refine Or.inr ⟨rfl, type, ?_, Text.slash_of_mem_capitalize h⟩
      rw [htypes]
      exact List.mem_singleton_self type
    · exact Or.inl (Text.slash_of_mem_joinCapitalized h)

/-- The name of a source file is a single name if nothing it is called after holds a slash. -/
theorem isPathName_sourceName {contents : FileContents} (hname : '/' ∉ contents.name.toList)
    (htypes : language.dialect = .java →
      ∀ type ∈ contents.types, '/' ∉ (tree.type type).name.toList) :
    IsPathName (language.sourceName tree contents) := by
  have hextension : '/' ∉ language.dialect.extension.toList := by
    cases language.dialect <;> decide
  have hstem : '/' ∉ (language.dialect.fileStem tree contents).toList := by
    intro hslash
    rcases slash_of_mem_fileStem hslash with hown | ⟨hjava, type, htype, hown⟩
    · exact hname hown
    · exact htypes hjava type htype hown
  -- The name is the stem, a dot and the extension, none of which holds a slash.
  have htext : (language.sourceName tree contents).toList =
      (language.dialect.fileStem tree contents).toList ++ '.' ::
        language.dialect.extension.toList := by
    rw [Language.sourceName, Dialect.sourceName, String.toList_append, String.toList_append,
      List.append_assoc]
    rfl
  constructor
  · intro hempty
    rw [hempty] at htext
    simp at htext
  · intro c hc
    rw [htext] at hc
    rw [beq_eq_false_iff_ne]
    rintro rfl
    rcases List.mem_append.mp hc with hc | hc
    · exact hstem hc
    · rcases List.mem_cons.mp hc with hdot | hc
      · exact absurd hdot (by decide)
      · exact hextension hc

/-- **Every name that leads to a planned file is a single name,** where names are plain. -/
theorem isPathName_of_planned {doc : Option PackageComment} {file : PlannedFile}
    (h : NamesPlainly tree language module id)
    (hplanned : Planned tree language module id doc file) :
    ∀ name ∈ file.dir ++ [file.leaf], IsPathName name := by
  -- All files of a package go to one directory; they differ in their own names.
  have hdir : ∀ name ∈ language.moduleSegments (tree.module module) ++
      language.packageSegments (tree.module module) (tree.package id), IsPathName name := by
    intro name hname
    rcases List.mem_append.mp hname with hmodule | hpackage
    · exact isPathName_of_mem_pathDirs hmodule
    · exact isPathName_of_mem_packageSegments h hpackage
  intro name hname
  cases hplanned with
  | doc text _ =>
    rcases List.mem_append.mp hname with hname | hname
    · exact hdir name hname
    · rw [List.mem_singleton.mp hname]
      exact h.docFile
  | file file hfile =>
    rcases List.mem_append.mp hname with hname | hname
    · exact hdir name hname
    · rw [List.mem_singleton.mp hname]
      exact isPathName_sourceName (h.files file hfile) fun hjava => h.types hjava file hfile
  | funcs hfuncs =>
    rcases List.mem_append.mp hname with hname | hname
    · exact hdir name hname
    · rw [List.mem_singleton.mp hname]
      exact isPathName_sourceName (h.funcs hfuncs) fun _ _ htype =>
        absurd htype List.not_mem_nil

end Plan

namespace RenderJob

open FileResult

/-- **Rendered leaves are found by their paths.** Where the names of files and of what they are
called after hold no slash, and Java packages have a name, no two leaves of a rendering are
listed with one path, and each path leads to the text of the leaf that it is listed with. -/
theorem addressable_of_namesPlainly (job : RenderJob) (rendering : Rendering)
    (hnames : ∀ module ∈ job.tree.project.modules, ∀ language,
      job.registry.language? (job.tree.module module).language = some language →
      ∀ id ∈ (job.tree.module module).packages, Plan.NamesPlainly job.tree language module id)
    (h : job.render = .ok rendering) : rendering.artifact.Addressable := by
  obtain ⟨plan, hplan, _, hmerge⟩ := job.render_eq_ok.mp h
  have hholds := Rendering.holds_of_foldlM hmerge
  refine Artifact.addressable_of_names hholds.shows_requests.hasDistinctNames ?_
  -- Each leaf is that of a planned file, and stands where the plan has it.
  intro chain leaf hplace
  have hwritten := hholds.located_perm.mem_iff.mp hplace
  obtain ⟨⟨file, text⟩, hfile, hchain⟩ := List.mem_map.mp hwritten
  obtain ⟨entry, hentry, htext⟩ := List.mem_filterMap.mp hfile
  obtain ⟨planned, hmem, rfl⟩ := List.mem_map.mp hentry
  obtain ⟨_, _, hsame⟩ := Option.map_eq_some_iff.mp htext
  obtain ⟨rfl, _⟩ := Prod.mk.inj hsame
  obtain ⟨rfl, _⟩ := Prod.mk.inj hchain
  obtain ⟨module, hmodule, language, hlanguage, id, hid, doc, _, hkind⟩ :=
    (Plan.mem_project_iff hplan _).mp hmem
  exact Plan.isPathName_of_planned (hnames module hmodule language hlanguage id hid) hkind

/-- Packages of a Go module, each given by its path, its name and the names of its files. -/
def ofFiles (packages : List (String × String × List String)) : RenderJob where
  tree :=
    let (module, tree) := (DeclTree.empty "demo").addModule "example.com/app" "go"
    packages.foldl (fun tree package =>
      let (id, tree) := tree.addPackage module package.1 package.2.1
      package.2.2.foldl (fun tree name => (tree.addFile id name).2) tree) tree
  registry := .standard
  resolver := ReferenceTable.standard.lookup
  options := .standard

/-- Files of one name in a module and in a package below it. -/
theorem addressable_of_namesPlainly_util :
    ∃ rendering, (ofFiles [("", "app", ["util"]), ("lib", "lib", ["util"])]).render =
        .ok rendering ∧
      rendering.artifact.Addressable ∧
      rendering.artifact.leaves.map Prod.fst =
        ["example.com/app/util.go", "example.com/app/lib/util.go"] := by
  generalize hjob : ofFiles [("", "app", ["util"]), ("lib", "lib", ["util"])] = job
  have hpaths : job.render.toOption.map (fun rendering =>
      rendering.artifact.leaves.map Prod.fst) =
        some ["example.com/app/util.go", "example.com/app/lib/util.go"] := by
    subst hjob
    decide +kernel
  have hlanguage : ∀ module ∈ job.tree.project.modules,
      job.registry.language? (job.tree.module module).language = some .go := by
    subst hjob
    decide +kernel
  have hfiles : ∀ module ∈ job.tree.project.modules,
      ∀ id ∈ (job.tree.module module).packages, (job.tree.package id).funcs = [] ∧
        ∀ file ∈ (job.tree.package id).files, (job.tree.file file).name = "util" := by
    subst hjob
    decide +kernel
  obtain ⟨rendering, hrender, hleaves⟩ := exists_of_toOption_map_eq_some hpaths
  refine ⟨rendering, hrender, addressable_of_namesPlainly job rendering ?_ hrender, hleaves⟩
  intro module hmodule language htag id hid
  obtain ⟨hfuncs, hnames⟩ := hfiles module hmodule id hid
  rw [hlanguage module hmodule] at htag
  cases htag
  refine ⟨⟨by decide, by simp [Language.go]⟩, ?_, ?_, fun hne => absurd hfuncs hne, ?_⟩
  · intro file hfile
    rw [hnames file hfile]
    decide
  · intro hjava
    cases hjava
  · intro hjava
    cases hjava

/-- **A slash in the name of a file.** The package `app` has a file `lib/util`, and the package
`lib` below it a file `util`: both are rendered, and listed with the same path. -/
theorem not_addressable_of_slash :
    ∃ rendering, (ofFiles [("", "app", ["lib/util"]), ("lib", "lib", ["util"])]).render =
        .ok rendering ∧
      ¬ rendering.artifact.Addressable ∧
      rendering.artifact.leaves.map Prod.fst =
        ["example.com/app/lib/util.go", "example.com/app/lib/util.go"] := by
  generalize hjob : ofFiles [("", "app", ["lib/util"]), ("lib", "lib", ["util"])] = job
  have hpaths : job.render.toOption.map (fun rendering =>
      rendering.artifact.leaves.map Prod.fst) =
        some ["example.com/app/lib/util.go", "example.com/app/lib/util.go"] := by
    subst hjob
    decide +kernel
  obtain ⟨rendering, hrender, hleaves⟩ := exists_of_toOption_map_eq_some hpaths
  refine ⟨rendering, hrender, ?_, hleaves⟩
  rintro ⟨hdistinct, _⟩
  -- Were the artifact addressable, its paths would be distinct.
  have htwice : ¬ (["example.com/app/lib/util.go", "example.com/app/lib/util.go"] :
      List String).Nodup := by simp
  exact htwice (hleaves ▸ hdistinct)

end RenderJob

end DeclPrinter
