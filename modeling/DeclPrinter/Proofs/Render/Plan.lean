import DeclPrinter.Proofs.Success
import DeclPrinter.Render.Plan
import Mathlib.Data.List.Infix

/-!
# What is planned

A plan is made of the plans of modules, and these of the plans of packages. A package plans
three kinds of files (`Plan.Planned`), and the files of a project are just those of its
packages, each in the language that is registered for its module (`Plan.mem_project_iff`). So a
fact about planned files is one case for each kind.
-/

namespace DeclPrinter

namespace Plan

open Check (PackageComment)

variable {tree : DeclTree} {registry : Registry} {language : Language} {cancelled : Bool}
  {module : ModuleId} {id : PackageId} {plan files : List PlannedFile}

/-! ### The files of a package -/

/-- A file in the directory of a package. -/
def inPackage (tree : DeclTree) (language : Language) (module : ModuleId) (id : PackageId)
    (leaf : String) (path : TreePath) (contents : FileContents) : PlannedFile where
  language := language
  module := module
  package := id
  moduleSegments := language.moduleSegments (tree.module module)
  dir := language.moduleSegments (tree.module module) ++
    language.packageSegments (tree.module module) (tree.package id)
  leaf := leaf
  contents := contents
  path := path

/-- The file for the documentation of a package. -/
def docFile (tree : DeclTree) (language : Language) (module : ModuleId) (id : PackageId)
    (text : String) : PlannedFile :=
  inPackage tree language module id language.docFile
    ((tree.packagePath id).below .file language.docFile)
    (docContents language (tree.package id) text)

/-- The file for a file of the tree. -/
def treeFile (tree : DeclTree) (language : Language) (module : ModuleId) (id : PackageId)
    (doc : Option PackageComment) (file : FileId) : PlannedFile :=
  let contents := fileContents tree language (tree.package id) doc file
  inPackage tree language module id (language.sourceName tree contents) (tree.filePath file)
    contents

/-- The file for the funcs that belong to a package and to no file. -/
def funcFile (tree : DeclTree) (language : Language) (module : ModuleId) (id : PackageId) :
    PlannedFile :=
  let contents := funcContents (tree.package id)
  inPackage tree language module id (language.sourceName tree contents)
    ((tree.packagePath id).below .file (tree.package id).name) contents

/-- The files that a package with this documentation plans. -/
inductive Planned (tree : DeclTree) (language : Language) (module : ModuleId) (id : PackageId)
    (doc : Option PackageComment) : PlannedFile → Prop where
  | doc (text : String) (h : standaloneDoc language doc = some text) :
      Planned tree language module id doc (docFile tree language module id text)
  | file (file : FileId) (h : file ∈ (tree.package id).files) :
      Planned tree language module id doc (treeFile tree language module id doc file)
  | funcs (h : (tree.package id).funcs ≠ []) :
      Planned tree language module id doc (funcFile tree language module id)

theorem Planned.home {doc : Option PackageComment} {file : PlannedFile}
    (h : Planned tree language module id doc file) :
    file.language = language ∧ file.module = module ∧ file.package = id := by
  cases h with
  | doc => exact ⟨rfl, rfl, rfl⟩
  | file => exact ⟨rfl, rfl, rfl⟩
  | funcs => exact ⟨rfl, rfl, rfl⟩

/-- Types are in the files of the tree. -/
theorem Planned.exists_treeFile {doc : Option PackageComment} {file : PlannedFile}
    (h : Planned tree language module id doc file) {type : TypeId}
    (htype : type ∈ file.contents.types) :
    ∃ source ∈ (tree.package id).files, type ∈ (tree.file source).types ∧
      file = treeFile tree language module id doc source := by
  cases h with
  | doc => cases htype
  | file source hsource => exact ⟨source, hsource, htype, rfl⟩
  | funcs => cases htype

theorem of_unlessCancelled_eq_ok {value : Unit} (h : unlessCancelled cancelled = .ok value) :
    cancelled = false := by
  cases cancelled with
  | false => rfl
  | true => cases h

/-- The files of a package with this documentation, in the order of the plan. -/
def filesOf (tree : DeclTree) (language : Language) (module : ModuleId) (id : PackageId)
    (doc : Option PackageComment) : List PlannedFile :=
  (standaloneDoc language doc).toList.map (docFile tree language module id) ++
    (tree.package id).files.map (treeFile tree language module id doc) ++
    if (tree.package id).funcs.isEmpty then [] else [funcFile tree language module id]

/-- The files of a package are of the three kinds. -/
theorem mem_filesOf_iff {doc : Option PackageComment} {file : PlannedFile} :
    file ∈ filesOf tree language module id doc ↔ Planned tree language module id doc file := by
  unfold filesOf
  constructor
  · -- The documentation, the files of the tree and the funcs of the package.
    intro hfile
    rcases List.mem_append.mp hfile with hfile | hfile
    · rcases List.mem_append.mp hfile with hfile | hfile
      · obtain ⟨text, htext, rfl⟩ := List.mem_map.mp hfile
        exact .doc text (Option.mem_toList.mp htext)
      · obtain ⟨source, hsource, rfl⟩ := List.mem_map.mp hfile
        exact .file source hsource
    · split at hfile
      · cases hfile
      · rename_i hfuncs
        obtain rfl := List.mem_singleton.mp hfile
        exact .funcs fun hnil => hfuncs (List.isEmpty_iff.mpr hnil)
  · intro hfile
    cases hfile with
    | doc text htext =>
      refine List.mem_append_left _ (List.mem_append_left _ ?_)
      exact List.mem_map.mpr ⟨text, Option.mem_toList.mpr htext, rfl⟩
    | file source hsource =>
      refine List.mem_append_left _ (List.mem_append_right _ ?_)
      exact List.mem_map.mpr ⟨source, hsource, rfl⟩
    | funcs hfuncs =>
      refine List.mem_append_right _ ?_
      rw [if_neg fun hempty => hfuncs (List.isEmpty_iff.mp hempty)]
      exact List.mem_singleton_self _

/-- **A package that passes its checks plans its files.** -/
theorem package_of_check {doc : Option PackageComment}
    (h : Check.package tree language id = .ok doc) :
    package tree language false module id = .ok (filesOf tree language module id doc) := by
  have hfiles : ((tree.package id).files.mapM fun file =>
      (pure (treeFile tree language module id doc file) : Except Failure PlannedFile)) =
      .ok ((tree.package id).files.map (treeFile tree language module id doc)) :=
    List.mapM_pure
  refine bind_eq_ok.mpr ⟨(), rfl, bind_eq_ok.mpr ⟨doc, h, ?_⟩⟩
  exact bind_eq_ok.mpr ⟨_, hfiles, rfl⟩

/-- A package that does not pass them is not planned. -/
theorem package_of_check_error {failure : Failure}
    (h : Check.package tree language id = .error failure) :
    package tree language false module id = .error failure :=
  bind_eq_error.mpr (.inr ⟨(), rfl, bind_eq_error.mpr (.inl h)⟩)

/-- A package that is planned passes its checks, and plans files of the three kinds. -/
theorem exists_of_package_eq_ok (h : package tree language cancelled module id = .ok files) :
    ∃ doc, Check.package tree language id = .ok doc ∧
      ∀ file, file ∈ files ↔ Planned tree language module id doc file := by
  obtain ⟨_, hcancelled, hchecked⟩ := bind_eq_ok.mp h
  obtain rfl := of_unlessCancelled_eq_ok hcancelled
  obtain ⟨doc, hdoc, _⟩ := bind_eq_ok.mp hchecked
  rw [package_of_check hdoc] at h
  obtain rfl := Except.ok.inj h
  exact ⟨doc, hdoc, fun file => mem_filesOf_iff⟩

/-! ### The files of a project -/

/-- A module that is planned is in a registered language, all its packages pass their checks, and
it plans the files of its packages. -/
theorem exists_of_module_eq_ok (h : Plan.module tree registry cancelled module = .ok files) :
    ∃ language, registry.language? (tree.module module).language = some language ∧
      (∀ id ∈ (tree.module module).packages, ∃ doc, Check.package tree language id = .ok doc) ∧
      ∀ file, file ∈ files ↔ ∃ id ∈ (tree.module module).packages, ∃ doc,
        Check.package tree language id = .ok doc ∧ Planned tree language module id doc file := by
  unfold Plan.module at h
  dsimp only at h
  split at h
  · cases h
  · rename_i language hlanguage
    obtain ⟨_, _, hrest⟩ := bind_eq_ok.mp h
    obtain ⟨packages, hpackages, hflat⟩ := bind_eq_ok.mp hrest
    have heq := pure_eq_ok.mp hflat
    subst heq
    refine ⟨language, hlanguage, fun id hid => ?_, fun file => ?_⟩
    · obtain ⟨_, _, hpackage⟩ := exists_of_mem_of_mapM_eq_ok hpackages id hid
      obtain ⟨doc, hdoc, _⟩ := exists_of_package_eq_ok hpackage
      exact ⟨doc, hdoc⟩
    rw [List.mem_flatten]
    constructor
    · rintro ⟨own, hown, hfile⟩
      obtain ⟨id, hid, hpackage⟩ := exists_of_mapM_eq_ok hpackages own hown
      obtain ⟨doc, hdoc, hplanned⟩ := exists_of_package_eq_ok hpackage
      exact ⟨id, hid, doc, hdoc, (hplanned file).mp hfile⟩
    · -- A package is checked once, so this is the documentation with which it was planned.
      rintro ⟨id, hid, doc, hdoc, hfile⟩
      obtain ⟨own, hown, hpackage⟩ := exists_of_mem_of_mapM_eq_ok hpackages id hid
      obtain ⟨other, hother, hplanned⟩ := exists_of_package_eq_ok hpackage
      rw [hdoc] at hother
      cases hother
      exact ⟨own, hown, (hplanned file).mpr hfile⟩

/-- **The files of a project** are those that the packages of its modules plan. -/
theorem mem_project_iff (h : project tree registry cancelled = .ok plan) (file : PlannedFile) :
    file ∈ plan ↔ ∃ module ∈ tree.project.modules, ∃ language,
      registry.language? (tree.module module).language = some language ∧
      ∃ id ∈ (tree.module module).packages, ∃ doc,
        Check.package tree language id = .ok doc ∧ Planned tree language module id doc file := by
  obtain ⟨_, _, hrest⟩ := bind_eq_ok.mp h
  obtain ⟨modules, hmodules, hplan⟩ := bind_eq_ok.mp hrest
  have heq := pure_eq_ok.mp hplan
  subst heq
  rw [List.mem_flatten]
  constructor
  · rintro ⟨own, hown, hfile⟩
    obtain ⟨module, hmodule, hplanned⟩ := exists_of_mapM_eq_ok hmodules own hown
    obtain ⟨language, hlanguage, _, hfiles⟩ := exists_of_module_eq_ok hplanned
    exact ⟨module, hmodule, language, hlanguage, (hfiles file).mp hfile⟩
  · -- The module was planned with the language of its tag, which is this one.
    rintro ⟨module, hmodule, language, hlanguage, hfile⟩
    obtain ⟨own, hown, hplanned⟩ := exists_of_mem_of_mapM_eq_ok hmodules module hmodule
    obtain ⟨other, hother, _, hfiles⟩ := exists_of_module_eq_ok hplanned
    rw [hlanguage] at hother
    cases hother
    exact ⟨own, hown, (hfiles file).mpr hfile⟩

/-- Every package of a planned project passes its checks, in the language that is registered for
its module. -/
theorem exists_of_project_eq_ok (h : project tree registry cancelled = .ok plan)
    (hmodule : module ∈ tree.project.modules) (hid : id ∈ (tree.module module).packages) :
    ∃ language, registry.language? (tree.module module).language = some language ∧
      ∃ doc, Check.package tree language id = .ok doc := by
  obtain ⟨_, _, hrest⟩ := bind_eq_ok.mp h
  obtain ⟨modules, hmodules, _⟩ := bind_eq_ok.mp hrest
  obtain ⟨_, _, hplanned⟩ := exists_of_mem_of_mapM_eq_ok hmodules module hmodule
  obtain ⟨language, hlanguage, hchecked, _⟩ := exists_of_module_eq_ok hplanned
  exact ⟨language, hlanguage, hchecked id hid⟩

/-- The directory of a file lies in that of its module. -/
theorem moduleSegments_dir (h : project tree registry cancelled = .ok plan) :
    ∀ file ∈ plan, file.moduleSegments <+: file.dir := by
  intro file hfile
  obtain ⟨_, _, _, _, _, _, _, _, hplanned⟩ := (mem_project_iff h file).mp hfile
  cases hplanned with
  | doc => exact List.prefix_append ..
  | file => exact List.prefix_append ..
  | funcs => exact List.prefix_append ..

end Plan

end DeclPrinter
