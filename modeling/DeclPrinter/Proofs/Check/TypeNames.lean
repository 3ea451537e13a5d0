import DeclPrinter.Proofs.Check.Names
import DeclPrinter.Proofs.Keyed
import DeclPrinter.Proofs.Tree.Linked
import DeclPrinter.Writing.Spelling
import Mathlib.Data.List.Find

/-!
# Types that are known by their names in the tree

A symbol names a type by the name that it has in the tree, and the first of that name is taken. The
checks compare the names that types get in the target language. In Java these are decided by the
names in the tree, and two types of one name never pass. In Go they also depend on who may use the
types: an exported type and a hidden one pass with one name between them
(`DeclTree.types_namesakes`), and then which of them is found depends on the order of the files.
That is the only way in which a package that passes its checks leaves a name open
(`DeclTree.unambiguous_iff_of_package_ok`).
-/

namespace DeclPrinter

/-- Structs and interfaces are called alike. -/
theorem printedName_stepKind (language : Language) (kind : TypeForm) :
    language.printedName kind.stepKind = language.printedName .struct := by
  funext name visibility
  unfold Language.printedName Dialect.printedName
  cases kind <;> rfl

namespace DeclTree

variable {tree : DeclTree} {package : PackageId} {files : List FileId}

/-! ### The order of files -/

/-- The tree with other files in a package. -/
def withFiles (tree : DeclTree) (package : PackageId) (files : List FileId) : DeclTree :=
  tree.modifyPackage package fun node => { node with files := files }

theorem package_withFiles (tree : DeclTree) (package : PackageId) (files : List FileId)
    (other : PackageId) :
    (tree.withFiles package files).package other = tree.package other ∨ other = package ∧
      (tree.withFiles package files).package other =
        { tree.package other with files := files } := by
  have hpackage : (tree.withFiles package files).package other = _ := Links.getD_modify ..
  rw [hpackage]
  split
  · rename_i hsame
    exact .inr ⟨congrArg PackageId.mk hsame.1, rfl⟩
  · exact .inl rfl

theorem path_withFiles (tree : DeclTree) (package : PackageId) (files : List FileId)
    (other : PackageId) :
    ((tree.withFiles package files).package other).path = (tree.package other).path := by
  rcases package_withFiles tree package files other with hsame | ⟨_, hfiles⟩
  · rw [hsame]
  · rw [hfiles]

/-- With its files in another order a package has its types in another order. -/
theorem typesIn_withFiles (hfiles : files.Perm (tree.package package).files) :
    ((tree.withFiles package files).typesIn package).Perm (tree.typesIn package) := by
  unfold typesIn
  rcases package_withFiles tree package files package with hsame | ⟨_, hother⟩
  · rw [hsame]
    exact .refl _
  · rw [hother]
    exact hfiles.flatMap_right _

theorem typesIn_withFiles_of_ne {other : PackageId} (hne : other ≠ package) :
    (tree.withFiles package files).typesIn other = tree.typesIn other := by
  unfold typesIn
  rcases package_withFiles tree package files other with hsame | ⟨heq, _⟩
  · rw [hsame]
    rfl
  · exact absurd heq hne

/-! ### Names that stand for one type -/

/-- The types of a package are known by their names: no two share one, so each is found under its
own whatever the order of the files; and no symbol, in whichever package it stands, depends on that
order for the type that it names. -/
structure Unambiguous (tree : DeclTree) (package : PackageId) : Prop where
  names : ((tree.typesIn package).map fun id => (tree.type id).name).Nodup
  found : ∀ files, files.Perm (tree.package package).files → ∀ id ∈ tree.typesIn package,
    (tree.withFiles package files).typeNamed? package (tree.type id).name = some id
  symbols : ∀ files, files.Perm (tree.package package).files → ∀ module home symbol,
    (tree.withFiles package files).declaredTarget? module home symbol =
      tree.declaredTarget? module home symbol

/-- No exported type of the package has the name of a hidden one. -/
def NoNamesakes (tree : DeclTree) (package : PackageId) : Prop :=
  ∀ exported ∈ tree.typesIn package, ∀ hidden ∈ tree.typesIn package,
    (tree.type exported).visibility = .exported → (tree.type hidden).visibility = .hidden →
      (tree.type exported).name ≠ (tree.type hidden).name

/-- Where no two types share a name, the order of the files does not matter. -/
theorem typeNamed?_withFiles
    (h : ((tree.typesIn package).map fun id => (tree.type id).name).Nodup)
    (hfiles : files.Perm (tree.package package).files) (other : PackageId) (name : String) :
    (tree.withFiles package files).typeNamed? other name = tree.typeNamed? other name := by
  by_cases hother : other = package
  · subst hother
    exact find?_of_perm h (typesIn_withFiles hfiles) name
  · have hsame : (tree.withFiles package files).typesIn other = tree.typesIn other :=
      typesIn_withFiles_of_ne hother
    exact congrArg (List.find? fun id => (tree.type id).name == name) hsame

theorem unambiguous_of_names
    (h : ((tree.typesIn package).map fun id => (tree.type id).name).Nodup) :
    tree.Unambiguous package where
  names := h
  found := by
    intro files hfiles id hid
    rw [typeNamed?_withFiles h hfiles]
    exact find?_of_mem h hid
  symbols := by
    intro files hfiles module home symbol
    -- The packages of a module keep their paths, and each finds its types as before.
    have hpackages (path : String) : (tree.withFiles package files).packageAt? module path =
        tree.packageAt? module path := by
      unfold packageAt?
      exact List.find?_congr fun other _ => by rw [path_withFiles]
    unfold declaredTarget?
    rw [typeNamed?_withFiles h hfiles]
    simp only [hpackages, typeNamed?_withFiles h hfiles]

/-! ### Packages that pass -/

/-- In a package that passes its checks no two types share both their name and who may use them. -/
theorem nodup_keys_of_package_ok {language : Language} {doc : Option Check.PackageComment}
    (h : Check.package tree language package = .ok doc) :
    ((tree.typesIn package).map fun id =>
      ((tree.type id).name, (tree.type id).visibility)).Nodup := by
  obtain ⟨htypes, _⟩ := Check.names_of_package_ok h
  have hnames : Check.typeNames tree language package =
      ((tree.typesIn package).map fun id => ((tree.type id).name, (tree.type id).visibility)).map
        fun key => language.printedName .struct key.1 key.2 := by
    rw [List.map_map]
    exact List.map_congr_left fun id _ => congrFun (congrFun (printedName_stepKind _ _) _) _
  rw [hnames] at htypes
  exact htypes.of_map _

/-- Where the visibility of a type has no part in what it is called, no two types of a package that
passes its checks share a name. -/
theorem nodup_names_of_package_ok {language : Language} {doc : Option Check.PackageComment}
    (h : Check.package tree language package = .ok doc)
    (hlanguage : language.derived = true ∨ language.dialect = .java) :
    ((tree.typesIn package).map fun id => (tree.type id).name).Nodup := by
  obtain ⟨htypes, _⟩ := Check.names_of_package_ok h
  -- What a type is called depends on its name alone.
  have hnames : Check.typeNames tree language package =
      ((tree.typesIn package).map fun id => (tree.type id).name).map
        fun name => language.printedName .struct name .exported := by
    rw [List.map_map]
    refine List.map_congr_left fun id _ => ?_
    refine (congrFun (congrFun (printedName_stepKind _ _) _) _).trans ?_
    rcases hlanguage with hderived | hjava
    · simp [Language.printedName, hderived]
    · simp [Language.printedName, Dialect.printedName, hjava]
  rw [hnames] at htypes
  exact htypes.of_map _

theorem nodup_names_of_noNamesakes
    (hkeys : ((tree.typesIn package).map fun id =>
      ((tree.type id).name, (tree.type id).visibility)).Nodup)
    (h : tree.NoNamesakes package) :
    ((tree.typesIn package).map fun id => (tree.type id).name).Nodup := by
  refine List.Nodup.map_on ?_ hkeys.of_map
  intro id hid other hother hname
  refine List.inj_on_of_nodup_map hkeys hid hother (Prod.ext hname ?_)
  cases hvisibility : (tree.type id).visibility <;> cases hvisible : (tree.type other).visibility
  · rfl
  · exact absurd hname (h id hid other hother hvisibility hvisible)
  · exact absurd hname.symm (h other hother id hid hvisible hvisibility)
  · rfl

/-- **Types are known by their names unless an exported one and a hidden one share theirs.** In a
package that passes its checks no two types share both name and visibility. So it leaves no name
open exactly if no exported type has the name of a hidden one; and in Java, as in every derived
language, it never leaves one open. -/
theorem unambiguous_iff_of_package_ok {language : Language} {doc : Option Check.PackageComment}
    (h : Check.package tree language package = .ok doc) :
    ((tree.typesIn package).map fun id =>
        ((tree.type id).name, (tree.type id).visibility)).Nodup ∧
      (tree.Unambiguous package ↔ tree.NoNamesakes package) ∧
      (language.derived = true ∨ language.dialect = .java → tree.Unambiguous package) := by
  have hkeys := nodup_keys_of_package_ok h
  refine ⟨hkeys, ⟨?_, ?_⟩, ?_⟩
  · -- Namesakes would be one type, both exported and hidden.
    intro hunambiguous exported hexported hidden hhidden hpublic hprivate hname
    obtain rfl := List.inj_on_of_nodup_map hunambiguous.names hexported hhidden hname
    rw [hpublic] at hprivate
    cases hprivate
  · intro hnamesakes
    exact unambiguous_of_names (nodup_names_of_noNamesakes hkeys hnamesakes)
  · intro hlanguage
    exact unambiguous_of_names (nodup_names_of_package_ok h hlanguage)

/-- A module with a package of two files, each of which declares a type. -/
def ofTypePair (language : String) (first second : String × Visibility) : DeclTree :=
  let declare (package : PackageId) (file : String) (type : String × Visibility)
      (tree : DeclTree) : DeclTree :=
    let (file, tree) := tree.addFile package file
    let (id, tree) := tree.addType file .struct type.1
    tree.modifyType id fun node => { node with visibility := type.2 }
  let (module, tree) := (empty "demo").addModule "example.com/app" language
  let (package, tree) := tree.addPackage module "lib" "lib"
  declare package "second" second (declare package "first" first tree)

/-- In Go an exported type `Item` and a hidden one `item` go together. -/
theorem unambiguous_iff_of_package_ok_item :
    let tree := ofTypePair "go" ("Item", .exported) ("item", .hidden)
    ∃ doc, Check.package tree .go ⟨0⟩ = .ok doc ∧ tree.Unambiguous ⟨0⟩ := by
  intro tree
  have hchecked : Check.package tree .go ⟨0⟩ = .ok none := by decide +kernel
  have hnamesakes : tree.NoNamesakes ⟨0⟩ := by
    unfold NoNamesakes
    decide +kernel
  obtain ⟨_, hiff, _⟩ := unambiguous_iff_of_package_ok hchecked
  exact ⟨none, hchecked, hiff.mpr hnamesakes⟩

/-- **Two types of one name pass in Go,** if one is exported and the other is hidden. Which of them
the name stands for depends on the order of the files. -/
theorem types_namesakes :
    let tree := ofTypePair "go" ("item", .exported) ("item", .hidden)
    Check.package tree .go ⟨0⟩ = .ok none ∧
      ¬ ((tree.typesIn ⟨0⟩).map fun id => (tree.type id).name).Nodup ∧
      tree.declaredTarget? ⟨0⟩ ⟨0⟩ ⟨"item"⟩ = some ⟨0⟩ ∧
      (tree.withFiles ⟨0⟩ [⟨1⟩, ⟨0⟩]).declaredTarget? ⟨0⟩ ⟨0⟩ ⟨"item"⟩ = some ⟨1⟩ := by
  decide +kernel

end DeclTree

end DeclPrinter
