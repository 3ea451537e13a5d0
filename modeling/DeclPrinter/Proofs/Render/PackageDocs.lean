import DeclPrinter.Proofs.Check.Docs
import DeclPrinter.Proofs.Render.Plan

/-!
# Where the documentation of a package goes

Once the docs of a package agree, its documentation is planned for one unit, and if all of them are
blank, for no unit. Which unit it is depends on where the documentation comes from, and on whether
the language documents packages in the files that do so in the tree. Together with the check on
docs, this is all that can become of them (`Plan.package_docs`).
-/

namespace DeclPrinter.Plan

open Check

variable {tree : DeclTree} {language : Language} {module : ModuleId} {id : PackageId}

/-! ### Units with documentation -/

/-- The units that document their package. -/
def documented (units : List PlannedFile) : List PlannedFile :=
  units.filter (·.contents.doc.isSome)

/-- They are the file for documentation, and the files of the tree that it is written in. -/
theorem documented_filesOf (doc : Option PackageComment) :
    documented (filesOf tree language module id doc) =
      (standaloneDoc language doc).toList.map (docFile tree language module id) ++
        ((tree.package id).files.filter fun file => (docInFile language doc file).isSome).map
          (treeFile tree language module id doc) := by
  have hdocs : documented ((standaloneDoc language doc).toList.map
      (docFile tree language module id)) =
      (standaloneDoc language doc).toList.map (docFile tree language module id) := by
    unfold documented
    rw [List.filter_eq_self]
    intro unit hunit
    obtain ⟨text, _, rfl⟩ := List.mem_map.mp hunit
    rfl
  have hfiles : documented ((tree.package id).files.map (treeFile tree language module id doc)) =
      ((tree.package id).files.filter fun file => (docInFile language doc file).isSome).map
        (treeFile tree language module id doc) :=
    List.filter_map
  have hfuncs : documented (if (tree.package id).funcs.isEmpty then [] else
      [funcFile tree language module id]) = [] := by
    split <;> rfl
  -- So the funcs of the package are left out, and the other two parts of the list stay.
  unfold documented at hdocs hfiles hfuncs ⊢
  unfold filesOf
  rw [List.filter_append, List.filter_append, hdocs, hfiles, hfuncs, List.append_nil]

/-- Without documentation no unit has any. -/
theorem documented_filesOf_none : documented (filesOf tree language module id none) = [] := by
  have hnone : ((tree.package id).files.filter fun file =>
      (docInFile language none file).isSome) = [] :=
    List.filter_eq_nil_iff.mpr fun _ _ => Bool.false_ne_true
  rw [documented_filesOf, hnone]
  rfl

/-- **Documentation on a clause** is written in the file of the tree that it comes from. -/
theorem documented_filesOf_clause {text : String} {file : FileId}
    (hclause : language.docOnFileClause = true) (hfile : file ∈ (tree.package id).files)
    (hnodup : (tree.package id).files.Nodup) :
    documented (filesOf tree language module id (some ⟨text, .file file⟩)) =
      [treeFile tree language module id (some ⟨text, .file file⟩) file] := by
  have hdocs : standaloneDoc language (some ⟨text, .file file⟩) = none := if_pos hclause
  have hsource : (fun other => (docInFile language (some ⟨text, .file file⟩) other).isSome) =
      fun other => other == file := by
    funext other
    unfold docInFile
    dsimp only
    rw [hclause, Bool.true_and, BEq.comm]
    cases other == file <;> rfl
  -- The file is listed once, and no other is documented.
  rw [documented_filesOf, hdocs, hsource, List.filter_beq, List.count_eq_one_of_mem hnodup hfile]
  rfl

/-- **Documentation of its own** is written in a file for it alone. -/
theorem documented_filesOf_docFile {doc : PackageComment}
    (h : doc.source = .package ∨ language.docOnFileClause = false) :
    documented (filesOf tree language module id (some doc)) =
      [docFile tree language module id doc.text] := by
  obtain ⟨text, source⟩ := doc
  have hdocs : standaloneDoc language (some ⟨text, source⟩) = some text := by
    cases source with
    | package => rfl
    | file file =>
      have hclause : language.docOnFileClause = false := h.resolve_left nofun
      exact if_neg (Bool.eq_false_iff.mp hclause)
  have hfiles (file : FileId) : docInFile language (some ⟨text, source⟩) file = none := by
    cases source with
    | package => rfl
    | file other =>
      have hclause : language.docOnFileClause = false := h.resolve_left nofun
      unfold docInFile
      dsimp only
      rw [hclause, Bool.false_and]
      rfl
  -- So no file of the tree carries it.
  have hnone : ((tree.package id).files.filter fun file =>
      (docInFile language (some ⟨text, source⟩) file).isSome) = [] := by
    rw [List.filter_eq_nil_iff]
    intro file _
    rw [hfiles file]
    exact Bool.false_ne_true
  rw [documented_filesOf, hdocs, hnone]
  rfl

/-- The unit that is documented with the first of the docs. -/
theorem exists_documented (hnodup : (tree.package id).files.Nodup) {doc : PackageComment}
    (h : (docOrigins tree id).head? = some doc) :
    ∃ unit, documented (filesOf tree language module id (some doc)) = [unit] ∧
      unit.contents.doc = some doc.text ∧
      (language.docOnFileClause = true ∧ docText? (tree.package id).doc = none →
        ∃ file, documentingFile? tree id = some file ∧
          unit = treeFile tree language module id (some ⟨doc.text, .file file⟩) file) ∧
      (language.docOnFileClause = false ∨ docText? (tree.package id).doc ≠ none →
        unit = docFile tree language module id doc.text) := by
  obtain ⟨text, source⟩ := doc
  -- The package's own doc comes before those of its files.
  rcases source_of_head?_docOrigins h with ⟨hown, rfl⟩ | ⟨hown, file, hfile, rfl⟩
  · refine ⟨_, documented_filesOf_docFile (.inl rfl), rfl, ?_, fun _ => rfl⟩
    rintro ⟨_, hnone⟩
    exact absurd hnone hown
  · cases hclause : language.docOnFileClause with
    | false =>
      refine ⟨_, documented_filesOf_docFile (.inr hclause), rfl, ?_, fun _ => rfl⟩
      rintro ⟨htrue, _⟩
      cases htrue
    | true =>
      have hmem : file ∈ (tree.package id).files := List.mem_of_find?_eq_some hfile
      refine ⟨_, documented_filesOf_clause hclause hmem hnodup, ?_, fun _ => ⟨file, hfile, rfl⟩, ?_⟩
      · show docInFile language (some ⟨text, .file file⟩) file = some text
        unfold docInFile
        dsimp only
        rw [hclause, Bool.true_and, beq_self_eq_true]
        rfl
      · rintro (hfalse | hsome)
        · cases hfalse
        · exact absurd hown hsome

/-! ### All that can become of the docs -/

/-- **One documentation or a conflict.** Where a package passes the checks before, the check on its
docs fails exactly if two of them are not blank and differ, and nothing is planned then. Otherwise
the package is planned. If all docs are blank, no unit is documented. If one is not, exactly one
unit is, with its text: the first file of the tree that has a doc if the language documents
packages in such files and the package's own doc is blank, and the file for documentation in every
other case. -/
theorem package_docs (h : packageNames tree language id = .ok ()) :
    ((∃ first second, packageComment tree id =
        .error (.conflictingPackageDoc (tree.packagePath id) first second)) ↔
      DocsDiffer tree id) ∧
    (DocsDiffer tree id →
      ∃ first ∈ docOrigins tree id, ∃ second ∈ docOrigins tree id, first.text ≠ second.text ∧
        package tree language false module id = .error (.conflictingPackageDoc
          (tree.packagePath id) (first.source.carrier tree id)
          (second.source.carrier tree id))) ∧
    (¬ DocsDiffer tree id →
      ∃ units, package tree language false module id = .ok units ∧
        ((∀ doc ∈ docsOf tree id, docText? doc = none) → documented units = []) ∧
        ∀ doc ∈ docsOf tree id, ∀ text, docText? doc = some text →
          ∃ unit, documented units = [unit] ∧ unit.contents.doc = some text ∧
            (language.docOnFileClause = true ∧ docText? (tree.package id).doc = none →
              ∃ file, documentingFile? tree id = some file ∧
                unit = treeFile tree language module id (some ⟨text, .file file⟩) file) ∧
            (language.docOnFileClause = false ∨ docText? (tree.package id).doc ≠ none →
              unit = docFile tree language module id text)) := by
  -- Only the check on docs is left to fail.
  have hcheck : Check.package tree language id = packageComment tree id := by
    rw [package_eq, h]
    rfl
  refine ⟨packageComment_eq_error_iff, fun hdiffer => ?_, fun hagree => ?_⟩
  · obtain ⟨first, hfirst, second, hsecond, hne, hconflict⟩ := packageComment_of_docsDiffer hdiffer
    refine ⟨first, hfirst, second, hsecond, hne, ?_⟩
    exact package_of_check_error (hcheck.trans hconflict)
  · have hdoc := packageComment_of_not_docsDiffer hagree
    refine ⟨_, package_of_check (hcheck.trans hdoc), fun hblank => ?_, ?_⟩
    · rw [docOrigins_eq_nil_iff.mpr hblank]
      exact documented_filesOf_none
    · intro doc hmem text htext
      obtain ⟨source, hhead⟩ := exists_head?_docOrigins hagree hmem htext
      rw [hhead]
      exact exists_documented (nodup_files h) hhead

/-- A Go package `lib` of files that have these docs. -/
def documentedTree (docs : List (Option String)) : DeclTree :=
  let (module, tree) := (DeclTree.empty "demo").addModule "com.acme" "go"
  let (package, tree) := tree.addPackage module "lib" "lib"
  docs.zipIdx.foldl (fun tree (doc, place) =>
    let (file, tree) := tree.addFile package ("part" ++ toString place)
    tree.modifyFile file fun node => { node with doc := doc }) tree

/-- The first doc is blank, and the other two agree but for the white space around them. -/
theorem package_docs_second :
    ∃ units,
      package (documentedTree [some " ", some " Package lib. ", some "Package lib.\n"]) .go false
        ⟨0⟩ ⟨0⟩ = .ok units ∧
      documented units =
        [treeFile (documentedTree [some " ", some " Package lib. ", some "Package lib.\n"]) .go
          ⟨0⟩ ⟨0⟩ (some ⟨"Package lib.", .file ⟨1⟩⟩) ⟨1⟩] := by
  generalize htree : documentedTree [some " ", some " Package lib. ", some "Package lib.\n"] = tree
  obtain ⟨_, hnames⟩ : ∃ value, packageNames tree .go ⟨0⟩ = .ok value := by
    rw [← htree]
    exact exists_of_isOk (by decide +kernel)
  obtain ⟨hconflict, _, hplanned⟩ := @package_docs tree .go ⟨0⟩ ⟨0⟩ hnames
  -- Trimmed, the docs are the same.
  have hagree : ¬ DocsDiffer tree ⟨0⟩ := by
    rw [← hconflict]
    rintro ⟨first, second, hfails⟩
    have hok : (packageComment tree ⟨0⟩).isOk = true := by
      rw [← htree]
      decide +kernel
    rw [hfails] at hok
    cases hok
  obtain ⟨units, hunits, _, hdocs⟩ := hplanned hagree
  obtain ⟨unit, hunit, _, hclause, _⟩ := hdocs (some " Package lib. ")
    (by rw [← htree]; decide +kernel) "Package lib." (by decide +kernel)
  obtain ⟨file, hfile, rfl⟩ := hclause ⟨rfl, by rw [← htree]; decide +kernel⟩
  have hsecond : documentingFile? tree ⟨0⟩ = some ⟨1⟩ := by
    rw [← htree]
    decide +kernel
  rw [hsecond] at hfile
  obtain rfl := Option.some.inj hfile
  exact ⟨units, hunits, hunit⟩

end DeclPrinter.Plan
