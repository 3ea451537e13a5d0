import DeclPrinter.Proofs.Check.Names

/-!
# The documentation of a package

A package is documented by itself and by any of its files, and the docs that are not blank have to
say the same once they are trimmed. The check fails exactly if they do not
(`Check.packageComment_eq_error_iff`). Otherwise it yields the first of them, which is that of the
package itself or, where this is blank, that of the first file that has one
(`Check.source_of_head?_docOrigins`).
-/

namespace DeclPrinter.Check

variable {tree : DeclTree} {language : Language} {id : PackageId}

/-! ### The checks before it -/

/-- The checks on a package before its documentation is looked at. -/
def packageNames (tree : DeclTree) (language : Language) (id : PackageId) : Result := do
  let path := tree.packagePath id
  (tree.package id).files.forM fun file => hasName (tree.file file).name (tree.filePath file) .file
  distinct (fileNames tree id) path .file
  distinct (typeNames tree language id) path .type
  distinct (funcNames tree language id) path .func
  finiteStructs tree id

theorem package_eq :
    Check.package tree language id =
      (packageNames tree language id >>= fun _ => packageComment tree id) := by
  unfold Check.package packageNames
  simp only [bind_assoc]

/-- No file of a package is listed twice where their names are distinct. -/
theorem nodup_files (h : packageNames tree language id = .ok ()) :
    (tree.package id).files.Nodup := by
  obtain ⟨_, _, h⟩ := bind_eq_ok.mp h
  obtain ⟨_, hfiles, _⟩ := bind_eq_ok.mp h
  have hnames : (fileNames tree id).Nodup := distinct_eq_ok_iff.mp hfiles
  exact List.Nodup.of_map _ (List.nodup_append.mp hnames).1

/-! ### What documents a package -/

/-- The docs of a package: its own, then those of its files. -/
def docsOf (tree : DeclTree) (id : PackageId) : List (Option String) :=
  (tree.package id).doc :: (tree.package id).files.map fun file => (tree.file file).doc

/-- Two of the docs are not blank, and differ when they are trimmed. -/
def DocsDiffer (tree : DeclTree) (id : PackageId) : Prop :=
  ∃ first ∈ docsOf tree id, ∃ second ∈ docsOf tree id, ∃ text other,
    docText? first = some text ∧ docText? second = some other ∧ text ≠ other

/-- The first file of a package whose doc is not blank. -/
def documentingFile? (tree : DeclTree) (id : PackageId) : Option FileId :=
  (tree.package id).files.find? fun file => (docText? (tree.file file).doc).isSome

theorem map_text_docOrigins :
    (docOrigins tree id).map (·.text) = (docsOf tree id).filterMap docText? := by
  unfold docOrigins docsOf
  rw [List.map_append, List.map_filterMap, List.filterMap_cons, List.filterMap_map]
  simp only [Option.map_map, Function.comp_def, Option.map_id_fun']
  cases docText? (tree.package id).doc <;> rfl

/-- The docs that are not blank are those of the origins. -/
theorem exists_origin_iff {text : String} :
    (∃ origin ∈ docOrigins tree id, origin.text = text) ↔
      ∃ doc ∈ docsOf tree id, docText? doc = some text := by
  rw [← List.mem_filterMap, ← map_text_docOrigins, List.mem_map]

theorem docOrigins_eq_nil_iff :
    docOrigins tree id = [] ↔ ∀ doc ∈ docsOf tree id, docText? doc = none := by
  rw [← List.filterMap_eq_nil_iff, ← map_text_docOrigins, List.map_eq_nil_iff]

theorem docsDiffer_iff :
    DocsDiffer tree id ↔
      ∃ first ∈ docOrigins tree id, ∃ second ∈ docOrigins tree id, first.text ≠ second.text := by
  constructor
  · rintro ⟨first, hfirst, second, hsecond, text, other, htext, hother, hne⟩
    obtain ⟨one, hone, rfl⟩ := exists_origin_iff.mpr ⟨first, hfirst, htext⟩
    obtain ⟨two, htwo, rfl⟩ := exists_origin_iff.mpr ⟨second, hsecond, hother⟩
    exact ⟨one, hone, two, htwo, hne⟩
  · rintro ⟨one, hone, two, htwo, hne⟩
    obtain ⟨first, hfirst, htext⟩ := exists_origin_iff.mp ⟨one, hone, rfl⟩
    obtain ⟨second, hsecond, hother⟩ := exists_origin_iff.mp ⟨two, htwo, rfl⟩
    exact ⟨first, hfirst, second, hsecond, _, _, htext, hother, hne⟩

/-! ### The check -/

/-- Docs differ if one of the later origins says something else than the first. -/
theorem docsDiffer_iff_of_cons {first : PackageComment} {rest : List PackageComment}
    (h : docOrigins tree id = first :: rest) :
    DocsDiffer tree id ↔ ∃ other ∈ rest, other.text ≠ first.text := by
  rw [docsDiffer_iff, h]
  constructor
  · rintro ⟨one, hone, two, htwo, hne⟩
    -- Two that differ do not both say what the first says.
    by_cases hfirst : one.text = first.text
    · have htwoNe : two.text ≠ first.text := fun heq => hne (hfirst.trans heq.symm)
      rcases List.mem_cons.mp htwo with rfl | htwo
      · exact absurd rfl htwoNe
      · exact ⟨two, htwo, htwoNe⟩
    · rcases List.mem_cons.mp hone with rfl | hone
      · exact absurd rfl hfirst
      · exact ⟨one, hone, hfirst⟩
  · rintro ⟨other, hother, hne⟩
    exact ⟨first, List.mem_cons_self, other, List.mem_cons_of_mem first hother, hne.symm⟩

/-- **Docs that differ are a conflict,** and two of them are named. -/
theorem packageComment_of_docsDiffer (h : DocsDiffer tree id) :
    ∃ first ∈ docOrigins tree id, ∃ second ∈ docOrigins tree id, first.text ≠ second.text ∧
      packageComment tree id = .error (.conflictingPackageDoc (tree.packagePath id)
        (first.source.carrier tree id) (second.source.carrier tree id)) := by
  unfold packageComment
  rcases horigins : docOrigins tree id with _ | ⟨first, rest⟩
  · obtain ⟨first, hfirst, _⟩ := docsDiffer_iff.mp h
    rw [horigins] at hfirst
    cases hfirst
  · obtain ⟨other, hother, hne⟩ := (docsDiffer_iff_of_cons horigins).mp h
    rcases hfind : rest.find? (·.text != first.text) with _ | second
    · -- One differs from the first, so the search for such a one does not fail.
      have hsame := List.find?_eq_none.mp hfind other hother
      exact absurd (by simpa using hsame) hne
    · have hsecond : second.text ≠ first.text := by simpa using List.find?_some hfind
      refine ⟨first, List.mem_cons_self, second, ?_, hsecond.symm, by simp only [hfind]⟩
      exact List.mem_cons_of_mem first (List.mem_of_find?_eq_some hfind)

/-- **Docs that agree pass,** and the first of them is the documentation of the package. -/
theorem packageComment_of_not_docsDiffer (h : ¬ DocsDiffer tree id) :
    packageComment tree id = .ok (docOrigins tree id).head? := by
  unfold packageComment
  rcases horigins : docOrigins tree id with _ | ⟨first, rest⟩
  · rfl
  · have hagree : rest.find? (·.text != first.text) = none := by
      rw [List.find?_eq_none]
      intro other hother hne
      exact h ((docsDiffer_iff_of_cons horigins).mpr ⟨other, hother, by simpa using hne⟩)
    simp only [hagree]
    rfl

theorem packageComment_eq_error_iff :
    (∃ first second, packageComment tree id =
        .error (.conflictingPackageDoc (tree.packagePath id) first second)) ↔
      DocsDiffer tree id := by
  constructor
  · rintro ⟨first, second, hconflict⟩
    by_contra hagree
    rw [packageComment_of_not_docsDiffer hagree] at hconflict
    cases hconflict
  · intro hdiffer
    obtain ⟨_, _, _, _, _, hconflict⟩ := packageComment_of_docsDiffer hdiffer
    exact ⟨_, _, hconflict⟩

/-- A package that passes its checks has the first documentation that it is given. -/
theorem doc_eq_of_package_ok {doc : Option PackageComment}
    (h : Check.package tree language id = .ok doc) : doc = (docOrigins tree id).head? := by
  rw [package_eq] at h
  obtain ⟨_, _, h⟩ := bind_eq_ok.mp h
  by_cases hdiffer : DocsDiffer tree id
  · obtain ⟨_, _, _, _, _, hconflict⟩ := packageComment_of_docsDiffer hdiffer
    rw [hconflict] at h
    cases h
  · rw [packageComment_of_not_docsDiffer hdiffer] at h
    exact (Except.ok.inj h).symm

/-! ### Where the documentation comes from -/

/-- Where docs agree, the documentation says what each of them says. -/
theorem exists_head?_docOrigins (h : ¬ DocsDiffer tree id) {doc : Option String} {text : String}
    (hdoc : doc ∈ docsOf tree id) (htext : docText? doc = some text) :
    ∃ source, (docOrigins tree id).head? = some ⟨text, source⟩ := by
  obtain ⟨origin, horigin, rfl⟩ := exists_origin_iff.mpr ⟨doc, hdoc, htext⟩
  rcases horigins : docOrigins tree id with _ | ⟨first, rest⟩
  · rw [horigins] at horigin
    cases horigin
  · have hfirst : first ∈ docOrigins tree id := horigins ▸ List.mem_cons_self
    have hsame : first.text = origin.text := by
      by_contra hne
      exact h (docsDiffer_iff.mpr ⟨first, hfirst, origin, horigin, hne⟩)
    exact ⟨first.source, by rw [← hsame]; rfl⟩

/-- The documentation is the package's own or, if that is blank, that of the first file that has
any. -/
theorem source_of_head?_docOrigins {doc : PackageComment}
    (h : (docOrigins tree id).head? = some doc) :
    (docText? (tree.package id).doc ≠ none ∧ doc.source = .package) ∨
      (docText? (tree.package id).doc = none ∧
        ∃ file, documentingFile? tree id = some file ∧ doc.source = .file file) := by
  unfold docOrigins at h
  dsimp only at h
  rcases hown : docText? (tree.package id).doc with _ | text
  · -- The own one is blank, so the first is that of the first file with one that is not.
    right
    rw [hown, Option.map_none, Option.toList_none, List.nil_append, List.head?_filterMap] at h
    obtain ⟨before, file, after, hfiles, hfile, hbefore⟩ := List.findSome?_eq_some_iff.mp h
    obtain ⟨text, htext, rfl⟩ := Option.map_eq_some_iff.mp hfile
    refine ⟨rfl, file, ?_, rfl⟩
    unfold documentingFile?
    rw [List.find?_eq_some_iff_append]
    refine ⟨by rw [htext, Option.isSome_some], before, after, hfiles, fun other hother => ?_⟩
    have hnone := Option.map_eq_none_iff.mp (hbefore other hother)
    simp [hnone]
  · left
    rw [hown] at h
    obtain rfl := Option.some.inj h
    exact ⟨Option.some_ne_none text, rfl⟩

end DeclPrinter.Check
