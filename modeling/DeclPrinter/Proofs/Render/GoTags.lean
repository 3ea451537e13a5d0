import DeclPrinter.Proofs.Render.Expansion
import DeclPrinter.Proofs.Text.StructTag
import DeclPrinter.Proofs.Tree.Additions

/-!
# Struct tags

In Go the metadata of a field is its tag: a raw literal with the name of each marker and its text,
which is its value with its options behind it. The texts are put between the quotes as they are. So
the tag is read back as the markers it was made from exactly if each character in them stands for
itself, in the raw literal and between the quotes (`readsTag_iff`). A tag with no other character
stands in the text of its file in one piece, on the line of its field (`struct_tags_read_back`).

With a quote in a value the tag ends early, and nothing reports it
(`struct_tags_read_back_unescaped`).
-/

namespace DeclPrinter

open FileM Text

/-! ### What a tag is read as -/

/-- The text of a marker in a tag: its value, and behind a comma each of its options, which is a key
with its own value if it has one. -/
def Marker.tagText (marker : Marker) : String :=
  marker.value.getD "" ++ String.join (marker.params.map fun (key, value) =>
    if value = "" then "," ++ key else "," ++ key ++ "=" ++ value)

/-- A conventional name: not empty, and without blanks, control characters, colons, quotes and
backticks. -/
def Marker.HasTagName (marker : Marker) : Prop :=
  marker.name ≠ "" ∧ ∀ c ∈ marker.name.toList, isTagNameChar c = true ∧ c ≠ '`'

/-- Nothing in the text of the marker has a meaning in a raw literal, or between quotes in it. -/
def Marker.IsPlain (marker : Marker) : Prop :=
  ∀ c ∈ marker.tagText.toList, standsInTag c = true ∧ c ≠ '`'

/-- The tag is one raw literal, and what it holds is read as the names of the markers, in order,
each with the text of the marker. -/
def ReadsTag (tag : String) (markers : List Marker) : Prop :=
  ∃ content, goRaw? tag.toList = some (content, []) ∧
    goTagPairs? content =
      some (markers.map fun marker => (marker.name.toList, bytes marker.tagText.toList))

instance (marker : Marker) : Decidable marker.HasTagName :=
  @instDecidableAnd _ _ inferInstance (List.decidableBAll _ marker.name.toList)

instance (marker : Marker) : Decidable marker.IsPlain :=
  List.decidableBAll _ marker.tagText.toList

theorem toList_goTagPart (marker : Marker) :
    (goTagPart marker).toList = tagPair marker.name.toList marker.tagText.toList := by
  have hoption : (fun param : String × String =>
      if param.2 = "" then "," ++ param.1 else "," ++ param.1 ++ "=" ++ param.2) = goTagOption := by
    funext ⟨key, value⟩
    by_cases hvalue : value = ""
    · simp [goTagOption, hvalue]
    · simp [goTagOption, hvalue, String.append_assoc]
  simp [goTagPart, tagPair, Marker.tagText, hoption, String.toList_append]

theorem blank_cons_intercalate {parts : List (List Char)} (h : parts ≠ []) :
    ' ' :: [' '].intercalate parts = parts.flatMap (' ' :: ·) := by
  induction parts with
  | nil => exact absurd rfl h
  | cons part others ih =>
    cases others with
    | nil => simp
    | cons second rest =>
      rw [List.flatMap_cons, ← ih (List.cons_ne_nil second rest), List.intercalate_cons_cons]
      simp

section

variable {markers : List Marker} {tag : String}

/-- Without markers there is no tag. -/
theorem goTag?_eq_none_iff : goTag? markers = none ↔ markers = [] := by
  cases markers with
  | nil => exact iff_of_true rfl rfl
  | cons marker rest => simp [goTag?]

/-- What stands between the backticks of a tag, behind a blank. -/
theorem toList_goTag? (h : goTag? markers = some tag) :
    ∃ inner, tag.toList = '`' :: (inner ++ ['`']) ∧
      ' ' :: inner = markers.flatMap fun marker =>
        ' ' :: tagPair marker.name.toList marker.tagText.toList := by
  have hne : markers ≠ [] := by
    rintro rfl
    cases h
  rw [goTag?, if_neg (by simpa using hne)] at h
  obtain rfl := Option.some.inj h
  refine ⟨(" ".intercalate (markers.map goTagPart)).toList, ?_, ?_⟩
  · simp [quoted, String.toList_append]
  · -- A blank stands between the pairs; with one in front, each pair has one.
    have hparts : (markers.map goTagPart).map String.toList ≠ [] := by simpa using hne
    rw [String.toList_intercalate, show " ".toList = [' '] from rfl, blank_cons_intercalate hparts,
      List.map_map, List.flatMap_map]
    simp only [Function.comp_apply, toList_goTagPart]

/-- **A tag gives back the markers it was made from exactly if their texts are plain.** -/
theorem readsTag_iff (hnames : ∀ marker ∈ markers, marker.HasTagName)
    (h : goTag? markers = some tag) :
    ReadsTag tag markers ↔ ∀ marker ∈ markers, marker.IsPlain := by
  obtain ⟨inner, htag, hinner⟩ := toList_goTag? h
  have hchars (marker : Marker) (hmarker : marker ∈ markers) (c : Char)
      (hc : c ∈ marker.name.toList) : isTagNameChar c = true := ((hnames marker hmarker).2 c hc).1
  -- The literal ends early at a backtick, which only a text can hold.
  have hraw : '`' ∉ inner ↔ ∀ marker ∈ markers, '`' ∉ marker.tagText.toList := by
    have hmem : '`' ∈ inner ↔ '`' ∈ ' ' :: inner := by simp
    have hname (marker : Marker) (hmarker : marker ∈ markers) : '`' ∉ marker.name.toList :=
      fun hc => ((hnames marker hmarker).2 _ hc).2 rfl
    rw [hmem, hinner]
    simp +contextual [tagPair, hname]
  -- Within the literal the pairs are read one after another, each if its text stands for itself.
  have hpairs : goTagPairs? (inner.filter (· != '\r')) =
        some (markers.map fun marker => (marker.name.toList, bytes marker.tagText.toList)) ↔
      ∀ marker ∈ markers, ∀ c ∈ marker.tagText.toList, standsInTag c = true := by
    have hcontent : ' ' :: inner.filter (· != '\r') = markers.flatMap fun marker =>
        ' ' :: tagPair marker.name.toList (marker.tagText.toList.filter (· != '\r')) := by
      rw [← List.filter_cons_of_pos (by decide), hinner, List.filter_flatMap]
      refine List.flatMap_congr fun marker hmarker => ?_
      rw [List.filter_cons_of_pos (by decide), filter_tagPair (hchars marker hmarker)]
    rw [← goTagPairs?_blank_cons, hcontent]
    refine goTagPairs?_eq_some_iff (fun marker hmarker => ?_) hchars
    exact String.toList_eq_nil_iff.not.mpr (hnames marker hmarker).1
  simp only [ReadsTag, htag, goRaw?_eq_some_iff, and_assoc, exists_and_left, exists_eq_left, hraw,
    hpairs]
  constructor
  · rintro ⟨htick, hstands⟩ marker hmarker c hc
    refine ⟨hstands marker hmarker c hc, ?_⟩
    rintro rfl
    exact htick marker hmarker hc
  · intro hplain
    exact ⟨fun marker hmarker hc => (hplain marker hmarker _ hc).2 rfl,
      fun marker hmarker c hc => (hplain marker hmarker c hc).1⟩

/-- A tag that is read back has no line break in it. -/
theorem newline_not_mem_goTag? (hnames : ∀ marker ∈ markers, marker.HasTagName)
    (h : goTag? markers = some tag) (hplain : ∀ marker ∈ markers, marker.IsPlain) :
    '\n' ∉ tag.toList := by
  obtain ⟨inner, htag, hinner⟩ := toList_goTag? h
  -- Neither names nor plain texts have line breaks, and the marks around them are none.
  have hname (marker : Marker) (hmarker : marker ∈ markers) : '\n' ∉ marker.name.toList := by
    intro hc
    exact absurd ((hnames marker hmarker).2 _ hc).1 (by decide)
  have htext (marker : Marker) (hmarker : marker ∈ markers) : '\n' ∉ marker.tagText.toList := by
    intro hc
    exact absurd (hplain marker hmarker _ hc).1 (by decide)
  have hbehind : '\n' ∉ ' ' :: inner := by
    rw [hinner]
    simp +contextual [tagPair, hname, htext]
  simp only [List.mem_cons, not_or] at hbehind
  simp [htag, hbehind.2]

theorem getLast?_goTag? (h : goTag? markers = some tag) :
    tag.toList.getLast? = some '`' := by
  obtain ⟨inner, htag, _⟩ := toList_goTag? h
  rw [htag, ← List.cons_append, List.getLast?_concat]

end

/-! ### Where a tag stands -/

theorem exists_mem_layOutBelow (above : List Columns.Row) {rows : List Columns.Row}
    {row : Columns.Row} (h : row ∈ rows) :
    ∃ widths, Columns.joinRow widths row ∈ Columns.layOutBelow above rows := by
  induction rows generalizing above with
  | nil => cases h
  | cons first rest ih =>
    rcases List.mem_cons.mp h with rfl | hrest
    · exact ⟨_, List.mem_cons_self⟩
    · obtain ⟨widths, hmem⟩ := ih (first :: above) hrest
      exact ⟨widths, List.mem_cons_of_mem _ hmem⟩

/-- Each row of a struct is a line, however the rows are grouped. -/
theorem exists_mem_goFieldRows {rows : List FieldRow} {row : FieldRow} (h : row ∈ rows) :
    ∃ widths, .line (Columns.joinRow widths row.cells) ∈ goFieldRows rows := by
  rw [← List.flatten_splitBy (fun _ next : FieldRow => next.doc.isEmpty) rows] at h
  obtain ⟨group, hgroup, hrow⟩ := List.mem_flatten.mp h
  obtain ⟨widths, hmem⟩ := exists_mem_layOutBelow [] (List.mem_map_of_mem hrow)
  have hline : .line (Columns.joinRow widths row.cells) ∈ goFieldGroup group :=
    List.mem_append_right _ (List.mem_map_of_mem hmem)
  exact ⟨widths, List.mem_flatMap_of_mem hgroup hline⟩

variable {c : FileContext} {registry : Registry} {script : Script}

/-- **Each field of a struct stands in the file as a line,** with its tag behind its type. -/
theorem exists_line_of_field (hgo : c.language.dialect = .go)
    (hscript : (fileScript registry).Yields c script) {type : TypeId}
    (htype : type ∈ c.contents.types) (hstruct : (c.tree.type type).kind = .struct) {id : FieldId}
    (hid : id ∈ (c.tree.type type).fields) :
    let field := c.tree.field id
    let name := goName field.name field.visibility
    ∃ widths spelled,
      .line (Columns.joinRow widths (name :: spelled :: (goTag? field.markers).toList)) ∈
        script := by
  obtain ⟨decls, hdecls, rfl⟩ := yields_fileScript hscript
  obtain ⟨own, hown, hin⟩ := (exists_of_declsScript hdecls).1 type htype
  rw [hgo] at hown
  obtain ⟨declaration, methods, rfl, hkind⟩ := yields_goTypeScript hown
  rw [hstruct] at hkind
  rcases yields_goStruct hkind.1 with ⟨hnone, _⟩ | ⟨rows, hrows, rfl⟩
  · -- A struct without fields has no lines of fields.
    rw [hnone] at hid
    cases hid
  · obtain ⟨row, hrow, hyields⟩ := exists_of_mem_of_forall₂ hrows.flip id hid
    obtain ⟨_, spelled, hcells⟩ := yields_goFieldRow hyields
    obtain ⟨widths, hmem⟩ := exists_mem_goFieldRows hrow
    rw [hcells] at hmem
    refine ⟨widths, spelled, List.mem_append_right _ (hin.subset ?_)⟩
    simp [hmem]

/-- **Struct tags read back exactly if their texts are plain.** In a Go file that is written, the
line of a field ends with its tag, if the field has markers. When these have conventional names, the
tag is one raw literal that is read as the names in order, each with its value and its options,
exactly if each character of a value or an option stands for itself there: it is no quote, no
backslash, no backtick and no line break. A tag that is read back stands in the text of the file in
one piece. -/
theorem struct_tags_read_back (registry : Registry) (c : FileContext)
    (hgo : c.language.dialect = .go) {script : Script}
    (hscript : (fileScript registry).Yields c script) {type : TypeId}
    (htype : type ∈ c.contents.types) (hstruct : (c.tree.type type).kind = .struct) {id : FieldId}
    (hid : id ∈ (c.tree.type type).fields)
    (hnames : ∀ marker ∈ (c.tree.field id).markers, marker.HasTagName) :
    let field := c.tree.field id
    let name := goName field.name field.visibility
    (goTag? field.markers = none ↔ field.markers = []) ∧
      ∃ widths spelled,
        .line (Columns.joinRow widths (name :: spelled :: (goTag? field.markers).toList)) ∈
          script ∧
        ∀ tag, goTag? field.markers = some tag →
          (ReadsTag tag field.markers ↔ ∀ marker ∈ field.markers, marker.IsPlain) ∧
          (ReadsTag tag field.markers →
            ∃ line ∈ script.lines, tag.toList <:+: line.text.toList) := by
  intro field name
  obtain ⟨widths, spelled, hline⟩ := exists_line_of_field hgo hscript htype hstruct hid
  refine ⟨goTag?_eq_none_iff, widths, spelled, hline, fun tag htag => ?_⟩
  have hiff := readsTag_iff hnames htag
  refine ⟨hiff, fun hreads => ?_⟩
  let before := Columns.pad (widths.headD 0) name ++ Columns.pad (widths.tail.headD 0) spelled
  have hrow : Columns.joinRow widths (name :: spelled :: (some tag).toList) = before ++ tag :=
    (String.append_assoc ..).symm
  have hbehind : .line (before ++ tag) ∈ script := by rwa [htag, hrow] at hline
  -- Plain texts hold no line break and the tag ends in no blank, so the line is written as it is.
  have hbreak := newline_not_mem_goTag? hnames htag (hiff.mp hreads)
  obtain ⟨_, last, _, _, line, hmem, hkept⟩ :=
    Script.exists_line_of_mem hbehind hbreak (getLast?_goTag? htag) (by decide)
  refine ⟨line, hmem, List.IsInfix.trans ?_ hkept.isInfix⟩
  rw [String.toList_append]
  exact (List.suffix_append _ _).isInfix

/-- A Go file with a struct that has one field with the markers. -/
def RenderJob.ofTagged (markers : List Marker) : RenderJob :=
  let field : Field := ⟨"Name", .exported, .simple ⟨"string"⟩, none, markers⟩
  RenderJob.ofTree ((DeclTree.empty "demo").addAll
    [.module "example.com/app" "go", .package ⟨0⟩ "lib" "lib", .file ⟨0⟩ "row",
      .type ⟨0⟩ .struct "Row", .field ⟨0⟩ field])

/-- Two markers, one with options, are read back. -/
theorem struct_tags_read_back_options :
    let markers : List Marker :=
      [⟨"json", some "name", [("omitempty", "")]⟩, ⟨"validate", none, [("max", "10")]⟩]
    let job := RenderJob.ofTagged markers
    let c := job.context (Plan.treeFile job.tree .go ⟨0⟩ ⟨0⟩ none ⟨0⟩)
    ∃ script, (fileScript job.registry).Yields c script ∧
      ReadsTag "`json:\"name,omitempty\" validate:\",max=10\"`" markers ∧
      ∃ line ∈ script.lines, "`json:\"name,omitempty\" validate:\",max=10\"`".toList <:+:
        line.text.toList := by
  intro markers job c
  have hwritten : ((fileScript job.registry).run c).result.isOk = true := by decide +kernel
  obtain ⟨script, hscript⟩ := exists_of_isOk hwritten
  have hmarkers : (c.tree.field ⟨0⟩).markers = markers := by decide +kernel
  have hnames : ∀ marker ∈ (c.tree.field ⟨0⟩).markers, marker.HasTagName := by
    rw [hmarkers]
    decide +kernel
  have htype : (⟨0⟩ : TypeId) ∈ c.contents.types := by decide +kernel
  have hfield : (⟨0⟩ : FieldId) ∈ (c.tree.type ⟨0⟩).fields := by decide +kernel
  obtain ⟨_, _, _, _, htags⟩ := struct_tags_read_back job.registry c rfl hscript htype
    (by decide +kernel) hfield hnames
  rw [hmarkers] at htags
  have htag : goTag? markers = some "`json:\"name,omitempty\" validate:\",max=10\"`" := by
    decide +kernel
  obtain ⟨hiff, hkept⟩ := htags _ htag
  have hreads := hiff.mpr (by decide +kernel)
  exact ⟨script, hscript, hreads, hkept hreads⟩

/-- **With a quote in a value the tag ends early.** The field is rendered without diagnostics, and
its tag is not read back. -/
theorem struct_tags_read_back_unescaped :
    let marker : Marker := ⟨"json", some "say \"hi\"", []⟩
    (RenderJob.ofTagged [marker]).render.toOption.map (fun rendering =>
        (rendering.diagnostics, rendering.artifact.leaves.map (·.2.content))) =
      some ([], ["package lib\n\ntype Row struct \x7b\n\tName string " ++
        "`json:\"say \"hi\"\"`\n\x7d\n"]) ∧
    marker.HasTagName ∧ ¬ ReadsTag "`json:\"say \"hi\"\"`" [marker] := by
  intro marker
  have hname : marker.HasTagName := by decide +kernel
  have htag : goTag? [marker] = some "`json:\"say \"hi\"\"`" := by decide +kernel
  refine ⟨by decide +kernel, hname, fun hreads => ?_⟩
  -- Read back, the text would be plain, but it has quotes in it.
  have hplain := (readsTag_iff (by simpa using hname) htag).mp hreads
  exact absurd (hplain marker List.mem_cons_self '"' (by decide +kernel)) (by decide)

end DeclPrinter
