import DeclPrinter.Proofs.Script
import DeclPrinter.Proofs.Text.Closing
import DeclPrinter.Proofs.Writing.Yields

/-!
# Comments in Java

A documentation comment ends where the mark that closes it stands first, so it is a comment as a
whole exactly if that is its end (`ClosesOnce`). Nothing is escaped: the lines of a comment are
put into it as they are, and it closes once exactly if none of them holds the mark
(`closesOnce_docBlock_iff`). They hold it exactly if the texts do that they are made of: what is
said, and the names and types that are spliced in (`hasClosing_comment_iff`,
`hasClosing_funcCommentLines_iff`).
-/

namespace DeclPrinter

open FileM Text

variable {c : FileContext} {lines : List String} {subject text : String} {raw : Option String}

/-! ### Blocks of lines -/

/-- The mark that closes a comment ends the text of lines, and stands nowhere else in it. -/
structure ClosesOnce (text : String) : Prop where
  /-- The last line ends in the mark. -/
  ends : ∃ inside, text.toList = inside ++ closing ++ ['\n']
  /-- No other place has it. -/
  only : ∀ before after, text.toList = before ++ closing ++ after → after = ['\n']

/-- A text that ends in the mark has it once if there is none in front. -/
theorem closesOnce_iff {inside : List Char} (h : text.toList = inside ++ closing ++ ['\n']) :
    ClosesOnce text ↔ ¬ closing <:+: inside := by
  constructor
  · rintro ⟨_, honly⟩ ⟨before, after, rfl⟩
    have hearly := honly before (after ++ closing ++ ['\n']) (by rw [h]; simp)
    have hlength := congrArg List.length hearly
    simp [closing] at hlength
  · intro hnone
    refine ⟨⟨inside, h⟩, fun before after hsplit => ?_⟩
    rw [h] at hsplit
    rcases List.eq_nil_or_concat' after with rfl | ⟨rest, last, rfl⟩
    · -- The text does not end in the mark, but in a newline.
      have hlast := congrArg List.getLast? hsplit
      simp [closing] at hlast
    · rw [← List.append_assoc] at hsplit
      obtain ⟨hfront, hlast⟩ := List.append_inj' hsplit rfl
      rw [← hlast]
      rcases List.eq_nil_or_concat' rest with rfl | ⟨others, final, rfl⟩
      · rfl
      · -- Another mark would end in front of the slash, so in front of the last mark.
        have hstar : inside ++ ['*'] = before ++ closing ++ others := by
          have hcut : (inside ++ ['*']) ++ ['/'] = (before ++ closing ++ others) ++ [final] := by
            simpa [closing] using hfront
          exact (List.append_inj' hcut rfl).1
        have hmark : closing <:+: inside ++ ['*'] := ⟨before, others, hstar.symm⟩
        rcases List.infix_concat_iff.mp hmark with ⟨front, hfront⟩ | hinside
        · have hlast := congrArg List.getLast? hfront
          simp [closing] at hlast
        · exact absurd hinside hnone

/-- With no star in the unit of indentation, a mark is in the text of a line or behind them
all. -/
theorem closing_infix_render_iff {unit : String} (hunit : '*' ∉ unit.toList) (written : List Line)
    (rest : List Char) :
    closing <:+: (String.join (written.map (Line.render unit))).toList ++ rest ↔
      (∃ line ∈ written, HasClosing line.text) ∨ closing <:+: rest := by
  induction written with
  | nil => simp
  | cons line below ih =>
    have hindent : '*' ∉ (String.join (List.replicate line.depth unit)).toList := by
      simp [String.toList_join, hunit]
    -- A mark does not reach over the indentation or the line break.
    have hmark : '\n' ∉ closing := by decide
    have hline : (String.join ((line :: below).map (Line.render unit))).toList ++ rest =
        (String.join (List.replicate line.depth unit)).toList ++ (line.text.toList ++ '\n' ::
          ((String.join (below.map (Line.render unit))).toList ++ rest)) := by
      simp [Line.render]
    rw [hline, closing_infix_append_iff_of_not_mem hindent, closing_infix_append_cons_iff hmark,
      ih, ← or_assoc]
    simp [HasClosing]

/-! ### Documentation comments -/

/-- The lines of a documentation comment, without the mark at the end of the last. -/
theorem exists_docComment (hne : lines ≠ []) :
    ∃ above last, docComment lines = (above ++ [last ++ "*/"]).map .line ∧
      ((∃ text ∈ above ++ [last], HasClosing text) ↔ ∃ line ∈ lines, HasClosing line) := by
  match lines, hne with
  | [line], _ =>
    -- One line stands between the marks.
    have hstart : "/** ".toList.getLast? ≠ some '*' := by decide
    have hfront : ¬ HasClosing "/** " := by decide
    have hline : HasClosing ("/** " ++ (line ++ " " ++ "")) ↔ HasClosing line := by
      have hend : ¬ HasClosing "" := by decide
      rw [hasClosing_append_iff hstart, hasClosing_blank_iff, or_iff_right hfront,
        or_iff_left hend]
    refine ⟨[], "/** " ++ (line ++ " " ++ ""), ?_, by simpa using hline⟩
    simp [docComment, String.append_assoc]
  | first :: second :: rest, _ =>
    -- Several lines each stand behind a star, which is no part of a mark with what follows it.
    let starred (line : String) : String := if line.isEmpty then " *" else " * " ++ line
    have hline (line : String) : HasClosing (starred line) ↔ HasClosing line := by
      have hstart : " * ".toList.getLast? ≠ some '*' := by decide
      have hfront : ¬ HasClosing " * " := by decide
      dsimp only [starred]
      split
      · rename_i hempty
        rw [String.isEmpty_iff.mp hempty]
        decide
      · rw [hasClosing_append_iff hstart, or_iff_right hfront]
    have hopening : ¬ HasClosing "/**" := by decide
    have hend : ¬ HasClosing " " := by decide
    refine ⟨"/**" :: (first :: second :: rest).map starred, " ", ?_, ?_⟩
    · simp [docComment, docCommentLine, starred]
    · simp [hopening, hend, hline]

/-- A line holds the mark if its text does, at any depth. -/
theorem hasClosing_ofText_iff (level : Nat) (piece : String) :
    HasClosing (Line.ofText level piece).text ↔ HasClosing piece := by
  have htext : (Line.ofText level piece).text = trimEnd piece := by
    unfold Line.ofText
    dsimp only
    split
    · rename_i hempty
      exact (String.isEmpty_iff.mp hempty).symm
    · rfl
  rw [htext, hasClosing_trimEnd_iff]

/-- What is written for texts holds the mark if one of them does. -/
theorem hasClosing_written_iff (level : Nat) (texts : List String) :
    (∃ line ∈ texts.flatMap fun text => (splitLines text).map (Line.ofText level),
      HasClosing line.text) ↔ ∃ text ∈ texts, HasClosing text := by
  have htext (text : String) :
      (∃ line ∈ (splitLines text).map (Line.ofText level), HasClosing line.text) ↔
        HasClosing text := by
    rw [hasClosing_iff_splitLines]
    simp [hasClosing_ofText_iff]
  constructor
  · rintro ⟨line, hline, hclosing⟩
    obtain ⟨text, hmem, hline⟩ := List.mem_flatMap.mp hline
    exact ⟨text, hmem, (htext text).mp ⟨line, hline, hclosing⟩⟩
  · rintro ⟨text, hmem, hclosing⟩
    obtain ⟨line, hline, hclosing⟩ := (htext text).mpr hclosing
    exact ⟨line, List.mem_flatMap.mpr ⟨text, hmem, hline⟩, hclosing⟩

/-- A line that ends in the mark is written with the mark at its end. -/
theorem ofText_append_closing (level : Nat) (piece : String) :
    Line.ofText level (piece ++ "*/") = ⟨level, piece ++ "*/"⟩ :=
  Line.ofText_of_getLast? (by simp) (show isBlank '/' = false by decide) level

/-- **What a documentation comment writes:** lines of which the last ends in the mark, and which
hold it elsewhere if what is documented does. -/
theorem exists_written (hne : lines ≠ []) (level : Nat) :
    ∃ written last, (∀ buffer : LineBuffer, buffer.level = level →
        buffer.run (docComment lines) = buffer.push (written ++ [⟨level, last ++ "*/"⟩])) ∧
      ((∃ line ∈ written, HasClosing line.text) ∨ HasClosing last ↔
        ∃ line ∈ lines, HasClosing line) := by
  obtain ⟨above, last, hcomment, hmark⟩ := exists_docComment hne
  obtain ⟨pieces, piece, hpieces⟩ := LineBuffer.exists_splitLines_concat last
  have hlast : splitLines (last ++ "*/") = pieces ++ [piece ++ "*/"] :=
    LineBuffer.splitLines_append_of_unbroken hpieces (by simp)
  let write (text : String) : List Line := (splitLines text).map (Line.ofText level)
  let written := above.flatMap write ++ pieces.map (Line.ofText level)
  refine ⟨written, piece, ?_, ?_⟩
  · rintro buffer rfl
    rw [hcomment, LineBuffer.run_map_line, List.flatMap_append, List.flatMap_singleton, hlast,
      List.map_append, List.map_singleton, ofText_append_closing, ← List.append_assoc]
  · -- Without the mark at its end the last line would be written with the rest of its text.
    have hall : (above ++ [last]).flatMap write = written ++ [Line.ofText level piece] := by
      rw [List.flatMap_append, List.flatMap_singleton]
      simp only [write, written, hpieces, List.map_append, List.map_singleton, List.append_assoc]
    rw [← hmark, ← hasClosing_written_iff level, hall, ← hasClosing_ofText_iff level piece]
    simp only [List.mem_append, List.mem_singleton, or_and_right, exists_or, exists_eq_left]

/-! ### Blocks in a text -/

/-- The text of a documentation comment that stands at a level. -/
def docBlock (unit : String) (level : Nat) (lines : List String) : String :=
  (LineBuffer.run ⟨[], level⟩ (docComment lines)).finish unit

theorem isBlank_append_closing (level : Nat) (last : String) :
    Line.isBlank ⟨level, last ++ "*/"⟩ = false :=
  Line.isBlank_of_getLast? (show (last ++ "*/").toList.getLast? = some '/' by simp) level

/-- The text of a documentation comment is that of its lines. -/
theorem docBlock_eq {level : Nat} {written : List Line} {last : String}
    (hrun : ∀ buffer : LineBuffer, buffer.level = level →
      buffer.run (docComment lines) = buffer.push (written ++ [⟨level, last ++ "*/"⟩]))
    (unit : String) : docBlock unit level lines =
      String.join ((written ++ [Line.mk level (last ++ "*/")]).map (Line.render unit)) := by
  have hlines : (LineBuffer.run ⟨[], level⟩ (docComment lines)).lines =
      [] ++ ⟨level, last ++ "*/"⟩ :: written.reverse := by
    rw [hrun ⟨[], level⟩ rfl]
    simp [LineBuffer.push]
  rw [docBlock, LineBuffer.finish,
    LineBuffer.finished_eq hlines (isBlank_append_closing level last)]
  simp

/-- **A documentation comment closes once exactly if no line of it holds the mark.** -/
theorem closesOnce_docBlock_iff {unit : String} (hunit : '*' ∉ unit.toList) (level : Nat)
    (hne : lines ≠ []) :
    ClosesOnce (docBlock unit level lines) ↔ ∀ line ∈ lines, ¬ HasClosing line := by
  obtain ⟨written, last, hrun, hmark⟩ := exists_written hne level
  let indent := (String.join (List.replicate level unit)).toList
  let front := (String.join (written.map (Line.render unit))).toList
  have htext : (docBlock unit level lines).toList =
      (front ++ (indent ++ last.toList)) ++ closing ++ ['\n'] := by
    rw [docBlock_eq hrun]
    simp [Line.render, front, indent, closing]
  have hindent : '*' ∉ indent := by
    simp [indent, hunit]
  rw [closesOnce_iff htext, closing_infix_render_iff hunit,
    closing_infix_append_iff_of_not_mem hindent]
  refine (not_congr hmark).trans ?_
  simp

/-! ### What a comment is made of -/

/-- The texts that the comment on a subject is made of: what is said, and the subject where that
is left out. -/
def Comment.sources (subject : String) : Option String → List String
  | some raw => if (afterEllipsis? (trim raw)).isSome then [subject, raw] else [raw]
  | none => []

/-- An ellipsis is no part of a mark. -/
theorem hasClosing_afterEllipsis_iff {rest : String}
    (h : Comment.afterEllipsis? text = some rest) : HasClosing text ↔ HasClosing rest := by
  have hdot : '.' ≠ '*' := by decide
  have hellipsis : '…' ≠ '*' := by decide
  unfold Comment.afterEllipsis? at h
  split at h
  · rename_i chars htext
    obtain rfl := Option.some.inj h
    rw [HasClosing, htext, closing_infix_cons_iff hdot, closing_infix_cons_iff hdot,
      closing_infix_cons_iff hdot, HasClosing, String.toList_ofList]
  · rename_i chars htext
    obtain rfl := Option.some.inj h
    rw [HasClosing, htext, closing_infix_cons_iff hellipsis, HasClosing, String.toList_ofList]
  · cases h

theorem hasClosing_complete_iff {said : String} :
    (∃ text, Comment.complete subject said = some text ∧ HasClosing text) ↔
      ∃ source ∈ Comment.sources subject (some said), HasClosing source := by
  unfold Comment.complete Comment.sources
  dsimp only
  split
  · rename_i hempty
    have hnone : ¬ HasClosing said := not_hasClosing_of_trim_empty hempty
    have hellipsis : Comment.afterEllipsis? (trim said) = none := by
      rw [String.isEmpty_iff.mp hempty]
      decide
    simp [hellipsis, hnone]
  · -- With an ellipsis the subject is put in its place, unless nothing is said after it.
    rcases hrest : Comment.afterEllipsis? (trim said) with _ | rest
    · simp [hasClosing_trim_iff]
    · have hsaid : HasClosing said ↔ HasClosing rest := by
        rw [← hasClosing_trim_iff, hasClosing_afterEllipsis_iff hrest]
      by_cases hblank : isAllBlank rest = true
      · have hnone : ¬ HasClosing rest := not_hasClosing_of_isAllBlank hblank
        simp [hblank, hsaid, hnone]
      · simp [hblank, hsaid, hasClosing_blank_iff, hasClosing_trimStart_iff]

/-- **The lines of a comment hold the mark** if what is said does, or a subject that is put in. -/
theorem hasClosing_comment_iff :
    (∃ line ∈ Comment.lines subject raw, HasClosing line) ↔
      ∃ source ∈ Comment.sources subject raw, HasClosing source := by
  rcases raw with _ | said
  · simp [Comment.lines, Comment.sources]
  · rw [← hasClosing_complete_iff, Comment.lines, Option.bind_some]
    rcases Comment.complete subject said with _ | text
    · simp
    · simp [hasClosing_trimEnd_iff, @hasClosing_iff_lines text]

/-- What is said about a parameter or a result holds the mark if the documentation does. -/
theorem hasClosing_role_iff (said : String) :
    (∃ text, Comment.role said = some text ∧ HasClosing text) ↔ HasClosing said := by
  unfold Comment.role
  dsimp only
  split
  · rename_i hempty
    have hnone : ¬ HasClosing said := not_hasClosing_of_trim_empty hempty
    simp [hnone]
  · have hbody : HasClosing ((Comment.afterEllipsis? (trim said)).getD (trim said)) ↔
        HasClosing said := by
      rw [← @hasClosing_trim_iff said]
      rcases hrest : Comment.afterEllipsis? (trim said) with _ | rest
      · rfl
      · exact (hasClosing_afterEllipsis_iff hrest).symm
    simp [hasClosing_trim_iff, hbody]

/-! ### What the comment on a func is made of -/

/-- The labels of the results that are returned as values, if these are told apart by them. -/
def toldApart : List ResultComment → List String
  | [_] => []
  | results => results.map (·.label)

/-- A line that starts with a tag. -/
theorem hasClosing_tagged_iff {tag : String} (hlast : tag.toList.getLast? ≠ some '*')
    (htag : ¬ HasClosing tag) : HasClosing (trimEnd (tag ++ text)) ↔ HasClosing text := by
  rw [hasClosing_trimEnd_iff, hasClosing_append_iff hlast, or_iff_right htag]

theorem hasClosing_returnLines_iff (results : List ResultComment) :
    (∃ line ∈ returnLines results, HasClosing line) ↔
      (∃ result ∈ results, HasClosing result.text) ∨ ∃ label ∈ toldApart results,
        HasClosing label := by
  -- A single result has no label.
  have hone (text : String) : HasClosing (trimEnd ("@return " ++ text)) ↔ HasClosing text :=
    hasClosing_tagged_iff (by decide) (by decide)
  -- Each of several has one, in braces.
  have hmany (label text : String) :
      HasClosing (trimEnd ("@return \x7b@code " ++ label ++ "\x7d " ++ text)) ↔
        HasClosing label ∨ HasClosing text := by
    have hmark : '\x7d' ∉ closing := by decide
    have hbrace : HasClosing (label ++ "\x7d") ↔ HasClosing label := by
      have hlist : (label ++ "\x7d").toList = label.toList ++ '\x7d' :: [] := by simp
      rw [HasClosing, hlist, closing_infix_append_cons_iff hmark]
      simp [closing, HasClosing]
    have hline : "@return \x7b@code " ++ label ++ "\x7d " ++ text =
        "@return \x7b@code " ++ ((label ++ "\x7d") ++ " " ++ text) := by
      simp only [String.append_assoc]
      rfl
    rw [hline, hasClosing_tagged_iff (by decide) (by decide), hasClosing_blank_iff, hbrace]
  rcases results with _ | ⟨first, _ | ⟨second, rest⟩⟩
  · simp [returnLines, toldApart]
  · simp [returnLines, toldApart, hone]
  · simp only [returnLines, toldApart, List.mem_map, exists_exists_and_eq_and, hmany, and_or_left,
      exists_or]
    exact or_comm

/-- **The lines of the comment on a func hold the mark** if its own lines do, or what is said
about a parameter or a result, the name of such a parameter, or a label that is put in. -/
theorem hasClosing_funcCommentLines_iff (doc : FuncComment) :
    (∃ line ∈ funcCommentLines doc, HasClosing line) ↔
      (∃ line ∈ doc.summary, HasClosing line) ∨
      (∃ param ∈ doc.params, HasClosing param.1 ∨ HasClosing param.2) ∨
      (∃ result ∈ doc.results, HasClosing result.text) ∨
      ∃ label ∈ toldApart (doc.results.filter (!·.failure)), HasClosing label := by
  have hseparator (separate : Bool) :
      ¬ ∃ line ∈ (if separate then [""] else []), HasClosing line := by
    cases separate <;> decide
  have hparam (param : String × String) :
      HasClosing (trimEnd ("@param " ++ param.1 ++ " " ++ param.2)) ↔
        HasClosing param.1 ∨ HasClosing param.2 := by
    rw [String.append_assoc, String.append_assoc, hasClosing_tagged_iff (by decide) (by decide),
      ← String.append_assoc, hasClosing_blank_iff]
  have hfailure (text : String) :
      HasClosing (trimEnd ("@throws " ++ javaFailure ++ " " ++ text)) ↔ HasClosing text :=
    hasClosing_tagged_iff (by decide) (by decide)
  -- Results are returned or thrown, and what is said about them is put in either way.
  have hresults : (∃ result ∈ doc.results, HasClosing result.text) ↔
      (∃ result ∈ doc.results.filter (!·.failure), HasClosing result.text) ∨
        ∃ result ∈ doc.results.filter (·.failure), HasClosing result.text := by
    rw [← exists_or]
    refine exists_congr fun result => ?_
    cases hthrown : result.failure <;> simp [hthrown]
  unfold funcCommentLines
  dsimp only
  simp only [List.mem_append, or_and_right, exists_or, hasClosing_returnLines_iff, hresults,
    List.mem_map, exists_exists_and_eq_and, hparam, hfailure, hseparator, false_or, or_assoc]
  exact or_congr_right (or_congr_right (or_congr_right or_comm))

end DeclPrinter
