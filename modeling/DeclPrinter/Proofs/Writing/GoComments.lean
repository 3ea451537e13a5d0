import DeclPrinter.Proofs.Script
import DeclPrinter.Proofs.Text.Blank
import DeclPrinter.Writing.Go

/-!
# Comments in Go

A line of a comment is marked at its start, and the writer cuts it at the newlines in it. So a
comment is written as comments exactly if the lines that newlines in it start are so by
themselves (`writesComments_goComment_iff`).

The comment on a declaration is cut into lines before it is marked, and holds no newline
(`staysComment_of_mem_commentLines`). What is said about a parameter or a result is put on one line,
whatever it holds: here the condition has to be made.
-/

namespace DeclPrinter

/-- The line is blank, or a comment. -/
def Line.IsComment (line : Line) : Prop :=
  line.isBlank = true ∨ ['/', '/'] <+: line.text.toList

/-- Wherever the script stands, it writes comments and nothing else. -/
def WritesComments (script : Script) : Prop :=
  ∀ buffer : LineBuffer, ∃ lines, buffer.run script = buffer.push lines ∧
    ∀ line ∈ lines, line.IsComment

/-- The lines that newlines in a text start are blank, or comments by themselves. -/
def StaysComment (text : String) : Prop :=
  ∀ line ∈ (Text.splitLines text).tail, (Line.ofText 0 line).IsComment

variable {line text : String} {lines : List String} {depth : Nat}

/-! ### Lines -/

/-- Whether a line is a comment does not depend on its indentation. -/
theorem isComment_ofText_iff :
    (Line.ofText depth text).IsComment ↔ (Line.ofText 0 text).IsComment := by
  unfold Line.ofText
  dsimp only
  split
  · rfl
  · rfl

/-- A text that starts with the mark is a comment. -/
theorem isComment_ofText_of_prefix (h : ['/', '/'] <+: text.toList) :
    (Line.ofText depth text).IsComment := by
  obtain ⟨rest, hrest⟩ := h
  have hslash : Text.isBlank '/' = false := by decide
  have hmark : ∀ c ∈ ['/', '/'], Text.isBlank c = false := by simp [hslash]
  have htrimmed : (Text.trimEnd text).toList = ['/', '/'] ++ Text.dropBlankEnd rest := by
    rw [Text.trimEnd, String.toList_ofList, ← hrest, Text.dropBlankEnd_append _ hmark]
  unfold Line.ofText
  dsimp only
  split
  · exact Or.inl rfl
  · right
    show ['/', '/'] <+: (Text.trimEnd text).toList
    rw [htrimmed]
    exact List.prefix_append ..

theorem staysComment_of_newline_not_mem (h : '\n' ∉ text.toList) : StaysComment text := by
  have hunbroken : ∀ c ∈ text.toList, (c == '\n') = false := by
    intro c hc
    rw [beq_eq_false_iff_ne]
    rintro rfl
    exact h hc
  rw [StaysComment, Text.splitLines, Text.splitAt_of_unbroken hunbroken]
  simp

/-! ### Marked lines -/

/-- A line with the mark of a comment. -/
def markedLine (line : String) : String :=
  if line.isEmpty then "//" else "// " ++ line

theorem goComment_eq (lines : List String) :
    goComment lines = (lines.map markedLine).map .line := by
  rw [goComment, List.map_map]
  rfl

/-- Only the first line of a marked line has the mark. -/
theorem splitLines_markedLine (line : String) :
    ∃ first, ['/', '/'] <+: first.toList ∧
      Text.splitLines (markedLine line) = first :: (Text.splitLines line).tail := by
  unfold markedLine
  by_cases hempty : line = ""
  · -- The mark stands alone where the line is empty.
    subst hempty
    refine ⟨"//", by decide, ?_⟩
    rw [Text.splitLines, Text.splitLines, Text.splitAt_empty]
    exact Text.splitAt_of_unbroken (by simp)
  · -- Else it is in front of the first piece of the line.
    have hkept : ¬ line.isEmpty = true := fun h => hempty (String.isEmpty_iff.mp h)
    have hmark : ∀ c ∈ "// ".toList, (c == '\n') = false := by simp
    obtain ⟨first, rest, hlines⟩ := List.exists_cons_of_ne_nil (LineBuffer.splitLines_ne_nil line)
    refine ⟨"// " ++ first, ?_, ?_⟩
    · rw [String.toList_append]
      exact ⟨' ' :: first.toList, rfl⟩
    · rw [if_neg hkept, hlines, Text.splitLines, Text.splitAt_append_of_unbroken hmark,
        ← Text.splitLines, hlines]
      rfl

/-- **A comment is written as comments exactly if newlines in it start comments.** -/
theorem writesComments_goComment_iff :
    WritesComments (goComment lines) ↔ ∀ line ∈ lines, StaysComment line := by
  have hwritten (buffer : LineBuffer) : buffer.run (goComment lines) =
      buffer.push (lines.flatMap fun line =>
        (Text.splitLines (markedLine line)).map (Line.ofText buffer.level)) := by
    rw [goComment_eq, LineBuffer.run_map_line, List.flatMap_map]
  constructor
  · intro h line hline piece hpiece
    obtain ⟨written, hrun, hcomments⟩ := h .empty
    rw [hwritten] at hrun
    have hlines := LineBuffer.push_right_injective hrun
    obtain ⟨first, _, hmarked⟩ := splitLines_markedLine line
    -- The piece is one of the lines that are written for the line it is from.
    refine hcomments (Line.ofText 0 piece) ?_
    rw [← hlines]
    refine List.mem_flatMap.mpr ⟨line, hline, ?_⟩
    rw [hmarked]
    exact List.mem_map_of_mem (List.mem_cons_of_mem first hpiece)
  · intro h buffer
    refine ⟨_, hwritten buffer, ?_⟩
    intro written hmem
    obtain ⟨line, hline, hmem⟩ := List.mem_flatMap.mp hmem
    obtain ⟨piece, hpiece, rfl⟩ := List.mem_map.mp hmem
    obtain ⟨first, hfirst, hmarked⟩ := splitLines_markedLine line
    rw [hmarked] at hpiece
    rcases List.mem_cons.mp hpiece with rfl | hrest
    · exact isComment_ofText_of_prefix hfirst
    · exact isComment_ofText_iff.mpr (h line hline piece hrest)

/-! ### Comments on declarations -/

/-- The lines of a comment hold no newline, whatever it says. -/
theorem newline_not_mem_of_mem_commentLines {subject : String} {raw : Option String}
    (h : line ∈ Comment.lines subject raw) : '\n' ∉ line.toList := by
  unfold Comment.lines at h
  split at h
  · obtain ⟨whole, hwhole, rfl⟩ := List.mem_map.mp h
    exact fun hnewline =>
      Text.newline_not_mem_of_mem_lines hwhole (Text.mem_of_mem_trimEnd hnewline)
  · cases h

theorem staysComment_of_mem_commentLines {subject : String} {raw : Option String}
    (h : line ∈ Comment.lines subject raw) : StaysComment line :=
  staysComment_of_newline_not_mem (newline_not_mem_of_mem_commentLines h)

/-! ### Comments on parameters and results -/

/-- What is said about the parameters and results of a func, line by line. -/
def goRoleLines (doc : FuncComment) : List String :=
  doc.params.map (fun param => goRoleLine "parameter" param.1 param.2) ++
    doc.results.map fun result => goRoleLine "result" result.label result.text

theorem goFuncComment_eq (doc : FuncComment) :
    goFuncComment doc = goComment doc.summary ++ goComment (goRoleLines doc) :=
  rfl

/-- The text of a comment on a parameter or a result is part of what is documented. -/
theorem mem_of_mem_role {raw text : String} {c : Char} (h : Comment.role raw = some text)
    (hc : c ∈ text.toList) : c ∈ raw.toList := by
  unfold Comment.role at h
  dsimp only at h
  split at h
  · cases h
  · obtain rfl := Option.some.inj h
    have hbody := Text.mem_of_mem_trim hc
    -- What follows an ellipsis is part of the text with it.
    have hrest : c ∈ (Text.trim raw).toList := by
      unfold Comment.afterEllipsis? at hbody
      split at hbody
      · rename_i rest heq
        rw [heq]
        rw [Option.getD_some, String.toList_ofList] at hbody
        simp [hbody]
      · rename_i rest heq
        rw [heq]
        rw [Option.getD_some, String.toList_ofList] at hbody
        simp [hbody]
      · exact hbody
    exact Text.mem_of_mem_trim hrest

theorem staysComment_goRoleLine {role label : String} (hrole : '\n' ∉ role.toList)
    (hlabel : '\n' ∉ label.toList) (htext : '\n' ∉ text.toList) :
    StaysComment (goRoleLine role label text) := by
  refine staysComment_of_newline_not_mem fun hnewline => ?_
  have hline := Text.mem_of_mem_trimEnd hnewline
  simp only [String.toList_append, quoted, List.mem_append] at hline
  simp [hrole, hlabel, htext] at hline

end DeclPrinter
