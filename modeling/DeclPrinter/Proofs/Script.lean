import DeclPrinter.Proofs.Text.Blank
import DeclPrinter.Proofs.Text.Pieces
import DeclPrinter.Script

/-!
# What a script leaves in place

A script only adds lines at the end, except that it may continue the last one. So a line stays
as it is once another is written below it.

A declaration is written by lines, and by scripts one level further in (`WellNested`). Such a
script ends at the level at which it starts.
-/

namespace DeclPrinter.Line

variable {text : String} {c : Char}

theorem isBlank_of_getLast? (h : text.toList.getLast? = some c) (level : Nat) :
    Line.isBlank ⟨level, text⟩ = false := by
  rw [Line.isBlank, Bool.eq_false_iff, ne_eq, String.isEmpty_iff]
  rintro rfl
  cases h

/-- A line with text has text when it is continued. -/
theorem isBlank_continued {line : Line} (h : line.isBlank = false) (more : String) :
    Line.isBlank { line with text := line.text ++ more } = false := by
  rw [Line.isBlank, Bool.eq_false_iff, ne_eq, String.isEmpty_iff, String.append_eq_empty_iff]
  rintro ⟨hempty, _⟩
  rw [Line.isBlank, hempty] at h
  cases h

/-- A text that does not end in white space is a line as it is. -/
theorem ofText_of_getLast? (h : text.toList.getLast? = some c) (hc : Text.isBlank c = false)
    (level : Nat) : Line.ofText level text = ⟨level, text⟩ := by
  have hkept : Text.trimEnd text = text := by
    obtain ⟨front, hfront⟩ := List.getLast?_eq_some_iff.mp h
    apply String.toList_injective
    rw [Text.trimEnd, String.toList_ofList, hfront]
    simp [Text.dropBlankEnd, hc]
  have hsome : text.isEmpty = false := isBlank_of_getLast? h level
  unfold Line.ofText
  dsimp only
  rw [hkept, hsome]
  rfl

end DeclPrinter.Line

namespace DeclPrinter.LineBuffer

variable {buffer : LineBuffer}

theorem run_append (buffer : LineBuffer) (first second : Script) :
    buffer.run (first ++ second) = (buffer.run first).run second :=
  List.foldl_append

theorem push_push (buffer : LineBuffer) (first second : List Line) :
    (buffer.push first).push second = buffer.push (first ++ second) := by
  simp [push]

theorem push_right_injective {first second : List Line}
    (h : buffer.push first = buffer.push second) : first = second := by
  have hlines := congrArg LineBuffer.lines h
  exact List.reverse_inj.mp (List.append_cancel_right hlines)

/-- A list of texts is written as the lines of each. -/
theorem run_map_line (buffer : LineBuffer) (texts : List String) :
    buffer.run (texts.map .line) =
      buffer.push (texts.flatMap fun text =>
        (Text.splitLines text).map (Line.ofText buffer.level)) := by
  induction texts generalizing buffer with
  | nil => rfl
  | cons text rest ih =>
    have hlevel : (buffer.step (.line text)).level = buffer.level := rfl
    show (buffer.step (.line text)).run (rest.map .line) = _
    rw [ih, hlevel, List.flatMap_cons, ← push_push]
    rfl

theorem splitLines_ne_nil (text : String) : Text.splitLines text ≠ [] := by
  intro hnil
  exact List.splitOnP_ne_nil _ _ (List.map_eq_nil_iff.mp hnil)

theorem exists_splitLines_concat (text : String) :
    ∃ earlier last, Text.splitLines text = earlier ++ [last] :=
  (List.eq_nil_or_concat' (Text.splitLines text)).resolve_left (splitLines_ne_nil text)

/-- What has no line break is written on the last line of what stands before it. -/
theorem splitLines_append_of_unbroken {before kept : String} {earlier : List String}
    {last : String} (h : Text.splitLines before = earlier ++ [last])
    (hbreak : '\n' ∉ kept.toList) :
    Text.splitLines (before ++ kept) = earlier ++ [last ++ kept] := by
  have hunbroken : ∀ c ∈ kept.toList, (c == '\n') = false := by
    intro c hc
    rw [beq_eq_false_iff_ne]
    rintro rfl
    exact hbreak hc
  exact Text.splitAt_append_of_unbroken_end hunbroken h

/-- The buffer with older lines below those in it. -/
def onto (buffer : LineBuffer) (below : List Line) : LineBuffer :=
  { buffer with lines := buffer.lines ++ below }

theorem lines_step_ne_nil (h : buffer.lines ≠ []) (step : Step) :
    (buffer.step step).lines ≠ [] := by
  obtain ⟨last, earlier, hlines⟩ := List.exists_cons_of_ne_nil h
  have hpush (lines : List Line) : (buffer.push lines).lines ≠ [] := by simp [push, hlines]
  cases step with
  | line text => exact hpush _
  | verbatim text => exact hpush _
  | append text => simp [LineBuffer.step, hlines]
  | blank =>
    simp only [LineBuffer.step, hlines]
    split
    · exact h
    · exact hpush _
  | indent => exact h
  | dedent => exact h

theorem lines_run_ne_nil (h : buffer.lines ≠ []) (script : Script) :
    (buffer.run script).lines ≠ [] := by
  induction script generalizing buffer with
  | nil => exact h
  | cons step rest ih => exact ih (lines_step_ne_nil h step)

/-- **An instruction reaches no line but the last.** -/
theorem step_onto (h : buffer.lines ≠ []) (step : Step) (below : List Line) :
    (buffer.onto below).step step = (buffer.step step).onto below := by
  obtain ⟨last, earlier, hlines⟩ := List.exists_cons_of_ne_nil h
  have honto : (buffer.onto below).lines = last :: (earlier ++ below) := by simp [onto, hlines]
  -- Whatever is pushed comes above the lines that are there.
  have hpush (lines : List Line) :
      (buffer.onto below).push lines = (buffer.push lines).onto below := by
    simp [onto, push]
  cases step with
  | line text => exact hpush _
  | verbatim text => exact hpush _
  | append text =>
    simp only [LineBuffer.step, hlines, honto]
    rfl
  | blank =>
    simp only [LineBuffer.step, hlines, honto]
    split
    · rfl
    · exact hpush _
  | indent => rfl
  | dedent => rfl

theorem run_onto (h : buffer.lines ≠ []) (script : Script) (below : List Line) :
    (buffer.onto below).run script = (buffer.run script).onto below := by
  induction script generalizing buffer with
  | nil => rfl
  | cons step rest ih =>
    show ((buffer.onto below).step step).run rest = ((buffer.step step).run rest).onto below
    rw [step_onto h, ih (lines_step_ne_nil h step)]

/-- **What a line starts is written above the lines that are there,** as it would be without
them. -/
theorem run_line_eq_onto (buffer : LineBuffer) (text : String) (after : Script) :
    buffer.run (.line text :: after) =
      ((⟨[], buffer.level⟩ : LineBuffer).run (.line text :: after)).onto buffer.lines := by
  let first := (⟨[], buffer.level⟩ : LineBuffer).step (.line text)
  have hfirst : buffer.step (.line text) = first.onto buffer.lines := by
    simp [first, LineBuffer.step, onto, push]
  have hne : first.lines ≠ [] := by simp [first, LineBuffer.step, push, splitLines_ne_nil]
  show (buffer.step (.line text)).run after = _
  rw [hfirst, run_onto hne]
  rfl

/-- **Lines stay in place below which a line is written,** whatever follows it. -/
theorem exists_lines_run_line (buffer : LineBuffer) (text : String) (after : Script) :
    ∃ above, (buffer.run (.line text :: after)).lines = above ++ buffer.lines := by
  rw [run_line_eq_onto]
  exact ⟨_, rfl⟩

/-- **A line that is written is only ever continued.** -/
theorem exists_continued_step {above below : List Line} {line : Line}
    (h : buffer.lines = above ++ line :: below) (step : Step) :
    ∃ above more, (buffer.step step).lines =
      above ++ { line with text := line.text ++ more } :: below := by
  have hkept (lines : List Line) : lines ++ line :: below =
      lines ++ { line with text := line.text ++ "" } :: below := by
    rw [String.append_empty]
  -- Lines that are written come above it.
  have hpush (lines : List Line) : ∃ above more, (buffer.push lines).lines =
      above ++ { line with text := line.text ++ more } :: below := by
    refine ⟨lines.reverse ++ above, "", ?_⟩
    rw [push, h, ← List.append_assoc, hkept]
  cases step with
  | line text => exact hpush _
  | verbatim text => exact hpush _
  | append text =>
    -- Only the last line is continued, which is this one if none is above it.
    rcases above with _ | ⟨last, earlier⟩
    · exact ⟨[], text, by simp only [LineBuffer.step, h, List.nil_append]⟩
    · refine ⟨{ last with text := last.text ++ text } :: earlier, "", ?_⟩
      simp only [LineBuffer.step, h, List.cons_append, String.append_empty]
  | blank =>
    simp only [LineBuffer.step]
    split
    · exact ⟨above, "", h.trans (hkept above)⟩
    split
    · exact ⟨above, "", h.trans (hkept above)⟩
    · exact hpush _
  | indent => exact ⟨above, "", h.trans (hkept above)⟩
  | dedent => exact ⟨above, "", h.trans (hkept above)⟩

theorem exists_continued_run {above below : List Line} {line : Line} (script : Script)
    (h : buffer.lines = above ++ line :: below) :
    ∃ above more, (buffer.run script).lines =
      above ++ { line with text := line.text ++ more } :: below := by
  induction script generalizing buffer above line with
  | nil => exact ⟨above, "", by rw [String.append_empty]; exact h⟩
  | cons step rest ih =>
    obtain ⟨_, first, hstep⟩ := exists_continued_step h step
    obtain ⟨above, second, hrest⟩ := ih hstep
    rw [String.append_assoc] at hrest
    exact ⟨above, first ++ second, hrest⟩

/-- Blank lines at the end are dropped, but no line with text and none before it. -/
theorem finished_eq {above before : List Line} {last : Line}
    (hlines : buffer.lines = above ++ last :: before) (hlast : last.isBlank = false) :
    buffer.finished = before.reverse ++ last :: (above.dropWhile Line.isBlank).reverse := by
  have hkept : (last :: before).dropWhile Line.isBlank = last :: before :=
    List.dropWhile_cons_of_neg (by simp [hlast])
  rw [LineBuffer.finished, hlines, List.dropWhile_append, hkept]
  split
  · rename_i hempty
    rw [List.isEmpty_iff.mp hempty]
    simp
  · simp

end DeclPrinter.LineBuffer

namespace DeclPrinter

/-- **What follows the last line break of a text stays together.** Up to there the text has as many
lines as what stands before it. On the last of these stands what is kept, and in what the script
writes this line is whole. -/
theorem Script.exists_line_of_mem {script : Script} {before kept : String} {c : Char}
    (h : .line (before ++ kept) ∈ script) (hbreak : '\n' ∉ kept.toList)
    (hlast : kept.toList.getLast? = some c) (hc : Text.isBlank c = false) :
    ∃ earlier last, Text.splitLines before = earlier ++ [last] ∧
      Text.splitLines (before ++ kept) = earlier ++ [last ++ kept] ∧
      ∃ line ∈ script.lines, (last ++ kept).toList <+: line.text.toList := by
  obtain ⟨earlier, last, hbefore⟩ := LineBuffer.exists_splitLines_concat before
  have hsplit : Text.splitLines (before ++ kept) = earlier ++ [last ++ kept] :=
    LineBuffer.splitLines_append_of_unbroken hbefore hbreak
  refine ⟨earlier, last, hbefore, hsplit, ?_⟩
  obtain ⟨above, below, rfl⟩ := List.append_of_mem h
  let buffer := LineBuffer.empty.run above
  let line : Line := ⟨buffer.level, last ++ kept⟩
  have hend : line.text.toList.getLast? = some c := by
    simp [line, String.toList_append, List.getLast?_append, hlast]
  have hline : Line.ofText buffer.level line.text = line :=
    Line.ofText_of_getLast? hend hc buffer.level
  have hwritten : (buffer.step (.line (before ++ kept))).lines =
      [] ++ line :: ((earlier.map (Line.ofText buffer.level)).reverse ++ buffer.lines) := by
    show ((Text.splitLines _).map (Line.ofText buffer.level)).reverse ++ buffer.lines = _
    rw [hsplit, List.map_append, List.reverse_append, List.map_singleton, hline]
    rfl
  -- From here on the line is at most continued.
  obtain ⟨_, more, hrun⟩ := LineBuffer.exists_continued_run below hwritten
  have hsome : Line.isBlank { line with text := line.text ++ more } = false :=
    Line.isBlank_continued (Line.isBlank_of_getLast? hend buffer.level) more
  have hfinished := LineBuffer.finished_eq hrun hsome
  refine ⟨{ line with text := line.text ++ more }, ?_, ?_⟩
  · rw [Script.lines, LineBuffer.run_append]
    show _ ∈ ((buffer.step (.line (before ++ kept))).run below).finished
    rw [hfinished]
    simp
  · rw [String.toList_append (t := more)]
    exact List.prefix_append _ _

/-! ### Levels -/

/-- The level after an instruction. -/
def Step.levelAfter (level : Nat) : Step → Nat
  | .indent => level + 1
  | .dedent => level - 1
  | _ => level

/-- The level after a script that starts at a level. -/
def Script.levelAfter (script : Script) (level : Nat) : Nat :=
  script.foldl Step.levelAfter level

theorem LineBuffer.level_step (buffer : LineBuffer) (step : Step) :
    (buffer.step step).level = step.levelAfter buffer.level := by
  cases step with
  | append text =>
    rcases hlines : buffer.lines with _ | ⟨last, earlier⟩
    · simp [LineBuffer.step, hlines, Step.levelAfter]
    · simp [LineBuffer.step, hlines, Step.levelAfter]
  | blank =>
    rcases hlines : buffer.lines with _ | ⟨last, earlier⟩
    · simp [LineBuffer.step, hlines, Step.levelAfter]
    · by_cases hblank : last.isBlank = true
      · simp [LineBuffer.step, hlines, hblank, Step.levelAfter]
      · simp [LineBuffer.step, hlines, hblank, Step.levelAfter, LineBuffer.push]
  | _ => rfl

theorem LineBuffer.level_run (buffer : LineBuffer) (script : Script) :
    (buffer.run script).level = script.levelAfter buffer.level := by
  induction script generalizing buffer with
  | nil => rfl
  | cons step rest ih =>
    show ((buffer.step step).run rest).level = Script.levelAfter rest _
    rw [ih, LineBuffer.level_step]

theorem Script.levelAfter_append (first second : Script) (level : Nat) :
    Script.levelAfter (first ++ second) level =
      Script.levelAfter second (Script.levelAfter first level) :=
  List.foldl_append

/-- A script of lines, and of scripts of this kind one level further in. -/
inductive WellNested : Script → Prop where
  | nil : WellNested []
  | line (text : String) : WellNested [.line text]
  | append (text : String) : WellNested [.append text]
  | blank : WellNested [.blank]
  | join {first second : Script} (hfirst : WellNested first) (hsecond : WellNested second) :
      WellNested (first ++ second)
  | nest {inner : Script} (hinner : WellNested inner) :
      WellNested (.indent :: inner ++ [.dedent])

namespace WellNested

variable {script : Script}

/-- **A nested script ends at the level at which it starts.** -/
theorem levelAfter_eq (h : WellNested script) (level : Nat) : script.levelAfter level = level := by
  induction h generalizing level with
  | nil => rfl
  | line text => rfl
  | append text => rfl
  | blank => rfl
  | join _ _ hfirst hsecond => rw [Script.levelAfter_append, hfirst, hsecond]
  | @nest inner _ hinner =>
    have hopen : Script.levelAfter (.indent :: inner ++ [.dedent]) level =
        Script.levelAfter [.dedent] (Script.levelAfter inner (level + 1)) :=
      Script.levelAfter_append inner [.dedent] (level + 1)
    rw [hopen, hinner]
    rfl

theorem lines (texts : List String) : WellNested (texts.map .line) := by
  induction texts with
  | nil => exact .nil
  | cons text rest ih => exact (line text).join ih

theorem flatten {scripts : List Script} (h : ∀ script ∈ scripts, WellNested script) :
    WellNested scripts.flatten := by
  induction scripts with
  | nil => exact .nil
  | cons script rest ih =>
    have hrest := ih fun other hother => h other (List.mem_cons_of_mem script hother)
    exact (h script List.mem_cons_self).join hrest

/-- A block: an opening line, what is in it one level further in, and a closing line. -/
theorem block (opening closing : String) (h : WellNested script) :
    WellNested ([.line opening, .indent] ++ script ++ [.dedent, .line closing]) := by
  have hblock := ((line opening).join h.nest).join (line closing)
  simpa using hblock

end WellNested

end DeclPrinter
