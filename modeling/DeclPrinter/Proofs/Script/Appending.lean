import DeclPrinter.Proofs.Script
import DeclPrinter.Proofs.Script.Indentation

/-!
# Scripts that only add lines

What an instruction does may depend on the last line: it is continued, or a blank line is left out
because there is one already. In a script that begins with a line, that line or a later one is the
last from then on, so what was there before the script has no part in what it writes
(`WellNested.appends`). Such scripts can be written one after another, with a blank line before each
(`exists_run_spaced`).
-/

namespace DeclPrinter

/-- The lines that the script writes when it starts at a level and nothing is written yet. -/
def Script.linesFrom (script : Script) (level : Nat) : List Line :=
  ((⟨[], level⟩ : LineBuffer).run script).lines.reverse

theorem Script.linesFrom_of_run_eq {script : Script} {above : LineBuffer} {lines : List Line}
    (h : LineBuffer.empty.run script = above.push lines) :
    script.linesFrom 0 = above.lines.reverse ++ lines := by
  have hlines := congrArg (fun buffer => buffer.lines.reverse) h
  rw [LineBuffer.push, List.reverse_append, List.reverse_reverse] at hlines
  exact hlines

/-- To any lines the script adds those that it writes on its own, and it ends at the level where it
starts. -/
def Script.Appends (script : Script) : Prop :=
  ∀ buffer : LineBuffer, buffer.run script = buffer.push (script.linesFrom buffer.level)

/-- The first instruction of the script, if there is one, writes a line. -/
def Script.BeginsWithLine (script : Script) : Prop :=
  ∀ step ∈ script.head?, ∃ text, step = .line text

namespace Script.BeginsWithLine

variable {first second : Script}

theorem nil : BeginsWithLine [] := by
  simp [BeginsWithLine]

theorem line (text : String) (rest : Script) : BeginsWithLine (.line text :: rest) := by
  simp [BeginsWithLine]

theorem append (hfirst : BeginsWithLine first) (hsecond : BeginsWithLine second) :
    BeginsWithLine (first ++ second) := by
  cases first with
  | nil => exact hsecond
  | cons step rest => exact hfirst

/-- What follows in a script does not matter if there is something before it. -/
theorem append_of_ne_nil (hfirst : BeginsWithLine first) (hne : first ≠ []) (second : Script) :
    BeginsWithLine (first ++ second) := by
  obtain ⟨step, rest, rfl⟩ := List.exists_cons_of_ne_nil hne
  exact hfirst

theorem lines (texts : List String) : BeginsWithLine (texts.map .line) := by
  cases texts with
  | nil => exact nil
  | cons text rest => exact line text _

end Script.BeginsWithLine

/-- **What begins with a line and is well nested only adds lines.** -/
theorem WellNested.appends {script : Script} (h : WellNested script)
    (hbegins : script.BeginsWithLine) : script.Appends := by
  intro buffer
  rcases script with _ | ⟨step, rest⟩
  · rfl
  · obtain ⟨text, rfl⟩ := hbegins step rfl
    have hlevel := LineBuffer.level_run ⟨[], buffer.level⟩ (.line text :: rest)
    rw [h.levelAfter_eq] at hlevel
    rw [LineBuffer.run_line_eq_onto, LineBuffer.onto, LineBuffer.push, Script.linesFrom,
      List.reverse_reverse, hlevel]

namespace LineBuffer

variable {buffer : LineBuffer}

/-- The last line is blank. -/
def EndsBlank (buffer : LineBuffer) : Prop :=
  ∃ line ∈ buffer.lines.head?, line.isBlank = true

theorem step_blank (hne : buffer.lines ≠ []) (h : ¬ buffer.EndsBlank) :
    buffer.step .blank = buffer.push [.blank] := by
  obtain ⟨last, earlier, hlines⟩ := List.exists_cons_of_ne_nil hne
  have hlast : last.isBlank = false := by simpa [EndsBlank, hlines] using h
  simp [LineBuffer.step, hlines, hlast]

theorem step_blank_of_endsBlank (h : buffer.EndsBlank) : buffer.step .blank = buffer := by
  obtain ⟨last, hlast, hblank⟩ := h
  obtain ⟨earlier, hlines⟩ := List.head?_eq_some_iff.mp hlast
  simp [LineBuffer.step, hlines, hblank]

/-- A last line without text is the blank line. -/
theorem BlanksAtMargin.exists_push (h : buffer.BlanksAtMargin) (hblank : buffer.EndsBlank) :
    ∃ above : LineBuffer, buffer = above.push [.blank] := by
  obtain ⟨⟨depth, text⟩, hlast, hempty⟩ := hblank
  obtain ⟨earlier, hlines⟩ := List.head?_eq_some_iff.mp hlast
  obtain rfl : text = "" := String.isEmpty_iff.mp hempty
  obtain rfl : depth = 0 := h ⟨depth, ""⟩ (hlines ▸ List.mem_cons_self) rfl
  refine ⟨⟨earlier, buffer.level⟩, ?_⟩
  obtain ⟨lines, level⟩ := buffer
  obtain rfl : lines = _ := hlines
  rfl

/-- A line with text at its end is no blank line. -/
theorem not_endsBlank_of_line {text : String} {c : Char} (h : text.toList.getLast? = some c)
    (hc : Text.isBlank c = false) (script : Script) :
    ¬ (buffer.run (script ++ [.line text])).EndsBlank := by
  obtain ⟨front, hfront⟩ := List.getLast?_eq_some_iff.mp h
  obtain ⟨earlier, last, hbefore⟩ := exists_splitLines_concat (String.ofList front)
  have hbreak : '\n' ∉ (String.ofList [c]).toList := by
    rw [String.toList_ofList, List.mem_singleton]
    rintro rfl
    cases hc
  -- The last of the lines that are written ends in the same character.
  have hsplit : Text.splitLines text = earlier ++ [last ++ String.ofList [c]] := by
    have hwhole : text = String.ofList front ++ String.ofList [c] := by
      apply String.toList_injective
      simp [hfront]
    rw [hwhole]
    exact splitLines_append_of_unbroken hbefore hbreak
  have hend : (last ++ String.ofList [c]).toList.getLast? = some c := by simp
  rw [run_append]
  rintro ⟨line, hline, hblank⟩
  obtain rfl : Line.ofText (buffer.run script).level (last ++ String.ofList [c]) = line := by
    simpa [run, LineBuffer.step, push, hsplit] using hline
  rw [Line.ofText_of_getLast? hend hc, Line.isBlank_of_getLast? hend] at hblank
  cases hblank

end LineBuffer

/-- The last instruction of the script writes a line that has text at its end. -/
def Script.EndsInText (script : Script) : Prop :=
  ∃ before text c, script = before ++ [.line text] ∧ text.toList.getLast? = some c ∧
    Text.isBlank c = false

theorem Script.EndsInText.after {script : Script} (h : script.EndsInText) (other : Script) :
    Script.EndsInText (other ++ script) := by
  obtain ⟨before, text, c, rfl, htext, hc⟩ := h
  exact ⟨other ++ before, text, c, (List.append_assoc ..).symm, htext, hc⟩

theorem Script.EndsInText.ne_nil {script : Script} (h : script.EndsInText) : script ≠ [] := by
  obtain ⟨before, text, _, rfl, _⟩ := h
  simp

/-- A block ends in the line that closes it. -/
theorem Script.EndsInText.block {closing : String} {c : Char}
    (h : closing.toList.getLast? = some c) (hc : Text.isBlank c = false) (opening : String)
    (inner : Script) :
    Script.EndsInText ([.line opening, .indent] ++ inner ++ [.dedent, .line closing]) :=
  ⟨[.line opening, .indent] ++ inner ++ [.dedent], closing, c, by simp, h, hc⟩

theorem Script.EndsInText.flatten {scripts : List Script} (hne : scripts ≠ [])
    (h : ∀ script ∈ scripts, script.EndsInText) : Script.EndsInText scripts.flatten := by
  obtain ⟨earlier, last, rfl⟩ := (List.eq_nil_or_concat' scripts).resolve_left hne
  rw [List.flatten_append, List.flatten_singleton]
  exact (h last (by simp)).after _

theorem Script.EndsInText.join_flatten {script : Script} {scripts : List Script}
    (h : script.EndsInText) (hscripts : ∀ other ∈ scripts, other.EndsInText) :
    Script.EndsInText (script ++ scripts.flatten) := by
  by_cases hnil : scripts = []
  · simpa [hnil] using h
  · exact (flatten hnil hscripts).after script

/-- If there is text in the last line, none of the lines is dropped at the end. -/
theorem Script.EndsInText.lines_eq {script : Script} (h : script.EndsInText) :
    script.lines = script.linesFrom 0 := by
  obtain ⟨before, text, c, rfl, htext, hc⟩ := h
  have hlast : ¬ (LineBuffer.empty.run (before ++ [.line text])).EndsBlank :=
    LineBuffer.not_endsBlank_of_line htext hc before
  rw [Script.lines, LineBuffer.finished]
  rcases hlines : (LineBuffer.empty.run (before ++ [.line text])).lines with _ | ⟨last, earlier⟩
  · show _ = List.reverse (LineBuffer.empty.run _).lines
    rw [hlines]
    rfl
  · have hsome : ¬ last.isBlank = true := fun hblank => hlast ⟨last, by simp [hlines], hblank⟩
    rw [hlines, List.dropWhile_cons_of_neg hsome, ← hlines]
    rfl

namespace LineBuffer

variable {buffer : LineBuffer} {scripts : List Script}

/-- Below a blank line the first script adds its lines, and the others theirs with a blank line
before each. -/
theorem run_spaced {above : LineBuffer} {script : Script} {rest : List Script}
    (h : ∀ own ∈ script :: rest, own.Appends ∧ own.EndsInText) :
    (above.push [.blank]).run (script ++ rest.flatMap (.blank :: ·)) =
      above.push ((script :: rest).flatMap fun own => .blank :: own.linesFrom above.level) := by
  induction rest generalizing above script with
  | nil =>
    rw [List.flatMap_nil, List.append_nil, (h script List.mem_cons_self).1, push_push]
    simp [push]
  | cons second others ih =>
    obtain ⟨⟨happends, before, text, c, rfl, htext, hc⟩, hrest⟩ := List.forall_mem_cons.mp h
    let middle := (above.push [.blank]).run (before ++ [.line text])
    have hmiddle : middle =
        above.push (.blank :: Script.linesFrom (before ++ [.line text]) above.level) := by
      show LineBuffer.run _ _ = _
      rw [happends, push_push]
      rfl
    -- The first script ends in text, so the blank line after it is a new one.
    have hblank : middle.step .blank = middle.push [.blank] :=
      step_blank (by simp [hmiddle, push]) (not_endsBlank_of_line htext hc before)
    rw [List.flatMap_cons, run_append]
    show (middle.step .blank).run (second ++ others.flatMap (.blank :: ·)) = _
    rw [hblank, ih hrest, hmiddle, push_push]
    rfl

/-- **Scripts after blank lines** add their lines, and a blank line before each. Only the first of
the blank lines may have been there. -/
theorem exists_run_spaced (hmargin : buffer.BlanksAtMargin) (hne : buffer.lines ≠ [])
    (h : ∀ script ∈ scripts, script.Appends ∧ script.EndsInText) :
    ∃ above : LineBuffer, (buffer = above ∨ buffer = above.push [.blank]) ∧
      buffer.run (scripts.flatMap (.blank :: ·)) =
        above.push (scripts.flatMap fun script => .blank :: script.linesFrom buffer.level) := by
  rcases scripts with _ | ⟨script, rest⟩
  · exact ⟨buffer, .inl rfl, rfl⟩
  have hstart : buffer.run ((script :: rest).flatMap (.blank :: ·)) =
      (buffer.step .blank).run (script ++ rest.flatMap (.blank :: ·)) := rfl
  rw [hstart]
  by_cases hblank : buffer.EndsBlank
  · -- A blank line is there already, and serves as the first.
    obtain ⟨above, rfl⟩ := hmargin.exists_push hblank
    rw [step_blank_of_endsBlank hblank]
    exact ⟨above, .inr rfl, run_spaced h⟩
  · rw [step_blank hne hblank]
    exact ⟨buffer, .inl rfl, run_spaced h⟩

end LineBuffer

/-- In a file the blank line before the first of them is the only one that may have been there, and
no line of the last is dropped at the end. -/
theorem Script.exists_linesFrom_spaced {top : Script} {owns : List Script}
    (hlevel : top.levelAfter 0 = 0) (hne : (LineBuffer.empty.run top).lines ≠ [])
    (howns : ∀ own ∈ owns, own.Appends ∧ own.EndsInText) :
    let script := top ++ owns.flatMap (.blank :: ·)
    ∃ above, (top.linesFrom 0 = above ∨ top.linesFrom 0 = above ++ [.blank]) ∧
      script.linesFrom 0 = above ++ owns.flatMap (fun own => .blank :: own.linesFrom 0) ∧
      (owns ≠ [] → script.lines = script.linesFrom 0) := by
  intro script
  have hempty : LineBuffer.empty.BlanksAtMargin := LineBuffer.blanksAtMargin_nil 0
  obtain ⟨above, habove, hrun⟩ := LineBuffer.exists_run_spaced (hempty.run top) hne howns
  rw [LineBuffer.level_run, show LineBuffer.empty.level = 0 from rfl, hlevel,
    ← LineBuffer.run_append] at hrun
  refine ⟨above.lines.reverse, habove.imp (fun hsame => ?_) linesFrom_of_run_eq,
    linesFrom_of_run_eq hrun, fun hsome => EndsInText.lines_eq ?_⟩
  · rw [← hsame]
    rfl
  · -- What ends in text keeps all its lines.
    have hends : ∀ spaced ∈ owns.map (Step.blank :: ·), EndsInText spaced :=
      List.forall_mem_map.mpr fun own hown => (howns own hown).2.after [.blank]
    have hlast := EndsInText.flatten (by simpa using hsome) hends
    rw [← List.flatMap_def] at hlast
    exact hlast.after top

end DeclPrinter
