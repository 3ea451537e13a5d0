import DeclPrinter.Proofs.Script.Appending
import DeclPrinter.Writing.File

/-!
# Text above a script

A preamble is written as it is, with a blank line below it. A script that begins with a line and
writes some text then goes on as it would without it: the blank lines that are dropped in the end
are its own. So the text of both together is a text that the preamble alone decides and after it
the text of the script (`Script.text_preambleScript_append`).
-/

namespace DeclPrinter

/-- The text that a preamble puts above a file: the preamble without one newline at its end, a
newline, and one more unless what is left of the preamble ends in one already. -/
def preambleText : Option String → String
  | none => ""
  | some text =>
    if Text.isAllBlank text then ""
    else
      let kept := LineBuffer.dropNewline text
      kept ++ "\n" ++ if kept.toList.getLast? = some '\n' then "" else "\n"

/-- A text that begins with text is a line with text. -/
theorem Line.isBlank_ofText {front : String} (hne : front ≠ "")
    (hfront : ∀ c ∈ front.toList, Text.isBlank c = false) (level : Nat) (rest : String) :
    (Line.ofText level (front ++ rest)).isBlank = false := by
  have htrim : Text.trimEnd (front ++ rest) = front ++ Text.trimEnd rest := by
    unfold Text.trimEnd
    rw [String.toList_append, Text.dropBlankEnd_append _ hfront, String.ofList_append,
      String.ofList_toList]
  have hsome : (front ++ Text.trimEnd rest).isEmpty = false := by
    rw [Bool.eq_false_iff, ne_eq, String.isEmpty_iff, String.append_eq_empty_iff]
    rintro ⟨hempty, _⟩
    exact hne hempty
  unfold Line.ofText
  dsimp only
  rw [htrim, hsome]
  exact hsome

/-- Some line has text. -/
def LineBuffer.HasText (buffer : LineBuffer) : Prop :=
  ∃ line ∈ buffer.lines, line.isBlank = false

namespace LineBuffer

variable {buffer : LineBuffer} {text : String}

/-- **What lies below a line with text** is never dropped at the end. -/
theorem HasText.finished_onto (h : buffer.HasText) (below : List Line) :
    (buffer.onto below).finished = below.reverse ++ buffer.finished := by
  obtain ⟨line, hline, htext⟩ := h
  obtain ⟨above, before, hlines⟩ := List.append_of_mem hline
  have honto : (buffer.onto below).lines = above ++ line :: (before ++ below) := by
    simp [onto, hlines]
  rw [finished_eq honto htext, finished_eq hlines htext, List.reverse_append, List.append_assoc]

/-- A line that begins with text has text, whatever is written below it. -/
theorem hasText_run_of_line_mem {front rest : String} (hne : front ≠ "")
    (hfront : ∀ c ∈ front.toList, Text.isBlank c = false) {script : Script}
    (h : .line (front ++ rest) ∈ script) : (buffer.run script).HasText := by
  have hunbroken : ∀ c ∈ front.toList, (c == '\n') = false := by
    intro c hc
    rw [beq_eq_false_iff_ne]
    rintro rfl
    cases hfront _ hc
  -- The first of the lines written has the front in it, and is only continued later.
  obtain ⟨part, others, hparts⟩ := List.exists_cons_of_ne_nil (splitLines_ne_nil rest)
  have hsplit : Text.splitLines (front ++ rest) = (front ++ part) :: others := by
    have hcut : Text.splitLines (front ++ rest) =
        (Text.splitLines rest).modifyHead (front ++ ·) :=
      Text.splitAt_append_of_unbroken hunbroken
    rw [hcut, hparts, List.modifyHead_cons]
  obtain ⟨above, below, rfl⟩ := List.append_of_mem h
  let first := Line.ofText (buffer.run above).level (front ++ part)
  have hfirst : first.isBlank = false := Line.isBlank_ofText hne hfront _ part
  have hwritten : ((buffer.run above).step (.line (front ++ rest))).lines =
      (others.map (Line.ofText (buffer.run above).level)).reverse ++
        first :: (buffer.run above).lines := by
    simp [LineBuffer.step, push, hsplit, first]
  obtain ⟨_, more, hrun⟩ := exists_continued_run below hwritten
  refine ⟨{ first with text := first.text ++ more }, ?_, ?_⟩
  · rw [run_append]
    show _ ∈ (((buffer.run above).step (.line (front ++ rest))).run below).lines
    rw [hrun]
    simp
  · exact Line.isBlank_continued hfirst more

/-! ### The lines of a preamble -/

/-- What is kept of a text that is not blank is not empty. -/
theorem dropNewline_ne_empty (h : Text.isAllBlank text = false) : dropNewline text ≠ "" := by
  intro hempty
  unfold dropNewline at hempty
  split at hempty
  · rename_i hlast
    obtain ⟨front, hfront⟩ := List.getLast?_eq_some_iff.mp (beq_iff_eq.mp hlast)
    have hnil := congrArg String.toList hempty
    rw [String.toList_ofList, hfront, List.dropLast_concat, String.toList_empty] at hnil
    rw [Text.isAllBlank, hfront, hnil] at h
    cases h
  · subst hempty
    cases h

/-- The last line of a text is empty if the text ends in a newline, and only then. -/
theorem isEmpty_last_iff {kept last : String} {earlier : List String} (hne : kept ≠ "")
    (h : Text.splitLines kept = earlier ++ [last]) :
    last.isEmpty = true ↔ kept.toList.getLast? = some '\n' := by
  rw [String.isEmpty_iff]
  rcases List.eq_nil_or_concat' kept.toList with hnil | ⟨front, c, hfront⟩
  · exact absurd (String.toList_eq_nil_iff.mp hnil) hne
  have hkept : kept = String.ofList front ++ String.ofList [c] := by
    apply String.toList_injective
    simp [hfront]
  have hlast : kept.toList.getLast? = some c := by simp [hfront]
  rw [hlast, Option.some_inj]
  obtain ⟨parts, part, hparts⟩ := exists_splitLines_concat (String.ofList front)
  -- Cut before its last character, the text has one more piece exactly if that is a newline.
  constructor
  · rintro rfl
    by_contra hc
    have hbreak : '\n' ∉ (String.ofList [c]).toList := by simpa using fun heq => hc heq.symm
    rw [hkept, splitLines_append_of_unbroken hparts hbreak] at h
    obtain ⟨_, hpart⟩ := List.append_inj' h rfl
    simpa using congrArg String.toList (List.singleton_inj.mp hpart)
  · rintro rfl
    have hcut : Text.splitLines (String.ofList front ++ String.ofList ['\n'] ++ "") =
        Text.splitLines (String.ofList front) ++ Text.splitLines "" :=
      Text.splitAt_append String.toList_ofList rfl
    rw [String.append_empty, ← hkept, h] at hcut
    have hempty : Text.splitLines "" = [""] := Text.splitAt_empty
    rw [hempty] at hcut
    obtain ⟨_, hpart⟩ := List.append_inj' hcut rfl
    exact List.singleton_inj.mp hpart

/-- **A preamble** writes its lines from the margin, and a blank line unless the last is empty. -/
theorem exists_run_preambleScript (h : Text.isAllBlank text = false) (unit : String) :
    ∃ lines, LineBuffer.empty.run (preambleScript (some text)) = LineBuffer.empty.push lines ∧
      String.join (lines.map (Line.render unit)) = preambleText (some text) := by
  have hscript : preambleScript (some text) = [.verbatim text, .blank] :=
    if_neg (Bool.eq_false_iff.mp h)
  let kept := dropNewline text
  have hne : kept ≠ "" := dropNewline_ne_empty h
  obtain ⟨earlier, last, hsplit⟩ := exists_splitLines_concat kept
  let lines := (Text.splitLines kept).map (Line.mk 0)
  have hlines : lines = earlier.map (Line.mk 0) ++ [⟨0, last⟩] := by
    simp [lines, hsplit]
  have hrender : String.join (lines.map (Line.render unit)) = kept ++ "\n" := by
    have hindented : lines.map (Line.indented unit) = Text.splitLines kept := by
      rw [List.map_map]
      exact List.map_id'' (fun piece => String.empty_append) _
    rw [join_render unit (by simp [hlines]), hindented]
    exact congrArg (· ++ "\n") (Text.intercalate_splitAt rfl kept)
  have hrun : LineBuffer.empty.run (preambleScript (some text)) =
      (LineBuffer.empty.push lines).step .blank := by
    rw [hscript]
    rfl
  have htext : preambleText (some text) =
      kept ++ "\n" ++ if kept.toList.getLast? = some '\n' then "" else "\n" :=
    if_neg (Bool.eq_false_iff.mp h)
  have hhead : (LineBuffer.empty.push lines).lines.head? = some ⟨0, last⟩ := by
    simp [push, hlines]
  rw [hrun, htext]
  -- An empty last line is the blank line already.
  by_cases hlast : last.isEmpty = true
  · refine ⟨lines, step_blank_of_endsBlank ⟨_, hhead, hlast⟩, ?_⟩
    rw [hrender, if_pos ((isEmpty_last_iff hne hsplit).mp hlast), String.append_empty]
  · have hends : ¬ (LineBuffer.empty.push lines).EndsBlank := by
      rintro ⟨line, hline, hblank⟩
      obtain rfl : (⟨0, last⟩ : Line) = line := Option.some.inj (hhead.symm.trans hline)
      exact hlast hblank
    have hnonempty : (LineBuffer.empty.push lines).lines ≠ [] := by simp [push, hlines]
    have hnewline : kept.toList.getLast? ≠ some '\n' :=
      fun hend => hlast ((isEmpty_last_iff hne hsplit).mpr hend)
    refine ⟨lines ++ [.blank], by rw [step_blank hnonempty hends, push_push], ?_⟩
    rw [List.map_append, String.join_append, hrender, if_neg hnewline]
    rfl

end LineBuffer

/-- **A preamble puts its text above that of a script** which begins with a line and writes some
text. -/
theorem Script.text_preambleScript_append (preamble : Option String) {script : Script}
    (hbegins : ∃ text rest, script = .line text :: rest)
    (htext : (LineBuffer.empty.run script).HasText) (unit : String) :
    Script.text (preambleScript preamble ++ script) unit =
      preambleText preamble ++ script.text unit := by
  obtain ⟨first, rest, rfl⟩ := hbegins
  -- A blank preamble writes nothing.
  have hnone (h : preambleScript preamble = []) (htext : preambleText preamble = "") :
      Script.text (preambleScript preamble ++ .line first :: rest) unit =
        preambleText preamble ++ Script.text (.line first :: rest) unit := by
    rw [h, htext, List.nil_append, String.empty_append]
  cases preamble with
  | none => exact hnone rfl rfl
  | some text =>
    by_cases hblank : Text.isAllBlank text = true
    · exact hnone (if_pos hblank) (if_pos hblank)
    · have hsome : Text.isAllBlank text = false := Bool.eq_false_iff.mpr hblank
      obtain ⟨lines, hrun, hrender⟩ := LineBuffer.exists_run_preambleScript hsome unit
      have hfinished : (LineBuffer.empty.run
          (preambleScript (some text) ++ .line first :: rest)).finished =
          lines ++ (LineBuffer.empty.run (.line first :: rest)).finished := by
        rw [LineBuffer.run_append, hrun, LineBuffer.run_line_eq_onto]
        show LineBuffer.finished (LineBuffer.onto (LineBuffer.empty.run _) _) = _
        rw [htext.finished_onto]
        simp [LineBuffer.push, LineBuffer.empty]
      unfold Script.text LineBuffer.finish
      rw [hfinished, List.map_append, String.join_append, hrender]

end DeclPrinter
