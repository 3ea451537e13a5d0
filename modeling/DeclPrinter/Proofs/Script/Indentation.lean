import DeclPrinter.Script
import Mathlib.Data.List.Basic

/-!
# Indenting at once

A script is run with depth and text of each line kept apart, and indented at the end. A writer can
as well indent each line when it writes it and keep nothing but texts (`TextBuffer`). It then has
indented lines before it where it leaves a blank line or drops those at the end, and whether such
a line looks blank could depend on the unit of indentation.

It does not: a line without text stands at the margin (`LineBuffer.BlanksAtMargin`), so an indented
line is empty exactly if its text is. Both ways of writing give the same text for every script and
every unit (`Script.text_eq_textAtOnce`).
-/

namespace DeclPrinter

/-- The line with its indentation. -/
def Line.indented (unit : String) (line : Line) : String :=
  String.join (List.replicate line.depth unit) ++ line.text

/-- The lines written so far, each with its indentation and the newest first, and the current
depth. -/
structure TextBuffer where
  lines : List String
  level : Nat
  deriving DecidableEq, Repr

namespace TextBuffer

def push (buffer : TextBuffer) (lines : List String) : TextBuffer :=
  { buffer with lines := lines.reverse ++ buffer.lines }

/-- A text at a depth, trimmed at its end. An empty line carries no indentation. -/
def lineOf (unit : String) (level : Nat) (text : String) : String :=
  let trimmed := Text.trimEnd text
  if trimmed.isEmpty then "" else String.join (List.replicate level unit) ++ trimmed

/-- Carries out one instruction. -/
def step (unit : String) (buffer : TextBuffer) : Step → TextBuffer
  | .line text => buffer.push ((Text.splitLines text).map (lineOf unit buffer.level))
  | .verbatim text => buffer.push (Text.splitLines (LineBuffer.dropNewline text))
  | .append text =>
    match buffer.lines with
    | [] => buffer
    | last :: earlier => { buffer with lines := (last ++ text) :: earlier }
  | .blank =>
    match buffer.lines with
    | [] => buffer
    | last :: _ => if last.isEmpty then buffer else buffer.push [""]
  | .indent => { buffer with level := buffer.level + 1 }
  | .dedent => { buffer with level := buffer.level - 1 }

/-- Carries out a script. -/
def run (unit : String) (buffer : TextBuffer) (script : Script) : TextBuffer :=
  script.foldl (step unit) buffer

/-- The lines without the empty ones at the end, joined and ended by a newline. -/
def finish (buffer : TextBuffer) : String :=
  match (buffer.lines.dropWhile String.isEmpty).reverse with
  | [] => ""
  | lines => "\n".intercalate lines ++ "\n"

end TextBuffer

/-- The text that a script writes into an empty file when each line is indented at once. -/
def Script.textAtOnce (script : Script) (unit : String) : String :=
  (TextBuffer.run unit ⟨[], 0⟩ script).finish

namespace LineBuffer

variable {buffer : LineBuffer}

/-- The buffer with all its lines indented. -/
def indented (buffer : LineBuffer) (unit : String) : TextBuffer :=
  ⟨buffer.lines.map (Line.indented unit), buffer.level⟩

/-! ### Blank lines -/

/-- Lines without text are not indented. -/
def BlanksAtMargin (buffer : LineBuffer) : Prop :=
  ∀ line ∈ buffer.lines, line.text = "" → line.depth = 0

theorem blanksAtMargin_nil (level : Nat) : (⟨[], level⟩ : LineBuffer).BlanksAtMargin := by
  intro line hline
  cases hline

theorem BlanksAtMargin.push (h : buffer.BlanksAtMargin) {lines : List Line}
    (hlines : ∀ line ∈ lines, line.text = "" → line.depth = 0) :
    (buffer.push lines).BlanksAtMargin := by
  intro line hline
  rcases List.mem_append.mp hline with hnew | hold
  · exact hlines line (List.mem_reverse.mp hnew)
  · exact h line hold

theorem depth_ofText {level : Nat} {text : String} (h : (Line.ofText level text).text = "") :
    (Line.ofText level text).depth = 0 := by
  unfold Line.ofText at h ⊢
  dsimp only at h ⊢
  split at h
  · rename_i hblank
    rw [if_pos hblank]
    rfl
  · rename_i hblank
    exact absurd (String.isEmpty_iff.mpr h) hblank

/-- **Blank lines stay at the margin,** whatever is written. -/
theorem BlanksAtMargin.step (h : buffer.BlanksAtMargin) (step : Step) :
    (buffer.step step).BlanksAtMargin := by
  -- Only an indented text can be at a depth, and it is not empty.
  cases step with
  | line text =>
    refine h.push fun line hline => ?_
    obtain ⟨piece, _, rfl⟩ := List.mem_map.mp hline
    exact depth_ofText
  | verbatim text =>
    refine h.push fun line hline _ => ?_
    obtain ⟨piece, _, rfl⟩ := List.mem_map.mp hline
    rfl
  | append text =>
    rcases hlines : buffer.lines with _ | ⟨last, earlier⟩
    · simpa [LineBuffer.step, hlines] using h
    · -- The longer line has no text only if the line before had none.
      intro line hline hblank
      simp only [LineBuffer.step, hlines, List.mem_cons] at hline
      rcases hline with rfl | hold
      · exact h last (hlines ▸ List.mem_cons_self) (String.append_eq_empty_iff.mp hblank).1
      · exact h line (hlines ▸ List.mem_cons_of_mem last hold) hblank
  | blank =>
    rcases hlines : buffer.lines with _ | ⟨last, earlier⟩
    · simpa [LineBuffer.step, hlines] using h
    · simp only [LineBuffer.step, hlines]
      split
      · exact h
      · refine h.push fun line hline _ => ?_
        obtain rfl := List.mem_singleton.mp hline
        rfl
  | indent => exact h
  | dedent => exact h

theorem BlanksAtMargin.run (h : buffer.BlanksAtMargin) (script : Script) :
    (buffer.run script).BlanksAtMargin := by
  induction script generalizing buffer with
  | nil => exact h
  | cons step rest ih => exact ih (h.step step)

/-- An indented line is empty exactly if it has no text. -/
theorem isEmpty_indented (unit : String) {line : Line} (h : line.text = "" → line.depth = 0) :
    (line.indented unit).isEmpty = line.isBlank := by
  rw [Bool.eq_iff_iff, String.isEmpty_iff, Line.isBlank, String.isEmpty_iff, Line.indented,
    String.append_eq_empty_iff]
  constructor
  · exact And.right
  · intro htext
    rw [h htext]
    exact ⟨String.join_nil, htext⟩

/-! ### One instruction after another -/

theorem indented_push (unit : String) (lines : List Line) :
    (buffer.push lines).indented unit =
      (buffer.indented unit).push (lines.map (Line.indented unit)) := by
  simp [indented, push, TextBuffer.push]

theorem indented_ofText (unit : String) (level : Nat) (text : String) :
    (Line.ofText level text).indented unit = TextBuffer.lineOf unit level text := by
  unfold Line.ofText TextBuffer.lineOf
  dsimp only
  split
  · rfl
  · rfl

/-- **An instruction does the same to the indented lines** as it does to the lines. -/
theorem indented_step (h : buffer.BlanksAtMargin) (unit : String) (step : Step) :
    (buffer.step step).indented unit = (buffer.indented unit).step unit step := by
  cases step with
  | line text =>
    have hlines : ((Text.splitLines text).map (Line.ofText buffer.level)).map (Line.indented unit) =
        (Text.splitLines text).map (TextBuffer.lineOf unit buffer.level) := by
      rw [List.map_map]
      exact List.map_congr_left fun piece _ => indented_ofText unit buffer.level piece
    show (buffer.push _).indented unit = _
    rw [indented_push, hlines]
    rfl
  | verbatim text =>
    have hlines : ((Text.splitLines (dropNewline text)).map (Line.mk 0)).map (Line.indented unit) =
        Text.splitLines (dropNewline text) := by
      rw [List.map_map]
      exact List.map_id'' (fun piece => String.empty_append) _
    show (buffer.push _).indented unit = _
    rw [indented_push, hlines]
    rfl
  | append text =>
    rcases hlines : buffer.lines with _ | ⟨last, earlier⟩
    · simp [LineBuffer.step, TextBuffer.step, indented, hlines]
    · simp [LineBuffer.step, TextBuffer.step, indented, hlines, Line.indented, String.append_assoc]
  | blank =>
    rcases hlines : buffer.lines with _ | ⟨last, earlier⟩
    · simp [LineBuffer.step, TextBuffer.step, indented, hlines]
    · -- The writer of texts looks at the indented line, which is empty only if it is blank.
      have hlast := isEmpty_indented unit (h last (hlines ▸ List.mem_cons_self))
      have htexts : (buffer.indented unit).lines =
          last.indented unit :: earlier.map (Line.indented unit) := by
        rw [indented, hlines, List.map_cons]
      simp only [LineBuffer.step, TextBuffer.step, hlines, htexts, hlast]
      split
      · rfl
      · exact indented_push unit [.blank]
  | indent => rfl
  | dedent => rfl

theorem indented_run (h : buffer.BlanksAtMargin) (unit : String) (script : Script) :
    (buffer.run script).indented unit = (buffer.indented unit).run unit script := by
  induction script generalizing buffer with
  | nil => rfl
  | cons step rest ih =>
    -- What is indented after the first instruction keeps its blank lines at the margin.
    show ((buffer.step step).run rest).indented unit =
      ((buffer.indented unit).step unit step).run unit rest
    rw [ih (h.step step), indented_step h]

/-! ### The end -/

theorem dropWhile_indented (unit : String) {lines : List Line}
    (h : ∀ line ∈ lines, line.text = "" → line.depth = 0) :
    (lines.map (Line.indented unit)).dropWhile String.isEmpty =
      (lines.dropWhile Line.isBlank).map (Line.indented unit) := by
  induction lines with
  | nil => rfl
  | cons line rest ih =>
    have hline := isEmpty_indented unit (h line List.mem_cons_self)
    rw [List.map_cons, List.dropWhile_cons, List.dropWhile_cons, hline]
    split
    · exact ih fun other hother => h other (List.mem_cons_of_mem line hother)
    · rw [List.map_cons]

/-- Lines each ended by a newline are lines joined by newlines, with one at the end. -/
theorem join_render (unit : String) {lines : List Line} (h : lines ≠ []) :
    String.join (lines.map (Line.render unit)) =
      "\n".intercalate (lines.map (Line.indented unit)) ++ "\n" := by
  induction lines with
  | nil => exact absurd rfl h
  | cons line rest ih =>
    have hrender : line.render unit = line.indented unit ++ "\n" := rfl
    rw [List.map_cons, List.map_cons, String.join_cons, hrender]
    by_cases hrest : rest = []
    · subst hrest
      rw [List.map_nil, List.map_nil, String.join_nil, String.intercalate_singleton,
        String.append_empty]
    · have hne : rest.map (Line.indented unit) ≠ [] :=
        fun hnil => hrest (List.map_eq_nil_iff.mp hnil)
      rw [ih hrest, String.intercalate_cons_of_ne_nil hne, String.append_assoc, String.append_assoc,
        String.append_assoc]

theorem finish_indented (h : buffer.BlanksAtMargin) (unit : String) :
    (buffer.indented unit).finish = buffer.finish unit := by
  have hlines : ((buffer.indented unit).lines.dropWhile String.isEmpty).reverse =
      buffer.finished.map (Line.indented unit) := by
    rw [finished, List.map_reverse, indented, dropWhile_indented unit h]
  unfold TextBuffer.finish finish
  rw [hlines]
  rcases hfinished : buffer.finished with _ | ⟨first, rest⟩
  · rfl
  · rw [join_render unit (List.cons_ne_nil first rest)]
    rfl

end LineBuffer

/-- **Indenting at once gives the same text,** for every script and every unit of indentation. -/
theorem Script.text_eq_textAtOnce (script : Script) (unit : String) :
    script.text unit = script.textAtOnce unit := by
  have hempty : LineBuffer.empty.BlanksAtMargin := LineBuffer.blanksAtMargin_nil 0
  unfold text textAtOnce
  rw [← LineBuffer.finish_indented (hempty.run script), LineBuffer.indented_run hempty]
  rfl

/-- A line that is continued after it was left blank has no indentation. -/
example : Script.textAtOnce [.indent, .line "if x", .line "", .append "else", .blank, .line "y",
    .dedent, .line "", .blank] ">" = ">if x\nelse\n\n>y\n" := by
  decide +kernel

end DeclPrinter
