import DeclPrinter.Text.Blank
import DeclPrinter.Text.Lines

/-!
# Scripts and the lines they write

Source text is written in two steps. A *script* is a list of instructions to a
writer: write these lines here, leave a blank line, go one level in. Running it
gives lines, each a text at a depth, in a `LineBuffer`. Only when the buffer is
finished does the depth become indentation, so the unit of indentation has no part
in what is written, only in how far from the margin.

Because a script is data, a declaration can be written on its own, and what it adds
to a file can be read off its script.
-/

namespace DeclPrinter

/-- An instruction to the writer of lines. -/
inductive Step where
  /-- Write the lines of a text at the current depth. -/
  | line (text : String)
  /-- Write the lines of a text as they are, from the margin. -/
  | verbatim (text : String)
  /-- Continue the last line. -/
  | append (text : String)
  /-- Leave a blank line, unless there is one already or nothing is written yet. -/
  | blank
  /-- Go one level in. -/
  | indent
  /-- Go one level out. -/
  | dedent
  deriving DecidableEq, Repr, Inhabited

/-- Instructions in order. -/
abbrev Script := List Step

/-- A line: its text, and how deep it is indented. -/
structure Line where
  /-- The level of indentation. -/
  depth : Nat
  /-- The text without its indentation. -/
  text : String
  deriving DecidableEq, Repr, Inhabited

namespace Line

/-- A line without text. -/
def blank : Line :=
  ⟨0, ""⟩

/-- Whether the line has no text. Such a line stands at the margin, so it has no
indentation either. -/
def isBlank (line : Line) : Bool :=
  line.text.isEmpty

/-- A text at a depth. White space at its end is dropped, and a line of nothing
else is a blank line. -/
def ofText (depth : Nat) (text : String) : Line :=
  let trimmed := Text.trimEnd text
  if trimmed.isEmpty then blank else ⟨depth, trimmed⟩

/-- The line with its indentation and a newline. -/
def render (indentUnit : String) (line : Line) : String :=
  String.join (List.replicate line.depth indentUnit) ++ line.text ++ "\n"

end Line

/-- The lines written so far, the newest first, and the current depth. -/
structure LineBuffer where
  /-- The lines, newest first. -/
  lines : List Line
  /-- The depth at which the next line is written. -/
  level : Nat
  deriving DecidableEq, Repr, Inhabited

namespace LineBuffer

/-- The buffer before anything is written. -/
def empty : LineBuffer :=
  ⟨[], 0⟩

/-- Whether nothing is written. -/
def isEmpty (buffer : LineBuffer) : Bool :=
  buffer.lines.isEmpty

/-- Adds lines, given in reading order. -/
def push (buffer : LineBuffer) (lines : List Line) : LineBuffer :=
  { buffer with lines := lines.reverse ++ buffer.lines }

/-- A text without the newline at its end, if there is one. -/
def dropNewline (text : String) : String :=
  if text.toList.getLast? == some '\n' then String.ofList text.toList.dropLast else text

/-- Carries out one instruction. -/
def step (buffer : LineBuffer) : Step → LineBuffer
  | .line text => buffer.push ((Text.splitLines text).map (Line.ofText buffer.level))
  | .verbatim text => buffer.push ((Text.splitLines (dropNewline text)).map (Line.mk 0))
  | .append text =>
    match buffer.lines with
    | [] => buffer
    | last :: earlier => { buffer with lines := { last with text := last.text ++ text } :: earlier }
  | .blank =>
    match buffer.lines with
    | [] => buffer
    | last :: _ => if last.isBlank then buffer else buffer.push [.blank]
  | .indent => { buffer with level := buffer.level + 1 }
  | .dedent => { buffer with level := buffer.level - 1 }

/-- Carries out a script. -/
def run (buffer : LineBuffer) (script : Script) : LineBuffer :=
  script.foldl step buffer

/-- The lines in reading order, without the blank lines at the end. -/
def finished (buffer : LineBuffer) : List Line :=
  (buffer.lines.dropWhile Line.isBlank).reverse

/-- The text of the lines, each indented and ended by a newline. -/
def finish (buffer : LineBuffer) (indentUnit : String) : String :=
  String.join (buffer.finished.map (Line.render indentUnit))

end LineBuffer

/-- The lines that a script writes into an empty file. -/
def Script.lines (script : Script) : List Line :=
  (LineBuffer.empty.run script).finished

/-- The text that a script writes into an empty file. -/
def Script.text (script : Script) (indentUnit : String) : String :=
  (LineBuffer.empty.run script).finish indentUnit

end DeclPrinter
