import DeclPrinter.Idiom.Go
import DeclPrinter.Proofs.Text.Reading
import Mathlib.Data.List.Basic

/-!
# Literals and formats as Go reads them

A Go compiler reads an interpreted string literal as bytes: a character that stands for itself is
its UTF-8, and an escape is a byte or the UTF-8 of a code point (`goString?`). A format is read in
turn by the functions that print: a percent sign starts a verb, unless it is doubled
(`goFormat?`). A literal is read as the text it was made from, whatever follows it
(`goString?_literal`), and the format of a wrapped message as the message, character by character,
with one verb for the cause behind it (`goFormat?_goWrapFormat`).

Inside a literal there is no line break, and no quote that could be taken for its end.
-/

namespace DeclPrinter.Text

/-! ### What stands inside a literal -/

/-- Every quote stands behind a backslash that is not itself behind one, and there is no such
backslash at the end. Whether the text stands behind one is told first. -/
def escapesQuotes : Bool → List Char → Bool
  | escaped, [] => !escaped
  | true, _ :: rest => escapesQuotes false rest
  | false, c :: rest =>
    if c = '\\' then escapesQuotes true rest else c != '"' && escapesQuotes false rest

/-- The characters that are not written as they are. -/
def literalMarks : List Char :=
  ['"', '\\', '\n', '\r', '\t']

/-- What holds of each escape, and of every other character as it is, holds of a character with what
a literal has for it. -/
theorem literalChar_cases {P : Char → List Char → Prop} (hquote : P '"' ['\\', '"'])
    (hbackslash : P '\\' ['\\', '\\']) (hnewline : P '\n' ['\\', 'n'])
    (hreturn : P '\r' ['\\', 'r']) (htab : P '\t' ['\\', 't'])
    (hself : ∀ c, c ∉ literalMarks → P c [c]) (c : Char) : P c (literalChar c) := by
  unfold literalChar
  split
  · subst_vars; exact hquote
  split
  · subst_vars; exact hbackslash
  split
  · subst_vars; exact hnewline
  split
  · subst_vars; exact hreturn
  split
  · subst_vars; exact htab
  · exact hself c (by simp [literalMarks, *])

theorem escapesQuotes_literalChar_append (c : Char) (rest : List Char) :
    escapesQuotes false (literalChar c ++ rest) = escapesQuotes false rest := by
  refine literalChar_cases (P := fun _ own => escapesQuotes false (own ++ rest) = _)
    rfl rfl rfl rfl rfl (fun c hc => ?_) c
  simp only [literalMarks, List.mem_cons, not_or] at hc
  simp [escapesQuotes, hc]

theorem not_mem_literalChar (c : Char) : '\n' ∉ literalChar c ∧ '\r' ∉ literalChar c := by
  refine literalChar_cases (P := fun _ own => '\n' ∉ own ∧ '\r' ∉ own)
    (by decide) (by decide) (by decide) (by decide) (by decide) (fun c hc => ?_) c
  simp only [List.mem_singleton]
  constructor
  · rintro rfl
    exact hc (by decide)
  · rintro rfl
    exact hc (by decide)

/-- The characters between the quotes of a literal. -/
def literalInner (s : String) : List Char :=
  s.toList.flatMap literalChar

theorem toList_literal (s : String) : (literal s).toList = '"' :: (literalInner s ++ ['"']) := by
  rw [literal, String.toList_ofList]
  rfl

theorem escapesQuotes_literalInner (s : String) : escapesQuotes false (literalInner s) = true := by
  unfold literalInner
  induction s.toList with
  | nil => rfl
  | cons c rest ih => rw [List.flatMap_cons, escapesQuotes_literalChar_append, ih]

theorem newline_not_mem_literalInner (s : String) : '\n' ∉ literalInner s := by
  intro h
  obtain ⟨c, _, hc⟩ := List.mem_flatMap.mp h
  exact (not_mem_literalChar c).1 hc

theorem return_not_mem_literalInner (s : String) : '\r' ∉ literalInner s := by
  intro h
  obtain ⟨c, _, hc⟩ := List.mem_flatMap.mp h
  exact (not_mem_literalChar c).2 hc

theorem newline_not_mem_literal (s : String) : '\n' ∉ (literal s).toList := by
  simp [toList_literal, newline_not_mem_literalInner]

/-! ### Interpreted strings -/

/-- The bytes of a text in UTF-8. -/
def bytes (text : List Char) : List UInt8 :=
  text.flatMap String.utf8EncodeChar

/-- The escapes of one character, with the byte that each stands for. -/
def goEscapes : List (Char × UInt8) :=
  [('a', 7), ('b', 8), ('f', 12), ('n', 10), ('r', 13), ('t', 9), ('v', 11), ('\\', 92), ('"', 34)]

/-- A code point by its number of so many hexadecimal digits, as its UTF-8. -/
def goPoint? (count : Nat) (text : List Char) : Option (List UInt8 × List Char) := do
  let (number, rest) ← takeNumber? 16 count text
  if number.isValidChar then return (String.utf8EncodeChar (Char.ofNat number), rest)
  else none

/-- What stands behind the backslash of an escape. -/
def goEscape? : PieceReader Char UInt8
  | [] => none
  | mark :: rest =>
    match goEscapes.find? (·.1 == mark) with
    | some escape => some ([escape.2], rest)
    | none =>
      if mark = 'x' then do
        let (number, rest) ← takeNumber? 16 2 rest
        return ([UInt8.ofNat number], rest)
      else if mark = 'u' then goPoint? 4 rest
      else if mark = 'U' then goPoint? 8 rest
      else do
        let (number, rest) ← takeNumber? 8 3 (mark :: rest)
        if number < 256 then return ([UInt8.ofNat number], rest) else none

/-- A character or an escape in an interpreted string. -/
def goPiece? : PieceReader Char UInt8
  | [] => none
  | c :: rest =>
    if c = '"' || c = '\n' then none
    else if c = '\\' then goEscape? rest
    else some (String.utf8EncodeChar c, rest)

/-- Reads an interpreted string literal off the front of a text: the bytes that it stands for, and
what follows it. -/
def goString? : PieceReader Char UInt8
  | [] => none
  | c :: rest =>
    if c = '"' then
      match readPieces goPiece? rest with
      | (value, '"' :: last) => some (value, last)
      | _ => none
    else none

theorem goString?_eq_some_iff {text last : List Char} {value : List UInt8} :
    goString? ('"' :: text) = some (value, last) ↔
      readPieces goPiece? text = (value, '"' :: last) := by
  rw [goString?, if_pos rfl]
  split
  · rename_i read _ heq
    simp [heq]
  · rename_i hother
    simp only [reduceCtorEq, false_iff]
    exact hother value last

theorem goPiece?_literalChar (c : Char) (rest : List Char) :
    goPiece? (literalChar c ++ rest) = some (String.utf8EncodeChar c, rest) := by
  refine literalChar_cases
    (P := fun c own => goPiece? (own ++ rest) = some (String.utf8EncodeChar c, rest))
    rfl rfl rfl rfl rfl (fun c hc => ?_) c
  simp only [literalMarks, List.mem_cons, not_or] at hc
  simp [goPiece?, hc]

theorem literalChar_ne_nil (c : Char) : literalChar c ≠ [] :=
  literalChar_cases (P := fun _ own => own ≠ []) (List.cons_ne_nil _ _) (List.cons_ne_nil _ _)
    (List.cons_ne_nil _ _) (List.cons_ne_nil _ _) (List.cons_ne_nil _ _)
    (fun c _ => List.cons_ne_nil c []) c

/-- **A literal is read as the text it was made from,** whatever follows it. -/
theorem goString?_literal (s : String) (rest : List Char) :
    goString? ((literal s).toList ++ rest) = some (bytes s.toList, rest) := by
  rw [toList_literal, List.cons_append, List.append_assoc, List.singleton_append,
    goString?_eq_some_iff, literalInner,
    readPieces_flatMap (fun c _ => goPiece?_literalChar c) literalChar_ne_nil,
    readPieces_of_none (by rfl), List.append_nil, bytes]

/-! ### Formats -/

/-- A piece of a format. -/
inductive FormatPiece where
  /-- A character that is printed as it is. -/
  | text (c : Char)
  /-- An operand, printed in the way of the verb, with what modifies it. -/
  | verb (modifiers : List Char) (verb : Char)
  deriving DecidableEq, Repr

/-- A character that may stand between a percent sign and its verb: a flag, or part of a width, a
precision or the index of an operand. -/
def isFormatModifier (c : Char) : Bool :=
  c.isDigit || "#0+- .*[]".toList.contains c

/-- A character, or a percent sign with its verb. A verb that is itself a percent sign prints one,
and takes no operand. -/
def formatPiece? : PieceReader Char FormatPiece
  | [] => none
  | c :: rest =>
    if c = '%' then
      match rest.dropWhile isFormatModifier with
      | [] => none
      | verb :: last =>
        some ([if verb = '%' then .text '%' else .verb (rest.takeWhile isFormatModifier) verb],
          last)
    else some ([.text c], rest)

/-- Reads a format. -/
def goFormat? (format : String) : Option (List FormatPiece) :=
  readWhole? formatPiece? format.toList

/-- **The format of a wrapped message** prints the message and then the cause. -/
theorem goFormat?_goWrapFormat (message : String) :
    goFormat? (goWrapFormat message) =
      some (message.toList.map .text ++ [.text ':', .text ' ', .verb [] 'w']) := by
  let written (c : Char) : List Char := if c = '%' then ['%', '%'] else [c]
  have hpiece (c : Char) (rest : List Char) :
      formatPiece? (written c ++ rest) = some ([.text c], rest) := by
    by_cases hc : c = '%'
    · subst hc; rfl
    · simp [written, formatPiece?, hc]
  have hne (c : Char) : written c ≠ [] := by
    by_cases hc : c = '%' <;> simp [written, hc]
  -- What is put behind the message is read as three pieces.
  have hcause : readWhole? formatPiece? [':', ' ', '%', 'w'] =
      some [.text ':', .text ' ', .verb [] 'w'] := by
    have hverb : formatPiece? ['%', 'w'] = some ([.verb [] 'w'], []) := rfl
    have hend : formatPiece? [] = none := rfl
    rw [readWhole?, readPieces_of_some (by rfl) (by decide),
      readPieces_of_some (by rfl) (by decide), readPieces_of_some hverb (by decide),
      readPieces_of_none hend]
    rfl
  have hformat : (goWrapFormat message).toList =
      message.toList.flatMap written ++ [':', ' ', '%', 'w'] := by
    rw [goWrapFormat, String.toList_append, String.toList_ofList]
    rfl
  rw [goFormat?, hformat, readWhole?_flatMap (fun c _ => hpiece c) hne, hcause, Option.map_some,
    ← List.map_eq_flatMap]

end DeclPrinter.Text
