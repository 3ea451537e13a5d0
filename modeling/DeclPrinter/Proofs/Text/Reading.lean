import DeclPrinter.Text.Digits

/-!
# Reading piece by piece

What a compiler or a library makes of a text that was written for it is read off the front of the
text, a piece at a time, as long as there is a piece to read (`readPieces`). So what is written for
each element of a list, one after another, is read back as what each of them stands for, once that
is so for a single one (`readPieces_flatMap`).
-/

namespace DeclPrinter.Text

variable {α β σ : Type}

/-- Takes a piece off the front of a text, with what it stands for, or refuses the text. -/
abbrev PieceReader (σ β : Type) : Type :=
  List σ → Option (List β × List σ)

/-- What the pieces at the front of a text stand for, and the rest, which no piece can be taken off
from. -/
def readPieces (piece? : PieceReader σ β) (text : List σ) : List β × List σ :=
  match piece? text with
  | none => ([], text)
  | some (front, rest) =>
    if rest.length < text.length then
      let (more, last) := readPieces piece? rest
      (front ++ more, last)
    else ([], text)
termination_by text.length

/-- What all of a text stands for, if it is made of pieces to its end. -/
def readWhole? (piece? : PieceReader σ β) (text : List σ) : Option (List β) :=
  match readPieces piece? text with
  | (value, []) => some value
  | _ => none

variable {piece? : PieceReader σ β} {text rest : List σ} {front : List β}

theorem readPieces_of_none (h : piece? text = none) : readPieces piece? text = ([], text) := by
  rw [readPieces, h]

theorem readPieces_of_some (h : piece? text = some (front, rest))
    (hlength : rest.length < text.length) :
    readPieces piece? text =
      (front ++ (readPieces piece? rest).1, (readPieces piece? rest).2) := by
  rw [readPieces, h]
  exact if_pos hlength

theorem readWhole?_of_some (h : piece? text = some (front, rest))
    (hlength : rest.length < text.length) :
    readWhole? piece? text = (readWhole? piece? rest).map (front ++ ·) := by
  rw [readWhole?, readWhole?, readPieces_of_some h hlength]
  rcases readPieces piece? rest with ⟨more, _ | _⟩
  · rfl
  · rfl

/-- **What is written piece by piece is read piece by piece.** -/
theorem readPieces_flatMap {written : α → List σ} {value : α → List β} {as : List α}
    (h : ∀ a ∈ as, ∀ rest, piece? (written a ++ rest) = some (value a, rest))
    (hne : ∀ a, written a ≠ []) (rest : List σ) :
    readPieces piece? (as.flatMap written ++ rest) =
      (as.flatMap value ++ (readPieces piece? rest).1, (readPieces piece? rest).2) := by
  induction as with
  | nil => rfl
  | cons a others ih =>
    obtain ⟨hfirst, hothers⟩ := List.forall_mem_cons.mp h
    -- Each piece takes something, so the reader comes to the end.
    have hlength : (others.flatMap written ++ rest).length <
        (written a ++ (others.flatMap written ++ rest)).length := by
      have hpos := List.length_pos_iff.mpr (hne a)
      simp only [List.length_append]
      omega
    rw [List.flatMap_cons, List.append_assoc, readPieces_of_some (hfirst _) hlength, ih hothers,
      List.flatMap_cons, List.append_assoc]

/-- The same, for a text of which the rest is read to its end too. -/
theorem readWhole?_flatMap {written : α → List σ} {value : α → List β} {as : List α}
    (h : ∀ a ∈ as, ∀ rest, piece? (written a ++ rest) = some (value a, rest))
    (hne : ∀ a, written a ≠ []) (rest : List σ) :
    readWhole? piece? (as.flatMap written ++ rest) =
      (readWhole? piece? rest).map (as.flatMap value ++ ·) := by
  rw [readWhole?, readWhole?, readPieces_flatMap h hne]
  rcases readPieces piece? rest with ⟨more, _ | _⟩
  · rfl
  · rfl

theorem readWhole?_eq_some {value : List β} :
    readWhole? piece? text = some value ↔ readPieces piece? text = (value, []) := by
  rw [readWhole?]
  rcases readPieces piece? text with ⟨all, _ | ⟨c, others⟩⟩
  · simp
  · simp

/-- What is read of a text comes from a piece at its front, and from what is behind the piece. -/
theorem exists_of_readWhole?_cons {first : β} {more : List β}
    (h : readWhole? piece? text = some (first :: more)) :
    ∃ front rest others, piece? text = some (front, rest) ∧
      readWhole? piece? rest = some others ∧ first :: more = front ++ others := by
  have hread := readWhole?_eq_some.mp h
  rw [readPieces] at hread
  split at hread
  · cases hread
  · rename_i front rest hpiece
    split at hread
    · obtain ⟨hvalue, hrest⟩ := Prod.mk.inj hread
      exact ⟨front, rest, _, hpiece, readWhole?_eq_some.mpr (Prod.ext rfl hrest), hvalue.symm⟩
    · cases hread

/-! ### Numbers -/

/-- A number of exactly so many digits. -/
def takeNumber? (base count : Nat) (text : List Char) : Option (Nat × List Char) :=
  let digits := text.take count
  let isDigit c := isHexDigit c && digitValue c < base
  if digits.length = count && digits.all isDigit then
    some (digitsValue base digits, text.drop count)
  else none

end DeclPrinter.Text
