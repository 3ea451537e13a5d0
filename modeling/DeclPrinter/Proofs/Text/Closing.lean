import DeclPrinter.Proofs.Text.Blank
import DeclPrinter.Proofs.Text.Pieces
import Mathlib.Data.List.Infix

/-!
# The mark that closes a comment

Two characters close a comment, wherever they come from. Neither is white space, and neither is
at the end of what is put around a text. So the mark stands in what a text is trimmed, cut and
spliced into exactly if it stands in the text (`hasClosing_append_iff`, `hasClosing_trim_iff`,
`hasClosing_iff_lines`).
-/

namespace DeclPrinter.Text

/-- The characters that close a comment. -/
def closing : List Char :=
  ['*', '/']

/-- The mark stands somewhere in the text. -/
def HasClosing (text : String) : Prop :=
  closing <:+: text.toList

instance (text : String) : Decidable (HasClosing text) :=
  inferInstanceAs (Decidable (closing <:+: text.toList))

variable {c : Char} {cs first second : List Char} {text before after : String}

/-! ### Lists of characters -/

theorem closing_infix_cons_iff (hc : c ≠ '*') : closing <:+: c :: cs ↔ closing <:+: cs := by
  rw [List.infix_cons_iff, closing, List.cons_prefix_cons]
  simp [hc.symm]

/-- Where no star stands at the end of what is in front, no mark is split. -/
theorem closing_infix_append_iff (h : first.getLast? ≠ some '*') :
    closing <:+: first ++ second ↔ closing <:+: first ∨ closing <:+: second := by
  induction first with
  | nil => simp [closing]
  | cons c rest ih =>
    cases rest with
    | nil =>
      have hc : c ≠ '*' := by simpa using h
      rw [List.singleton_append, closing_infix_cons_iff hc, closing_infix_cons_iff hc]
      simp [closing]
    | cons d others =>
      have hrest := ih (by simpa using h)
      -- A mark at the first character ends with the next.
      have hstart : closing <+: c :: (d :: others ++ second) ↔ closing <+: c :: d :: others := by
        simp [closing, List.cons_prefix_cons]
      have hwhole : closing <:+: c :: d :: others ↔
          closing <+: c :: d :: others ∨ closing <:+: d :: others := List.infix_cons_iff
      rw [List.cons_append, List.infix_cons_iff, hwhole, hstart, or_assoc]
      exact or_congr_right hrest

/-- Other characters than those of the mark keep apart what stands on either side. -/
theorem closing_infix_append_cons_iff (hc : c ∉ closing) :
    closing <:+: first ++ c :: second ↔ closing <:+: first ∨ closing <:+: second := by
  have hlast : (first ++ [c]).getLast? ≠ some '*' := by
    rw [List.getLast?_concat]
    rintro ⟨rfl⟩
    exact hc List.mem_cons_self
  have hfront : closing <:+: first ++ [c] ↔ closing <:+: first := by
    rw [List.infix_concat_iff]
    refine or_iff_right ?_
    rintro ⟨before, hend⟩
    have hslash : c = '/' := by simpa [closing] using (congrArg List.getLast? hend).symm
    exact hc (by simp [closing, hslash])
  rw [List.append_cons, closing_infix_append_iff hlast, hfront]

/-- Behind text without a star no mark starts in that text. -/
theorem closing_infix_append_iff_of_not_mem (h : '*' ∉ first) :
    closing <:+: first ++ second ↔ closing <:+: second := by
  induction first with
  | nil => rfl
  | cons c rest ih =>
    have hc : c ≠ '*' := fun heq => h (heq ▸ List.mem_cons_self)
    have hrest : '*' ∉ rest := fun hmem => h (List.mem_cons_of_mem c hmem)
    rw [List.cons_append, closing_infix_cons_iff hc, ih hrest]

theorem closing_infix_dropBlankStart_iff : closing <:+: dropBlankStart cs ↔ closing <:+: cs := by
  induction cs with
  | nil => rfl
  | cons c rest ih =>
    by_cases hblank : isBlank c = true
    · have hc : c ≠ '*' := by
        rintro rfl
        exact absurd hblank (by decide)
      rw [dropBlankStart, List.dropWhile_cons_of_pos hblank, closing_infix_cons_iff hc]
      exact ih
    · rw [dropBlankStart, List.dropWhile_cons_of_neg hblank]

theorem closing_infix_dropBlankEnd_iff : closing <:+: dropBlankEnd cs ↔ closing <:+: cs := by
  induction cs using List.reverseRecOn with
  | nil => rfl
  | append_singleton front c ih =>
    by_cases hblank : isBlank c = true
    · -- A blank at the end is no character of the mark.
      have hc : c ∉ closing := by
        intro hmem
        rcases List.mem_pair.mp hmem with rfl | rfl
        · exact absurd hblank (by decide)
        · exact absurd hblank (by decide)
      have hdrop : dropBlankEnd (front ++ [c]) = dropBlankEnd front := by
        simp [dropBlankEnd, List.dropWhile_cons_of_pos hblank]
      rw [hdrop, ih, closing_infix_append_cons_iff hc]
      simp [closing]
    · have hkept : dropBlankEnd (front ++ [c]) = front ++ [c] := by
        simp [dropBlankEnd, List.dropWhile_cons_of_neg hblank]
      rw [hkept]

/-- **What is joined with other characters than those of the mark** holds it if one of the parts
does. -/
theorem closing_infix_intercalate_iff (hc : c ∉ closing) (parts : List (List Char)) :
    closing <:+: List.intercalate [c] parts ↔ ∃ part ∈ parts, closing <:+: part := by
  induction parts with
  | nil => simp [closing]
  | cons part rest ih =>
    cases rest with
    | nil => simp
    | cons second others =>
      rw [List.intercalate_cons_cons, List.append_assoc, List.singleton_append,
        closing_infix_append_cons_iff hc, ih]
      simp only [List.exists_mem_cons_iff]

theorem closing_infix_dropReturn_iff : closing <:+: dropReturn cs ↔ closing <:+: cs := by
  unfold dropReturn
  split
  · rename_i hreturn
    obtain ⟨front, rfl⟩ := List.getLast?_eq_some_iff.mp (beq_iff_eq.mp hreturn)
    have hmark : '\r' ∉ closing := by decide
    rw [List.dropLast_concat, closing_infix_append_cons_iff hmark]
    simp [closing]
  · rfl

/-! ### Texts -/

theorem hasClosing_append_iff (h : before.toList.getLast? ≠ some '*') :
    HasClosing (before ++ after) ↔ HasClosing before ∨ HasClosing after := by
  rw [HasClosing, String.toList_append, closing_infix_append_iff h]
  rfl

/-- A blank between two texts keeps them apart. -/
theorem hasClosing_blank_iff :
    HasClosing (before ++ " " ++ after) ↔ HasClosing before ∨ HasClosing after := by
  have hmark : ' ' ∉ closing := by decide
  have hlist : (before ++ " " ++ after).toList = before.toList ++ ' ' :: after.toList := by
    simp
  rw [HasClosing, hlist, closing_infix_append_cons_iff hmark]
  rfl

theorem hasClosing_trimStart_iff : HasClosing (trimStart text) ↔ HasClosing text := by
  rw [HasClosing, trimStart, String.toList_ofList, closing_infix_dropBlankStart_iff]
  rfl

theorem hasClosing_trimEnd_iff : HasClosing (trimEnd text) ↔ HasClosing text := by
  rw [HasClosing, trimEnd, String.toList_ofList, closing_infix_dropBlankEnd_iff]
  rfl

theorem hasClosing_trim_iff : HasClosing (trim text) ↔ HasClosing text := by
  rw [HasClosing, trim, String.toList_ofList, closing_infix_dropBlankEnd_iff,
    closing_infix_dropBlankStart_iff]
  rfl

/-- A text of white space holds no mark. -/
theorem not_hasClosing_of_isAllBlank (h : isAllBlank text = true) : ¬ HasClosing text := by
  intro hmark
  have hstar : '*' ∈ text.toList := hmark.subset List.mem_cons_self
  have hblank := List.all_eq_true.mp h '*' hstar
  exact absurd hblank (by decide)

theorem not_hasClosing_of_trim_empty (h : (trim text).isEmpty = true) : ¬ HasClosing text := by
  rw [← hasClosing_trim_iff, String.isEmpty_iff.mp h]
  decide

/-- **A mark stands in one line.** -/
theorem hasClosing_iff_splitLines :
    HasClosing text ↔ ∃ line ∈ splitLines text, HasClosing line := by
  have hmark : '\n' ∉ closing := by decide
  have hback : ['\n'].intercalate (text.toList.splitOn '\n') = text.toList :=
    List.intercalate_splitOn '\n'
  rw [List.splitOn_eq_splitOnP] at hback
  rw [HasClosing, ← hback, closing_infix_intercalate_iff hmark, splitLines, splitAt]
  simp [HasClosing]

/-- The same for lines that newlines end. -/
theorem hasClosing_iff_lines : HasClosing text ↔ ∃ line ∈ lines text, HasClosing line := by
  rw [hasClosing_iff_splitLines, splitLines, splitAt, lines]
  obtain ⟨front, last, hcut⟩ := List.eq_nil_or_concat' (text.toList.splitOnP (· == '\n'))
    |>.resolve_left (List.splitOnP_ne_nil _ _)
  rw [hcut, List.dropLast_concat, List.getLast?_concat, Option.getD_some]
  by_cases hempty : last = []
  · subst hempty
    have hnone : ¬ closing <:+: [] := by decide
    simp [HasClosing, closing_infix_dropReturn_iff, hnone]
  · have hkept : last.isEmpty = false := by simpa using hempty
    rw [hkept]
    simp [HasClosing, closing_infix_dropReturn_iff]

end DeclPrinter.Text
