import DeclPrinter.Text.Blank
import Mathlib.Data.List.Basic

/-!
# Trimming only takes away

Trimming takes white space from the ends of a text. It adds no character, and it stops at the
first one that is not white space.
-/

namespace DeclPrinter.Text

variable {c : Char} {s : String} {cs : List Char}

theorem mem_of_mem_dropBlankStart (h : c ∈ dropBlankStart cs) : c ∈ cs :=
  (List.dropWhile_sublist isBlank).mem h

theorem mem_of_mem_dropBlankEnd (h : c ∈ dropBlankEnd cs) : c ∈ cs := by
  have hback := (List.dropWhile_sublist isBlank).mem (List.mem_reverse.mp h)
  exact List.mem_reverse.mp hback

theorem mem_of_mem_trimEnd (h : c ∈ (trimEnd s).toList) : c ∈ s.toList := by
  rw [trimEnd, String.toList_ofList] at h
  exact mem_of_mem_dropBlankEnd h

theorem mem_of_mem_trim (h : c ∈ (trim s).toList) : c ∈ s.toList := by
  rw [trim, String.toList_ofList] at h
  exact mem_of_mem_dropBlankStart (mem_of_mem_dropBlankEnd h)

/-- Text without white space at the start of a text is not touched at its end. -/
theorem dropBlankEnd_append (front : List Char) (h : ∀ c ∈ front, isBlank c = false) :
    dropBlankEnd (front ++ cs) = front ++ dropBlankEnd cs := by
  have hfront : front.reverse.dropWhile isBlank = front.reverse := by
    rcases hback : front.reverse with _ | ⟨last, earlier⟩
    · rfl
    · have hlast : last ∈ front := List.mem_reverse.mp (hback ▸ List.mem_cons_self)
      rw [List.dropWhile_cons_of_neg (by simp [h last hlast])]
  unfold dropBlankEnd
  rw [List.reverse_append, List.dropWhile_append, hfront]
  by_cases hblank : (cs.reverse.dropWhile isBlank).isEmpty = true
  · rw [if_pos hblank, List.isEmpty_iff.mp hblank]
    simp
  · rw [if_neg hblank, List.reverse_append, List.reverse_reverse]

end DeclPrinter.Text
