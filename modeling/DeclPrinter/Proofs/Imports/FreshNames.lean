import DeclPrinter.Imports
import Mathlib.Data.Finset.Card
import Mathlib.Order.Interval.Finset.Nat
import Mathlib.Order.Lattice.Nat

/-!
# Names that are made up

A name that is taken is told apart by a number: the numbers are tried from two on, and the first
that leads to a name not taken is used. Different numbers give different names, since a number can
be read back from its digits. So of one more numbers than there are names taken, one is free
(`exists_free`), and the trial ends.

* `isLeast_freeNumber`: trying one number after another, with no bound, ends at the least free one.
* `freshName_of_isLeast`: so does the bounded search that makes up a name.
-/

namespace DeclPrinter

/-- A name followed by a number, from which the number can be told. -/
theorem numbered_injective (name : String) : Function.Injective (numbered name) := by
  intro first second h
  have hdigits : first.repr = second.repr := (String.append_right_inj name).mp h
  rw [Nat.repr_eq_ofList_toDigits, Nat.repr_eq_ofList_toDigits, String.ofList_inj] at hdigits
  -- A number can be read back from its digits.
  have hread := congrArg (Nat.ofDigitChars 10 · 0) hdigits
  rwa [Nat.ofDigitChars_ten_toDigits, Nat.ofDigitChars_ten_toDigits] at hread

/-- The last character is one of the digits. -/
theorem isDigit_of_getLast?_numbered {name : String} {number : Nat} {c : Char}
    (h : (numbered name number).toList.getLast? = some c) : c.isDigit = true := by
  have hdigits : (numbered name number).toList = name.toList ++ Nat.toDigits 10 number := by
    show (name ++ number.repr).toList = _
    rw [String.toList_append, Nat.toList_repr]
  rw [hdigits, List.getLast?_append_of_ne_nil _ Nat.toDigits_ne_nil] at h
  exact Nat.isDigit_of_mem_toDigits (by decide) (by decide) (List.mem_of_getLast? h)

/-- The numbers from `start` on that make the name differ from every name taken. -/
def freeNumbers (name : String) (taken : List String) (start : Nat) : Set Nat :=
  {number | start ≤ number ∧ numbered name number ∉ taken}

variable {name : String} {taken : List String} {start number : Nat}

/-- **Of one more numbers than there are names taken, one is free.** -/
theorem exists_free (name : String) (taken : List String) (start : Nat) :
    ∃ number ∈ freeNumbers name taken start, number ≤ start + taken.toFinset.card := by
  by_contra! hnone
  -- If all these numbers were taken, their names would be more than there are names taken.
  have hall : (Finset.Icc start (start + taken.toFinset.card)).image (numbered name) ⊆
      taken.toFinset := by
    intro candidate hcandidate
    obtain ⟨number, hnumber, rfl⟩ := Finset.mem_image.mp hcandidate
    obtain ⟨hstart, hend⟩ := Finset.mem_Icc.mp hnumber
    by_contra hfree
    have hbeyond := hnone number ⟨hstart, fun htaken => hfree (List.mem_toFinset.mpr htaken)⟩
    omega
  have hcard := Finset.card_le_card hall
  rw [Finset.card_image_of_injective _ (numbered_injective name), Nat.card_Icc] at hcard
  omega

/-! ### Trying one number after another -/

/-- After a number that leads to a name taken, the same numbers are free as from it on. -/
theorem freeNumbers_succ (h : numbered name start ∈ taken) :
    freeNumbers name taken (start + 1) = freeNumbers name taken start := by
  ext number
  constructor
  · exact fun hnumber => ⟨Nat.le_of_succ_le hnumber.1, hnumber.2⟩
  · rintro ⟨hstart, hfree⟩
    have hne : start ≠ number := by
      rintro rfl
      exact hfree h
    exact ⟨Nat.lt_of_le_of_ne hstart hne, hfree⟩

/-- The first number from `start` on that is free, found by trying one after another for as long
as it takes. Each trial that fails is one less of those before the least free number. -/
def freeNumber (name : String) (taken : List String) (start : Nat) : Nat :=
  if numbered name start ∈ taken then freeNumber name taken (start + 1) else start
termination_by sInf (freeNumbers name taken start) - start
decreasing_by
  rename_i htaken
  obtain ⟨free, hfree, _⟩ := exists_free name taken (start + 1)
  have hahead := (Nat.sInf_mem ⟨free, hfree⟩).1
  rw [freeNumbers_succ htaken] at hahead ⊢
  omega

/-- **The trial ends at the least free number.** -/
theorem isLeast_freeNumber (name : String) (taken : List String) (start : Nat) :
    IsLeast (freeNumbers name taken start) (freeNumber name taken start) := by
  fun_induction freeNumber name taken start with
  | case1 start htaken ih => rwa [freeNumbers_succ htaken] at ih
  | case2 start hfree => exact ⟨⟨Nat.le_refl start, hfree⟩, fun other hother => hother.1⟩

/-! ### The name that is made up -/

/-- **A bounded search suffices:** the name is made up with the least free number. -/
theorem freshName_of_isLeast (h : IsLeast (freeNumbers name taken 2) number) :
    freshName name taken = numbered name number := by
  obtain ⟨free, hfree, hbound⟩ := exists_free name taken 2
  have hcard := List.toFinset_card_le taken
  have hle := h.2 hfree
  -- The number is within the bound, and all before it are taken.
  have hfound : (List.range' 2 (taken.length + 1)).find?
      ((!taken.contains ·) ∘ numbered name) = some number := by
    rw [List.find?_range'_eq_some]
    refine ⟨by simpa using h.1.2, ?_, ?_⟩
    · rw [List.mem_range'_1]
      exact ⟨h.1.1, by omega⟩
    · intro other hstart hless
      have htaken : numbered name other ∈ taken := by
        by_contra hother
        have hge := h.2 (show other ∈ freeNumbers name taken 2 from ⟨hstart, hother⟩)
        omega
      simpa using htaken
  unfold freshName
  dsimp only
  rw [List.find?_map, hfound]
  rfl

/-- **The name that is made up is not taken.** -/
theorem freshName_not_mem (name : String) (taken : List String) :
    freshName name taken ∉ taken := by
  have hleast := isLeast_freeNumber name taken 2
  rw [freshName_of_isLeast hleast]
  exact hleast.1.2

/-- **The search for a name ends at the least free number.** Whatever the name and whatever names
are taken, there is a least number from two on with which the name is not taken, and it exceeds the
number of names taken by two at most. Trying one number after another ends there, the name that is
made up is the name with this number, and never the one with an underscore. -/
theorem freshName_search_ends (name : String) (taken : List String) :
    ∃ number, IsLeast {number | 2 ≤ number ∧ name ++ toString number ∉ taken} number ∧
      number ≤ taken.toFinset.card + 2 ∧
      freeNumber name taken 2 = number ∧
      freshName name taken = name ++ toString number ∧
      freshName name taken ≠ name ++ "_" := by
  have hleast := isLeast_freeNumber name taken 2
  have hname := freshName_of_isLeast hleast
  obtain ⟨free, hfree, hbound⟩ := exists_free name taken 2
  have hle := hleast.2 hfree
  refine ⟨freeNumber name taken 2, hleast, by omega, rfl, hname, ?_⟩
  intro hunderscore
  -- A name with a number ends in a digit, so the fallback is no such name.
  have hlast : (numbered name (freeNumber name taken 2)).toList.getLast? = some '_' := by
    rw [← hname, hunderscore, String.toList_append]
    exact List.getLast?_concat
  exact absurd (isDigit_of_getLast?_numbered hlast) (by decide)

/-- A name that ends in a digit is told apart by further digits, past those that are taken. -/
example : freshName "rand2" ["rand2", "rand22", "rand", "rand23"] = "rand24" := by decide +kernel

end DeclPrinter
