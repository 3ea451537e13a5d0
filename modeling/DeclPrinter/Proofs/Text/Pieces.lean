import DeclPrinter.Text.Lines
import Mathlib.Data.List.Basic

/-!
# Cutting and joining

Everything about the pieces of a text follows from one equation: a text cut at one of its
separators has the pieces of either side (`splitAt_append`). No piece holds a separator, so what
is joined with separators from such texts is cut into them again.
-/

namespace DeclPrinter.Text

variable {isSeparator : Char → Bool} {s first second piece separator : String} {c : Char}

/-- A text that is not empty and holds no separator. -/
structure IsPiece (isSeparator : Char → Bool) (s : String) : Prop where
  /-- There is something in it. -/
  ne_empty : s ≠ ""
  /-- Nothing in it is a separator. -/
  unbroken : ∀ c ∈ s.toList, isSeparator c = false

/-! ### Cutting -/

theorem splitAt_empty : splitAt isSeparator "" = [""] := by
  rw [splitAt, String.toList_empty, List.splitOnP_nil]
  rfl

theorem splitAt_of_unbroken (h : ∀ c ∈ s.toList, isSeparator c = false) :
    splitAt isSeparator s = [s] := by
  rw [splitAt, List.splitOnP_eq_singleton h, List.map_singleton, String.ofList_toList]

/-- **A text is cut at each separator on its own.** -/
theorem splitAt_append (hseparator : separator.toList = [c]) (hc : isSeparator c = true) :
    splitAt isSeparator (first ++ separator ++ second) =
      splitAt isSeparator first ++ splitAt isSeparator second := by
  unfold splitAt
  rw [String.toList_append, String.toList_append, hseparator, List.append_assoc,
    List.singleton_append, List.splitOnP_append_cons _ _ hc, List.map_append]

/-- Text in front of a text goes to the first part that it is cut into. -/
theorem splitAt_append_of_unbroken (h : ∀ c ∈ first.toList, isSeparator c = false) :
    splitAt isSeparator (first ++ second) =
      (splitAt isSeparator second).modifyHead (first ++ ·) := by
  -- The front goes to the first part one character at a time.
  have hcut (front cs : List Char) (hfront : ∀ c ∈ front, isSeparator c = false) :
      (front ++ cs).splitOnP isSeparator = (cs.splitOnP isSeparator).modifyHead (front ++ ·) := by
    obtain ⟨part, others, heq⟩ := List.exists_cons_of_ne_nil (List.splitOnP_ne_nil isSeparator cs)
    induction front with
    | nil => simp [heq]
    | cons c rest ih =>
      have hc := hfront c List.mem_cons_self
      have hrest := ih fun d hd => hfront d (List.mem_cons_of_mem c hd)
      rw [List.cons_append, List.splitOnP_cons_eq_if_modifyHead, hc, hrest, heq]
      rfl
  unfold splitAt
  rw [String.toList_append, hcut _ _ h]
  obtain ⟨part, others, heq⟩ :=
    List.exists_cons_of_ne_nil (List.splitOnP_ne_nil isSeparator second.toList)
  rw [heq, List.modifyHead_cons, List.map_cons, List.map_cons, List.modifyHead_cons,
    String.ofList_append, String.ofList_toList]

/-- **Where two lists are joined,** the last part of the first and the first part of the second
become one. -/
theorem splitOnP_append {α : Type} {p : α → Bool} {xs ys part head : List α}
    {parts others : List (List α)} (hfirst : xs.splitOnP p = parts ++ [part])
    (hsecond : ys.splitOnP p = head :: others) :
    (xs ++ ys).splitOnP p = parts ++ (part ++ head) :: others := by
  induction xs generalizing parts part with
  | nil =>
    rw [List.splitOnP_nil] at hfirst
    have hfront : [] ++ [[]] = parts ++ [part] := hfirst
    obtain ⟨rfl, hpart⟩ := List.append_inj' hfront rfl
    obtain rfl : [] = part := List.singleton_inj.mp hpart
    exact hsecond
  | cons x rest ih =>
    obtain ⟨first, later, hrest⟩ := List.exists_cons_of_ne_nil (List.splitOnP_ne_nil p rest)
    rw [List.splitOnP_cons_eq_if_modifyHead] at hfirst
    rw [List.cons_append, List.splitOnP_cons_eq_if_modifyHead]
    by_cases hx : p x = true
    · rw [if_pos hx] at hfirst
      rw [if_pos hx]
      cases parts with
      | nil => simp [hrest] at hfirst
      | cons empty parts =>
        obtain ⟨rfl, hparts⟩ := List.cons.inj hfirst
        rw [ih hparts]
        rfl
    · rw [if_neg hx, hrest, List.modifyHead_cons] at hfirst
      rw [if_neg hx]
      cases parts with
      | nil =>
        -- There is only one part, which the element is put in front of.
        obtain ⟨rfl, rfl⟩ := List.cons.inj hfirst
        have hone : (rest ++ ys).splitOnP p = [] ++ (first ++ head) :: others := ih hrest
        rw [hone]
        rfl
      | cons longer parts =>
        obtain ⟨rfl, rfl⟩ := List.cons.inj hfirst
        have hmore : (rest ++ ys).splitOnP p = (first :: parts) ++ (part ++ head) :: others :=
          ih hrest
        rw [hmore]
        rfl

theorem splitAt_append_eq {pieces others : List String} {head : String}
    (hfirst : splitAt isSeparator first = pieces ++ [piece])
    (hsecond : splitAt isSeparator second = head :: others) :
    splitAt isSeparator (first ++ second) = pieces ++ (piece ++ head) :: others := by
  unfold splitAt at hfirst hsecond ⊢
  obtain ⟨parts, last, hparts, rfl, hlast⟩ := List.map_eq_append_iff.mp hfirst
  obtain ⟨part, rfl, rfl⟩ := List.map_eq_singleton_iff.mp hlast
  obtain ⟨front, later, hcut, rfl, rfl⟩ := List.map_eq_cons_iff.mp hsecond
  rw [String.toList_append, splitOnP_append hparts hcut, List.map_append, List.map_cons,
    String.ofList_append]

/-- What is put behind a text, and is not cut, goes to the last part that it is cut into. -/
theorem splitAt_append_of_unbroken_end {pieces : List String}
    (h : ∀ c ∈ second.toList, isSeparator c = false)
    (hcut : splitAt isSeparator first = pieces ++ [piece]) :
    splitAt isSeparator (first ++ second) = pieces ++ [piece ++ second] :=
  splitAt_append_eq hcut (splitAt_of_unbroken h)

/-- What a list is cut into holds none of the elements at which it is cut, and no other
elements than the list. -/
theorem of_mem_splitOnP {α : Type} {p : α → Bool} {xs part : List α} (h : part ∈ xs.splitOnP p) :
    ∀ x ∈ part, p x = false ∧ x ∈ xs := by
  induction xs generalizing part with
  | nil =>
    rw [List.splitOnP_nil, List.mem_singleton] at h
    simp [h]
  | cons y ys ih =>
    rw [List.splitOnP_cons_eq_if_modifyHead] at h
    by_cases hy : p y = true
    · rw [if_pos hy] at h
      rcases List.mem_cons.mp h with rfl | hmem
      · simp
      · intro x hx
        exact ⟨(ih hmem x hx).1, List.mem_cons_of_mem y (ih hmem x hx).2⟩
    · -- The element joins the first of the parts that the rest is cut into.
      obtain ⟨head, others, heq⟩ := List.exists_cons_of_ne_nil (List.splitOnP_ne_nil p ys)
      rw [if_neg hy, heq, List.modifyHead_cons] at h
      have hhead : head ∈ ys.splitOnP p := by
        rw [heq]
        exact List.mem_cons_self
      intro x hx
      rcases List.mem_cons.mp h with rfl | hmem
      · rcases List.mem_cons.mp hx with rfl | hx
        · exact ⟨by simpa using hy, List.mem_cons_self⟩
        · exact ⟨(ih hhead x hx).1, List.mem_cons_of_mem y (ih hhead x hx).2⟩
      · have hrest : part ∈ ys.splitOnP p := by
          rw [heq]
          exact List.mem_cons_of_mem head hmem
        exact ⟨(ih hrest x hx).1, List.mem_cons_of_mem y (ih hrest x hx).2⟩

theorem of_mem_splitAt (h : piece ∈ splitAt isSeparator s) :
    ∀ c ∈ piece.toList, isSeparator c = false ∧ c ∈ s.toList := by
  obtain ⟨part, hpart, rfl⟩ := List.mem_map.mp h
  rw [String.toList_ofList]
  exact of_mem_splitOnP hpart

/-- The lines of a text hold no newline. -/
theorem newline_not_mem_of_mem_lines {line : String} (h : line ∈ lines s) :
    '\n' ∉ line.toList := by
  have hcut : ∀ part ∈ s.toList.splitOnP (· == '\n'), '\n' ∉ part := by
    intro part hpart hnewline
    have hnone := (of_mem_splitOnP hpart '\n' hnewline).1
    simp at hnone
  have hended : ∀ part ∈ ((s.toList.splitOnP (· == '\n')).dropLast.map dropReturn),
      '\n' ∉ part := by
    intro part hpart hnewline
    obtain ⟨whole, hwhole, rfl⟩ := List.mem_map.mp hpart
    refine hcut whole ((List.dropLast_sublist _).mem hwhole) ?_
    unfold dropReturn at hnewline
    split at hnewline
    · exact (List.dropLast_sublist whole).mem hnewline
    · exact hnewline
  obtain ⟨part, hpart, rfl⟩ := List.mem_map.mp h
  rw [String.toList_ofList]
  split at hpart
  · exact hended part hpart
  · rcases List.mem_append.mp hpart with hearlier | hlast
    · exact hended part hearlier
    · -- The last line is the last part, since there is one.
      obtain ⟨last, hlastPart⟩ := List.getLast?_isSome.mpr
        (List.splitOnP_ne_nil (· == '\n') s.toList) |> Option.isSome_iff_exists.mp
      rw [List.mem_singleton.mp hlast, hlastPart]
      exact hcut last (List.mem_of_getLast? hlastPart)

/-! ### Pieces -/

theorem pieces_empty : pieces isSeparator "" = [] := by
  rw [pieces, splitAt_empty]
  rfl

theorem pieces_append (hseparator : separator.toList = [c]) (hc : isSeparator c = true) :
    pieces isSeparator (first ++ separator ++ second) =
      pieces isSeparator first ++ pieces isSeparator second := by
  rw [pieces, splitAt_append hseparator hc, List.filter_append]
  rfl

theorem IsPiece.pieces_eq (h : IsPiece isSeparator s) : pieces isSeparator s = [s] := by
  have hkept : (!s.isEmpty) = true := by
    simpa [String.isEmpty_iff] using h.ne_empty
  rw [pieces, splitAt_of_unbroken h.unbroken, List.filter_singleton, hkept]
  rfl

theorem isPiece_of_mem_pieces (h : piece ∈ pieces isSeparator s) : IsPiece isSeparator piece := by
  obtain ⟨hcut, hkept⟩ := List.mem_filter.mp h
  refine ⟨?_, fun c hc => (of_mem_splitAt hcut c hc).1⟩
  rintro rfl
  simp at hkept

/-- The characters of a piece are from the text. -/
theorem mem_of_mem_pieces (h : piece ∈ pieces isSeparator s) (hc : c ∈ piece.toList) :
    c ∈ s.toList :=
  (of_mem_splitAt (List.mem_filter.mp h).1 c hc).2

/-! ### Joining -/

/-- **What is joined with separators is cut into it again,** if nothing that is joined holds a
separator. -/
theorem splitAt_intercalate (hseparator : separator.toList = [c]) (hc : isSeparator c = true)
    {texts : List String} (hne : texts ≠ [])
    (h : ∀ text ∈ texts, ∀ d ∈ text.toList, isSeparator d = false) :
    splitAt isSeparator (separator.intercalate texts) = texts := by
  induction texts with
  | nil => exact absurd rfl hne
  | cons first rest ih =>
    have hfirst := h first List.mem_cons_self
    cases rest with
    | nil =>
      rw [String.intercalate_singleton]
      exact splitAt_of_unbroken hfirst
    | cons second others =>
      have hrest := ih (List.cons_ne_nil second others)
        fun text htext => h text (List.mem_cons_of_mem first htext)
      rw [String.intercalate_cons_cons, splitAt_append hseparator hc, splitAt_of_unbroken hfirst,
        hrest]
      rfl

/-- **What a text is cut into at a character** gives the text again when it is joined there. -/
theorem intercalate_splitAt (hseparator : separator.toList = [c]) (s : String) :
    separator.intercalate (splitAt (· == c) s) = s := by
  apply String.toList_injective
  have hback : (splitAt (· == c) s).map String.toList = s.toList.splitOn c := by
    rw [splitAt, List.map_map, List.splitOn_eq_splitOnP]
    simp
  rw [String.toList_intercalate, hseparator, hback, List.intercalate_splitOn]

end DeclPrinter.Text
