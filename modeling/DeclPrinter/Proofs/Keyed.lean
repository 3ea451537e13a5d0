import Mathlib.Data.List.Dedup

/-!
# Lists that are searched by a key

Whoever asks for a key gets the first item that has it. Where no two items share a key the order
does not matter (`find?_of_perm`); where a new item replaces those of its key and goes to the end,
the last of a key is the one that stands (`find?_replaced`).
-/

namespace DeclPrinter

variable {α κ : Type} [BEq κ] {key : α → κ} {items : List α}

/-! ### Items of other keys -/

theorem map_filter_key (items : List α) (gone : κ) :
    (items.filter (key · != gone)).map key = (items.map key).filter (· != gone) := by
  rw [List.filter_map]
  rfl

theorem nodup_filter_key (h : (items.map key).Nodup) (gone : κ) :
    ((items.filter (key · != gone)).map key).Nodup := by
  rw [map_filter_key]
  exact h.filter _

variable [LawfulBEq κ]

/-! ### Distinct keys -/

/-- An item is found under its key, when no other has it. -/
theorem find?_of_mem (h : (items.map key).Nodup) {item : α} (hitem : item ∈ items) :
    items.find? (key · == key item) = some item := by
  induction items with
  | nil => cases hitem
  | cons first rest ih =>
    rw [List.map_cons, List.nodup_cons] at h
    obtain ⟨hfirst, hrest⟩ := h
    rcases List.mem_cons.mp hitem with rfl | hmem
    · simp
    · -- The first item has another key, since keys are distinct.
      have hne : key first ≠ key item := by
        intro heq
        exact hfirst (heq ▸ List.mem_map_of_mem hmem)
      rw [List.find?_cons, beq_eq_false_iff_ne.mpr hne]
      exact ih hrest hmem

/-- **The order does not matter** to what is found. -/
theorem find?_of_perm {other : List α} (h : (items.map key).Nodup) (hperm : other.Perm items)
    (wanted : κ) : other.find? (key · == wanted) = items.find? (key · == wanted) := by
  have hother : (other.map key).Nodup := (hperm.map key).nodup_iff.mpr h
  cases hfound : items.find? (key · == wanted) with
  | some item =>
    have hkey : key item = wanted := by simpa using List.find?_some hfound
    subst hkey
    exact find?_of_mem hother (hperm.mem_iff.mpr (List.mem_of_find?_eq_some hfound))
  | none =>
    rw [List.find?_eq_none] at hfound ⊢
    exact fun item hitem => hfound item (hperm.mem_iff.mp hitem)

/-! ### The last of a key -/

theorem nodup_replaced (h : (items.map key).Nodup) (item : α) :
    ((items.filter (key · != key item) ++ [item]).map key).Nodup := by
  rw [List.map_append]
  refine List.Nodup.append (nodup_filter_key h _) (List.nodup_singleton _) ?_
  rw [List.map_singleton, List.disjoint_singleton, map_filter_key]
  intro hmem
  simpa using List.of_mem_filter hmem

variable [DecidableEq κ]

/-- What is left once all of a key are gone finds nothing for it, and the same for other keys. -/
theorem find?_filter_key (items : List α) (gone wanted : κ) :
    (items.filter (key · != gone)).find? (key · == wanted) =
      if wanted = gone then none else items.find? (key · == wanted) := by
  rw [List.find?_filter]
  split_ifs with h
  · subst h
    rw [List.find?_eq_none]
    intro item _ hboth
    simp at hboth
  · refine congrArg (List.find? · items) (funext fun item => ?_)
    by_cases hitem : key item = wanted
    · simp [hitem, h]
    · simp [hitem]

theorem find?_replaced (items : List α) (item : α) (wanted : κ) :
    (items.filter (key · != key item) ++ [item]).find? (key · == wanted) =
      if wanted = key item then some item else items.find? (key · == wanted) := by
  rw [List.find?_append, find?_filter_key]
  split_ifs with h
  · simp [h]
  · simp [Ne.symm h]

/-- The last of a key in a list with one more at the end. -/
theorem find?_reverse_concat (items : List α) (item : α) (p : α → Bool) :
    (items ++ [item]).reverse.find? p = if p item then some item else items.reverse.find? p := by
  rw [List.reverse_concat, List.find?_cons]
  cases p item <;> rfl

/-- One more at the end takes the place of an earlier equal one. -/
theorem dedup_concat (keys : List κ) (last : κ) :
    (keys ++ [last]).dedup = keys.dedup.filter (· != last) ++ [last] := by
  induction keys with
  | nil => rfl
  | cons first rest ih =>
    rw [List.cons_append, List.dedup_cons, List.dedup_cons, ih]
    by_cases hlast : first = last
    · subst hlast
      by_cases hmem : first ∈ rest <;> simp [hmem]
    · by_cases hmem : first ∈ rest <;> simp [hmem, hlast]

end DeclPrinter
