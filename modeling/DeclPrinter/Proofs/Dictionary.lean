import DeclPrinter.Dictionary
import Mathlib.Data.List.Nodup

/-!
# Dictionaries in ascending order

Inserting a name puts it among the names that come before and after it, so the names of a
dictionary that only insertions made are ascending, each there once.
-/

namespace DeclPrinter.Dictionary

variable {α : Type} {dictionary : Dictionary α}

/-- The names in order. -/
def keys (dictionary : Dictionary α) : List String :=
  dictionary.entries.map Prod.fst

/-- Each name is less than those after it. -/
def Ascending (dictionary : Dictionary α) : Prop :=
  dictionary.keys.Pairwise (· < ·)

theorem mem_keys_insertWith (merge : α → α → α) (name : String) (value : α)
    (entries : List (String × α)) (key : String) :
    key ∈ (insertWith merge name value entries).map Prod.fst ↔
      key = name ∨ key ∈ entries.map Prod.fst := by
  induction entries with
  | nil => simp [insertWith]
  | cons entry rest ih =>
    obtain ⟨old, kept⟩ := entry
    unfold insertWith
    split
    · simp
    · split
      · rename_i hsame
        subst hsame
        simp
      · rw [List.map_cons, List.mem_cons, ih, List.map_cons, List.mem_cons]
        exact or_left_comm

theorem ascending_insertWith (merge : α → α → α) (name : String) (value : α)
    {entries : List (String × α)} (h : (entries.map Prod.fst).Pairwise (· < ·)) :
    ((insertWith merge name value entries).map Prod.fst).Pairwise (· < ·) := by
  induction entries with
  | nil =>
    unfold insertWith
    exact List.pairwise_singleton ..
  | cons entry rest ih =>
    obtain ⟨old, kept⟩ := entry
    rw [List.map_cons, List.pairwise_cons] at h
    obtain ⟨hold, hrest⟩ := h
    unfold insertWith
    split
    · rename_i hlt
      rw [List.map_cons, List.pairwise_cons]
      refine ⟨?_, List.pairwise_cons.mpr ⟨hold, hrest⟩⟩
      intro key hkey
      rcases List.mem_cons.mp hkey with rfl | hmem
      · exact hlt
      · exact String.lt_trans hlt (hold key hmem)
    · rename_i hnot
      split
      · exact List.pairwise_cons.mpr ⟨hold, hrest⟩
      · -- The name comes after the first one, since it is neither less nor the same.
        rename_i hne
        have hgt : old < name := by
          by_contra hge
          exact hne (String.le_antisymm (String.not_lt.mp hge) (String.not_lt.mp hnot))
        rw [List.map_cons, List.pairwise_cons]
        refine ⟨?_, ih hrest⟩
        intro key hkey
        rcases (mem_keys_insertWith merge name value rest key).mp hkey with rfl | hmem
        · exact hgt
        · exact hold key hmem

theorem mem_keys_putNew (dictionary : Dictionary α) (name : String) (value : α) (key : String) :
    key ∈ (dictionary.putNew name value).keys ↔ key = name ∨ key ∈ dictionary.keys :=
  mem_keys_insertWith _ name value dictionary.entries key

theorem mem_insertWith_old {name : String} {value : α} {entries : List (String × α)}
    {entry : String × α} (h : entry ∈ insertWith (fun old _ => old) name value entries) :
    entry = (name, value) ∨ entry ∈ entries := by
  induction entries with
  | nil => exact .inl (List.mem_singleton.mp h)
  | cons first rest ih =>
    unfold insertWith at h
    -- In front of the first entry, in its place, or somewhere behind it.
    split at h
    · exact List.mem_cons.mp h
    · split at h
      · exact .inr h
      · rcases List.mem_cons.mp h with rfl | hmem
        · exact .inr List.mem_cons_self
        · exact (ih hmem).imp_right (List.mem_cons_of_mem first)

/-- An entry is the one put in, or was there before. -/
theorem mem_putNew {name : String} {value : α} {entry : String × α}
    (h : entry ∈ (dictionary.putNew name value).entries) :
    entry = (name, value) ∨ entry ∈ dictionary.entries :=
  mem_insertWith_old h

theorem Ascending.putNew (h : dictionary.Ascending) (name : String) (value : α) :
    (dictionary.putNew name value).Ascending :=
  ascending_insertWith _ name value h

theorem lookup_insertWith_of_ne (merge : α → α → α) (name : String) (value : α)
    (entries : List (String × α)) {key : String} (hkey : key ≠ name) :
    (insertWith merge name value entries).lookup key = entries.lookup key := by
  -- A new entry of another name in front is passed by.
  have hnew (rest : List (String × α)) (new : α) :
      ((name, new) :: rest).lookup key = rest.lookup key := by
    rw [List.lookup_cons, beq_eq_false_iff_ne.mpr hkey]
  induction entries with
  | nil => exact hnew [] value
  | cons entry rest ih =>
    obtain ⟨old, kept⟩ := entry
    unfold insertWith
    split
    · exact hnew _ value
    · split
      · rename_i hsame
        rw [← hsame, hnew, hnew]
      · rw [List.lookup_cons, List.lookup_cons, ih]

/-- A name that is inserted is found, also in entries that are in no order. -/
theorem lookup_insertWith_self (name : String) (value : α) (entries : List (String × α)) :
    (insertWith (fun _ new => new) name value entries).lookup name = some value := by
  induction entries with
  | nil => rw [insertWith, List.lookup_cons_self]
  | cons entry rest ih =>
    obtain ⟨old, kept⟩ := entry
    unfold insertWith
    split
    · rw [List.lookup_cons_self]
    · split
      · rename_i hsame
        rw [← hsame, List.lookup_cons_self]
      · rename_i hne
        rw [List.lookup_cons, beq_eq_false_iff_ne.mpr hne]
        exact ih

theorem get?_put (dictionary : Dictionary α) (name : String) (value : α) (key : String) :
    (dictionary.put name value).get? key =
      if key = name then some value else dictionary.get? key := by
  split
  · rename_i hkey
    subst hkey
    exact lookup_insertWith_self key value dictionary.entries
  · rename_i hkey
    exact lookup_insertWith_of_ne _ name value dictionary.entries hkey

theorem Ascending.nodup (h : dictionary.Ascending) : dictionary.keys.Nodup :=
  List.Pairwise.imp String.ne_of_lt h

end DeclPrinter.Dictionary
