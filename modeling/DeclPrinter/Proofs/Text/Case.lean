import DeclPrinter.Proofs.Text.Pieces
import DeclPrinter.Text.Case

/-!
# Case mappings bring in no slash

Every code point that a case mapping yields, other than the one it is given, lies above that of
the slash. So a name in upper case at its start, and a class name that is joined from the words
of a file name, hold a slash only if the name did.
-/

namespace DeclPrinter.Text

variable {c d : Char} {s : String}

/-- A character above U+0000 is that of its own code point only; those that are none stand for
U+0000. -/
theorem eq_toNat_of_ofNat_eq {n : Nat} (hd : 0 < d.toNat) (h : Char.ofNat n = d) :
    n = d.toNat := by
  subst h
  unfold Char.ofNat at hd ⊢
  by_cases hvalid : n.isValidChar
  · rw [dif_pos hvalid]
    rfl
  · rw [dif_neg hvalid] at hd
    exact absurd hd (Nat.lt_irrefl 0)

/-- A mapping whose results all lie above a character yields it only for itself. -/
theorem eq_of_mem_mapCase {runs : List CaseRun} {expansions : List (Nat × List Nat)}
    (hd : 0 < d.toNat) (hruns : ∀ run ∈ runs, (d.toNat : Int) < run.first + run.shift)
    (hexpansions : ∀ entry ∈ expansions, ∀ point ∈ entry.2, d.toNat < point)
    (h : d ∈ mapCase runs expansions c) : c = d := by
  unfold mapCase at h
  split at h
  · -- The mapping of a run only grows along it.
    rename_i run hrun
    have habove := hruns run (List.mem_of_find?_eq_some hrun)
    have hcontains := List.find?_some hrun
    simp only [CaseRun.contains, Bool.and_eq_true, decide_eq_true_eq] at hcontains
    have hpoint := eq_toNat_of_ofNat_eq hd (List.mem_singleton.mp h).symm
    omega
  · split at h
    · rename_i points hpoints
      obtain ⟨before, after, heq, _⟩ := List.lookup_eq_some_iff.mp hpoints
      obtain ⟨point, hpoint, hchar⟩ := List.mem_map.mp h
      have hentry : (c.toNat, points) ∈ expansions := by
        rw [heq]
        simp
      have habove := hexpansions _ hentry point hpoint
      have hsame := eq_toNat_of_ofNat_eq hd hchar
      omega
    · exact (List.mem_singleton.mp h).symm

theorem slash_of_mem_upper (h : '/' ∈ upper c) : c = '/' :=
  eq_of_mem_mapCase (by decide) (by decide +kernel) (by decide +kernel) h

theorem slash_of_mem_capitalize (h : '/' ∈ (capitalize s).toList) : '/' ∈ s.toList := by
  unfold capitalize mapFirst at h
  split at h
  · simp at h
  · rename_i first rest hs
    rw [hs]
    rw [String.toList_ofList] at h
    rcases List.mem_append.mp h with hfirst | hrest
    · rw [slash_of_mem_upper hfirst]
      exact List.mem_cons_self
    · exact List.mem_cons_of_mem first hrest

theorem slash_of_mem_joinCapitalized (h : '/' ∈ (joinCapitalized s).toList) :
    '/' ∈ s.toList := by
  rw [joinCapitalized, String.toList_join, List.mem_flatMap] at h
  obtain ⟨word, hword, hslash⟩ := h
  obtain ⟨piece, hpiece, rfl⟩ := List.mem_map.mp hword
  exact mem_of_mem_pieces hpiece (slash_of_mem_capitalize hslash)

end DeclPrinter.Text
