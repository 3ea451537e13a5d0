import DeclPrinter.Proofs.Imports.Bindings

/-!
# Imports that keep their own names

In Go an import keeps its own name unless that is taken when its turn comes. Taken are then just the
names that the imports before it are bound to (`eq_settle_of_split`). These are their own names, and
the names that were made up for some of them. So an import may lose its name to one that was made
up, even if no other import has that name of itself (`own_name_lost`); but a name that is made up is
another import's own name and a number, and where no own name is of that form, an import loses its
name to an earlier one of the same name only (`own_names_kept`).
-/

namespace DeclPrinter.Imports

variable {taken : List String} {noted : List (String × String)} {before after : List Import}
  {entry : Import}

/-! ### When an import is settled -/

theorem settle_go_of_mem {localName : String} (h : localName ∈ taken) (path : String) :
    settle Dialect.go.clashRemedy taken path localName =
      (⟨path, localName, some (freshName localName taken), false⟩,
        some (freshName localName taken)) := by
  have htaken : taken.contains localName = true := List.contains_iff_mem.mpr h
  unfold settle
  rw [if_pos htaken]
  rfl

theorem settle_go_of_not_mem {localName : String} (h : localName ∉ taken) (path : String) :
    settle Dialect.go.clashRemedy taken path localName =
      (⟨path, localName, none, false⟩, some localName) := by
  have hfree : ¬ taken.contains localName = true := fun htaken =>
    h (List.contains_iff_mem.mp htaken)
  unfold settle
  rw [if_neg hfree]

/-- An import in Go takes the name that it is bound to. -/
theorem settle_go_snd (taken : List String) (path localName : String) :
    (settle Dialect.go.clashRemedy taken path localName).2 =
      some (settle Dialect.go.clashRemedy taken path localName).1.spelledAs := by
  by_cases h : localName ∈ taken
  · rw [settle_go_of_mem h]
    rfl
  · rw [settle_go_of_not_mem h]
    rfl

theorem entriesFrom_go_cons (path localName : String) :
    entriesFrom Dialect.go.clashRemedy taken ((path, localName) :: noted) =
      let first := (settle Dialect.go.clashRemedy taken path localName).1
      first :: entriesFrom Dialect.go.clashRemedy (first.spelledAs :: taken) noted := by
  rw [entriesFrom]
  dsimp only
  rw [settle_go_snd]
  rfl

/-- **When an import is settled,** the names that those before it are bound to are taken. -/
theorem eq_settle_of_split
    (h : entriesFrom Dialect.go.clashRemedy taken noted = before ++ entry :: after) :
    entry = (settle Dialect.go.clashRemedy ((before.map Import.spelledAs).reverse ++ taken)
      entry.path entry.localName).1 := by
  -- The induction is on the imports before, each of which takes its name.
  induction before generalizing taken noted with
  | nil =>
    rcases noted with _ | ⟨⟨path, localName⟩, rest⟩
    · cases h
    · rw [entriesFrom_go_cons] at h
      obtain ⟨hfirst, _⟩ := List.cons.inj h
      rw [← hfirst, path_settle, localName_settle]
      rfl
  | cons first others ih =>
    rcases noted with _ | ⟨⟨path, localName⟩, rest⟩
    · cases h
    · rw [entriesFrom_go_cons] at h
      obtain ⟨hfirst, hrest⟩ := List.cons.inj h
      rw [hfirst] at hrest
      have hentry := ih hrest
      rwa [List.append_cons, ← List.reverse_cons, ← List.map_cons] at hentry

section

variable (h : entriesFrom Dialect.go.clashRemedy [] noted = before ++ entry :: after)

include h

/-- An import keeps its name if none before it is bound to that. -/
theorem rebound_eq_none_iff_of_split :
    entry.rebound = none ↔ entry.localName ∉ before.map Import.spelledAs := by
  have hentry := eq_settle_of_split h
  rw [List.append_nil] at hentry
  by_cases hmem : entry.localName ∈ before.map Import.spelledAs
  · rw [settle_go_of_mem (List.mem_reverse.mpr hmem)] at hentry
    rw [hentry]
    simp [hmem]
  · rw [settle_go_of_not_mem fun hrev => hmem (List.mem_reverse.mp hrev)] at hentry
    rw [hentry]
    simp [hmem]

/-- A name that is made up is the own name and a number. -/
theorem exists_number_of_split {name : String} (hname : entry.rebound = some name) :
    ∃ number ≥ 2, name = numbered entry.localName number := by
  have hentry := eq_settle_of_split h
  rw [List.append_nil] at hentry
  by_cases hmem : entry.localName ∈ (before.map Import.spelledAs).reverse
  · rw [settle_go_of_mem hmem] at hentry
    rw [hentry] at hname
    have hleast := isLeast_freeNumber entry.localName (before.map Import.spelledAs).reverse 2
    refine ⟨_, hleast.1.1, ?_⟩
    rw [← freshName_of_isLeast hleast]
    exact (Option.some.inj hname).symm
  · rw [settle_go_of_not_mem hmem] at hentry
    rw [hentry] at hname
    cases hname

theorem qualified_of_split {earlier : Import} (hearlier : earlier ∈ before) :
    earlier.qualified = false := by
  obtain ⟨front, back, rfl⟩ := List.append_of_mem hearlier
  rw [List.append_assoc, List.cons_append] at h
  rw [eq_settle_of_split h]
  by_cases hmem : earlier.localName ∈ (front.map Import.spelledAs).reverse ++ []
  · rw [settle_go_of_mem hmem]
  · rw [settle_go_of_not_mem hmem]

/-- **The own names of imports are all taken** after these: by the import itself, or by one before
it. -/
theorem localName_mem_of_split {earlier : Import} (hearlier : earlier ∈ before) :
    earlier.localName ∈ before.map Import.spelledAs := by
  have hlisted := qualified_of_split h hearlier
  obtain ⟨front, back, rfl⟩ := List.append_of_mem hearlier
  rw [List.append_assoc, List.cons_append] at h
  have hkept := rebound_eq_none_iff_of_split h
  rw [List.map_append]
  by_cases hrebound : earlier.rebound = none
  · have hown : earlier.spelledAs = earlier.localName := by
      rw [Import.spelledAs, hlisted, hrebound]
      rfl
    exact List.mem_append_right _ (hown ▸ List.mem_cons_self)
  · exact List.mem_append_left _ (not_not.mp fun hfree => hrebound (hkept.mpr hfree))

/-- **An import keeps its own name** unless one before it has that name, or was bound to it. -/
theorem rebound_eq_none_iff_forall :
    entry.rebound = none ↔ ∀ earlier ∈ before,
      earlier.localName ≠ entry.localName ∧ earlier.rebound ≠ some entry.localName := by
  rw [rebound_eq_none_iff_of_split h]
  constructor
  · intro hfree earlier hearlier
    constructor
    · intro hsame
      exact hfree (hsame ▸ localName_mem_of_split h hearlier)
    · intro hrebound
      have hbound : earlier.spelledAs = entry.localName := by
        rw [Import.spelledAs, qualified_of_split h hearlier, hrebound]
        rfl
      exact hfree (hbound ▸ List.mem_map_of_mem hearlier)
  · intro hothers htaken
    obtain ⟨earlier, hearlier, hbound⟩ := List.mem_map.mp htaken
    obtain ⟨hown, hrebound⟩ := hothers earlier hearlier
    rw [Import.spelledAs, qualified_of_split h hearlier] at hbound
    -- What an import is bound to is its own name, or the one that was made up for it.
    rcases hname : earlier.rebound with _ | name
    · rw [hname] at hbound
      exact hown hbound
    · rw [hname] at hbound
      exact hrebound (hname.trans (congrArg some hbound))

end

/-! ### Own names -/

/-- In ascending entries, those before an entry are the ones with a lesser path. -/
theorem mem_before_iff {entries : List Import}
    (hascending : (entries.map Import.path).Pairwise (· < ·))
    (h : entries = before ++ entry :: after) {other : Import} :
    other ∈ before ↔ other ∈ entries ∧ other.path < entry.path := by
  rw [h, List.map_append, List.map_cons, List.pairwise_append] at hascending
  obtain ⟨_, hbelow, hacross⟩ := hascending
  constructor
  · intro hmem
    refine ⟨h ▸ List.mem_append_left _ hmem, ?_⟩
    exact hacross _ (List.mem_map_of_mem hmem) _ List.mem_cons_self
  · rintro ⟨hmem, hless⟩
    rw [h] at hmem
    rcases List.mem_append.mp hmem with hbefore | hrest
    · exact hbefore
    · rcases List.mem_cons.mp hrest with rfl | hafter
      · exact absurd hless (String.lt_irrefl _)
      · -- What comes after it has a greater path.
        have hgreater := (List.pairwise_cons.mp hbelow).1 _ (List.mem_map_of_mem hafter)
        exact absurd (String.lt_trans hless hgreater) (String.lt_irrefl _)

/-- **Which imports keep their own names.** Of the imports of a file in Go, one keeps its own name
exactly if no import with a lesser path has that name, and none was bound to it. Otherwise it is
bound to its own name and a number from two on. So where no own name is that of another import and a
number, the first import of each name keeps it, and one whose name no other has is never bound to
another. -/
theorem own_names_kept (noted : Dictionary String) (h : noted.Ascending) :
    let entries := (build Dialect.go.clashRemedy noted).entries
    (∀ entry ∈ entries,
      (entry.rebound = none ↔ ∀ other ∈ entries, other.path < entry.path →
        other.localName ≠ entry.localName ∧ other.rebound ≠ some entry.localName) ∧
      ∀ name, entry.rebound = some name →
        ∃ number ≥ 2, name = numbered entry.localName number) ∧
    ((∀ first ∈ noted.entries, ∀ second ∈ noted.entries, ∀ number ≥ 2,
        second.2 ≠ numbered first.2 number) →
      ∀ entry ∈ entries,
        ((∀ other ∈ entries, other.path < entry.path → other.localName ≠ entry.localName) →
          entry.rebound = none) ∧
        ((∀ other ∈ entries, other.localName = entry.localName → other = entry) →
          entry.rebound = none)) := by
  intro entries
  have hascending : (entries.map Import.path).Pairwise (· < ·) := by
    rw [map_path_build]
    exact h
  have hkept (entry : Import) (hentry : entry ∈ entries) :
      entry.rebound = none ↔ ∀ other ∈ entries, other.path < entry.path →
        other.localName ≠ entry.localName ∧ other.rebound ≠ some entry.localName := by
    obtain ⟨before, after, hsplit⟩ := List.append_of_mem hentry
    rw [rebound_eq_none_iff_forall hsplit]
    simp only [mem_before_iff hascending hsplit, and_imp]
  have hnumbered (entry : Import) (hentry : entry ∈ entries) (name : String)
      (hname : entry.rebound = some name) :
      ∃ number ≥ 2, name = numbered entry.localName number := by
    obtain ⟨before, after, hsplit⟩ := List.append_of_mem hentry
    exact exists_number_of_split hsplit hname
  have hnoted (entry : Import) (hentry : entry ∈ entries) :
      (entry.path, entry.localName) ∈ noted.entries := by
    rw [← @map_entriesFrom Dialect.go.clashRemedy [] noted.entries]
    exact List.mem_map_of_mem hentry
  refine ⟨fun entry hentry => ⟨hkept entry hentry, hnumbered entry hentry⟩, ?_⟩
  intro hplain entry hentry
  -- With plain names no earlier import is bound to this one, as it would be one with a number.
  have hfirst (hfirst : ∀ other ∈ entries, other.path < entry.path →
      other.localName ≠ entry.localName) : entry.rebound = none := by
    refine (hkept entry hentry).mpr fun other hother hless => ⟨hfirst other hother hless, ?_⟩
    intro hrebound
    obtain ⟨number, hnumber, heq⟩ := hnumbered other hother _ hrebound
    exact hplain _ (hnoted other hother) _ (hnoted entry hentry) number hnumber heq
  refine ⟨hfirst, fun halone => hfirst fun other hother hless hsame => ?_⟩
  obtain rfl := halone other hother hsame
  exact String.lt_irrefl _ hless

/-- Names in which no number is that of another name: of three imports only the last is bound to
another name. -/
theorem own_names_kept_rand :
    let noted : Dictionary String :=
      ⟨[("crypto/rand", "rand"), ("fmt", "fmt"), ("math/rand", "rand")]⟩
    let entries := (build Dialect.go.clashRemedy noted).entries
    noted.Ascending ∧ entries.map Import.rebound = [none, none, some "rand2"] ∧
      ∀ entry ∈ entries, (∀ other ∈ entries, other.path < entry.path →
        other.localName ≠ entry.localName) → entry.rebound = none := by
  intro noted entries
  have hascending : noted.Ascending := by
    unfold Dictionary.Ascending
    decide +kernel
  have hplain : ∀ first ∈ noted.entries, ∀ second ∈ noted.entries, ∀ number ≥ 2,
      second.2 ≠ numbered first.2 number := by
    -- Neither name ends in a digit.
    have hends : ∀ pair ∈ noted.entries,
        pair.2.toList.getLast?.map Char.isDigit = some false := by decide +kernel
    rintro first _ second hsecond number _ heq
    obtain ⟨c, hlast, hdigit⟩ := Option.map_eq_some_iff.mp (hends second hsecond)
    rw [heq] at hlast
    rw [isDigit_of_getLast?_numbered hlast] at hdigit
    cases hdigit
  obtain ⟨_, hfirst⟩ := own_names_kept noted hascending
  exact ⟨hascending, by decide +kernel, fun entry hentry => (hfirst hplain entry hentry).1⟩

/-- **An own name that is lost.** Of three imports the second is bound to a name that is made up for
it, and that only the third has of itself; so the third is bound to another. -/
theorem own_name_lost :
    let noted : Dictionary String :=
      ⟨[("crypto/rand", "rand"), ("math/rand", "rand"), ("my/rand2", "rand2")]⟩
    let entries := (build Dialect.go.clashRemedy noted).entries
    let last : Import := ⟨"my/rand2", "rand2", some "rand22", false⟩
    noted.Ascending ∧ last ∈ entries ∧
      (∀ other ∈ entries, other.localName = last.localName → other = last) ∧
      last.rebound ≠ none ∧
      ∃ other ∈ entries, other.path < last.path ∧ other.rebound = some last.localName := by
  intro noted entries last
  have hascending : noted.Ascending := by
    unfold Dictionary.Ascending
    decide +kernel
  refine ⟨hascending, ?_, ?_, ?_, ?_⟩ <;> decide +kernel

end DeclPrinter.Imports
