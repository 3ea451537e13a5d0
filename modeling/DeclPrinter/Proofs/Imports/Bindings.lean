import DeclPrinter.Language.Naming
import DeclPrinter.Proofs.Imports
import DeclPrinter.Proofs.Imports.FreshNames
import Mathlib.Tactic.Set

/-!
# The names that imports are bound to

No two references of a file may be spelled alike unless they go to the same import. A name is
taken as soon as an import is bound to it, and each import is bound to a name that is not taken
(`names_entriesFrom`): its own, or one that is made up. A name that is made up may be the own name
of a later import, which then finds it taken like any other.

* `exists_split_get?`: in ascending entries, what comes before the entry of a path has a lesser
  path, and what comes after it a greater one. So it may be searched for by halves.
* `build_settled`: what imports are settled to be, in general and in both dialects.
-/

namespace DeclPrinter

namespace Imports

variable {clashRemedy : String → List String → ClashRemedy} {taken : List String}

/-! ### Looking entries up -/

/-- **In ascending entries a path has one place:** that of its entry or, if it has none, the one
where it would be inserted. -/
theorem exists_split_get? {imports : Imports}
    (h : (imports.entries.map Import.path).Pairwise (· < ·)) (path : String) :
    ∃ before after, imports.entries = before ++ (imports.get? path).toList ++ after ∧
      (∀ entry ∈ before, entry.path < path) ∧ (∀ entry ∈ imports.get? path, entry.path = path) ∧
      ∀ entry ∈ after, path < entry.path := by
  have hfound : ∀ entry ∈ imports.get? path, entry.path = path := by
    intro entry hentry
    have hsame := List.find?_some hentry
    exact beq_iff_eq.mp hsame
  unfold get? at hfound ⊢
  generalize imports.entries = entries at h hfound ⊢
  induction entries with
  | nil => exact ⟨[], [], rfl, by simp, by simp, by simp⟩
  | cons first rest ih =>
    rw [List.map_cons, List.pairwise_cons] at h
    obtain ⟨hfirst, hrest⟩ := h
    have hgreater : ∀ entry ∈ rest, first.path < entry.path :=
      fun entry hentry => hfirst entry.path (List.mem_map_of_mem hentry)
    by_cases hsame : first.path = path
    · subst hsame
      have hhere : (first :: rest).find? (·.path == first.path) = some first := by simp
      rw [hhere]
      exact ⟨[], rest, rfl, by simp, by simp, hgreater⟩
    · have hnext : (first :: rest).find? (·.path == path) = rest.find? (·.path == path) := by
        rw [List.find?_cons, beq_eq_false_iff_ne.mpr hsame]
      rw [hnext] at hfound ⊢
      by_cases hless : first.path < path
      · obtain ⟨before, after, heq, hbefore, hown, hafter⟩ := ih hrest hfound
        refine ⟨first :: before, after, ?_, ?_, hown, hafter⟩
        · conv_lhs => rw [heq]
          rfl
        · intro entry hentry
          rcases List.mem_cons.mp hentry with rfl | hmem
          · exact hless
          · exact hbefore entry hmem
      · -- All paths are greater, so none of them is the one that is looked up.
        have hpath : path < first.path := by
          by_contra hge
          exact hsame (String.le_antisymm (String.not_lt.mp hge) (String.not_lt.mp hless))
        have hnone : rest.find? (·.path == path) = none := by
          rw [List.find?_eq_none]
          intro entry hentry heq
          have hlater := String.lt_trans hpath (hgreater entry hentry)
          exact String.ne_of_lt hlater (beq_iff_eq.mp heq).symm
        rw [hnone]
        refine ⟨[], first :: rest, rfl, by simp, by simp, ?_⟩
        intro entry hentry
        rcases List.mem_cons.mp hentry with rfl | hmem
        · exact hpath
        · exact String.lt_trans hpath (hgreater entry hmem)

/-- A path has an entry exactly if it was noted. -/
theorem isSome_get?_build (noted : Dictionary String) (path : String) :
    ((build clashRemedy noted).get? path).isSome = true ↔ path ∈ noted.keys := by
  unfold get?
  rw [List.find?_isSome, ← map_path_build clashRemedy, List.mem_map]
  simp only [beq_iff_eq]

/-! ### What an entry is settled to be -/

/-- Where a clash is settled by another name, that name is not taken. -/
def BindsFresh (clashRemedy : String → List String → ClashRemedy) : Prop :=
  ∀ localName taken name, clashRemedy localName taken = .rebind name → name ∉ taken

/-- An entry is bound to a name that was not taken and is taken from now on, or is written in
full and takes none. -/
theorem settle_cases (hfresh : BindsFresh clashRemedy) (taken : List String)
    (path localName : String) :
    let settled := settle clashRemedy taken path localName
    settled.1.qualified = false ∧ settled.2 = some settled.1.spelledAs ∧
        settled.1.spelledAs ∉ taken ∨
      settled.1.qualified = true ∧ settled.2 = none := by
  intro settled
  rcases htaken : taken.contains localName with _ | _
  · -- Its own name is free.
    have hsettled : settled = (⟨path, localName, none, false⟩, some localName) := by
      simp only [settled, settle, htaken]
      rfl
    rw [hsettled]
    have hfree : localName ∉ taken := by simpa using htaken
    exact .inl ⟨rfl, rfl, hfree⟩
  · rcases hremedy : clashRemedy localName taken with name | _
    · -- It is bound to another name, which is free.
      have hsettled : settled = (⟨path, localName, some name, false⟩, some name) := by
        simp only [settled, settle, htaken, hremedy, if_true]
      rw [hsettled]
      exact .inl ⟨rfl, rfl, hfresh localName taken name hremedy⟩
    · -- It is written in full.
      have hsettled : settled = (⟨path, localName, none, true⟩, none) := by
        simp only [settled, settle, htaken, hremedy, if_true]
      rw [hsettled]
      exact .inr ⟨rfl, rfl⟩

theorem localName_settle (path localName : String) :
    (settle clashRemedy taken path localName).1.localName = localName := by
  unfold settle
  split
  · split <;> rfl
  · rfl

/-- Entries have the paths and the local names that were noted. -/
theorem map_entriesFrom (taken : List String) (noted : List (String × String)) :
    (entriesFrom clashRemedy taken noted).map (fun entry => (entry.path, entry.localName)) =
      noted := by
  induction noted generalizing taken with
  | nil => rfl
  | cons pair rest ih =>
    obtain ⟨path, localName⟩ := pair
    unfold entriesFrom
    dsimp only
    rw [List.map_cons, path_settle, localName_settle, ih]

/-- Each entry was settled when some names were taken. -/
theorem exists_settle_of_mem {noted : List (String × String)} {entry : Import}
    (h : entry ∈ entriesFrom clashRemedy taken noted) :
    ∃ names path localName, entry = (settle clashRemedy names path localName).1 := by
  induction noted generalizing taken with
  | nil => cases h
  | cons pair rest ih =>
    obtain ⟨path, localName⟩ := pair
    unfold entriesFrom at h
    dsimp only at h
    rcases List.mem_cons.mp h with rfl | hmem
    · exact ⟨taken, path, localName, rfl⟩
    · exact ih hmem

/-- **The names that imports are bound to** are distinct, and none of them was taken before. -/
theorem names_entriesFrom (hfresh : BindsFresh clashRemedy) (taken : List String)
    (noted : List (String × String)) :
    let names := ((entriesFrom clashRemedy taken noted).filter (!·.qualified)).map
      Import.spelledAs
    names.Nodup ∧ ∀ name ∈ names, name ∉ taken := by
  induction noted generalizing taken with
  | nil => exact ⟨List.nodup_nil, by simp [entriesFrom]⟩
  | cons pair rest ih =>
    obtain ⟨path, localName⟩ := pair
    unfold entriesFrom
    dsimp only
    rcases settle_cases hfresh taken path localName with
      ⟨hlisted, hname, hfree⟩ | ⟨hqualified, hname⟩
    · -- The name of the entry is taken when the others are settled.
      set entry := (settle clashRemedy taken path localName).1
      obtain ⟨hdistinct, hothers⟩ := ih (entry.spelledAs :: taken)
      rw [hname, Option.toList_some, List.singleton_append,
        List.filter_cons_of_pos (by simp [hlisted]), List.map_cons]
      refine ⟨List.nodup_cons.mpr ⟨?_, hdistinct⟩, ?_⟩
      · intro hmem
        exact hothers _ hmem List.mem_cons_self
      · intro name hmem
        rcases List.mem_cons.mp hmem with rfl | hmem
        · exact hfree
        · intro htaken
          exact hothers name hmem (List.mem_cons_of_mem _ htaken)
    · rw [hname, Option.toList_none, List.nil_append,
        List.filter_cons_of_neg (by simp [hqualified])]
      exact ih taken

/-- **A name that is wanted is bound.** Where no import is bound to another name than its own, the
local name of each entry was taken before, or else an entry that is imported has it. -/
theorem exists_listed_of_mem
    (hqualify : ∀ localName taken, clashRemedy localName taken = .qualify)
    {noted : List (String × String)} {entry : Import}
    (h : entry ∈ entriesFrom clashRemedy taken noted) :
    entry.localName ∈ taken ∨ ∃ other ∈ (entriesFrom clashRemedy taken noted).filter (!·.qualified),
      other.localName = entry.localName := by
  induction noted generalizing taken with
  | nil => cases h
  | cons pair rest ih =>
    obtain ⟨path, localName⟩ := pair
    unfold entriesFrom at h ⊢
    dsimp only at h ⊢
    rcases htaken : taken.contains localName with _ | _
    · have hsettled : settle clashRemedy taken path localName =
          (⟨path, localName, none, false⟩, some localName) := by
        simp only [settle, htaken]
        rfl
      rw [hsettled] at h ⊢
      rw [List.filter_cons_of_pos (by rfl)]
      rcases List.mem_cons.mp h with rfl | hmem
      · exact .inr ⟨_, List.mem_cons_self, rfl⟩
      · rcases ih hmem with hname | ⟨other, hother, hname⟩
        · -- The name may be the one that was just taken.
          rcases List.mem_cons.mp hname with hown | hbefore
          · exact .inr ⟨_, List.mem_cons_self, hown.symm⟩
          · exact .inl hbefore
        · exact .inr ⟨other, List.mem_cons_of_mem _ hother, hname⟩
    · have hsettled : settle clashRemedy taken path localName =
          (⟨path, localName, none, true⟩, none) := by
        simp only [settle, htaken, hqualify, if_true]
      rw [hsettled] at h ⊢
      rw [List.filter_cons_of_neg (by simp)]
      rcases List.mem_cons.mp h with rfl | hmem
      · exact .inl (List.contains_iff_mem.mp htaken)
      · exact ih hmem

/-! ### The dialects -/

theorem bindsFresh_clashRemedy (dialect : Dialect) : BindsFresh dialect.clashRemedy := by
  intro localName taken name h
  cases dialect with
  | go =>
    obtain rfl := ClashRemedy.rebind.inj h
    exact freshName_not_mem localName taken
  | java => cases h

/-- In Go every path is imported. -/
theorem listed_of_go (noted : Dictionary String) :
    (build Dialect.go.clashRemedy noted).listed =
      (build Dialect.go.clashRemedy noted).entries := by
  refine List.filter_eq_self.mpr fun entry hentry => ?_
  obtain ⟨names, path, localName, rfl⟩ := exists_settle_of_mem hentry
  unfold settle
  split <;> rfl

/-- In Java no import is bound to another name than its own. -/
theorem rebound_of_java {noted : Dictionary String} {entry : Import}
    (h : entry ∈ (build Dialect.java.clashRemedy noted).entries) : entry.rebound = none := by
  obtain ⟨names, path, localName, rfl⟩ := exists_settle_of_mem h
  unfold settle
  split <;> rfl

/-- What is imported in Java is bound to its own name. -/
theorem spelledAs_of_java {noted : Dictionary String} {entry : Import}
    (h : entry ∈ (build Dialect.java.clashRemedy noted).listed) :
    entry.spelledAs = entry.localName := by
  obtain ⟨hmem, hlisted⟩ := List.mem_filter.mp h
  rw [Import.spelledAs, rebound_of_java hmem, if_neg (by simpa using hlisted), Option.getD_none]

/-- **The names that Java imports bind** are distinct, and they are all local names there are. -/
theorem localNames_of_java (noted : Dictionary String) :
    let imports := build Dialect.java.clashRemedy noted
    (imports.listed.map Import.localName).Nodup ∧
      ∀ entry ∈ imports.entries, entry.localName ∈ imports.listed.map Import.localName := by
  intro imports
  constructor
  · rw [← List.map_congr_left fun entry hentry => spelledAs_of_java hentry]
    exact (names_entriesFrom (bindsFresh_clashRemedy .java) [] noted.entries).1
  · intro entry hentry
    rcases exists_listed_of_mem (fun _ _ => rfl) hentry with hnone | ⟨other, hother, hname⟩
    · cases hnone
    · exact List.mem_map.mpr ⟨other, hother, hname⟩

/-- The entries are those of the paths that were noted, and are found by them. -/
structure Settles (imports : Imports) (noted : Dictionary String) : Prop where
  /-- There is one entry for each path, with the local name that was noted for it. -/
  entries : imports.entries.map (fun entry => (entry.path, entry.localName)) = noted.entries
  /-- The paths ascend. -/
  ascending : (imports.entries.map Import.path).Pairwise (· < ·)
  /-- Exactly the paths that were noted are found. -/
  found : ∀ path, (imports.get? path).isSome = true ↔ path ∈ noted.keys
  /-- What is found for a path is its entry, and it stands where the order puts it. -/
  place : ∀ path, ∃ before after,
    imports.entries = before ++ (imports.get? path).toList ++ after ∧
      (∀ entry ∈ before, entry.path < path) ∧ (∀ entry ∈ imports.get? path, entry.path = path) ∧
      ∀ entry ∈ after, path < entry.path

/-- **The imports of a file.** They are those of the paths that were noted, whatever the remedy
for clashes. In Go no two of them are bound to the same name. In Java those that are imported
have distinct local names, which they are bound to, and a reference to any other is spelled with
its path in full. -/
theorem build_settled (noted : Dictionary String) (h : noted.Ascending) :
    (∀ clashRemedy, Settles (build clashRemedy noted) noted) ∧
    ((build Dialect.go.clashRemedy noted).entries.map Import.spelledAs).Nodup ∧
    let imports := build Dialect.java.clashRemedy noted
    (imports.listed.map Import.localName).Nodup ∧
      (∀ entry ∈ imports.listed, entry.spelledAs = entry.localName) ∧
      ∀ entry ∈ imports.entries, entry ∉ imports.listed →
        ∀ reference, reference.importPath = some entry.path →
          imports.spell reference = reference.select entry.path := by
  have hsettles : ∀ clashRemedy, Settles (build clashRemedy noted) noted := by
    intro clashRemedy
    have hascending : ((build clashRemedy noted).entries.map Import.path).Pairwise (· < ·) := by
      rw [map_path_build]
      exact h
    exact ⟨map_entriesFrom [] noted.entries, hascending, isSome_get?_build noted,
      exists_split_get? hascending⟩
  refine ⟨hsettles, ?_, (localNames_of_java noted).1, fun _ => spelledAs_of_java, ?_⟩
  · -- In Go nothing is written in full, so all entries are listed.
    rw [← listed_of_go]
    exact (names_entriesFrom (bindsFresh_clashRemedy .go) [] noted.entries).1
  · intro entry hmem hunlisted reference hpath
    -- What is not listed is written in full.
    have hqualified : entry.qualified = true := by
      by_contra hlisted
      exact hunlisted (List.mem_filter.mpr ⟨hmem, by simpa using hlisted⟩)
    have hnodup : ((build Dialect.java.clashRemedy noted).entries.map Import.path).Nodup :=
      List.Pairwise.imp String.ne_of_lt (hsettles Dialect.java.clashRemedy).ascending
    rw [spell_of_get? hpath (get?_of_mem hnodup hmem), Import.spelledAs, if_pos hqualified]

/-- Of three imports the second is bound to a name that the third has of itself. -/
theorem build_settled_rand :
    let noted : Dictionary String :=
      ⟨[("crypto/rand", "rand"), ("math/rand", "rand"), ("my/rand2", "rand2")]⟩
    noted.Ascending ∧
      (build Dialect.go.clashRemedy noted).entries.map Import.spelledAs =
        ["rand", "rand2", "rand22"] ∧
      ((build Dialect.go.clashRemedy noted).entries.map Import.spelledAs).Nodup ∧
      (build Dialect.java.clashRemedy noted).spell (.ofMember "math/rand" "rand" "Int") =
        "math/rand.Int" := by
  intro noted
  have hascending : noted.Ascending := by
    unfold Dictionary.Ascending
    decide +kernel
  obtain ⟨_, hgo, _, _, hjava⟩ := build_settled noted hascending
  refine ⟨hascending, by decide +kernel, hgo, ?_⟩
  exact hjava ⟨"math/rand", "rand", none, true⟩ (by decide +kernel) (by decide +kernel) _ rfl

end Imports

end DeclPrinter
