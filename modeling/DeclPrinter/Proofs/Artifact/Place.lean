import DeclPrinter.Artifact.Basic
import Mathlib.Data.List.Infix
import Mathlib.Data.List.Nodup

/-!
# What stands where in an artifact

A chain of names leads from the top of an artifact to a place, and there is a directory,
a leaf or nothing (`Directory.placeAt?`). Of a directory only the names in it and their
order are kept, so what stands at one chain does not repeat what stands at the others,
and an operation on the tree is described by the few chains where it makes a difference:

* ensuring a chain of directories (`placeAt?_ensure`) makes every part of the chain a
  directory and appends to each the next name of the chain, unless it is there;
* inserting a leaf (`placeAt?_insert`) changes the leaf's own place and appends its name
  to the directory around it.

Each fails exactly where something is in the way (`ensure_result`, `insert_result`).
-/

namespace DeclPrinter

/-- What stands at a place of an artifact. -/
inductive Place where
  /-- A directory, given by the names in it in order. -/
  | directory (names : List String)
  /-- A leaf. -/
  | leaf (leaf : Leaf)
  deriving DecidableEq, Repr, Inhabited

/-- Names with one more at the end, unless it is there or there is none to add. -/
def withName (names : List String) : Option String → List String
  | some name => if name ∈ names then names else names ++ [name]
  | none => names

namespace Directory

/-- What stands at the end of a chain of names. -/
def placeAt? (directory : Directory) : List String → Option Place
  | [] => some (.directory directory.names)
  | name :: rest =>
    match directory.get? name with
    | some (.directory child) => child.placeAt? rest
    | some (.leaf leaf) => if rest = [] then some (.leaf leaf) else none
    | none => none

/-- The names in the directory at the end of a chain, if there is one. -/
def namesAt (directory : Directory) (chain : List String) : List String :=
  match directory.placeAt? chain with
  | some (.directory names) => names
  | _ => []

end Directory

/-- What stands at the end of a chain of names below an entry. -/
def Entry.placeAt? : Entry → List String → Option Place
  | .directory child, chain => child.placeAt? chain
  | .leaf file, chain => if chain = [] then some (.leaf file) else none

namespace Directory

variable {name : String}

@[simp]
theorem placeAt?_nil (directory : Directory) :
    directory.placeAt? [] = some (.directory directory.names) := by
  simp [placeAt?]

theorem placeAt?_cons (directory : Directory) (name : String) (rest : List String) :
    directory.placeAt? (name :: rest) = (directory.get? name).bind (·.placeAt? rest) := by
  rw [placeAt?]
  rcases directory.get? name with _ | child | leaf <;> simp [Entry.placeAt?]

/-- What is at a name stands in the list of names, and the other way round. -/
theorem mem_names_iff (directory : Directory) (name : String) :
    name ∈ directory.names ↔ (directory.get? name).isSome := by
  rw [names, get?, List.lookup_isSome_iff, List.mem_map]
  constructor
  · rintro ⟨entry, hentry, rfl⟩
    exact ⟨entry, hentry, by simp⟩
  · rintro ⟨entry, hentry, hname⟩
    exact ⟨entry, hentry, (beq_iff_eq.mp hname).symm⟩

/-! ### Putting an entry under a name -/

/-- Replacing the entries of one name does not change what another name leads to. -/
theorem lookup_replace_of_ne {other : String} (entries : List (String × Entry)) (entry : Entry)
    (h : other ≠ name) :
    (entries.map fun old => if old.1 == name then (name, entry) else old).lookup other =
      entries.lookup other := by
  induction entries with
  | nil => rfl
  | cons old rest ih =>
    obtain ⟨key, value⟩ := old
    rw [List.map_cons, List.lookup_cons]
    by_cases hkey : key = name
    · subst hkey
      have hother : (other == key) = false := by simpa using h
      simp only [beq_self_eq_true, if_true, List.lookup_cons, hother, ih]
    · have hne : (key == name) = false := by simpa using hkey
      simp only [hne, Bool.false_eq_true, if_false, List.lookup_cons, ih]

/-- Replacing the entries of a name makes it lead to the new entry. -/
theorem lookup_replace_self (entries : List (String × Entry)) (entry : Entry)
    (h : (entries.lookup name).isSome) :
    (entries.map fun old => if old.1 == name then (name, entry) else old).lookup name =
      some entry := by
  induction entries with
  | nil => simp at h
  | cons old rest ih =>
    obtain ⟨key, value⟩ := old
    by_cases hkey : key = name
    · subst hkey
      simp
    · have hne : (key == name) = false := by simpa using hkey
      have hne' : (name == key) = false := by simpa using Ne.symm hkey
      rw [List.lookup_cons, hne'] at h
      simp only [List.map_cons, hne, Bool.false_eq_true, if_false, List.lookup_cons, hne', ih h]

theorem get?_put (directory : Directory) (name : String) (entry : Entry) (other : String) :
    (directory.put name entry).get? other =
      if other = name then some entry else directory.get? other := by
  unfold put
  split
  · rename_i h
    -- An entry of that name is replaced where it is.
    show (directory.entries.map _).lookup other = _
    by_cases hother : other = name
    · rw [hother, lookup_replace_self _ _ h, if_pos rfl]
    · rw [lookup_replace_of_ne _ _ hother, if_neg hother, get?]
  · rename_i h
    -- There was none, so the new one comes last.
    have hnone : directory.entries.lookup name = none := by
      rw [← Option.not_isSome_iff_eq_none]
      exact h
    show (directory.entries ++ [(name, entry)]).lookup other = _
    rw [List.lookup_append]
    by_cases hother : other = name
    · rw [hother, hnone, if_pos rfl, List.lookup_cons_self, Option.none_or]
    · have hne : (other == name) = false := by simpa using hother
      rw [List.lookup_cons, hne, List.lookup_nil, Option.or_none, if_neg hother, get?]

theorem names_put (directory : Directory) (name : String) (entry : Entry) :
    (directory.put name entry).names = withName directory.names (some name) := by
  unfold put withName
  simp only [mem_names_iff]
  split
  · rename_i h
    show (directory.entries.map _).map _ = directory.entries.map _
    -- Replacing an entry keeps its name.
    rw [List.map_map]
    apply List.map_congr_left
    intro old _
    show (if old.1 == name then (name, entry) else old).1 = old.1
    split
    · rename_i hold
      exact (beq_iff_eq.mp hold).symm
    · rfl
  · show (directory.entries ++ [(name, entry)]).map _ = _
    rw [List.map_append]
    rfl

/-- An entry put under a name is what stands below that name; the rest stays. -/
theorem placeAt?_put (directory : Directory) (name : String) (entry : Entry)
    (other : String) (rest : List String) :
    (directory.put name entry).placeAt? (other :: rest) =
      if other = name then entry.placeAt? rest else directory.placeAt? (other :: rest) := by
  rw [placeAt?_cons, get?_put]
  split
  · rfl
  · rw [placeAt?_cons]

@[simp]
theorem placeAt?_mark (directory : Directory) (mediaType : MediaType) (chain : List String) :
    (directory.mark mediaType).placeAt? chain = directory.placeAt? chain := by
  unfold mark
  split
  · rfl
  · cases chain <;> rfl

/-- Below the empty directory there is nothing. -/
theorem placeAt?_empty (chain : List String) :
    empty.placeAt? chain = if chain = [] then some (.directory []) else none := by
  cases chain with
  | nil => rfl
  | cons name rest => rfl

/-! ### Ensuring a chain of directories -/

theorem ensure_cons_of_leaf {directory : Directory} {segment : String} {leaf : Leaf}
    (above : List String) (mediaType : MediaType) (rest : List String)
    (h : directory.get? segment = some (.leaf leaf)) :
    directory.ensure above mediaType (segment :: rest) =
      (.error ⟨joinPath (above ++ [segment])⟩, directory) := by
  rw [ensure]
  simp only [h]

/-- Where no leaf is in the way, the chain goes on in a directory below, which holds what
was there before. -/
theorem ensure_cons_of_no_leaf {directory : Directory} {segment : String}
    (above : List String) (mediaType : MediaType) (rest : List String)
    (h : ∀ leaf, directory.get? segment ≠ some (.leaf leaf)) :
    ∃ child : Directory,
      (∀ chain, chain ≠ [] → child.placeAt? chain = directory.placeAt? (segment :: chain)) ∧
      child.names = directory.namesAt [segment] ∧
      directory.ensure above mediaType (segment :: rest) =
        ((child.ensure (above ++ [segment]) mediaType rest).1,
          directory.put segment
            (.directory (child.ensure (above ++ [segment]) mediaType rest).2)) := by
  have hmarked (child : Directory) (chain : List String) :
      (if rest.isEmpty then child.mark mediaType else child).placeAt? chain =
        child.placeAt? chain := by
    split
    · exact placeAt?_mark child mediaType chain
    · rfl
  have hnames (child : Directory) :
      (if rest.isEmpty then child.mark mediaType else child).names = child.names := by
    have := hmarked child []
    simpa using this
  -- Either there is nothing yet and a new directory is made, or the one there is gone into.
  rcases hfound : directory.get? segment with _ | child | leaf
  · refine ⟨if rest.isEmpty then empty.mark mediaType else empty, ?_, ?_, ?_⟩
    · intro chain hchain
      rw [hmarked, placeAt?_empty, if_neg hchain, placeAt?_cons, hfound]
      rfl
    · rw [hnames, namesAt, placeAt?_cons, hfound]
      rfl
    · rw [ensure]
      simp only [hfound]
  · refine ⟨if rest.isEmpty then child.mark mediaType else child, ?_, ?_, ?_⟩
    · intro chain _
      rw [hmarked, placeAt?_cons, hfound]
      rfl
    · rw [hnames, namesAt, placeAt?_cons, hfound]
      simp [Entry.placeAt?]
    · rw [ensure]
      simp only [hfound]
  · exact absurd hfound (h leaf)

/-- **Ensuring fails exactly at a leaf.** Either no part of the chain is a leaf and the chain
is ensured, or a part of it is, and that part is reported. -/
theorem ensure_result (above : List String) (mediaType : MediaType) (segments : List String)
    (directory : Directory) :
    ((directory.ensure above mediaType segments).1 = .ok () ∧
        ∀ chain, chain <+: segments → ∀ leaf, directory.placeAt? chain ≠ some (.leaf leaf)) ∨
      ∃ chain, chain <+: segments ∧ (∃ leaf, directory.placeAt? chain = some (.leaf leaf)) ∧
        (directory.ensure above mediaType segments).1 = .error ⟨joinPath (above ++ chain)⟩ := by
  induction segments generalizing above directory with
  | nil =>
    left
    refine ⟨by rw [ensure], ?_⟩
    intro chain hchain leaf
    rw [List.prefix_nil.mp hchain, placeAt?_nil]
    simp
  | cons segment rest ih =>
    by_cases hleaf : ∃ leaf, directory.get? segment = some (.leaf leaf)
    · -- The first segment is a leaf, so it is reported.
      obtain ⟨leaf, hleaf⟩ := hleaf
      right
      refine ⟨[segment], List.cons_prefix_cons.mpr ⟨rfl, List.nil_prefix⟩, ⟨leaf, ?_⟩, ?_⟩
      · rw [placeAt?_cons, hleaf]
        rfl
      · rw [ensure_cons_of_leaf above mediaType rest hleaf]
    · have hno : ∀ leaf, directory.get? segment ≠ some (.leaf leaf) :=
        fun leaf h => hleaf ⟨leaf, h⟩
      obtain ⟨child, hbelow, _, hensure⟩ := ensure_cons_of_no_leaf above mediaType rest hno
      -- What is in the way below the child is in the way of the whole chain.
      rw [hensure]
      rcases ih (above ++ [segment]) child with ⟨hok, hfree⟩ | ⟨chain, hpart, ⟨leaf, hat⟩, herror⟩
      · left
        refine ⟨hok, ?_⟩
        intro chain hchain leaf hat
        rcases chain with _ | ⟨name, chain⟩
        · simp at hat
        obtain ⟨rfl, hrest⟩ := List.cons_prefix_cons.mp hchain
        by_cases hnil : chain = []
        · -- The first segment itself is no leaf.
          subst hnil
          rw [placeAt?_cons] at hat
          rcases hfound : directory.get? name with _ | child | other
          · simp [hfound] at hat
          · simp [hfound, Entry.placeAt?] at hat
          · exact hno other hfound
        · exact hfree chain hrest leaf (by rw [hbelow chain hnil]; exact hat)
      · right
        have hnil : chain ≠ [] := by
          rintro rfl
          simp at hat
        refine ⟨segment :: chain, List.cons_prefix_cons.mpr ⟨rfl, hpart⟩, ⟨leaf, ?_⟩, ?_⟩
        · rw [← hbelow chain hnil, hat]
        · rw [herror, List.append_assoc]
          rfl

/-- **What ensuring changes.** Every part of the chain is a directory afterwards, with the
next name of the chain in it; everywhere else stands what stood there. -/
theorem placeAt?_ensure {directory : Directory} {above segments : List String}
    {mediaType : MediaType} (h : (directory.ensure above mediaType segments).1 = .ok ())
    (chain : List String) :
    (directory.ensure above mediaType segments).2.placeAt? chain =
      if chain <+: segments then
        some (.directory (withName (directory.namesAt chain) segments[chain.length]?))
      else directory.placeAt? chain := by
  induction segments generalizing above directory chain with
  | nil =>
    rw [ensure]
    by_cases hchain : chain = []
    · subst hchain
      simp [namesAt, withName]
    · rw [if_neg (fun hpart => hchain (List.prefix_nil.mp hpart))]
  | cons segment rest ih =>
    have hno : ∀ leaf, directory.get? segment ≠ some (.leaf leaf) := by
      intro leaf hleaf
      rw [ensure_cons_of_leaf above mediaType rest hleaf] at h
      cases h
    obtain ⟨child, hbelow, hnames, hensure⟩ := ensure_cons_of_no_leaf above mediaType rest hno
    rw [hensure] at h ⊢
    rcases chain with _ | ⟨name, chain⟩
    · -- At the top only the first segment may be new.
      simp [names_put, namesAt]
    · rw [placeAt?_put]
      simp only [List.cons_prefix_cons]
      by_cases hname : name = segment
      · subst hname
        rw [if_pos rfl]
        show (child.ensure _ mediaType rest).2.placeAt? chain = _
        rw [ih h chain, List.length_cons, List.getElem?_cons_succ]
        -- The child holds what was below the segment, and has no place of its own before.
        by_cases hnil : chain = []
        · subst hnil
          simp [namesAt, hnames]
        · simp [namesAt, hbelow chain hnil]
      · simp [hname]

/-! ### Inserting a leaf -/

/-- **What inserting changes.** The leaf stands at its place and its name at the end of the
names of the directory; everywhere else stands what stood there. -/
theorem placeAt?_insert {directory : Directory} {above segments : List String} {leaf : Leaf}
    (h : (directory.insert above name leaf segments).1 = .ok ()) (chain : List String) :
    (directory.insert above name leaf segments).2.placeAt? chain =
      if chain = segments ++ [name] then some (.leaf leaf)
      else if chain = segments then
        some (.directory (withName (directory.namesAt segments) (some name)))
      else directory.placeAt? chain := by
  induction segments generalizing above directory chain with
  | nil =>
    rw [insert] at h ⊢
    rcases hfound : directory.get? name with _ | entry
    · simp only
      rcases chain with _ | ⟨other, chain⟩
      · simp [names_put, namesAt]
      · rw [placeAt?_put]
        by_cases hother : other = name
        · subst hother
          simp only [if_true, Entry.placeAt?, List.nil_append, List.cons.injEq, true_and]
          rw [placeAt?_cons, hfound]
          simp
        · simp [hother]
    · simp [hfound] at h
  | cons segment rest ih =>
    rw [insert] at h ⊢
    rcases hfound : directory.get? segment with _ | child | other
    · simp [hfound] at h
    · simp only [hfound] at h ⊢
      have hmem : segment ∈ directory.names := by
        rw [mem_names_iff, hfound]
        rfl
      rcases chain with _ | ⟨other, chain⟩
      · -- The names at the top stay, since the segment is among them.
        simp [names_put, withName, hmem]
      · rw [placeAt?_put]
        by_cases hother : other = segment
        · subst hother
          rw [if_pos rfl]
          show (child.insert _ name leaf rest).2.placeAt? chain = _
          rw [ih h chain]
          simp [namesAt, placeAt?_cons, hfound, Entry.placeAt?]
        · simp [hother]
    · simp [hfound] at h

/-- **Inserting fails exactly where something stands.** In a directory that is there, a leaf
is inserted if its name leads to nothing, and else its place is reported. -/
theorem insert_result (above : List String) (name : String) (leaf : Leaf)
    {segments names : List String} {directory : Directory}
    (h : directory.placeAt? segments = some (.directory names)) :
    (directory.insert above name leaf segments).1 =
      if directory.placeAt? (segments ++ [name]) = none then .ok ()
      else .error ⟨joinPath (above ++ segments ++ [name])⟩ := by
  induction segments generalizing above directory with
  | nil =>
    rw [insert, List.nil_append, placeAt?_cons]
    rcases directory.get? name with _ | child | other
    · simp
    · simp [Entry.placeAt?]
    · simp [Entry.placeAt?]
  | cons segment rest ih =>
    rw [insert, List.cons_append, placeAt?_cons]
    rw [placeAt?_cons] at h
    rcases hfound : directory.get? segment with _ | child | other
    · -- On the way to a directory that is there, each segment leads to a directory.
      simp [hfound] at h
    · rw [hfound] at h
      show (child.insert _ name leaf rest).1 = _
      rw [ih (above ++ [segment]) h, List.append_assoc above [segment] rest]
      rfl
    · rw [hfound] at h
      simp [Entry.placeAt?] at h

end Directory

end DeclPrinter
