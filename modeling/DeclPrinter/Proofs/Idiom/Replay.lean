import DeclPrinter.Idiom.Registry
import DeclPrinter.Proofs.Keyed
import Mathlib.Data.List.Induction

/-!
# A registry keeps the last that was said

A registry is two lists in which something new replaces what has the same key and goes to the end.
So after any changes to the registry without languages, what it finds for a key is what the last
change of that key left there, and its tags are in the order in which they were last registered
(`Registry.replay_keeps_last`).
-/

namespace DeclPrinter

namespace Registry

/-! ### Changes -/

/-- A change to a registry: a language with the expanders that come with it, one expander for a
tag, or the removal of the one for a tag and a kind. -/
inductive Change where
  | bundle (language : Language) (expanders : List Expander)
  | single (tag : String) (expander : Expander)
  | removal (tag : String) (kind : IdiomKind)

/-- The registry after a change. -/
def change (registry : Registry) : Change → Registry
  | .bundle language expanders => registry.addBundle language expanders
  | .single tag expander => registry.addExpander tag expander
  | .removal tag kind => (registry.removeExpander tag kind).2

/-- The registry after changes to the one without languages. -/
def replay (changes : List Change) : Registry :=
  changes.foldl change empty

/-- To register a language is one of the changes: it brings the expanders of its dialect. -/
theorem addLanguage_eq_change (registry : Registry) (language : Language) :
    registry.addLanguage language = registry.change (.bundle language language.dialect.expanders) :=
  rfl

/-- What a change says on the expander for one tag and kind. -/
inductive Entry where
  | put (tag : String) (expander : Expander)
  | drop (tag : String) (kind : IdiomKind)

/-- The tag and the kind. -/
def Entry.key : Entry → String × IdiomKind
  | .put tag expander => (tag, expander.kind)
  | .drop tag kind => (tag, kind)

/-- The expander that is there from then on. -/
def Entry.expander? : Entry → Option Expander
  | .put _ expander => some expander
  | .drop _ _ => none

/-- The language that a change registers. -/
def Change.language? : Change → Option Language
  | .bundle language _ => some language
  | .single _ _ => none
  | .removal _ _ => none

/-- What a change says on expanders, in order. -/
def Change.entries : Change → List Entry
  | .bundle language expanders => expanders.map (.put language.tag)
  | .single tag expander => [.put tag expander]
  | .removal tag kind => [.drop tag kind]

/-- The languages that are registered, in order. -/
def registered (changes : List Change) : List Language :=
  changes.filterMap Change.language?

/-- What is said on expanders, in order. -/
def entries (changes : List Change) : List Entry :=
  changes.flatMap Change.entries

/-- The expander that is there for a tag and a kind after the last entry for them. -/
def left? (entries : List Entry) (tag : String) (kind : IdiomKind) : Option Expander :=
  (entries.reverse.find? (·.key == (tag, kind))).bind Entry.expander?

/-! ### One change -/

/-- The tag and the kind that a registered expander is for. -/
def keyOf (entry : String × Expander) : String × IdiomKind :=
  (entry.1, entry.2.kind)

theorem isFor_eq (tag : String) (kind : IdiomKind) :
    isFor tag kind = fun entry => keyOf entry == (tag, kind) :=
  rfl

/-- The registered expanders after an entry. -/
def enter (expanders : List (String × Expander)) : Entry → List (String × Expander)
  | .put tag expander =>
    expanders.filter (keyOf · != keyOf (tag, expander)) ++ [(tag, expander)]
  | .drop tag kind => expanders.filter (keyOf · != (tag, kind))

theorem expanders_addBundle (registry : Registry) (language : Language)
    (expanders : List Expander) :
    (registry.addBundle language expanders).expanders =
        (expanders.map (.put language.tag)).foldl enter registry.expanders ∧
      (registry.addBundle language expanders).languages =
        registry.languages.filter (·.tag != language.tag) ++ [language] := by
  -- Expanders are entered one after another, and no language with them.
  have hfold (start : Registry) :
      (expanders.foldl (·.addExpander language.tag ·) start).expanders =
          (expanders.map (.put language.tag)).foldl enter start.expanders ∧
        (expanders.foldl (·.addExpander language.tag ·) start).languages = start.languages := by
    induction expanders generalizing start with
    | nil => exact ⟨rfl, rfl⟩
    | cons expander rest ih => exact ih (start.addExpander language.tag expander)
  exact hfold _

/-- **One change** enters what it says on expanders, and puts the language that it registers in the
place of those with the same tag. -/
theorem change_parts (registry : Registry) (change : Change) :
    (registry.change change).expanders = change.entries.foldl enter registry.expanders ∧
      (registry.change change).languages = match change.language? with
        | some language => registry.languages.filter (·.tag != language.tag) ++ [language]
        | none => registry.languages := by
  cases change with
  | bundle language expanders => exact expanders_addBundle registry language expanders
  | single tag expander => exact ⟨rfl, rfl⟩
  | removal tag kind => exact ⟨rfl, rfl⟩

/-- An entry leaves at most one expander for a tag and a kind. -/
theorem nodup_enter {expanders : List (String × Expander)} (h : (expanders.map keyOf).Nodup)
    (entry : Entry) : ((enter expanders entry).map keyOf).Nodup := by
  cases entry with
  | put tag expander => exact nodup_replaced h (tag, expander)
  | drop tag kind => exact nodup_filter_key h (tag, kind)

/-- An entry decides on its own tag and kind, and on no others. -/
theorem find?_enter (expanders : List (String × Expander)) (entry : Entry) (tag : String)
    (kind : IdiomKind) :
    ((enter expanders entry).find? (isFor tag kind)).map Prod.snd =
      if (tag, kind) = entry.key then entry.expander?
      else (expanders.find? (isFor tag kind)).map Prod.snd := by
  rw [isFor_eq]
  cases entry with
  | put own expander =>
    refine (congrArg (Option.map Prod.snd)
      (find?_replaced expanders (own, expander) (tag, kind))).trans ?_
    exact apply_ite (Option.map Prod.snd) ..
  | drop own gone =>
    refine (congrArg (Option.map Prod.snd)
      (find?_filter_key expanders (own, gone) (tag, kind))).trans ?_
    exact apply_ite (Option.map Prod.snd) ..

theorem left?_concat (before : List Entry) (last : Entry) (tag : String) (kind : IdiomKind) :
    left? (before ++ [last]) tag kind =
      if (tag, kind) = last.key then last.expander? else left? before tag kind := by
  unfold left?
  rw [find?_reverse_concat]
  by_cases hkey : (tag, kind) = last.key
  · rw [if_pos hkey, if_pos (beq_iff_eq.mpr hkey.symm), Option.bind_some]
  · rw [if_neg hkey, if_neg (mt beq_iff_eq.mp (Ne.symm hkey))]

/-! ### All changes -/

/-- The registered expanders are what the entries leave. -/
theorem expanders_replay (changes : List Change) :
    (replay changes).expanders = (entries changes).foldl enter [] := by
  induction changes using List.reverseRecOn with
  | nil => rfl
  | append_singleton before last ih =>
    unfold replay entries at ih ⊢
    rw [List.foldl_concat, (change_parts _ last).1, ih, List.flatMap_append, List.foldl_append,
      List.flatMap_singleton]

/-- Entries leave at most one expander for a tag and a kind, the last that was put. -/
theorem enter_entries (entries : List Entry) :
    ((entries.foldl enter []).map keyOf).Nodup ∧
      ∀ tag kind, ((entries.foldl enter []).find? (isFor tag kind)).map Prod.snd =
        left? entries tag kind := by
  induction entries using List.reverseRecOn with
  | nil => exact ⟨List.nodup_nil, fun _ _ => rfl⟩
  | append_singleton before last ih =>
    obtain ⟨hnodup, hfind⟩ := ih
    rw [List.foldl_concat]
    refine ⟨nodup_enter hnodup last, fun tag kind => ?_⟩
    rw [find?_enter, left?_concat, hfind]

/-- The languages are the last that were registered under their tags, in that order. -/
theorem languages_replay (changes : List Change) :
    (replay changes).tags = ((registered changes).map Language.tag).dedup ∧
      ∀ tag, (replay changes).language? tag =
        (registered changes).reverse.find? (·.tag == tag) := by
  induction changes using List.reverseRecOn with
  | nil => exact ⟨rfl, fun _ => rfl⟩
  | append_singleton before last ih =>
    obtain ⟨htags, hfind⟩ := ih
    -- The last change: it registers no language, or one that replaces any with its tag.
    have hlanguages := (change_parts (replay before) last).2
    have hreplay : replay (before ++ [last]) = (replay before).change last := List.foldl_concat ..
    have hregistered : registered (before ++ [last]) =
        registered before ++ last.language?.toList := by
      unfold registered
      rw [List.filterMap_append]
      cases hlast : last.language? <;> simp [hlast]
    unfold tags at htags ⊢
    unfold language? at hfind ⊢
    rw [hreplay, hregistered, hlanguages]
    cases last.language? with
    | none =>
      rw [Option.toList_none, List.append_nil]
      exact ⟨htags, hfind⟩
    | some language =>
      rw [Option.toList_some]
      constructor
      · rw [List.map_append, map_filter_key, htags, List.map_append, List.map_singleton,
          dedup_concat]
      · intro tag
        rw [find?_replaced, find?_reverse_concat, hfind tag]
        by_cases hsame : tag = language.tag
        · rw [if_pos hsame, if_pos (beq_iff_eq.mpr hsame.symm)]
        · rw [if_neg hsame, if_neg (mt beq_iff_eq.mp (Ne.symm hsame))]

/-- A removal says whether there was something to remove. -/
theorem removed_eq_isSome (registry : Registry) (tag : String) (kind : IdiomKind) :
    (registry.removeExpander tag kind).1 = (registry.expander? tag kind).isSome := by
  unfold removeExpander expander?
  rw [Option.isSome_map, Bool.eq_iff_iff, bne_iff_ne, List.find?_isSome, ne_eq,
    List.length_filter_eq_length_iff]
  simp

/-- **A registry keeps the last that was said.** After any changes to the registry without
languages: the tags are pairwise distinct, and so are the pairs of tag and kind; the language of a
tag is the one that was registered last under it; the expander for a tag and a kind is the one that
was put there last, alone or with a language, unless it was removed since; a removal says whether
there was an expander; and the tags are in the order in which they were last registered. -/
theorem replay_keeps_last (changes : List Change) :
    (replay changes).tags.Nodup ∧ ((replay changes).expanders.map keyOf).Nodup ∧
      (∀ tag, (replay changes).language? tag =
        (registered changes).reverse.find? (·.tag == tag)) ∧
      (∀ tag kind, (replay changes).expander? tag kind = left? (entries changes) tag kind) ∧
      (∀ tag kind, ((replay changes).removeExpander tag kind).1 =
        ((replay changes).expander? tag kind).isSome) ∧
      (replay changes).tags = ((registered changes).map Language.tag).dedup := by
  obtain ⟨htags, hlanguage⟩ := languages_replay changes
  obtain ⟨hnodup, hexpander⟩ := enter_entries (entries changes)
  rw [← expanders_replay] at hnodup hexpander
  refine ⟨?_, hnodup, hlanguage, hexpander, removed_eq_isSome _, htags⟩
  rw [htags]
  exact List.nodup_dedup _

end Registry

end DeclPrinter
