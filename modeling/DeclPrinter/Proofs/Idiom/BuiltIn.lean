import DeclPrinter.Idiom.Registry
import Mathlib.Data.List.Basic

/-!
# Registries of built-in expanders

What a registry finds for an idiom is for idioms of that kind. If it only has expanders that come
with a dialect, as the standard one and all that are made from it by adding languages, it finds one
of these.
-/

namespace DeclPrinter

/-- An expander that is found is for the kind that was looked for. -/
theorem Registry.kind_of_expander? {registry : Registry} {tag : String} {kind : IdiomKind}
    {expander : Expander} (h : registry.expander? tag kind = some expander) :
    expander.kind = kind := by
  obtain ⟨entry, hentry, rfl⟩ := Option.map_eq_some_iff.mp h
  have hfor := List.find?_some hentry
  rw [Registry.isFor, Bool.and_eq_true, beq_iff_eq, beq_iff_eq] at hfor
  exact hfor.2

/-- Every expander of the registry comes with a dialect. -/
def Registry.BuiltIn (registry : Registry) : Prop :=
  ∀ entry ∈ registry.expanders, ∃ dialect : Dialect, entry.2 ∈ dialect.expanders

namespace Registry.BuiltIn

variable {registry : Registry}

theorem empty : Registry.empty.BuiltIn := by
  intro entry hentry
  cases hentry

theorem addExpander (h : registry.BuiltIn) (tag : String) {expander : Expander}
    {dialect : Dialect} (hexpander : expander ∈ dialect.expanders) :
    (registry.addExpander tag expander).BuiltIn := by
  intro entry hentry
  rcases List.mem_append.mp hentry with hold | hnew
  · exact h entry (List.mem_of_mem_filter hold)
  · obtain rfl := List.mem_singleton.mp hnew
    exact ⟨dialect, hexpander⟩

theorem addExpanders (h : registry.BuiltIn) (tag : String) {dialect : Dialect}
    {expanders : List Expander}
    (hexpanders : ∀ expander ∈ expanders, expander ∈ dialect.expanders) :
    (expanders.foldl (fun registry expander => registry.addExpander tag expander)
      registry).BuiltIn := by
  induction expanders generalizing registry with
  | nil => exact h
  | cons expander rest ih =>
    have hfirst : expander ∈ dialect.expanders := hexpanders expander List.mem_cons_self
    have hrest : ∀ other ∈ rest, other ∈ dialect.expanders :=
      fun other hother => hexpanders other (List.mem_cons_of_mem _ hother)
    exact ih (h.addExpander tag hfirst) hrest

/-- A language is registered with the expanders of its dialect and no others. -/
theorem addLanguage (h : registry.BuiltIn) (language : Language) :
    (registry.addLanguage language).BuiltIn := by
  unfold Registry.addLanguage Registry.addBundle
  apply addExpanders
  · exact h
  · intro expander hexpander
    exact hexpander

theorem standard : Registry.standard.BuiltIn := by
  unfold Registry.standard Language.standard
  exact (empty.addLanguage .go).addLanguage .java

/-- An expander that is found is one of those registered. -/
theorem of_expander? (h : registry.BuiltIn) {tag : String} {kind : IdiomKind}
    {expander : Expander} (hfound : registry.expander? tag kind = some expander) :
    ∃ dialect : Dialect, expander ∈ dialect.expanders := by
  obtain ⟨entry, hentry, rfl⟩ := Option.map_eq_some_iff.mp hfound
  exact h entry (List.mem_of_find?_eq_some hentry)

end Registry.BuiltIn

end DeclPrinter
