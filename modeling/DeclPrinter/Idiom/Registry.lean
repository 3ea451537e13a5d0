import DeclPrinter.Idiom.Go
import DeclPrinter.Idiom.Java
import DeclPrinter.Text.Inspected

/-!
# Registries

A registry says which languages there are and which expander a language has for each
kind of idiom. Registering again under the same tag, or for the same tag and kind,
replaces what was there and moves it to the end.
-/

namespace DeclPrinter

/-- The expanders that come with a dialect. -/
def Dialect.expanders : Dialect → List Expander
  | .go => goExpanders
  | .java => javaExpanders

/-- Languages by tag, and expanders by tag and kind. -/
structure Registry where
  /-- The languages in order of registration. -/
  languages : List Language
  /-- The expanders in order of registration, each with the tag it is for. -/
  expanders : List (String × Expander)

namespace Registry

/-- The registry without languages. -/
def empty : Registry :=
  ⟨[], []⟩

/-- Whether an entry is for the tag and the kind. -/
def isFor (tag : String) (kind : IdiomKind) (entry : String × Expander) : Bool :=
  entry.1 == tag && entry.2.kind == kind

/-- Registers an expander for a tag. -/
def addExpander (registry : Registry) (tag : String) (expander : Expander) : Registry :=
  { registry with
    expanders := registry.expanders.filter (!isFor tag expander.kind ·) ++ [(tag, expander)] }

/-- Registers a language with the expanders that come with it. -/
def addBundle (registry : Registry) (language : Language) (expanders : List Expander) :
    Registry :=
  let languages := registry.languages.filter (·.tag != language.tag) ++ [language]
  expanders.foldl (fun registry expander =>
    registry.addExpander language.tag expander) { registry with languages := languages }

/-- Registers a language with the expanders of its dialect. -/
def addLanguage (registry : Registry) (language : Language) : Registry :=
  registry.addBundle language language.dialect.expanders

/-- Whether an expander is registered for the tag and the kind, and the registry
without it. -/
def removeExpander (registry : Registry) (tag : String) (kind : IdiomKind) : Bool × Registry :=
  let kept := registry.expanders.filter (!isFor tag kind ·)
  (kept.length != registry.expanders.length, { registry with expanders := kept })

/-- The language of a tag. -/
def language? (registry : Registry) (tag : String) : Option Language :=
  registry.languages.find? (·.tag == tag)

/-- The expander for a tag and a kind. -/
def expander? (registry : Registry) (tag : String) (kind : IdiomKind) : Option Expander :=
  (registry.expanders.find? (isFor tag kind)).map (·.2)

/-- The tags of the languages in order of registration. -/
def tags (registry : Registry) : List String :=
  registry.languages.map (·.tag)

/-- The registry of the languages that come with the library. -/
def standard : Registry :=
  Language.standard.foldl addLanguage empty

/-- What the registry holds, for inspection: the tags, and each expander as tag and
kind. -/
def inspected (registry : Registry) : String :=
  let kinds := registry.expanders.map fun entry => entry.1 ++ ":" ++ entry.2.kind.label
  "Registry \x7b languages: " ++ Text.inspectedList registry.tags ++
    ", macros: " ++ Text.inspectedList kinds ++ " \x7d"

end Registry

end DeclPrinter
