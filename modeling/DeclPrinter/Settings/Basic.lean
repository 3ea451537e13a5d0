import DeclPrinter.Dictionary

/-!
# Settings of a render

What a caller chooses: whether a file that cannot be written ends the render or is
only reported, whether files may be written at the same time, and how each language is
indented. The render can also be cancelled, before it starts or by an expander.
-/

namespace DeclPrinter

/-- What a caller overrides for a language. -/
structure LanguageSettings where
  /-- The unit of indentation, in place of the language's own. -/
  indent : Option String
  deriving DecidableEq, Repr, Inhabited

/-- The choices of a caller. -/
structure Settings where
  /-- Whether files may be written at the same time. The result is the same. -/
  parallel : Bool
  /-- Whether files that fail are reported and left out. -/
  diagnosticMode : Bool
  /-- Whether the render is cancelled before it starts. -/
  cancelled : Bool
  /-- Overrides by language tag. -/
  languages : Dictionary LanguageSettings
  deriving DecidableEq, Repr, Inhabited

namespace Settings

/-- Files at the same time, and any failure ends the render. -/
def standard : Settings :=
  ⟨true, false, false, .empty⟩

/-- The unit of indentation for a tag, when it is overridden. -/
def indent? (options : Settings) (tag : String) : Option String :=
  (options.languages.get? tag).bind (·.indent)

end Settings

end DeclPrinter
