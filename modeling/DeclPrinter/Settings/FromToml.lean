import DeclPrinter.Settings.Basic
import DeclPrinter.Toml.Document

/-!
# Settings in TOML

A settings document has a record `render` with the truth values `parallel` and
`diagnostic_mode`, and a table `languages` with a record for each tag that may set
`indent`. Whatever is missing keeps its standard value and unknown keys are passed
over, but a key that is known has to have a value of its kind.
-/

namespace DeclPrinter.Toml.Value

/-- The truth value that a value is. -/
def asBoolean? : Value → Option Bool
  | .boolean value => some value
  | _ => none

/-- The text that a value is. -/
def asString? : Value → Option String
  | .string value => some value
  | _ => none

/-- The members of a table. -/
def asTable? : Value → Option Members
  | .table _ members => some members
  | _ => none

/-- The parts of a record, in the order of their names. A record is a table, or an array of
its first parts. A point in time counts as a record without any part. -/
def asRecord? (names : List String) : Value → Option (List (Option Value))
  | .table _ members => some (names.map fun name => members.lookup name)
  | .array items => some (names.zipIdx.map fun (_, place) => items[place]?)
  | .tables elements =>
    some (names.zipIdx.map fun (_, place) => elements[place]?.map (Value.table .named ·))
  | .time _ => some (names.map fun _ => none)
  | _ => none

/-- Reads a part that may be missing. -/
def readPart {α : Type} (standard : α) (read : Value → Option α) : Option Value → Option α
  | none => some standard
  | some value => read value

end DeclPrinter.Toml.Value

namespace DeclPrinter

open Toml Toml.Value

/-- Reads what a settings document says about a language. -/
def LanguageSettings.ofToml? (value : Value) : Option LanguageSettings := do
  match ← asRecord? ["indent"] value with
  | [indent] => return ⟨← readPart none (fun unit => some <$> asString? unit) indent⟩
  | _ => none

namespace Settings

/-- Reads whether files may be written at the same time, and whether files that fail are only
reported. -/
def switchesOfToml? (value : Value) : Option (Bool × Bool) := do
  match ← asRecord? ["parallel", "diagnostic_mode"] value with
  | [parallel, diagnosticMode] =>
    return (← readPart standard.parallel asBoolean? parallel,
      ← readPart standard.diagnosticMode asBoolean? diagnosticMode)
  | _ => none

/-- Reads the overrides by language tag. -/
def languagesOfToml? (value : Value) : Option (Dictionary LanguageSettings) := do
  (← asTable? value).foldlM (fun languages (tag, options) => do
    return languages.put tag (← LanguageSettings.ofToml? options)) .empty

/-- The settings of a document, unless its text is not TOML or a value is not of its kind. -/
def ofToml? (text : String) : Option Settings := do
  let members ← Toml.parse? text
  let (parallel, diagnosticMode) ←
    readPart (standard.parallel, standard.diagnosticMode) switchesOfToml?
      (members.lookup "render")
  let languages ← readPart standard.languages languagesOfToml? (members.lookup "languages")
  return ⟨parallel, diagnosticMode, false, languages⟩

end Settings

end DeclPrinter
