import DeclPrinter.Json.Decode
import DeclPrinter.Settings.Basic

/-!
# Settings of a language in JSON

Unlike other records, the settings of a language may leave out any part in both of
their forms: as an object, and as an array of the parts in order.
-/

namespace DeclPrinter.LanguageSettings

open Json

/-- The settings of a language as JSON. -/
def toJson (options : LanguageSettings) : Json :=
  .object [("indent", Json.ofString? options.indent)]

/-- Reads the settings of a language. -/
def ofJson? (value : Json) : Option LanguageSettings := do
  let indent ← match value with
    | .object members => some (members.lookup "indent")
    | .array [] => some none
    | .array [indent] => some (some indent)
    | _ => none
  return ⟨← optional asString? indent⟩

end DeclPrinter.LanguageSettings
