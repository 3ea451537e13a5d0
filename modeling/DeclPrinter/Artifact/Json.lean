import DeclPrinter.Artifact.Basic
import DeclPrinter.Json.Basic

/-!
# The JSON form of an artifact

A directory is an object of its media type and its entries by name; a leaf is an
object of its media type and its content.
-/

namespace DeclPrinter

/-- The JSON form of a media type. -/
def MediaType.toJson : MediaType → Json
  | .directory => .string "directory"
  | .moduleDirectory => .string "module-directory"
  | .source mime => .variant "source" (.string mime)

/-- The JSON form of a leaf. -/
def Leaf.toJson (leaf : Leaf) : Json :=
  .object [("media_type", leaf.mediaType.toJson), ("content", .string leaf.content)]

mutual

/-- The JSON form of a directory. -/
def Directory.toJson : Directory → Json
  | .mk mediaType entries =>
    .object [("media_type", mediaType.toJson), ("entries", .object (Entry.listToJson entries))]

/-- The JSON form of an entry. -/
def Entry.toJson : Entry → Json
  | .directory directory => directory.toJson
  | .leaf leaf => leaf.toJson

/-- The JSON forms of named entries. -/
def Entry.listToJson : List (String × Entry) → List (String × Json)
  | [] => []
  | (name, entry) :: rest => (name, entry.toJson) :: Entry.listToJson rest

end

/-- The JSON form of an artifact. -/
def Artifact.toJson (artifact : Artifact) : Json :=
  .object [("root", artifact.root.toJson)]

end DeclPrinter
