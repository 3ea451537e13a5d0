import DeclPrinter.Dictionary
import DeclPrinter.Symbol

/-!
# The imports of a file

A file is gone through twice. The first time the references it makes are only
noted; from the notes its imports are settled, and the second time every reference
is spelled through them. An import binds a local name, and two imports may want the
same one. In ascending order of the paths the first keeps it, and each later one is
told apart in the way of the target language: it is bound to another name, or it is
not imported and its path is written in full.
-/

namespace DeclPrinter

/-- How an import is told apart from one that took its local name before. -/
inductive ClashRemedy where
  /-- Bind it to another name. -/
  | rebind (name : String)
  /-- Do not import it, and write its path in full. -/
  | qualify
  deriving DecidableEq, Repr, Inhabited

/-- An import of a file. -/
structure Import where
  /-- The path to import. -/
  path : String
  /-- The name that the import binds of itself. -/
  localName : String
  /-- The name that it is bound to instead. -/
  rebound : Option String
  /-- Whether the path is written in full and nothing is imported. -/
  qualified : Bool
  deriving DecidableEq, Repr, Inhabited

/-- What references through the import are spelled with. -/
def Import.spelledAs (entry : Import) : String :=
  if entry.qualified then entry.path else entry.rebound.getD entry.localName

/-- The imports of a file, their paths ascending. -/
structure Imports where
  /-- The entries, one per path. -/
  entries : List Import
  deriving DecidableEq, Repr, Inhabited

namespace Imports

/-- The entry of a path whose local name may be taken, and the name it takes, if any. -/
def settle (clashRemedy : String → List String → ClashRemedy) (taken : List String)
    (path localName : String) : Import × Option String :=
  if taken.contains localName then
    match clashRemedy localName taken with
    | .rebind name => (⟨path, localName, some name, false⟩, some name)
    | .qualify => (⟨path, localName, none, true⟩, none)
  else (⟨path, localName, none, false⟩, some localName)

/-- The entries of paths in ascending order, when the names in `taken` are taken. -/
def entriesFrom (clashRemedy : String → List String → ClashRemedy) :
    List String → List (String × String) → List Import
  | _, [] => []
  | taken, (path, localName) :: rest =>
    let (entry, name) := settle clashRemedy taken path localName
    entry :: entriesFrom clashRemedy (name.toList ++ taken) rest

/-- The imports of the paths noted, each with the local name noted for it. -/
def build (clashRemedy : String → List String → ClashRemedy) (noted : Dictionary String) :
    Imports :=
  ⟨entriesFrom clashRemedy [] noted.entries⟩

/-- The entry of a path. -/
def get? (imports : Imports) (path : String) : Option Import :=
  imports.entries.find? (·.path == path)

/-- The entries that are written in the import section. -/
def listed (imports : Imports) : List Import :=
  imports.entries.filter (!·.qualified)

/-- A reference spelled through the imports. -/
def spell (imports : Imports) (reference : Reference) : String :=
  let entry := reference.importPath.bind imports.get?
  reference.select ((entry.map Import.spelledAs).getD reference.localName)

end Imports

/-- The name followed by a number. -/
def numbered (name : String) (number : Nat) : String :=
  name ++ toString number

/-- The name followed by the least number from 2 on that makes it differ from every
name taken. Of one more candidates than there are names taken, one is free. -/
def freshName (name : String) (taken : List String) : String :=
  let candidates := (List.range' 2 (taken.length + 1)).map (numbered name)
  (candidates.find? (!taken.contains ·)).getD (name ++ "_")

/-- What a list of references notes for the imports: of each path, the local name it
was first referred to by. -/
def notedImports (references : List Reference) : Dictionary String :=
  references.foldl
    (fun noted reference =>
      match reference.importPath with
      | some path => noted.putNew path reference.localName
      | none => noted)
    .empty

end DeclPrinter
