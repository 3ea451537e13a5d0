/-!
# Symbols and references

A declaration tree names a type by a symbol such as `string` or `time`. For
each target language a resolver says how the symbol is written there: a
reference, that is an identifier and the import that brings it into scope.
-/

namespace DeclPrinter

/-- A language-neutral name. -/
structure Symbol where
  /-- The name itself. -/
  name : String
  deriving DecidableEq, Repr, Inhabited

/-- A name in one target language, with the import that it needs.

An import binds `localName` in the file: the name of a Go package, the simple
name of a Java class. When `member` is present it is selected from that name,
as in `sql.Rows`. -/
structure Reference where
  /-- The path to import; absent for a name that is always in scope. -/
  importPath : Option String
  /-- The identifier that the import binds, or the name in scope. -/
  localName : String
  /-- What is selected from the identifier. -/
  member : Option String
  deriving DecidableEq, Repr, Inhabited

namespace Reference

/-- A name that needs no import. -/
def inScope (name : String) : Reference :=
  ⟨none, name, none⟩

/-- An import that binds the name itself. -/
def ofImport (importPath name : String) : Reference :=
  ⟨some importPath, name, none⟩

/-- A member of an imported namespace. -/
def ofMember (importPath name member : String) : Reference :=
  ⟨some importPath, name, some member⟩

/-- The written reference when its identifier is spelled `base`. -/
def select (reference : Reference) (base : String) : String :=
  match reference.member with
  | some member => base ++ "." ++ member
  | none => base

end Reference

/-- How symbols are written: the reference for a symbol in the language with a
given tag, if there is one. -/
abbrev Resolver := Symbol → String → Option Reference

/-- A table of references by language tag and symbol. -/
structure ReferenceTable where
  /-- The entries in order of their first insertion; no two share a key. -/
  entries : List ((String × String) × Reference)
  deriving Repr, Inhabited

namespace ReferenceTable

/-- The table without entries. -/
def empty : ReferenceTable :=
  ⟨[]⟩

/-- How many entries the table has. -/
def size (table : ReferenceTable) : Nat :=
  table.entries.length

/-- Puts the reference of a symbol into the table; an entry with the same
language and symbol is replaced. -/
def insert (table : ReferenceTable) (language symbol : String) (reference : Reference) :
    ReferenceTable :=
  let key := (language, symbol)
  if table.entries.any (·.1 == key) then
    ⟨table.entries.map fun entry => if entry.1 == key then (key, reference) else entry⟩
  else
    ⟨table.entries ++ [(key, reference)]⟩

/-- The resolver that looks symbols up in the table. -/
def lookup (table : ReferenceTable) : Resolver := fun symbol language =>
  table.entries.lookup (language, symbol.name)

/-- The primitive types under their Go and Java names, and `time`. -/
def standard : ReferenceTable :=
  let own (language : String) (table : ReferenceTable) (names : String × String) :=
    table.insert language names.1 (.inScope names.2)
  let goNames := ["string", "int", "int64", "float64", "bool", "byte", "any"]
  let javaNames :=
    [("string", "String"), ("int", "int"), ("int64", "long"), ("float64", "double"),
      ("bool", "boolean"), ("byte", "byte"), ("any", "Object")]
  let go := (goNames.map fun name => (name, name)).foldl (own "go") empty
  let go := go.insert "go" "time" (.ofMember "time" "time" "Time")
  let java := javaNames.foldl (own "java") go
  java.insert "java" "time" (.ofImport "java.time.Instant" "Instant")

end ReferenceTable

end DeclPrinter
