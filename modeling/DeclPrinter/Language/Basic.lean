import DeclPrinter.Imports
import DeclPrinter.Tree.Query

/-!
# Target languages

Two *dialects* are known, Go and Java; a dialect decides how everything is spelled.
A *language* is what a module asks for by tag: a dialect with its indentation, its
statement terminator and the rules for package documentation. Both dialects come as
a language of their own, and a caller may derive further languages from them, with a
tag and settings of its own.

A derived language spells like its dialect, but where a dialect departs from the
general rules for names and files, a derived language keeps to the general rules:
names are compared as they are in the tree, a type is called by its plain name
throughout its package, and a file is its types and funcs one after another.
-/

namespace DeclPrinter

/-- A way to spell declarations. -/
inductive Dialect where
  | go
  | java
  deriving DecidableEq, Repr, Inhabited

namespace Dialect

/-- The extension of source files. -/
def extension : Dialect → String
  | .go => "go"
  | .java => "java"

/-- The media type of source files. -/
def mediaType : Dialect → String
  | .go => "text/x-go"
  | .java => "text/x-java"

/-- Whether fields carry metadata. -/
def hasFieldTags : Dialect → Bool
  | .go => true
  | .java => false

end Dialect

/-- A target language. -/
structure Language where
  /-- The tag by which modules ask for the language. -/
  tag : String
  /-- How it spells. -/
  dialect : Dialect
  /-- Whether a caller derived it from the dialect's own language. -/
  derived : Bool
  /-- The unit of indentation. -/
  indent : String
  /-- What ends a statement. -/
  terminator : String
  /-- The name of the file that holds the documentation of a package. -/
  docFile : String
  /-- Whether a file's documentation of its package is written in that file; else
  it too goes to the documentation file. -/
  docOnFileClause : Bool
  deriving DecidableEq, Repr, Inhabited

namespace Language

/-- Go: tabs, no statement terminator. -/
def go : Language where
  tag := "go"
  dialect := .go
  derived := false
  indent := "\t"
  terminator := ""
  docFile := "doc.go"
  docOnFileClause := true

/-- Java: four spaces, statements end in semicolons. -/
def java : Language where
  tag := "java"
  dialect := .java
  derived := false
  indent := "    "
  terminator := ";"
  docFile := "package-info.java"
  docOnFileClause := false

/-- The languages that come with the library. -/
def standard : List Language :=
  [go, java]

/-- The language of that tag among those that come with the library. -/
def standard? (tag : String) : Option Language :=
  standard.find? (·.tag == tag)

/-- The language under another tag, as a caller derives one. -/
def derive (base : Language) (tag : String) : Language :=
  { base with tag := tag, derived := true }

/-! ### What all languages share -/

/-- What starts a comment to the end of the line. -/
def commentMark (_ : Language) : String :=
  "//"

/-- What opens a block, after its header if there is one. -/
def blockOpening (_ : Language) : Option String → String
  | some header => header ++ " \x7b"
  | none => "\x7b"

/-- What closes a block. -/
def blockClosing (_ : Language) : String :=
  "\x7d"

end Language

/-- A file to be written: one of the tree, or one that holds what belongs to a
package as a whole. -/
structure FileContents where
  /-- The name. -/
  name : String
  /-- The types in order. -/
  types : List TypeId
  /-- The funcs in order. -/
  funcs : List FuncId
  /-- The documentation of the package, if it is written in this file. -/
  doc : Option String
  /-- What stands at the top. -/
  preamble : Option String
  deriving DecidableEq, Repr, Inhabited

end DeclPrinter
