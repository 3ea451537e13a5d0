import DeclPrinter.Language.Basic
import DeclPrinter.Text.Case

/-!
# How declarations are called

What a declaration is called in the target language, and how a type is referred to
from the file that declares it, from another file of its package, and from another
package. In Go the case of the first letter says who may use a name. In Java types
start in upper case and everything else in lower case, and a file that is not just
one type is wrapped in a class named after it, so that its types are called by the
name of that class and their own.
-/

namespace DeclPrinter

/-! ### Go -/

/-- A Go name: an exported one starts in upper case, a hidden one in lower case. -/
def goName (name : String) : Visibility → String
  | .exported => Text.capitalize name
  | .hidden => Text.uncapitalize name

/-- The import path of a Go package. -/
def goImportPath (module : ModuleNode) (package : PackageNode) : String :=
  if package.path.isEmpty then module.path else module.path ++ "/" ++ package.path

/-! ### Java -/

/-- Whether a file is its one type, written as a class of its own at top level. -/
def standsAlone (types : List TypeId) (funcs : List FuncId) : Bool :=
  types.length == 1 && funcs.isEmpty

/-- The class that holds the declarations of a file. -/
def wrappingClass (file : String) : String :=
  Text.joinCapitalized file

/-- A separator inside the path of a module or package. -/
def isPathBreak (c : Char) : Bool :=
  c == '/' || c == '.'

/-- The words of a Java package name: those of the module path, then those of the
package path. -/
def javaPackageWords (module : ModuleNode) (package : PackageNode) : List String :=
  Text.pieces isPathBreak module.path ++ Text.pieces isPathBreak package.path

/-- A Java package name. -/
def javaPackageName (module : ModuleNode) (package : PackageNode) : String :=
  ".".intercalate (javaPackageWords module package)

/-! ### Names by dialect -/

namespace Dialect

/-- What a type is called where it is declared. -/
def nameOfType (dialect : Dialect) (type : TypeNode) : String :=
  match dialect with
  | .go => goName type.name type.visibility
  | .java => Text.capitalize type.name

/-- What a declaration of this kind is called. -/
def printedName (dialect : Dialect) (kind : StepKind) (name : String) (visibility : Visibility) :
    String :=
  match dialect with
  | .go => goName name visibility
  | .java =>
    match kind with
    | .struct => Text.capitalize name
    | .interface => Text.capitalize name
    | _ => Text.uncapitalize name

/-- What a type is called in another file of its package. -/
def neighbourTypeName (dialect : Dialect) (tree : DeclTree) (id : TypeId) : String :=
  let type := tree.type id
  match dialect with
  | .go => dialect.nameOfType type
  | .java =>
    let file := tree.file type.file
    if standsAlone file.types file.funcs then dialect.nameOfType type
    else wrappingClass file.name ++ "." ++ dialect.nameOfType type

/-- The reference to a type from another package of its module. -/
def typeReference (dialect : Dialect) (tree : DeclTree) (id : TypeId) : Reference :=
  let type := tree.type id
  let file := tree.file type.file
  let package := tree.package file.package
  let module := tree.module package.module
  let name := dialect.nameOfType type
  match dialect with
  | .go => .ofMember (goImportPath module package) package.name name
  | .java =>
    let packageName := javaPackageName module package
    if standsAlone file.types file.funcs then .ofImport (packageName ++ "." ++ name) name
    else
      let wrapper := wrappingClass file.name
      .ofMember (packageName ++ "." ++ wrapper) wrapper name

/-- How an import is told apart from an earlier one of the same local name: Go
numbers it, Java does without it. -/
def clashRemedy (dialect : Dialect) (localName : String) (taken : List String) :
    ClashRemedy :=
  match dialect with
  | .go => .rebind (freshName localName taken)
  | .java => .qualify

end Dialect

namespace Language

/-- What a type is called where it is declared. -/
def nameOfType (language : Language) (type : TypeNode) : String :=
  language.dialect.nameOfType type

/-- What a declaration of this kind is called, for the comparison of names. -/
def printedName (language : Language) (kind : StepKind) (name : String)
    (visibility : Visibility) : String :=
  if language.derived then name else language.dialect.printedName kind name visibility

/-- What a type is called in another file of its package. -/
def neighbourTypeName (language : Language) (tree : DeclTree) (id : TypeId) : String :=
  if language.derived then language.nameOfType (tree.type id)
  else language.dialect.neighbourTypeName tree id

/-- The reference to a type from another package of its module. -/
def typeReference (language : Language) (tree : DeclTree) (id : TypeId) : Reference :=
  language.dialect.typeReference tree id

end Language

end DeclPrinter
