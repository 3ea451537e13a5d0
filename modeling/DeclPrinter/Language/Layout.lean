import DeclPrinter.Language.Naming

/-!
# Where files go

The directory of a module, the directory of a package below it, and the names of
source files.
-/

namespace DeclPrinter

/-- The directories of a path that slashes separate. -/
def pathDirs (path : String) : List String :=
  Text.pieces (· == '/') path

namespace Dialect

/-- The directories of a package, below those of its module. -/
def packageSegments (dialect : Dialect) (module : ModuleNode) (package : PackageNode) :
    List String :=
  match dialect with
  | .go => pathDirs package.path
  | .java => Text.splitAt (· == '.') (javaPackageName module package)

/-- The name of a source file without its extension: in Java, that of the class at
top level. -/
def fileStem (dialect : Dialect) (tree : DeclTree) (contents : FileContents) : String :=
  match dialect with
  | .go => contents.name
  | .java =>
    match contents.types, contents.funcs with
    | [type], [] => dialect.nameOfType (tree.type type)
    | _, _ => wrappingClass contents.name

/-- The name of a source file. -/
def sourceName (dialect : Dialect) (tree : DeclTree) (contents : FileContents) : String :=
  dialect.fileStem tree contents ++ "." ++ dialect.extension

end Dialect

namespace Language

/-- The directories of a module, from the top. -/
def moduleSegments (_ : Language) (module : ModuleNode) : List String :=
  pathDirs module.path

/-- The directories of a package, below those of its module. -/
def packageSegments (language : Language) (module : ModuleNode) (package : PackageNode) :
    List String :=
  language.dialect.packageSegments module package

/-- The name of a source file. -/
def sourceName (language : Language) (tree : DeclTree) (contents : FileContents) : String :=
  language.dialect.sourceName tree contents

end Language

end DeclPrinter
