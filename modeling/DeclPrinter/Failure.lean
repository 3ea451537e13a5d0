import DeclPrinter.Decl.Code
import DeclPrinter.Tree.Path

/-!
# Failures of a render

Every way in which a render can fail, each with the path of the node at fault and
what is wrong with it. A failure is a cause; its wording is `Failure.message`. The
one failure without a place is that the render was cancelled.
-/

namespace DeclPrinter

/-- A set of names that have to be distinct. -/
inductive NameScope where
  | module
  | package
  | file
  | type
  | func
  | field
  | method
  | parameter
  /-- The classes around and beside a declaration. -/
  | classes
  /-- The entries of an output directory. -/
  | artifact
  deriving DecidableEq, Repr, Inhabited

/-- The word for the scope in a message. -/
def NameScope.label : NameScope → String
  | .module => "module"
  | .package => "package"
  | .file => "file"
  | .type => "type"
  | .func => "func"
  | .field => "field"
  | .method => "method"
  | .parameter => "parameter"
  | .classes => "class"
  | .artifact => "artifact"

/-- What has to have a name. -/
inductive NameBearer where
  | project
  | module
  | package
  | file
  | type
  | field
  | func
  | parameter
  deriving DecidableEq, Repr, Inhabited

/-- The word for it in a message. -/
def NameBearer.label : NameBearer → String
  | .project => "project"
  | .module => "module"
  | .package => "package"
  | .file => "file"
  | .type => "type"
  | .field => "field"
  | .func => "func"
  | .parameter => "parameter"

/-- A text between back quotes. -/
def quoted (text : String) : String :=
  "`" ++ text ++ "`"

/-- Something that carries documentation of a package. -/
inductive DocCarrier where
  /-- The package itself, by name. -/
  | package (name : String)
  /-- A file of the package, by name. -/
  | file (name : String)
  deriving DecidableEq, Repr, Inhabited

/-- The carrier in a message. -/
def DocCarrier.label : DocCarrier → String
  | .package name => "package " ++ quoted name
  | .file name => "file " ++ quoted name

/-- Why a declaration cannot be rendered in any language. -/
inductive DeclFault where
  /-- The interface of this name has a field. -/
  | interfaceField (interface : String)
  /-- The interface method of this name has a body. -/
  | interfaceBody (method : String)
  /-- A func that is no method has a receiver of this name. -/
  | strayReceiver (receiver : String)
  /-- The body of a func has a header or a chained clause. -/
  | bodyShape
  deriving DecidableEq, Repr, Inhabited

/-- The fault in words. -/
def DeclFault.message : DeclFault → String
  | .interfaceField interface => "interface " ++ quoted interface ++ " cannot declare fields"
  | .interfaceBody method => "interface method " ++ quoted method ++ " cannot have a body"
  | .strayReceiver receiver =>
    "receiver " ++ quoted receiver ++ " on a func that is not a method"
  | .bodyShape => "a func body takes neither a header nor a chained clause"

/-- Why an idiom could not be expanded. -/
inductive ExpansionFault where
  /-- The idiom is of another kind than the expander. -/
  | kindMismatch
  /-- One call is to bind this many names. -/
  | manyNames (count : Nat)
  /-- The type that the name of a binding needs is not given. -/
  | missingBindingType (name : String)
  /-- Expansions are nested more than this deep. -/
  | tooDeep (limit : Nat)
  /-- A reason that an expander gives in its own words. -/
  | other (reason : String)
  deriving DecidableEq, Repr, Inhabited

/-- The fault in words. -/
def ExpansionFault.message : ExpansionFault → String
  | .kindMismatch => "operands do not match the macro kind"
  | .manyNames count => "cannot bind " ++ toString count ++ " identifiers from one call"
  | .missingBindingType name => quoted name ++ " has no declared binding type"
  | .tooDeep limit => "expansion nested deeper than " ++ toString limit
  | .other reason => reason

/-- A failure of a render. -/
inductive Failure where
  /-- A name occurs twice where names have to be distinct. -/
  | duplicateName (path : TreePath) (scope : NameScope) (name : String)
  /-- Something has no name, or a blank one. -/
  | missingName (path : TreePath) (bearer : NameBearer)
  /-- Some results of a func have names and some have none. -/
  | mixedResultNames (path : TreePath)
  /-- Two carriers document a package differently. -/
  | conflictingPackageDoc (path : TreePath) (first second : DocCarrier)
  /-- A struct holds itself by value, through the structs named. -/
  | valueCycle (path : TreePath) (cycle : List String)
  /-- A declaration that no language has. -/
  | invalidDecl (path : TreePath) (fault : DeclFault)
  /-- Nobody knows the symbol. -/
  | unresolvedSymbol (path : TreePath) (symbol language : String)
  /-- No language of this tag is registered. -/
  | unsupportedLanguage (path : TreePath) (language : String)
  /-- No expander for the idiom is registered. -/
  | unsupportedIdiom (path : TreePath) (kind : IdiomKind) (language : String)
  /-- The idiom passes failures on, and the func has no failure channel. -/
  | idiomContext (path : TreePath) (kind : IdiomKind) (func : String)
  /-- The idiom could not be expanded. -/
  | expansion (path : TreePath) (kind : IdiomKind) (fault : ExpansionFault)
  /-- The render was cancelled. -/
  | cancelled
  deriving DecidableEq, Repr, Inhabited

namespace Failure

/-- The place of the node at fault; there is none when the render was cancelled. -/
def path? : Failure → Option TreePath
  | .duplicateName path _ _ => some path
  | .missingName path _ => some path
  | .mixedResultNames path => some path
  | .conflictingPackageDoc path _ _ => some path
  | .valueCycle path _ => some path
  | .invalidDecl path _ => some path
  | .unresolvedSymbol path _ _ => some path
  | .unsupportedLanguage path _ => some path
  | .unsupportedIdiom path _ _ => some path
  | .idiomContext path _ _ => some path
  | .expansion path _ _ => some path
  | .cancelled => none

/-- Whether the declarations themselves are at fault, and not what the render was given
to write them with. -/
def isStructural : Failure → Bool
  | .duplicateName _ _ _ => true
  | .missingName _ _ => true
  | .mixedResultNames _ => true
  | .conflictingPackageDoc _ _ _ => true
  | .valueCycle _ _ => true
  | .invalidDecl _ _ => true
  | .unresolvedSymbol _ _ _ => false
  | .unsupportedLanguage _ _ => false
  | .unsupportedIdiom _ _ _ => false
  | .idiomContext _ _ _ => false
  | .expansion _ _ _ => false
  | .cancelled => false

/-- What is wrong, without the place. -/
def detail : Failure → String
  | .duplicateName _ scope name => "duplicate " ++ scope.label ++ " name " ++ quoted name
  | .missingName _ bearer => bearer.label ++ " has no name"
  | .mixedResultNames _ => "results must be either all named or all unnamed"
  | .conflictingPackageDoc _ first second =>
    "conflicting package documentation from " ++ first.label ++ " and " ++ second.label
  | .valueCycle _ cycle => "struct embeds itself by value through " ++ " -> ".intercalate cycle
  | .invalidDecl _ fault => fault.message
  | .unresolvedSymbol _ symbol language =>
    "unresolved symbol " ++ quoted symbol ++ " for language " ++ quoted language
  | .unsupportedLanguage _ language =>
    "no renderer registered for language " ++ quoted language
  | .unsupportedIdiom _ kind language =>
    "no " ++ kind.label ++ " expansion registered for language " ++ quoted language
  | .idiomContext _ kind func =>
    kind.label ++ " used outside a valid context: func " ++ quoted func ++
      " does not declare a trailing failure result"
  | .expansion _ kind fault => "cannot expand " ++ kind.label ++ ": " ++ fault.message
  | .cancelled => "render cancelled"

/-- The failure in words: the place, if there is one, and what is wrong there. -/
def message (failure : Failure) : String :=
  match failure.path? with
  | some path => path.text ++ ": " ++ failure.detail
  | none => failure.detail

end Failure

end DeclPrinter
