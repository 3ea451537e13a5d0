/-!
# Paths into a declaration tree

A path names the nodes from the project down to the place meant, each by its
kind and its name. Failures carry such a path, and a path below a func goes
on into its parameters, blocks and idioms, which are not nodes of the tree.
-/

namespace DeclPrinter

/-- The kind of a step of a path. -/
inductive StepKind where
  | project
  | module
  | package
  | file
  | struct
  | interface
  | field
  | func
  | method
  | param
  | block
  | idiom
  deriving DecidableEq, Repr, Inhabited

/-- The word for the kind inside a written path. -/
def StepKind.label : StepKind → String
  | .project => "Project"
  | .module => "Module"
  | .package => "Package"
  | .file => "File"
  | .struct => "Struct"
  | .interface => "Interface"
  | .field => "Field"
  | .func => "Func"
  | .method => "Method"
  | .param => "Param"
  | .block => "Block"
  | .idiom => "Macro"

/-- The steps from the project down to a place, outermost first. -/
structure TreePath where
  /-- Kind and name of each step. -/
  steps : List (StepKind × String)
  deriving DecidableEq, Repr, Inhabited

namespace TreePath

/-- The path of the project itself. -/
def ofProject (name : String) : TreePath :=
  ⟨[(.project, name)]⟩

/-- The path one step further down. -/
def below (path : TreePath) (kind : StepKind) (name : String) : TreePath :=
  ⟨path.steps ++ [(kind, name)]⟩

/-- The innermost step. -/
def innermost? (path : TreePath) : Option (StepKind × String) :=
  path.steps.getLast?

/-- Whether the path passes through the step, or ends there. -/
def passes (path : TreePath) (kind : StepKind) (name : String) : Bool :=
  path.steps.contains (kind, name)

/-- One step in written form, the kind and the name between braces. -/
def stepText (step : StepKind × String) : String :=
  "\x7b" ++ step.1.label ++ ":" ++ step.2 ++ "\x7d"

/-- The path in written form, its steps joined by slashes. -/
def text (path : TreePath) : String :=
  "/".intercalate (path.steps.map stepText)

end TreePath

end DeclPrinter
