import DeclPrinter.Artifact.Basic
import DeclPrinter.Render.Plan
import DeclPrinter.Settings.Basic
import DeclPrinter.Writing.File

/-!
# Rendering a tree

A render plans the files of a project, writes each of them on its own and puts the
results into an artifact in the order of the plan. It yields the whole artifact or a
failure; in diagnostic mode a file that fails is reported and left out instead, and
only what concerns more than one file ends the render.

A render may be cancelled. Whether it is gets looked at before each package and file
is planned, before each file is written and once after all of them.
-/

namespace DeclPrinter

/-- What a render is given besides the plan. -/
structure RenderJob where
  /-- The tree. -/
  tree : DeclTree
  /-- The languages and expanders. -/
  registry : Registry
  /-- How symbols are written. -/
  resolver : Resolver
  /-- The choices of the caller. -/
  options : Settings

/-- The result of a render. -/
structure Rendering where
  /-- The files, in directories. -/
  artifact : Artifact
  /-- Why files were left out, in the order of the plan. -/
  diagnostics : List Failure
  deriving Repr, Inhabited

namespace RenderJob

/-- The unit of indentation of a language. -/
def indentUnit (job : RenderJob) (language : Language) : String :=
  (job.options.indent? language.tag).getD language.indent

/-- The context of a file before its imports are settled. -/
def context (job : RenderJob) (file : PlannedFile) : FileContext where
  tree := job.tree
  resolver := job.resolver
  language := file.language
  module := file.module
  package := file.package
  contents := file.contents
  path := file.path
  indentUnit := job.indentUnit file.language
  imports := none

/-- The first pass through a file, which notes its references. -/
def firstPass (job : RenderJob) (file : PlannedFile) : Outcome Script :=
  (fileScript job.registry).run (job.context file)

/-- The imports of a file. -/
def imports (job : RenderJob) (file : PlannedFile) : Imports :=
  .build file.language.dialect.clashRemedy (notedImports (job.firstPass file).references)

/-- The second pass through a file, which writes it. -/
def secondPass (job : RenderJob) (file : PlannedFile) : Outcome Script :=
  (fileScript job.registry).run { job.context file with imports := some (job.imports file) }

/-- Writes a file. Yields its text, and whether the render is cancelled afterwards. -/
def writeText (job : RenderJob) (file : PlannedFile) : Except Failure String × Bool :=
  let first := job.firstPass file
  match first.result with
  | .error failure => (.error failure, first.cancels)
  | .ok _ =>
    let second := job.secondPass file
    let indentUnit := job.indentUnit file.language
    (second.result.map (·.text indentUnit), first.cancels || second.cancels)

/-- Checks and writes a file, unless the render is cancelled. Yields its text, and
whether the render is cancelled afterwards. -/
def runFile (job : RenderJob) (cancelled : Bool) (file : PlannedFile) :
    Except Failure String × Bool :=
  if cancelled then (.error .cancelled, true)
  else
    match Check.declarations job.tree file.language file.contents.types file.contents.funcs with
    | .error failure => (.error failure, false)
    | .ok () => job.writeText file

/-- Writes files one after another. Yields the text of each, and whether the render is
cancelled afterwards. -/
def runFiles (job : RenderJob) :
    Bool → List PlannedFile → List (Except Failure String) × Bool
  | cancelled, [] => ([], cancelled)
  | cancelled, file :: rest =>
    let (text, cancelled) := job.runFile cancelled file
    let (texts, cancelled) := job.runFiles cancelled rest
    (text :: texts, cancelled)

end RenderJob

namespace Rendering

/-- The rendering without files. -/
def empty : Rendering :=
  ⟨.empty, []⟩

/-- The result of an operation on the artifact; what is in the way makes it a failure
of the file. -/
def settled (file : PlannedFile) (result : Except Obstacle Unit × Artifact) :
    Except Failure Artifact :=
  match result with
  | (.ok (), artifact) => .ok artifact
  | (.error obstacle, _) => .error (.duplicateName file.path .artifact obstacle.path)

/-- The directories of a file. -/
def addDirectories (artifact : Artifact) (file : PlannedFile) : Except Failure Artifact := do
  let artifact ← settled file (artifact.ensureDirectory file.moduleSegments .moduleDirectory)
  settled file (artifact.ensureDirectory file.dir .directory)

/-- A text as a leaf. -/
def leafOf (file : PlannedFile) (text : String) : Leaf :=
  ⟨.source file.language.dialect.mediaType, text⟩

/-- Puts the result for a file into the rendering. -/
def add (diagnosticMode : Bool) (rendering : Rendering)
    (entry : PlannedFile × Except Failure String) : Except Failure Rendering := do
  let (file, result) := entry
  let artifact ← addDirectories rendering.artifact file
  match result with
  | .ok text =>
    let artifact ← settled file (artifact.addLeaf file.dir file.leaf (leafOf file text))
    return { rendering with artifact := artifact }
  | .error .cancelled => .error .cancelled
  | .error failure =>
    if diagnosticMode then return ⟨artifact, rendering.diagnostics ++ [failure]⟩
    else .error failure

end Rendering

namespace RenderJob

/-- Renders a project. -/
def render (job : RenderJob) : Except Failure Rendering := do
  let plan ← Plan.project job.tree job.registry job.options.cancelled
  let (texts, cancelled) := job.runFiles job.options.cancelled plan
  Plan.unlessCancelled cancelled
  (plan.zip texts).foldlM (Rendering.add job.options.diagnosticMode) .empty

end RenderJob

end DeclPrinter
