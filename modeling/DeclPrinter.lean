import DeclPrinter.Artifact.Basic
import DeclPrinter.Artifact.Json
import DeclPrinter.Check.Basic
import DeclPrinter.Check.Cycle
import DeclPrinter.Check.Names
import DeclPrinter.Columns
import DeclPrinter.Comment
import DeclPrinter.Decl.Code
import DeclPrinter.Decl.FromJson
import DeclPrinter.Decl.Func
import DeclPrinter.Decl.Json
import DeclPrinter.Decl.TypeExpr
import DeclPrinter.Dictionary
import DeclPrinter.Failure
import DeclPrinter.Idiom.Expander
import DeclPrinter.Idiom.Go
import DeclPrinter.Idiom.Java
import DeclPrinter.Idiom.Registry
import DeclPrinter.Imports
import DeclPrinter.Json.Basic
import DeclPrinter.Json.Decode
import DeclPrinter.Language.Basic
import DeclPrinter.Language.Layout
import DeclPrinter.Language.Naming
import DeclPrinter.Render.Basic
import DeclPrinter.Render.Plan
import DeclPrinter.Script
import DeclPrinter.Settings.Basic
import DeclPrinter.Settings.FromToml
import DeclPrinter.Settings.Json
import DeclPrinter.Symbol
import DeclPrinter.Text.Blank
import DeclPrinter.Text.Case
import DeclPrinter.Text.CaseTable
import DeclPrinter.Text.Digits
import DeclPrinter.Text.HiddenTable
import DeclPrinter.Text.Inspected
import DeclPrinter.Text.Lines
import DeclPrinter.Text.Literal
import DeclPrinter.Toml.Basic
import DeclPrinter.Toml.Document
import DeclPrinter.Toml.Reader
import DeclPrinter.Toml.Scalar
import DeclPrinter.Tree.Basic
import DeclPrinter.Tree.Json
import DeclPrinter.Tree.Path
import DeclPrinter.Tree.Query
import DeclPrinter.Writing.Body
import DeclPrinter.Writing.File
import DeclPrinter.Writing.FileM
import DeclPrinter.Writing.FuncComment
import DeclPrinter.Writing.Go
import DeclPrinter.Writing.Java
import DeclPrinter.Writing.Results
import DeclPrinter.Writing.Spelling
import DeclPrinter.Proofs.Artifact.Located
import DeclPrinter.Proofs.Artifact.Request
import DeclPrinter.Proofs.Render.Merge
import DeclPrinter.Proofs.Render.Modes
import DeclPrinter.Proofs.Render.Schedule
import DeclPrinter.Proofs.Writing.Alike
import DeclPrinter.Proofs.Writing.Body
import DeclPrinter.Proofs.Writing.Go
import DeclPrinter.Proofs.Writing.File
import DeclPrinter.Proofs.Dictionary
import DeclPrinter.Proofs.Imports
import DeclPrinter.Proofs.Render.Passes
import DeclPrinter.Proofs.Check.Cycle
import DeclPrinter.Proofs.Check.FiniteStructs
import DeclPrinter.Proofs.Text.Case
import DeclPrinter.Proofs.Artifact.Addressable
import DeclPrinter.Proofs.Render.Addresses
import DeclPrinter.Proofs.Script
import DeclPrinter.Proofs.Text.Blank
import DeclPrinter.Proofs.Writing.GoComments
import DeclPrinter.Proofs.Writing.Yields
import DeclPrinter.Proofs.Writing.GoDocs
import DeclPrinter.Proofs.Tree.Linked
import DeclPrinter.Proofs.Writing.Nesting
import DeclPrinter.Proofs.Writing.Printed
import DeclPrinter.Proofs.Render.References
import DeclPrinter.Proofs.Imports.Bindings
import DeclPrinter.Proofs.Imports.FreshNames
import DeclPrinter.Proofs.Imports.OwnNames
import DeclPrinter.Proofs.Check.Names
import DeclPrinter.Proofs.Check.Identifiers
import DeclPrinter.Proofs.Tree.Homed
import DeclPrinter.Proofs.Writing.GoForm
import DeclPrinter.Proofs.Writing.JavaForm
import DeclPrinter.Proofs.Writing.Outline
import DeclPrinter.Proofs.Writing.JavaClasses
import DeclPrinter.Proofs.Render.GoScopes
import DeclPrinter.Proofs.Render.JavaClasses
import DeclPrinter.Proofs.Check.Bodies
import DeclPrinter.Proofs.Writing.Bodies
import DeclPrinter.Proofs.Render.FailureChannel
import DeclPrinter.Proofs.Writing.Expansion
import DeclPrinter.Proofs.Render.Expansion
import DeclPrinter.Proofs.Tree.Additions
import DeclPrinter.Proofs.Tree.Part
import DeclPrinter.Proofs.Tree.Outside
import DeclPrinter.Proofs.Tree.Ownership
import DeclPrinter.Proofs.Writing.Surroundings
import DeclPrinter.Proofs.Writing.Elsewhere
import DeclPrinter.Proofs.Writing.SurroundingsFile
import DeclPrinter.Proofs.Check.Surroundings
import DeclPrinter.Proofs.Render.Surroundings
import DeclPrinter.Proofs.Render.Modules
import DeclPrinter.Proofs.Script.Indentation
import DeclPrinter.Proofs.Artifact.Skeleton
import DeclPrinter.Proofs.Render.Indentation
import DeclPrinter.Proofs.Idiom.BuiltIn
import DeclPrinter.Proofs.Keyed
import DeclPrinter.Proofs.Idiom.Replay
import DeclPrinter.Proofs.Check.TypeNames
import DeclPrinter.Proofs.Failing
import DeclPrinter.Proofs.Check.Failing
import DeclPrinter.Proofs.Writing.Failing
import DeclPrinter.Proofs.Writing.FailingFile
import DeclPrinter.Proofs.Render.Failing
import DeclPrinter.Proofs.Render.Leaves
import DeclPrinter.Proofs.Artifact.Growth
import DeclPrinter.Proofs.Artifact.Lookup
import DeclPrinter.Proofs.Text.Closing
import DeclPrinter.Proofs.Writing.Documentation
import DeclPrinter.Proofs.Writing.JavaComments
import DeclPrinter.Proofs.Writing.JavaDocs
import DeclPrinter.Proofs.Tree.Markers
import DeclPrinter.Proofs.Writing.Markers
import DeclPrinter.Proofs.Render.Markers
import DeclPrinter.Proofs.Check.CycleSearch
import DeclPrinter.Proofs.Writing.Idioms
import DeclPrinter.Proofs.Render.GoReturns
import DeclPrinter.Proofs.Text.Reading
import DeclPrinter.Proofs.Text.GoLiteral
import DeclPrinter.Proofs.Text.JavaLiteral
import DeclPrinter.Proofs.Render.Messages
import DeclPrinter.Proofs.Text.StructTag
import DeclPrinter.Proofs.Render.GoTags
import DeclPrinter.Proofs.Columns
import DeclPrinter.Proofs.Script.Appending
import DeclPrinter.Proofs.Script.Continuing
import DeclPrinter.Proofs.Render.Apart
import DeclPrinter.Proofs.Writing.Results
import DeclPrinter.Proofs.Writing.Clauses
import DeclPrinter.Proofs.Check.Docs
import DeclPrinter.Proofs.Render.PackageDocs
import DeclPrinter.Proofs.Script.Verbatim
import DeclPrinter.Proofs.Render.Preambles
import DeclPrinter.Proofs.Render.Receivers
import DeclPrinter.Proofs.Render.JavaImports
import DeclPrinter.Proofs.Script.Effect
import DeclPrinter.Proofs.Writing.Agreement
import DeclPrinter.Proofs.Tree.Rewriting
import DeclPrinter.Proofs.Writing.Rewriting
import DeclPrinter.Proofs.Writing.Terminators
import DeclPrinter.Proofs.Render.Bodies
import DeclPrinter.Proofs.Render.Terminators
