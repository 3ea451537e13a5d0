import DeclPrinter.Failure
import DeclPrinter.Language.Naming

/-!
# Writing one file

What is written for a declaration depends on the file around it: the tree, the
target language, the package, the imports. `FileM α` is a computation in such a
context. It yields a value or fails, and on the way leaves a trace: the references
it spelled, in order, and whether it asked for the render to be cancelled. The trace
stands whether or not the computation fails.

A computation cannot look at the trace of what went before. So what is written for a
declaration depends on nothing but the context, and two files never influence each
other.
-/

namespace DeclPrinter

/-- What a file is written in. -/
structure FileContext where
  /-- The whole tree. -/
  tree : DeclTree
  /-- How symbols are written. -/
  resolver : Resolver
  /-- The target language. -/
  language : Language
  /-- The module of the file. -/
  module : ModuleId
  /-- The package of the file. -/
  package : PackageId
  /-- What the file holds. -/
  contents : FileContents
  /-- The path of the file. -/
  path : TreePath
  /-- The unit of indentation. -/
  indentUnit : String
  /-- The imports, once they are settled; before that references are only noted. -/
  imports : Option Imports

/-- What a computation leaves behind and what it yields. -/
structure Outcome (α : Type) where
  /-- The references it spelled, in order. -/
  references : List Reference
  /-- Whether it asked for the render to be cancelled. -/
  cancels : Bool
  /-- The value, or the failure that ended it. -/
  result : Except Failure α

/-- A computation in the context of a file. -/
def FileM (α : Type) : Type :=
  FileContext → Outcome α

namespace FileM

variable {α β : Type}

/-- Runs a computation. -/
def run (x : FileM α) (context : FileContext) : Outcome α :=
  x context

/-- Yields a value and leaves no trace. -/
def yield (value : α) : FileM α := fun _ =>
  ⟨[], false, .ok value⟩

/-- Runs one computation and then, on its value, another. -/
def andThen (x : FileM α) (f : α → FileM β) : FileM β := fun context =>
  let first := x context
  match first.result with
  | .error failure => ⟨first.references, first.cancels, .error failure⟩
  | .ok value =>
    let second := f value context
    ⟨first.references ++ second.references, first.cancels || second.cancels, second.result⟩

instance : Monad FileM where
  pure := yield
  bind := andThen

/-- Fails. -/
def fail (failure : Failure) : FileM α := fun _ =>
  ⟨[], false, .error failure⟩

/-- The context. -/
def context : FileM FileContext := fun context =>
  ⟨[], false, .ok context⟩

/-- Asks for the render to be cancelled. -/
def cancel : FileM Unit := fun _ =>
  ⟨[], true, .ok ()⟩

/-- Notes that a reference is made. -/
def note (reference : Reference) : FileM Unit := fun _ =>
  ⟨[reference], false, .ok ()⟩

theorem pure_run (value : α) (c : FileContext) :
    (pure value : FileM α).run c = ⟨[], false, .ok value⟩ :=
  rfl

theorem bind_run (x : FileM α) (f : α → FileM β) (c : FileContext) :
    (x >>= f).run c = andThen x f c :=
  rfl

instance : LawfulMonad FileM :=
  LawfulMonad.mk'
    (m := FileM)
    (by
      intro α x
      funext c
      show andThen x (fun a => yield a) c = x c
      rcases h : x c with ⟨references, cancels, result⟩
      cases result <;> simp [andThen, yield, h])
    (by
      intro α β a f
      funext c
      show andThen (yield a) f c = f a c
      simp [andThen, yield])
    (by
      intro α β γ x f g
      funext c
      show andThen (andThen x f) g c = andThen x (fun a => andThen (f a) g) c
      rcases h : x c with ⟨references, cancels, result⟩
      cases result with
      | error e => simp [andThen, h]
      | ok a =>
        rcases h' : f a c with ⟨references', cancels', result'⟩
        cases result' <;> simp [andThen, h, h', List.append_assoc, Bool.or_assoc])

end FileM

end DeclPrinter
