import DeclPrinter.Proofs.Check.FiniteStructs
import DeclPrinter.Proofs.Failing

/-!
# Where checks fail

A check fails at the node that it is about: a check on a name at the node that should have it, a
check on the names in a node at that node. A parameter is no node, and fails inside its func. So
the checks on a package fail at the package, one of its files or one of its types
(`failsIn_package`), and those on a file inside its declarations (`failsIn_declarations`).
-/

namespace DeclPrinter.Check

variable {tree : DeclTree} {language : Language} {places : TreePath → Prop} {place : TreePath}

/-! ### Names -/

theorem failsIn_hasName (h : places place) (name : String) (bearer : NameBearer) :
    FailsIn places (hasName name place bearer) := by
  unfold hasName
  split
  · exact .error rfl h
  · exact .ok ()

theorem failsIn_distinct (h : places place) (names : List String) (scope : NameScope) :
    FailsIn places (distinct names place scope) := by
  unfold distinct
  split
  · exact .error rfl h
  · exact .ok ()

/-! ### Project and module -/

theorem failsIn_project (hproject : places tree.projectPath)
    (hmodules : ∀ id ∈ tree.project.modules, places (tree.modulePath id)) :
    FailsIn places (project tree) := by
  refine (failsIn_hasName hproject _ _).bind fun _ _ => ?_
  refine (FailsIn.forM fun id hid => failsIn_hasName (hmodules id hid) _ _).bind fun _ _ => ?_
  exact failsIn_distinct hproject _ _

theorem failsIn_module {id : ModuleId} (hmodule : places (tree.modulePath id))
    (hpackages : ∀ package ∈ (tree.module id).packages, places (tree.packagePath package)) :
    FailsIn places (module tree id) := by
  refine (FailsIn.forM fun package hpackage => ?_).bind fun _ _ => ?_
  · exact failsIn_hasName (hpackages package hpackage) _ _
  · exact failsIn_distinct hmodule _ _

/-! ### Package -/

/-- A cycle is reported at a struct of the package. -/
theorem failsIn_finiteStructs {id : PackageId}
    (htypes : ∀ type ∈ tree.typesIn id, places (tree.typePath type)) :
    FailsIn places (finiteStructs tree id) := by
  unfold finiteStructs
  split
  · exact .ok ()
  · rename_i cycle hcycle
    refine .error rfl (htypes _ ?_)
    -- The cycle that is found has a first struct, which is one of the package.
    obtain ⟨hnonempty, hstructs⟩ :=
      subset_of_cycle?_eq_some (fun holder _ => heldStructs_subset holder) hcycle
    cases cycle with
    | nil => exact absurd rfl hnonempty
    | cons first rest => exact (mem_structsOf.mp (hstructs List.mem_cons_self)).1

theorem failsIn_packageComment {id : PackageId} (hpackage : places (tree.packagePath id)) :
    FailsIn places (packageComment tree id) := by
  unfold packageComment
  split
  · exact .ok none
  · split
    · exact .ok _
    · exact .error rfl hpackage

theorem failsIn_package {id : PackageId} (hpackage : places (tree.packagePath id))
    (hfiles : ∀ file ∈ (tree.package id).files, places (tree.filePath file))
    (htypes : ∀ type ∈ tree.typesIn id, places (tree.typePath type)) :
    FailsIn places (package tree language id) := by
  refine (FailsIn.forM fun file hfile => failsIn_hasName (hfiles file hfile) _ _).bind
    fun _ _ => ?_
  refine (failsIn_distinct hpackage _ _).bind fun _ _ => ?_
  refine (failsIn_distinct hpackage _ _).bind fun _ _ => ?_
  refine (failsIn_distinct hpackage _ _).bind fun _ _ => ?_
  refine (failsIn_finiteStructs htypes).bind fun _ _ => ?_
  exact failsIn_packageComment hpackage

/-! ### Declarations -/

theorem failsIn_func {id : FuncId} (h : Covers places (tree.funcPath id)) :
    FailsIn places (func tree id) := by
  have hreceiver : FailsIn places (receiver tree id) := by
    unfold receiver
    split
    · exact .ok ()
    · exact .ok ()
    · exact .error rfl h.self
  have hshape : FailsIn places (bodyShape tree id) := by
    unfold bodyShape
    dsimp only
    split
    · exact .error rfl h.self
    · exact .ok ()
  have hresults : FailsIn places (resultNames tree id) := by
    unfold resultNames
    dsimp only
    split
    · exact .error rfl h.self
    · exact .ok ()
  -- The checks in their order; a nameless parameter is at fault itself, all else is the func.
  refine (failsIn_hasName h.self _ _).bind fun _ _ => ?_
  refine hreceiver.bind fun _ _ => ?_
  refine hshape.bind fun _ _ => ?_
  refine (FailsIn.forM fun param _ => ?_).bind fun _ _ => ?_
  · exact failsIn_hasName (h.below (.inl rfl) _).self _ _
  · refine hresults.bind fun _ _ => ?_
    exact failsIn_distinct h.self _ _

/-- An interface is at fault in its first field, or in a method that has a body. -/
theorem failsIn_interface {id : TypeId} (h : CoversType places tree id) :
    FailsIn places (interface tree id) := by
  unfold interface
  dsimp only
  split
  · rename_i field rest hfields
    have hfield : field ∈ (tree.type id).fields := by
      rw [hfields]
      exact List.mem_cons_self
    exact .error rfl (h.fields field hfield).self
  · refine FailsIn.forM fun method hmethod => ?_
    unfold interfaceMethod
    dsimp only
    split
    · exact .error rfl (h.methods method hmethod).self
    · exact .ok ()

theorem failsIn_type {id : TypeId} (h : CoversType places tree id) :
    FailsIn places (type tree language id) := by
  -- The fields are at fault themselves, or the type for two of one name; then the methods.
  have hmembers : FailsIn places (do
      (tree.type id).fields.forM fun field =>
        hasName (tree.field field).name (tree.fieldPath field) .field
      distinct (fieldNames tree language id) (tree.typePath id) .field
      distinct (methodNames tree language id) (tree.typePath id) .method
      (tree.type id).methods.forM (func tree)) := by
    refine (FailsIn.forM fun field hfield => ?_).bind fun _ _ => ?_
    · exact failsIn_hasName (h.fields field hfield).self _ _
    · refine (failsIn_distinct h.own.self _ _).bind fun _ _ => ?_
      refine (failsIn_distinct h.own.self _ _).bind fun _ _ => ?_
      exact FailsIn.forM fun method hmethod => failsIn_func (h.methods method hmethod)
  refine (failsIn_hasName h.own.self _ _).bind fun _ _ => ?_
  dsimp only
  split
  · exact (failsIn_interface h).bind fun _ _ => hmembers
  · exact hmembers

/-- **The checks on a file** fail inside its declarations. -/
theorem failsIn_declarations {types : List TypeId} {funcs : List FuncId}
    (h : CoversFile places tree types funcs) :
    FailsIn places (declarations tree language types funcs) := by
  refine (FailsIn.forM fun id hid => failsIn_type (h.types id hid)).bind fun _ _ => ?_
  exact FailsIn.forM fun id hid => failsIn_func (h.funcs id hid)

end DeclPrinter.Check
