import DeclPrinter.Tree.Query

/-!
# Metadata and bodies

Fields, parameters and results have markers. What does not look at them says the same of a
declaration without them (`Func.unmarked`), and so the same of two declarations that differ in
their markers alone. What does not look into bodies either says the same of a func without what is
in its body (`Func.hollow`).
-/

namespace DeclPrinter

universe u

/-! ### Declarations without metadata -/

/-- The parameter or result without its metadata. -/
def Param.unmarked (param : Param) : Param :=
  { param with markers := [] }

/-- The field without its metadata. -/
def Field.unmarked (field : Field) : Field :=
  { field with markers := [] }

/-- The func without the metadata of its parameters and results. -/
def Func.unmarked (func : Func) : Func :=
  { func with
    params := func.params.map Param.unmarked
    results := func.results.map Param.unmarked }

/-- The tree without metadata. -/
def DeclTree.unmarked (tree : DeclTree) : DeclTree :=
  { tree with
    funcs := tree.funcs.map Func.unmarked
    fields := tree.fields.map Field.unmarked }

/-- The block without its statements, and without what is in the clauses chained to it. -/
def Block.hollow (block : Block) : Block :=
  ⟨block.doc, block.header, [], block.chained.map fun _ => .empty⟩

/-- The func without metadata and without what is in its body. -/
def Func.hollow (func : Func) : Func :=
  { func.unmarked with body := func.unmarked.body.hollow }

/-- The tree without metadata and without what is in bodies. -/
def DeclTree.hollow (tree : DeclTree) : DeclTree :=
  { tree with
    funcs := tree.funcs.map Func.hollow
    fields := tree.fields.map Field.unmarked }

/-- What looks neither at metadata nor into bodies says the same of funcs that differ in nothing
else. -/
theorem Func.eq_of_hollow {α : Type u} {f : Func → α} (hf : ∀ func, f func.hollow = f func) :
    ∀ first second : Func, first.hollow = second.hollow → f first = f second := by
  intro first second h
  rw [← hf first, h, hf]

/-- A field is the same if it is so without its metadata, and that is the same. -/
theorem Field.ext_of_unmarked {first second : Field} (h : first.unmarked = second.unmarked)
    (hmarkers : first.markers = second.markers) : first = second := by
  cases first
  cases second
  simp only [Field.unmarked, Field.mk.injEq] at h hmarkers
  simp [h, hmarkers]

namespace Func

variable (func : Func)

theorem hollow_unmarked : func.unmarked.hollow = func.hollow := by
  simp [hollow, unmarked, Function.comp_def, Param.unmarked]

theorem canFail_hollow : func.hollow.canFail = func.canFail := by
  rw [canFail, canFail, hollow, unmarked, List.getLast?_map, Option.any_map]
  rfl

theorem leadingResults_hollow :
    func.hollow.leadingResults = func.leadingResults.map Param.unmarked :=
  List.map_dropLast.symm

end Func

/-! ### Nodes of such trees -/

/-- What is looked up among changed nodes is changed, also where there is none. -/
theorem getD_map_default {α : Type} [Inhabited α] {f : α → α} (hf : f default = default)
    (nodes : Array α) (index : Nat) :
    (nodes.map f).getD index default = f (nodes.getD index default) := by
  rw [Array.getD_eq_getD_getElem?, Array.getD_eq_getD_getElem?, Array.getElem?_map]
  rcases nodes[index]? with _ | own
  · exact hf.symm
  · rfl

namespace DeclTree

variable (tree : DeclTree)

theorem func_unmarked (id : FuncId) : tree.unmarked.func id = (tree.func id).unmarked :=
  getD_map_default rfl tree.funcs id.index

theorem func_hollow (id : FuncId) : tree.hollow.func id = (tree.func id).hollow :=
  getD_map_default rfl tree.funcs id.index

theorem field_hollow (id : FieldId) : tree.hollow.field id = (tree.field id).unmarked :=
  getD_map_default rfl tree.fields id.index

theorem hollow_unmarked : tree.unmarked.hollow = tree.hollow := by
  unfold hollow unmarked
  simp only [Array.map_map]
  congr 1
  exact congrArg (Array.map · tree.funcs) (funext Func.hollow_unmarked)

/-- Trees that differ in metadata alone are the same without it and without what is in bodies. -/
theorem hollow_eq_of_unmarked {other : DeclTree} (h : other.unmarked = tree.unmarked) :
    other.hollow = tree.hollow := by
  rw [← hollow_unmarked, h, hollow_unmarked]

end DeclTree

end DeclPrinter
