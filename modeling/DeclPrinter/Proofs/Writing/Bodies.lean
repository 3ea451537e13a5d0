import DeclPrinter.Proofs.Writing.Outline
import Mathlib.Data.List.Infix

/-!
# Nothing in a body is passed over

A file that is written has every func with a body in it (`exists_func_of_fileScript`), the lines of
the body together and in one place (`exists_body_of_fileScript`). And a body that is written has
come to every idiom in it, however deep the idiom stands in nested blocks and chained clauses
(`Block.Invokes.written`). So what an idiom asks of the func around it is asked of every func in a
file that has a text.
-/

namespace DeclPrinter

open FileM

variable {c : FileContext} {script : Script}

/-! ### Idioms in a body -/

/-- The idiom stands somewhere in the block: among its statements, in a block nested in it, or in
a clause chained to it. -/
inductive Block.Invokes (idiom : Idiom) : Block → Prop where
  | here {block : Block} (h : .invoke idiom ∈ block.statements) : Block.Invokes idiom block
  | nested {block inner : Block} (hinner : .block inner ∈ block.statements)
      (h : Block.Invokes idiom inner) : Block.Invokes idiom block
  | chained {block next : Block} (hnext : block.chained = some next)
      (h : Block.Invokes idiom next) : Block.Invokes idiom block

section

variable {onIdiom : IdiomWriter} {scope : BodyScope} {block : Block} {place : TreePath}

theorem exists_of_statementsScript {index : Nat} {statements : List Statement}
    (h : (statementsScript onIdiom scope block place index statements).Yields c script) :
    ∀ statement ∈ statements, ∃ position own,
      (statementScript onIdiom scope block place position statement).Yields c own := by
  induction statements generalizing index script with
  | nil =>
    intro statement hstatement
    cases hstatement
  | cons first rest ih =>
    rw [statementsScript] at h
    obtain ⟨own, hown, h⟩ := yields_bind.mp h
    obtain ⟨others, hothers, _⟩ := yields_bind.mp h
    intro statement hstatement
    rcases List.mem_cons.mp hstatement with rfl | hmem
    · exact ⟨index, own, hown⟩
    · exact ih hothers statement hmem

/-- The statements of the block and the clauses chained to it are written. -/
def Block.Written (onIdiom : IdiomWriter) (scope : BodyScope) (place : TreePath) (c : FileContext)
    (block : Block) : Prop :=
  (∃ inner, (statementsScript onIdiom scope block place 0 block.statements).Yields c inner) ∧
    ∃ clauses, (clausesScript onIdiom scope place block.chained).Yields c clauses

theorem written_of_blockScript (h : (blockScript onIdiom scope place block).Yields c script) :
    block.Written onIdiom scope place c := by
  obtain ⟨doc, header, statements, chained⟩ := block
  rw [blockScript] at h
  obtain ⟨_, _, h⟩ := yields_bind.mp h
  obtain ⟨inner, hinner, h⟩ := yields_bind.mp h
  obtain ⟨clauses, hclauses, _⟩ := yields_bind.mp h
  exact ⟨⟨inner, hinner⟩, clauses, hclauses⟩

/-- A chained clause is written like a block. -/
theorem written_of_clausesScript
    (h : (clausesScript onIdiom scope place (some block)).Yields c script) :
    block.Written onIdiom scope place c := by
  obtain ⟨doc, header, statements, chained⟩ := block
  rw [clausesScript] at h
  obtain ⟨_, _, h⟩ := yields_bind.mp h
  obtain ⟨inner, hinner, h⟩ := yields_bind.mp h
  obtain ⟨clauses, hclauses, _⟩ := yields_bind.mp h
  exact ⟨⟨inner, hinner⟩, clauses, hclauses⟩

/-- **Every idiom in a block is written.** -/
theorem Block.Invokes.written {idiom : Idiom} (hidiom : block.Invokes idiom)
    (h : block.Written onIdiom scope place c) :
    ∃ around below own, (onIdiom around below idiom).Yields c own := by
  -- On the way down to the idiom, each block is written because the one around it is.
  induction hidiom generalizing place with
  | here hmem =>
    obtain ⟨⟨_, hinner⟩, _⟩ := h
    obtain ⟨_, own, hown⟩ := exists_of_statementsScript hinner _ hmem
    exact ⟨_, place, own, hown⟩
  | nested hmem _ ih =>
    obtain ⟨⟨_, hinner⟩, _⟩ := h
    obtain ⟨_, own, hown⟩ := exists_of_statementsScript hinner _ hmem
    exact ih (written_of_blockScript hown)
  | chained hnext _ ih =>
    obtain ⟨_, clauses, hclauses⟩ := h
    rw [hnext] at hclauses
    exact ih (written_of_clausesScript hclauses)

end

/-! ### What is done at an idiom -/

section

variable {registry : Registry} {scope : BodyScope} {idiom : Idiom} {expander : Expander}

theorem idiomScript_of_none (h : registry.expander? scope.language.tag idiom.kind = none)
    (remaining : Nat) (block : Block) (place : TreePath) :
    idiomScript registry scope remaining block place idiom =
      fail (.unsupportedIdiom (place.below .idiom idiom.kind.label) idiom.kind
        scope.language.tag) := by
  unfold idiomScript
  dsimp only
  rw [h]

/-- With no expansion left an idiom fails, and its expander is not asked. -/
theorem idiomScript_zero (h : registry.expander? scope.language.tag idiom.kind = some expander)
    (block : Block) (place : TreePath) :
    idiomScript registry scope 0 block place idiom =
      fail (.expansion (place.below .idiom idiom.kind.label) idiom.kind
        (.tooDeep expansionLimit)) := by
  unfold idiomScript
  dsimp only
  rw [h]

/-- Otherwise its expander is asked, and what that gives is written with one expansion less. -/
theorem idiomScript_succ (h : registry.expander? scope.language.tag idiom.kind = some expander)
    (remaining : Nat) (block : Block) (place : TreePath) :
    let here := place.below .idiom idiom.kind.label
    idiomScript registry scope (remaining + 1) block place idiom =
      expander.expand idiom ⟨scope.func, block, scope.language.tag, here⟩ >>=
        statementsScript (idiomScript registry scope remaining) scope block here 0 := by
  intro here
  conv => lhs; unfold idiomScript
  dsimp only
  rw [h]

end

/-! ### Bodies in a file -/

/-- A func that is written with its body in the file: a func of the file, or a method of one of
its structs. -/
def FileContents.HasBody (contents : FileContents) (tree : DeclTree) (id : FuncId) : Prop :=
  id ∈ contents.funcs ∨
    ∃ type ∈ contents.types, (tree.type type).kind = .struct ∧ id ∈ (tree.type type).methods

/-- The funcs that a file declares are its own and the methods of its types. -/
theorem func_mem_fileDeclarations {tree : DeclTree} {contents : FileContents} {id : FuncId} :
    Declaration.func id ∈ fileDeclarations tree contents ↔
      id ∈ contents.funcs ∨ ∃ type ∈ contents.types, id ∈ (tree.type type).methods := by
  have htype (type : TypeId) :
      Declaration.func id ∈ typeDeclarations tree type ↔ id ∈ (tree.type type).methods := by
    rcases hkind : (tree.type type).kind with _ | _
    · simp [typeDeclarations_of_struct hkind]
    · simp [typeDeclarations_of_interface hkind]
  simp [fileDeclarations, htype, or_comm]

variable {registry : Registry}

/-- The func is written like this, with its body: in Java, as a method of an object or of a
class. -/
def Dialect.WritesFunc (dialect : Dialect) (registry : Registry) (c : FileContext) (id : FuncId)
    (script : Script) : Prop :=
  match dialect with
  | .go => (goFunc registry id).Yields c script
  | .java => ∃ kind ≠ MethodForm.ofInterface, (javaMethod registry kind id).Yields c script

/-- **A func is written with its body.** -/
theorem Dialect.WritesFunc.exists_body {dialect : Dialect} {id : FuncId}
    (h : dialect.WritesFunc registry c id script) :
    ∃ body, (bodyScript registry (c.tree.func id) (c.tree.funcPath id)).Yields c body ∧
      body <:+: script := by
  cases dialect with
  | go =>
    obtain ⟨_, doc, _, body, _, _, _, hbody, rfl⟩ := yields_goFunc h
    exact ⟨body, hbody, (List.infix_append _ body _).trans (List.suffix_append _ _).isInfix⟩
  | java =>
    obtain ⟨kind, hkind, hmethod⟩ := h
    obtain ⟨_, _, _, _, _, body, _, _, hbody, rfl⟩ := exists_block_of_javaMethod hkind hmethod
    exact ⟨body, hbody, List.infix_append _ _ _⟩

theorem writesFunc_of_funcScript {dialect : Dialect} {id : FuncId}
    (h : (dialect.funcScript registry id).Yields c script) :
    dialect.WritesFunc registry c id script := by
  cases dialect with
  | go => exact h
  | java =>
    have hmethod := yields_context_bind.mp (show (javaFunc registry id).Yields c script from h)
    -- A func is a method of an object or of a class, and both have bodies.
    split at hmethod
    · exact ⟨.ofObject, by decide, hmethod⟩
    · exact ⟨.ofClass, by decide, hmethod⟩

theorem infix_separated {scripts : List Script} {own : Script} (h : own ∈ scripts) :
    own <:+: separated scripts := by
  induction scripts with
  | nil => cases h
  | cons script rest ih =>
    cases rest with
    | nil =>
      rw [List.mem_singleton] at h
      rw [h]
      exact List.infix_rfl
    | cons second others =>
      show own <:+: script ++ .blank :: separated (second :: others)
      rcases List.mem_cons.mp h with rfl | hmem
      · exact (List.prefix_append _ _).isInfix
      · exact (ih hmem).trans ((List.suffix_cons _ _).trans (List.suffix_append _ _)).isInfix

/-- What is written after a blank line among others is in what they make together. -/
theorem Spaced.exists_part {α : Type} {write : α → FileM Script} {items : List α}
    {scripts : List Script} (h : Spaced c write items scripts) {item : α} (hitem : item ∈ items) :
    ∃ own, (write item).Yields c own ∧ own <:+: scripts.flatten := by
  obtain ⟨_, hmem, own, hown, rfl⟩ := exists_related_of_mem h item hitem
  exact ⟨own, hown, (List.suffix_cons _ own).isInfix.trans (List.infix_of_mem_flatten hmem)⟩

theorem exists_func_of_typeScript {dialect : Dialect} {type : TypeId}
    (hstruct : (c.tree.type type).kind = .struct)
    (h : (dialect.typeScript registry type).Yields c script) {id : FuncId}
    (hid : id ∈ (c.tree.type type).methods) :
    ∃ own, dialect.WritesFunc registry c id own ∧ own <:+: script := by
  cases dialect with
  | go =>
    obtain ⟨_, methods, rfl, hmethods⟩ := yields_goTypeScript h
    rw [hstruct] at hmethods
    obtain ⟨own, hown, hinfix⟩ := hmethods.2.exists_part hid
    exact ⟨own, hown, hinfix.trans (List.suffix_append _ _).isInfix⟩
  | java =>
    obtain ⟨members, body, rfl, hclass, hmembers⟩ := yields_javaTypeScript h
    cases hclass with
    | empty =>
      rw [hmembers.2] at hid
      cases hid
    | body inner =>
      obtain ⟨_, methods, _, _, hmethods, _, rfl⟩ := yields_javaMembers hmembers
      obtain ⟨own, hmem, hown⟩ := exists_related_of_mem hmethods id hid
      have hkind : javaMethodForm (c.tree.type type) ≠ .ofInterface := by
        rw [javaMethodForm, hstruct]
        decide
      refine ⟨own, ⟨_, hkind, hown⟩, (infix_separated hmem).trans ?_⟩
      -- The methods are the last of the members, and these are all that is in the class.
      exact ((List.suffix_append _ _).isInfix.trans (List.infix_append _ _ _)).trans
        (List.suffix_append _ _).isInfix

theorem exists_of_plainScript {dialect : Dialect} {contents : FileContents}
    (h : (dialect.plainScript registry contents).Yields c script) :
    (∀ type ∈ contents.types, ∃ own, (dialect.typeScript registry type).Yields c own ∧
      own <:+: script) ∧
    ∀ id ∈ contents.funcs, ∃ own, (dialect.funcScript registry id).Yields c own ∧
      own <:+: script := by
  obtain ⟨types, funcs, htypes, hfuncs, rfl⟩ := yields_plainScript h
  constructor
  · intro type htype
    obtain ⟨own, hown, hinfix⟩ := htypes.exists_part htype
    exact ⟨own, hown, hinfix.trans (List.prefix_append _ _).isInfix⟩
  · intro id hid
    obtain ⟨own, hown, hinfix⟩ := hfuncs.exists_part hid
    exact ⟨own, hown, hinfix.trans (List.suffix_append _ _).isInfix⟩

/-- The declarations of a file are written one by one, however the language arranges them. -/
theorem exists_of_declsScript (h : (declsScript registry).Yields c script) :
    (∀ type ∈ c.contents.types, ∃ own,
      (c.language.dialect.typeScript registry type).Yields c own ∧ own <:+: script) ∧
    ∀ id ∈ c.contents.funcs, ∃ own,
      (c.language.dialect.funcScript registry id).Yields c own ∧ own <:+: script := by
  rcases hdialect : c.language.dialect with _ | _
  · exact exists_of_plainScript (yields_declsScript_of_go hdialect h)
  · rcases hderived : c.language.derived with _ | _
    · rcases yields_javaScript (yields_declsScript_of_java hdialect hderived h) with
        ⟨htypes, hfuncs, _⟩ | ⟨type, own, htypes, hfuncs, hown, rfl⟩ | ⟨_, _, hwrapped⟩
      · rw [htypes, hfuncs]
        simp
      · rw [htypes, hfuncs]
        have hinfix : own <:+: Step.blank :: own := (List.suffix_cons _ own).isInfix
        simpa using ⟨own, hown, hinfix⟩
      · obtain ⟨types, funcs, htypes, hfuncs, _, rfl⟩ := yields_javaWrapped hwrapped
        constructor
        · intro type htype
          obtain ⟨own, hmem, hown⟩ := exists_related_of_mem htypes type htype
          have hinfix := infix_separated (List.mem_append_left funcs hmem)
          exact ⟨own, hown, hinfix.trans (List.infix_append _ _ _)⟩
        · intro id hid
          obtain ⟨own, hmem, hown⟩ := exists_related_of_mem hfuncs id hid
          have hinfix := infix_separated (List.mem_append_right types hmem)
          exact ⟨own, hown, hinfix.trans (List.infix_append _ _ _)⟩
    · -- A language that only takes over the dialect arranges nothing.
      have hplain := yields_declsScript_of_derived hderived h
      rw [hdialect] at hplain
      exact exists_of_plainScript hplain

/-- **Every func with a body is written in its file.** -/
theorem exists_func_of_fileScript (h : (fileScript registry).Yields c script) {id : FuncId}
    (hid : c.contents.HasBody c.tree id) :
    ∃ own, c.language.dialect.WritesFunc registry c id own ∧ own <:+: script := by
  obtain ⟨decls, hdecls, rfl⟩ := yields_fileScript h
  obtain ⟨htypes, hfuncs⟩ := exists_of_declsScript hdecls
  have hbelow : decls <:+: fileTop c ++ decls := (List.suffix_append _ decls).isInfix
  rcases hid with hid | ⟨type, htype, hstruct, hid⟩
  · obtain ⟨own, hown, hinfix⟩ := hfuncs id hid
    exact ⟨own, writesFunc_of_funcScript hown, hinfix.trans hbelow⟩
  · obtain ⟨members, hmembers, hinfix⟩ := htypes type htype
    obtain ⟨own, hown, hmember⟩ := exists_func_of_typeScript hstruct hmembers hid
    exact ⟨own, hown, (hmember.trans hinfix).trans hbelow⟩

/-- **Every body of a file is written,** its lines together. -/
theorem exists_body_of_fileScript (h : (fileScript registry).Yields c script) {id : FuncId}
    (hid : c.contents.HasBody c.tree id) :
    ∃ body, (bodyScript registry (c.tree.func id) (c.tree.funcPath id)).Yields c body ∧
      body <:+: script := by
  obtain ⟨own, hown, hfile⟩ := exists_func_of_fileScript h hid
  obtain ⟨body, hbody, hinfix⟩ := hown.exists_body
  exact ⟨body, hbody, hinfix.trans hfile⟩

end DeclPrinter
