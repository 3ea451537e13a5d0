import DeclPrinter.Proofs.Tree.Part
import DeclPrinter.Proofs.Writing.Agreement

/-!
# What a file rests on

A file is written in the whole tree, but it rests on a part of it only: what is closed and has the
module, the package and the declarations of the file (`FileContext.RestsOn`). In any other tree
that has this part in common, with any unit of indentation and under any preamble, the same is
written for its declarations, failures and references included. Metadata may differ, but for that
of fields in Go, which is written as their tags. `FileM.Same` says so of a computation; it is kept
by all that computations are made of, so that it is proved of each function of the writer along its
definition.

What is in bodies is written for these bodies alone. All else is the same in trees that have the
part in common but for it (`FileContext.SharesDeclarations`).
-/

namespace DeclPrinter

/-- What stands around the declarations of a file and has no part in how they are written. -/
structure Frame where
  /-- The unit of indentation. -/
  indentUnit : String
  /-- The preamble. -/
  preamble : Option String

/-- The context in another tree, with another frame. -/
def FileContext.inTree (c : FileContext) (tree : DeclTree) (frame : Frame) : FileContext :=
  { c with
    tree := tree
    indentUnit := frame.indentUnit
    contents := { c.contents with preamble := frame.preamble } }

/-- What the file looks at is in a part of its tree that the other tree has as well, but for
metadata that is not written and for what is in bodies. -/
structure FileContext.SharesDeclarations (c : FileContext) (part : TreeNode → Prop)
    (other : DeclTree) : Prop where
  /-- The part is closed. -/
  closed : c.tree.Closed part
  /-- The other tree has it. -/
  alike : DeclTree.AlikeWithin part c.tree other
  /-- Fields that have tags have the same metadata. -/
  tags : c.language.dialect = .go → ∀ type ∈ c.contents.types, ∀ id ∈ (c.tree.type type).fields,
    (other.field id).markers = (c.tree.field id).markers
  module : part (.module c.module)
  package : part (.package c.package)
  types : ∀ id ∈ c.contents.types, part (.type id)
  funcs : ∀ id ∈ c.contents.funcs, part (.func id)

/-- What the file looks at is in a part of its tree that the other tree has as well, but for
metadata that is not written. -/
structure FileContext.RestsOn (c : FileContext) (part : TreeNode → Prop) (other : DeclTree) : Prop
    extends c.SharesDeclarations part other where
  /-- Funcs of the part have the same bodies. -/
  bodies : ∀ {id}, part (.func id) → (other.func id).body = (c.tree.func id).body

/-- A tree that is the same without metadata and without what is in bodies shares all. -/
theorem FileContext.SharesDeclarations.of_hollow {c : FileContext} {other : DeclTree}
    (h : other.hollow = c.tree.hollow)
    (htags : c.language.dialect = .go → ∀ type ∈ c.contents.types,
      ∀ id ∈ (c.tree.type type).fields, (other.field id).markers = (c.tree.field id).markers) :
    c.SharesDeclarations (fun _ => True) other where
  closed := c.tree.closed_all
  alike := .of_hollow h
  tags := htags
  module := trivial
  package := trivial
  types := fun _ _ => trivial
  funcs := fun _ _ => trivial

namespace FileM

variable {α β : Type} {c : FileContext} {other : DeclTree} {frame : Frame}

/-- The computation does in the other tree what it does in the context. -/
def Same (c : FileContext) (other : DeclTree) (frame : Frame) (x : FileM α) : Prop :=
  x.run (c.inTree other frame) = x.run c

namespace Same

/-- What is the same agrees, however much it might differ. -/
theorem agree {F : Failure → Failure → Prop} {x : FileM α} (h : Same c other frame x)
    (hfailures : Equivalence F) : Agree F Eq c (c.inTree other frame) x x := by
  unfold Agree
  rw [h]
  exact Agree.self hfailures x

theorem of_agree {x : FileM α} (h : Agree Eq Eq c (c.inTree other frame) x x) :
    Same c other frame x :=
  h.eq.symm

theorem pure (value : α) : Same c other frame (pure value) :=
  rfl

theorem fail (failure : Failure) : Same c other frame (fail failure : FileM α) :=
  rfl

theorem note (reference : Reference) : Same c other frame (note reference) :=
  rfl

/-- **One computation after another** is the same if the first is, and what follows is on the
value of the first. -/
theorem bind {x : FileM α} {f : α → FileM β} (h : Same c other frame x)
    (hrest : ∀ value, x.Yields c value → Same c other frame (f value)) :
    Same c other frame (x >>= f) := by
  apply of_agree
  apply (h.agree eq_equivalence).bindEq
  intro value hvalue
  exact (hrest value hvalue).agree eq_equivalence

/-- A computation of which something is made at the end. -/
theorem last {x : FileM α} {f : α → β} (h : Same c other frame x) :
    Same c other frame (x >>= fun value => Pure.pure (f value)) :=
  h.bind fun value _ => pure (f value)

theorem mapM {f : α → FileM β} {inputs : List α}
    (h : ∀ input ∈ inputs, Same c other frame (f input)) :
    Same c other frame (inputs.mapM f) :=
  of_agree (Agree.mapM_eq fun input hinput => (h input hinput).agree eq_equivalence)

/-- What follows on the context is the same if it is the same computation in both. -/
theorem context {f : FileContext → FileM α} (hsame : f (c.inTree other frame) = f c)
    (h : Same c other frame (f c)) : Same c other frame (FileM.context >>= f) := by
  show (f (c.inTree other frame)).run (c.inTree other frame) = (f c).run c
  rw [hsame]
  exact h

/-- **What follows on a computation that is the same** has to agree on each of its values. -/
theorem bindAgree {F : Failure → Failure → Prop} {R : β → β → Prop} {x : FileM α}
    {f g : α → FileM β} (h : Same c other frame x) (hfailures : Equivalence F)
    (hrest : ∀ value, x.Yields c value → Agree F R c (c.inTree other frame) (f value) (g value)) :
    Agree F R c (c.inTree other frame) (x >>= f) (x >>= g) :=
  (h.agree hfailures).bindEq hrest

end Same

/-! ### Spelling -/

theorem same_spell (reference : Reference) : Same c other frame (spell reference) := by
  unfold spell
  apply (Same.note reference).bind
  intro _ _
  apply Same.context rfl
  cases c.imports <;> exact Same.pure _

section

variable {part : TreeNode → Prop} (h : c.SharesDeclarations part other)

include h

theorem target?_inTree (symbol : Symbol) :
    (c.inTree other frame).target? symbol = c.target? symbol := by
  unfold FileContext.target? FileContext.inTree
  dsimp only
  rw [h.alike.declaredTarget? h.closed h.module h.package]

/-- What a symbol names in the tree is in the part. -/
theorem part_of_meaning {symbol : Symbol} {place : TreePath} {id : TypeId}
    (hid : (meaning symbol place).Yields c (.declared id)) : part (.type id) := by
  unfold meaning at hid
  have hid := yields_context_bind.mp hid
  rcases htarget : c.target? symbol with _ | target
  · rw [htarget] at hid
    exact absurd hid not_yields_fail
  · rw [htarget] at hid
    obtain rfl := yields_pure.mp hid
    unfold FileContext.target? at htarget
    split at htarget
    · rename_i own hown
      obtain rfl : own = id := SymbolTarget.declared.inj (Option.some.inj htarget)
      exact h.closed.of_declaredTarget? h.module h.package hown
    · obtain ⟨_, _, htarget⟩ := Option.map_eq_some_iff.mp htarget
      cases htarget

theorem same_spellDeclared {id : TypeId} (hid : part (.type id)) :
    Same c other frame (spellDeclared id) := by
  unfold spellDeclared
  apply Same.context
  · unfold FileContext.inTree
    dsimp only
    rw [h.alike.type hid, h.alike.packageOfType h.closed hid,
      h.alike.neighbourTypeName h.closed hid, h.alike.typeReference h.closed hid]
  · split
    · exact Same.pure _
    · split
      · exact Same.pure _
      · exact same_spell _

end

end FileM

end DeclPrinter
