import DeclPrinter.Proofs.Script
import DeclPrinter.Proofs.Writing.Yields

/-!
# Code with documentation in it

The documentation in a file is comments, each right above a line of code (`Interleaves`): one for
each of the things that are documented, in their order (`Annotates`). Scripts one after another
have the documentation of all of them in them, and code around a script adds none.
-/

namespace DeclPrinter

/-! ### Code with comments in it -/

/-- The script is code with these comments in it, in order, each above a line of code. -/
inductive Interleaves : List Script → Script → Prop where
  | nil : Interleaves [] []
  | code (step : Step) {comments : List Script} {script : Script}
      (h : Interleaves comments script) : Interleaves comments (step :: script)
  | comment (comment : Script) (text : String) {comments : List Script} {script : Script}
      (h : Interleaves comments script) :
      Interleaves (comment :: comments) (comment ++ .line text :: script)

namespace Interleaves

variable {first second : List Script} {script other : Script}

theorem ofCode (script : Script) : Interleaves [] script := by
  induction script with
  | nil => exact .nil
  | cons step rest ih => exact .code step ih

theorem append (hfirst : Interleaves first script) (hsecond : Interleaves second other) :
    Interleaves (first ++ second) (script ++ other) := by
  induction hfirst with
  | nil => exact hsecond
  | code step _ ih => exact .code step ih
  | comment comment text _ ih =>
    rw [List.cons_append, List.append_assoc, List.cons_append]
    exact .comment comment text ih

theorem flatMap {α : Type} {items : List α} {comments : α → List Script} {code : α → Script}
    (h : ∀ item ∈ items, Interleaves (comments item) (code item)) :
    Interleaves (items.flatMap comments) (items.flatMap code) := by
  induction items with
  | nil => exact .nil
  | cons item rest ih =>
    rw [List.flatMap_cons, List.flatMap_cons]
    have hrest := ih fun other hother => h other (List.mem_cons_of_mem item hother)
    exact (h item List.mem_cons_self).append hrest

/-- Each of the comments stands in the script, above a line of code. -/
theorem exists_of_mem {comments : List Script} (h : Interleaves comments script)
    {comment : Script} (hmem : comment ∈ comments) :
    ∃ before text after, script = before ++ (comment ++ .line text :: after) := by
  induction h with
  | nil => cases hmem
  | code step _ ih =>
    obtain ⟨before, text, after, rfl⟩ := ih hmem
    exact ⟨step :: before, text, after, rfl⟩
  | comment own text _ ih =>
    rcases List.mem_cons.mp hmem with rfl | hmem
    · exact ⟨[], text, _, rfl⟩
    · obtain ⟨before, line, after, rfl⟩ := ih hmem
      exact ⟨own ++ .line text :: before, line, after, by simp⟩

/-- **What a comment writes stays in the file,** as it was written. -/
theorem exists_lines {comments : List Script} (h : Interleaves comments script)
    {comment : Script} (hmem : comment ∈ comments) :
    ∃ before above, ∀ lines, (LineBuffer.empty.run before).run comment =
        (LineBuffer.empty.run before).push lines →
      (LineBuffer.empty.run script).lines =
        above ++ (lines.reverse ++ (LineBuffer.empty.run before).lines) := by
  obtain ⟨before, text, after, rfl⟩ := h.exists_of_mem hmem
  obtain ⟨above, habove⟩ := LineBuffer.exists_lines_run_line
    ((LineBuffer.empty.run before).run comment) text after
  refine ⟨before, above, fun lines hlines => ?_⟩
  rw [LineBuffer.run_append, LineBuffer.run_append, habove, hlines]
  rfl

end Interleaves

/-! ### Comments for what is documented -/

/-- The script has comments in it for the items, in order: such as `R` allows for each, and as
they are written. -/
def Annotates {α δ : Type} (R : α → δ → Prop) (write : δ → Script) (items : List α)
    (script : Script) : Prop :=
  ∃ docs, List.Forall₂ R items docs ∧ Interleaves (docs.map write) script

namespace Annotates

variable {α β δ : Type} {R : α → δ → Prop} {write : δ → Script} {items others : List α}
  {script other : Script}

theorem code (script : Script) : Annotates R write [] script :=
  ⟨[], .nil, Interleaves.ofCode script⟩

theorem append (hfirst : Annotates R write items script)
    (hsecond : Annotates R write others other) :
    Annotates R write (items ++ others) (script ++ other) := by
  obtain ⟨first, hfirstDocs, hscript⟩ := hfirst
  obtain ⟨second, hsecondDocs, hother⟩ := hsecond
  refine ⟨first ++ second, List.rel_append hfirstDocs hsecondDocs, ?_⟩
  rw [List.map_append]
  exact hscript.append hother

/-- Code after what is documented. -/
theorem before (h : Annotates R write items script) (other : Script) :
    Annotates R write items (script ++ other) := by
  have hcode := h.append (code other)
  rwa [List.append_nil] at hcode

/-- Code in front of what is documented. -/
theorem after (h : Annotates R write items script) (other : Script) :
    Annotates R write items (other ++ script) :=
  (code other).append h

/-- Documentation right above a line of code. -/
theorem ofDoc {item : α} {doc : δ} (h : R item doc) (text : String) (rest : Script) :
    Annotates R write [item] (write doc ++ .line text :: rest) :=
  ⟨[doc], .cons h .nil, .comment (write doc) text (Interleaves.ofCode rest)⟩

theorem flatten {f : β → List α} {parts : List β} {scripts : List Script}
    (h : List.Forall₂ (fun part script => Annotates R write (f part) script) parts scripts) :
    Annotates R write (parts.flatMap f) scripts.flatten := by
  induction h with
  | nil => exact code []
  | cons hfirst _ ih =>
    rw [List.flatMap_cons, List.flatten_cons]
    exact hfirst.append ih

/-- With blank lines between scripts. -/
theorem separated {parts : List (List α)} {scripts : List Script}
    (h : List.Forall₂ (Annotates R write) parts scripts) :
    Annotates R write parts.flatten (separated scripts) := by
  induction h with
  | nil => exact code []
  | @cons part script parts scripts hfirst hrest ih =>
    rw [List.flatten_cons]
    cases hrest with
    | nil =>
      rw [List.flatten_nil, List.append_nil]
      exact hfirst
    | cons _ _ => exact hfirst.append (ih.after [.blank])

end Annotates

/-- Declarations after blank lines. -/
theorem Spaced.annotates {α β δ : Type} {c : FileContext} {R : β → δ → Prop} {write : δ → Script}
    {declare : α → FileM Script} {f : α → List β} {items : List α} {scripts : List Script}
    (h : Spaced c declare items scripts)
    (hdeclare : ∀ item script, (declare item).Yields c script →
      Annotates R write (f item) script) :
    Annotates R write (items.flatMap f) scripts.flatten := by
  refine Annotates.flatten (h.imp fun item script hitem => ?_)
  obtain ⟨own, hown, rfl⟩ := hitem
  exact (hdeclare item own hown).after [.blank]

end DeclPrinter
