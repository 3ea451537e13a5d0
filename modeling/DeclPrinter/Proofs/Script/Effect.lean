import DeclPrinter.Proofs.Script

/-!
# Scripts with the same effect

Two scripts may differ and still do the same to whatever is written before them
(`Script.SameEffect`). Then one may stand for the other in any script, and the text that comes of it
is the same. Continuing a line by nothing is such a difference.
-/

namespace DeclPrinter

/-- Whatever is written already, the scripts bring it to the same lines. -/
def Script.SameEffect (first second : Script) : Prop :=
  ∀ buffer : LineBuffer, buffer.run first = buffer.run second

namespace Script.SameEffect

variable {first second third before after : Script}

theorem refl (script : Script) : script.SameEffect script :=
  fun _ => rfl

theorem symm (h : first.SameEffect second) : second.SameEffect first :=
  fun buffer => (h buffer).symm

theorem trans (h : first.SameEffect second) (hrest : second.SameEffect third) :
    first.SameEffect third :=
  fun buffer => (h buffer).trans (hrest buffer)

/-- Scripts with the same effect may stand for each other before and after others that do. -/
theorem append (hfirst : first.SameEffect second) (hrest : before.SameEffect after) :
    Script.SameEffect (first ++ before) (second ++ after) := by
  intro buffer
  rw [LineBuffer.run_append, LineBuffer.run_append, hfirst, hrest]

/-- **Continuing a line by nothing** is doing nothing. -/
theorem append_nothing : Script.SameEffect [.append ""] [] := by
  rintro ⟨lines, level⟩
  cases lines with
  | nil => rfl
  | cons last earlier =>
    show (⟨{ last with text := last.text ++ "" } :: earlier, level⟩ : LineBuffer) = _
    rw [String.append_empty]
    rfl

theorem text_eq (h : first.SameEffect second) (indentUnit : String) :
    first.text indentUnit = second.text indentUnit := by
  rw [Script.text, Script.text, h]

end Script.SameEffect

end DeclPrinter
