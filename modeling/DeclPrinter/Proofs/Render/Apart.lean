import DeclPrinter.Proofs.Render.Plan
import DeclPrinter.Proofs.Render.Run
import DeclPrinter.Proofs.Script.Appending
import DeclPrinter.Proofs.Tree.Additions
import DeclPrinter.Proofs.Writing.Printed

/-!
# Declarations do not touch each other

Terminators and chained clauses continue a line, and a blank line is left out where there is one.
But a declaration begins with a line of its own, so whatever is continued or looked at in it is in
it. It only adds lines, and it adds the same ones wherever it stands at that level
(`appends_of_typeScript`, `appends_of_funcScript`). So a Go file is what each of its declarations
writes on its own, with blank lines between (`declarations_apart`).
-/

namespace DeclPrinter

open FileM Script

variable {c : FileContext} {registry : Registry} {script : Script}

/-! ### Go -/

theorem beginsWithLine_goComment (lines : List String) : BeginsWithLine (goComment lines) := by
  rw [goComment_eq]
  exact .lines _

/-- A func begins and ends with a line. -/
theorem bounds_goFunc {id : FuncId} (h : (goFunc registry id).Yields c script) :
    script.BeginsWithLine ∧ script.EndsInText := by
  obtain ⟨_, doc, _, body, _, _, _, _, rfl⟩ := yields_goFunc h
  have hcomment : BeginsWithLine (goFuncComment doc) :=
    (beginsWithLine_goComment _).append (beginsWithLine_goComment _)
  exact ⟨hcomment.append (.line _ _), (EndsInText.block rfl rfl _ body).after _⟩

theorem Script.EndsInText.emptyBraces (front : String) :
    EndsInText [.line (front ++ "\x7b\x7d")] :=
  ⟨[], front ++ "\x7b\x7d", '\x7d', rfl, by simp, rfl⟩

theorem bounds_goStruct {type : TypeNode} {name : String}
    (h : (goStruct type name).Yields c script) : script.BeginsWithLine ∧ script.EndsInText := by
  rcases yields_goStruct h with ⟨_, rfl⟩ | ⟨rows, _, rfl⟩
  · have htext : " struct\x7b\x7d" = " struct" ++ "\x7b\x7d" := rfl
    rw [htext, ← String.append_assoc]
    exact ⟨.line _ _, .emptyBraces _⟩
  · exact ⟨.line _ _, EndsInText.block rfl rfl _ _⟩

theorem bounds_goInterface {type : TypeNode} {name : String}
    (h : (goInterface type name).Yields c script) : script.BeginsWithLine ∧ script.EndsInText := by
  rcases yields_goInterface h with ⟨_, rfl⟩ | ⟨methods, _, rfl⟩
  · have htext : " interface\x7b\x7d" = " interface" ++ "\x7b\x7d" := rfl
    rw [htext, ← String.append_assoc]
    exact ⟨.line _ _, .emptyBraces _⟩
  · exact ⟨.line _ _, EndsInText.block rfl rfl _ _⟩

/-- A type begins with a line, and it ends with one, be it that of its last method. -/
theorem bounds_goTypeScript {id : TypeId} (h : (goTypeScript registry id).Yields c script) :
    script.BeginsWithLine ∧ script.EndsInText := by
  obtain ⟨declaration, methods, rfl, hdeclaration⟩ := yields_goTypeScript h
  have hbounds : BeginsWithLine declaration ∧ EndsInText declaration := by
    split at hdeclaration
    · exact bounds_goStruct hdeclaration.1
    · exact bounds_goInterface hdeclaration.1
  -- Each method comes after a blank line; an interface has none below it.
  have hmethods : ∀ method ∈ methods, EndsInText method := by
    intro method hmethod
    split at hdeclaration
    · obtain ⟨_, _, own, hown, rfl⟩ := exists_of_mem_of_forall₂ hdeclaration.2 method hmethod
      exact (bounds_goFunc hown).2.after [.blank]
    · rw [hdeclaration.2] at hmethod
      cases hmethod
  generalize Comment.lines _ _ = lines
  have hends := hbounds.2.after (goComment lines)
  have hbegins := (beginsWithLine_goComment lines).append hbounds.1
  exact ⟨hbegins.append_of_ne_nil hends.ne_nil _, hends.join_flatten hmethods⟩

/-! ### Java -/

theorem beginsWithLine_docComment (lines : List String) : BeginsWithLine (docComment lines) := by
  unfold docComment
  split
  · exact .nil
  · exact .line _ _
  · exact .line _ _

theorem beginsWithLine_javaMethod {kind : MethodForm} {id : FuncId}
    (h : (javaMethod registry kind id).Yields c script) : script.BeginsWithLine := by
  obtain ⟨record, doc, returns, params, body, rfl, hrecord, _, hbody⟩ := yields_javaMethod h
  have hrecord : BeginsWithLine record := by
    generalize javaRecordName? (c.tree.func id) = name at hrecord
    cases hrecord with
    | nothing => exact .nil
    | record components _ => exact .line _ _
  have hbody : BeginsWithLine body := by
    cases hbody with
    | signature => exact .line _ _
    | body _ => exact .line _ _
  exact (hrecord.append (beginsWithLine_docComment _)).append hbody

theorem beginsWithLine_javaTypeScript {id : TypeId}
    (h : (javaTypeScript registry id).Yields c script) : script.BeginsWithLine := by
  obtain ⟨lines, body, rfl, hbody⟩ := classBlock_of_javaTypeScript h
  obtain ⟨text, rest, rfl, _⟩ := hbody.exists_head
  exact (beginsWithLine_docComment lines).append (.line text rest)

/-! ### Declarations -/

/-- **A type only adds lines,** whatever is written already. -/
theorem appends_of_typeScript {dialect : Dialect} {id : TypeId}
    (h : (dialect.typeScript registry id).Yields c script) : script.Appends := by
  cases dialect with
  | go => exact (wellNested_goTypeScript h).appends (bounds_goTypeScript h).1
  | java => exact (wellNested_javaTypeScript h).appends (beginsWithLine_javaTypeScript h)

/-- **A func only adds lines,** whatever is written already. -/
theorem appends_of_funcScript {dialect : Dialect} {id : FuncId}
    (h : (dialect.funcScript registry id).Yields c script) : script.Appends := by
  cases dialect with
  | go => exact (wellNested_goFunc h).appends (bounds_goFunc h).1
  | java =>
    obtain ⟨_, hmethod⟩ := yields_javaFunc h
    exact (wellNested_javaFunc h).appends (beginsWithLine_javaMethod hmethod)

/-! ### Files -/

/-- Declarations after blank lines, without these. -/
theorem Spaced.exists_own {α : Type} {write : α → FileM Script} {items : List α}
    {scripts : List Script} (h : Spaced c write items scripts) :
    ∃ owns, List.Forall₂ (fun item own => (write item).Yields c own) items owns ∧
      scripts = owns.map (.blank :: ·) := by
  induction h with
  | nil => exact ⟨[], .nil, rfl⟩
  | cons hfirst _ ih =>
    obtain ⟨own, hown, rfl⟩ := hfirst
    obtain ⟨owns, howns, rfl⟩ := ih
    exact ⟨own :: owns, .cons hown howns, rfl⟩

/-- Above the declarations something is written, at least the package clause. -/
theorem lines_fileTop_ne_nil (c : FileContext) :
    (LineBuffer.empty.run (fileTop c)).lines ≠ [] := by
  -- In both dialects the package clause ends with a line, and no step takes a line away.
  obtain ⟨before, text, hclause⟩ : ∃ before text,
      c.language.dialect.packageClause (c.tree.module c.module) (c.tree.package c.package)
        c.contents.doc = before ++ [.line text] := by
    cases c.language.dialect with
    | go => exact ⟨_, _, rfl⟩
    | java => exact ⟨_, _, rfl⟩
  let above := LineBuffer.empty.run (preambleScript c.contents.preamble ++ before)
  have hrun : LineBuffer.empty.run (fileTop c) =
      (above.step (.line text)).run (importScript c.language c.imports) := by
    rw [fileTop, hclause, ← List.append_assoc, LineBuffer.run_append, LineBuffer.run_append]
    rfl
  rw [hrun]
  apply LineBuffer.lines_run_ne_nil
  simp [LineBuffer.step, LineBuffer.push, LineBuffer.splitLines_ne_nil]

/-- The lines of a Go file are those above the declarations, and then for each type and each func a
blank line and the lines that it writes alone. Only the blank line before the first of them may
have been there: a package name can end in a line break. -/
theorem exists_linesFrom_of_go (hgo : c.language.dialect = .go)
    (h : (fileScript registry).Yields c script) :
    ∃ types funcs above,
      List.Forall₂ (fun id own => (goTypeScript registry id).Yields c own)
        c.contents.types types ∧
      List.Forall₂ (fun id own => (goFunc registry id).Yields c own) c.contents.funcs funcs ∧
      ((fileTop c).linesFrom 0 = above ∨ (fileTop c).linesFrom 0 = above ++ [.blank]) ∧
      script.linesFrom 0 =
        above ++ (types ++ funcs).flatMap (fun own => .blank :: own.linesFrom 0) ∧
      (types ++ funcs ≠ [] → script.lines = script.linesFrom 0) := by
  obtain ⟨decls, hdecls, rfl⟩ := yields_fileScript h
  obtain ⟨_, _, hspacedTypes, hspacedFuncs, rfl⟩ :=
    yields_goScript (yields_declsScript_of_go hgo hdecls)
  obtain ⟨types, htypes, rfl⟩ := hspacedTypes.exists_own
  obtain ⟨funcs, hfuncs, rfl⟩ := hspacedFuncs.exists_own
  -- Each declaration only appends and does not end in a blank line, so the one after it is kept.
  have howns : ∀ own ∈ types ++ funcs, own.Appends ∧ own.EndsInText := by
    intro own hown
    rcases List.mem_append.mp hown with htype | hfunc
    · obtain ⟨id, _, hid⟩ := exists_of_mem_of_forall₂ htypes own htype
      have htypeScript : (Dialect.go.typeScript registry id).Yields c own := hid
      exact ⟨appends_of_typeScript htypeScript, (bounds_goTypeScript hid).2⟩
    · obtain ⟨id, _, hid⟩ := exists_of_mem_of_forall₂ hfuncs own hfunc
      have hfuncScript : (Dialect.go.funcScript registry id).Yields c own := hid
      exact ⟨appends_of_funcScript hfuncScript, (bounds_goFunc hid).2⟩
  rw [← List.flatten_append, ← List.map_append, ← List.flatMap_def]
  obtain ⟨above, habove⟩ :=
    exists_linesFrom_spaced (levelAfter_fileTop c) (lines_fileTop_ne_nil c) howns
  exact ⟨types, funcs, above, htypes, hfuncs, habove⟩

/-- **Declarations are written one after another without touching each other.** In either dialect
a type or a func only adds lines to those that are there, and which ones it adds depends on the
level at which it stands alone. In a Go file each stands after a blank line, in declared order. -/
theorem declarations_apart (registry : Registry) (c : FileContext) :
    (∀ script, ((∃ id, (c.language.dialect.typeScript registry id).Yields c script) ∨
        ∃ id, (c.language.dialect.funcScript registry id).Yields c script) → script.Appends) ∧
    (c.language.dialect = .go → ∀ script, (fileScript registry).Yields c script →
      ∃ types funcs above,
        List.Forall₂ (fun id own => (goTypeScript registry id).Yields c own)
          c.contents.types types ∧
        List.Forall₂ (fun id own => (goFunc registry id).Yields c own) c.contents.funcs funcs ∧
        ((fileTop c).linesFrom 0 = above ∨ (fileTop c).linesFrom 0 = above ++ [.blank]) ∧
        script.linesFrom 0 =
          above ++ (types ++ funcs).flatMap (fun own => .blank :: own.linesFrom 0) ∧
        (types ++ funcs ≠ [] → script.lines = script.linesFrom 0)) := by
  constructor
  · rintro script (⟨id, htype⟩ | ⟨id, hfunc⟩)
    · exact appends_of_typeScript htype
    · exact appends_of_funcScript hfunc
  · intro hgo script hscript
    exact exists_linesFrom_of_go hgo hscript

/-- A file with a type and a func has two blank lines that neither writes. -/
theorem declarations_apart_row :
    let job := RenderJob.ofTree (.ofMembers "go" "Row" ["Name"] ["Load"] [] ["Open"])
    let c := job.writingContext (Plan.treeFile job.tree .go ⟨0⟩ ⟨0⟩ none ⟨0⟩)
    ∃ script type func, (fileScript job.registry).Yields c script ∧
      (goTypeScript job.registry ⟨0⟩).Yields c type ∧ (goFunc job.registry ⟨1⟩).Yields c func ∧
      script.lines = ⟨0, "package lib"⟩ :: .blank :: type.linesFrom 0 ++ .blank ::
        func.linesFrom 0 := by
  intro job c
  have hwritten : ((fileScript job.registry).run c).result.isOk = true := by decide +kernel
  obtain ⟨script, hscript⟩ := exists_of_isOk hwritten
  obtain ⟨types, funcs, above, htypes, hfuncs, habove, hlines, hkept⟩ :=
    (declarations_apart job.registry c).2 rfl script hscript
  obtain ⟨type, _, htype, hnone, rfl⟩ := List.forall₂_cons_left_iff.mp htypes
  cases hnone
  obtain ⟨func, _, hfunc, hnone, rfl⟩ := List.forall₂_cons_left_iff.mp hfuncs
  cases hnone
  have htop : (fileTop c).linesFrom 0 = [⟨0, "package lib"⟩] := by decide +kernel
  -- The clause is no blank line, so what stands above is the clause alone.
  obtain rfl : above = [⟨0, "package lib"⟩] := by
    rcases habove with hsame | hblank
    · rw [← hsame, htop]
    · rw [htop] at hblank
      have hlast := congrArg List.getLast? hblank
      simp [Line.blank] at hlast
  refine ⟨script, type, func, hscript, htype, hfunc, ?_⟩
  rw [hkept (by simp), hlines]
  simp

end DeclPrinter
