import DeclPrinter.Proofs.Render.Plan
import DeclPrinter.Proofs.Render.Run
import DeclPrinter.Proofs.Script.Continuing
import DeclPrinter.Proofs.Tree.Additions
import DeclPrinter.Proofs.Writing.Expansion

/-!
# Blocks keep their indentation

What is written in a block is written line by line, at the level of the block or further in. A line
is continued in two places: a statement is ended by the terminator, and a chained clause opens on
the line that closes the block before it. The header of such a clause is put there as it is, and if
it has several lines, the later ones start at the margin.

So the lines of a block keep its level if the later lines in the headers of its chained clauses do
so by themselves, and no terminator follows a blank line (`nested_keepsLevel_iff`). The header of
the block itself may have any lines.
-/

namespace DeclPrinter

open FileM

namespace BodyTask

variable (registry : Registry) (scope : BodyScope) (c : FileContext)

/-- The clauses that are chained to blocks within the task have this opening among theirs. -/
def OpensClause (start : BodyTask) (opening : String) : Prop :=
  ∃ depth place clause header,
    Relation.ReflTransGen (Calls registry scope c) start (.clauses depth place (some clause)) ∧
      (spellHeader place clause.header).Yields c header ∧
      opening = scope.language.blockOpening header

/-- What the task writes is lines, and what continues them. Clauses start on the line that closes
a block. -/
def WritesLines (terminator : String) (opens : String → Prop) : BodyTask → Script → Prop
  | .clauses _ _ _, script => BlockLines terminator opens (.line "\x7d" :: script)
  | _, script => BlockLines terminator opens script

variable {registry scope c}

theorem blockLines_blockComment {terminator : String} {opens : String → Prop} (language : Language)
    (doc : Option String) : BlockLines terminator opens (blockComment language doc) := by
  have hlines : BlockLines terminator opens _ := .lines ((Comment.lines "" doc).map fun line =>
    language.commentMark ++ " " ++ Text.trimStart line)
  rwa [List.map_map] at hlines

/-- **Every task writes lines,** whatever it comes to. -/
theorem writesLines_of_reached {start : BodyTask} (task : BodyTask) :
    Relation.ReflTransGen (Calls registry scope c) start task →
      ∀ script, (task.script registry scope).Yields c script →
        task.WritesLines scope.language.terminator (OpensClause registry scope c start) script := by
  -- What the tasks that this one comes to write is known.
  induction task using (wellFounded_calls registry scope c).induction with | _ task ih
  intro hreached script h
  have hcall {callee : BodyTask} {own : Script} (hcalls : Calls registry scope c task callee)
      (hown : (callee.script registry scope).Yields c own) :
      callee.WritesLines scope.language.terminator (OpensClause registry scope c start) own :=
    ih callee hcalls (hreached.tail hcalls) own hown
  cases task with
  | statements depth block place index rest =>
    cases rest with
    | nil =>
      obtain rfl := yields_pure.mp h
      exact .nil
    | cons first rest =>
      rw [BodyTask.script, statementsScript] at h
      obtain ⟨own, hown, h⟩ := yields_bind.mp h
      obtain ⟨others, hothers, h⟩ := yields_bind.mp h
      obtain rfl := yields_pure.mp h
      refine BlockLines.join ?_ (hcall (.rest depth block place index rest hown) hothers)
      cases first with
      | code code =>
        rw [statementScript] at hown
        obtain ⟨text, _, hline⟩ := yields_bind.mp hown
        obtain rfl := yields_pure.mp hline
        exact .line text
      | terminator =>
        obtain rfl := yields_pure.mp hown
        exact .terminator
      | block inner => exact hcall (.nested depth block inner place index rest) hown
      | invoke idiom => exact hcall (.idiom depth block place index idiom rest) hown
  | nested depth place inner =>
    obtain ⟨doc, header, statements, chained⟩ := inner
    rw [BodyTask.script, blockScript] at h
    obtain ⟨opening, hopening, h⟩ := yields_bind.mp h
    obtain ⟨body, hbody, h⟩ := yields_bind.mp h
    obtain ⟨clauses, hclauses, h⟩ := yields_bind.mp h
    obtain rfl := yields_pure.mp h
    have hbelow := hcall (.chained depth place _ hopening hbody) hclauses
    have hinside := hcall (.body depth place _ hopening) hbody
    have hblock := (BlockLines.line (scope.language.blockOpening opening)).join
      (hinside.nest.join hbelow)
    have hall := (blockLines_blockComment scope.language doc).join hblock
    simpa [WritesLines, Language.blockClosing] using hall
  | clauses depth place chained =>
    cases chained with
    | none =>
      obtain rfl := yields_pure.mp h
      exact .line "\x7d"
    | some clause =>
      have hopens {opening : Option String}
          (hopening : (spellHeader place clause.header).Yields c opening) :
          OpensClause registry scope c start (scope.language.blockOpening opening) :=
        ⟨depth, place, clause, opening, hreached, hopening, rfl⟩
      obtain ⟨doc, header, statements, chained⟩ := clause
      rw [BodyTask.script, clausesScript] at h
      obtain ⟨opening, hopening, h⟩ := yields_bind.mp h
      obtain ⟨body, hbody, h⟩ := yields_bind.mp h
      obtain ⟨clauses, hclauses, h⟩ := yields_bind.mp h
      obtain rfl := yields_pure.mp h
      have hbelow := hcall (.nextClause depth place _ hopening hbody) hclauses
      have hinside := hcall (.clauseBody depth place _ hopening) hbody
      have hall := ((BlockLines.clause (hopens hopening)).join
        ((blockLines_blockComment scope.language doc).join hinside).nest).join hbelow
      simpa [WritesLines, Language.blockClosing] using hall
  | invoked depth block place idiom =>
    rcases hexpander : registry.expander? scope.language.tag idiom.kind with _ | expander
    · rw [BodyTask.script, onIdiom, idiomScript_of_none hexpander] at h
      exact absurd h not_yields_fail
    · have hdepth : depth < expansionLimit := by
        by_contra hlimit
        have hleft : expansionLimit - depth = 0 := by omega
        rw [BodyTask.script, onIdiom, hleft, idiomScript_zero hexpander] at h
        exact absurd h not_yields_fail
      obtain ⟨statements, hstatements, hown⟩ := yields_invoked hexpander h
      have hcalls := Calls.expansion depth block place idiom hdepth hexpander hstatements
      have hlines := hcall hcalls hown
      exact hlines

/-- What is continued in the task keeps the level: no later line in an opening of a chained clause
stands before it, and a terminator stands behind something. -/
structure KeepsContinued (registry : Registry) (scope : BodyScope) (c : FileContext)
    (task : BodyTask) (script : Script) (unit : String) (level : Nat) : Prop where
  openings : ∀ opening, OpensClause registry scope c task opening →
    ∀ later ∈ laterLines opening, KeepsLevel unit level later
  terminators : script.EndsLines scope.language.terminator ⟨[], level⟩

end BodyTask

open BodyTask

variable {registry : Registry} {c : FileContext} {script : Script}

theorem Script.BeginsWithLine.blockComment (language : Language) (doc : Option String) :
    Script.BeginsWithLine (blockComment language doc) := by
  have hlines := Script.BeginsWithLine.lines ((Comment.lines "" doc).map fun line =>
    language.commentMark ++ " " ++ Text.trimStart line)
  rwa [List.map_map] at hlines

/-- A block begins with its comment, or with the line that opens it. -/
theorem beginsWithLine_blockScript {onIdiom : IdiomWriter} {scope : BodyScope} {place : TreePath}
    {block : Block} (h : (blockScript onIdiom scope place block).Yields c script) :
    script.BeginsWithLine := by
  obtain ⟨doc, header, statements, chained⟩ := block
  rw [blockScript] at h
  obtain ⟨opening, _, h⟩ := yields_bind.mp h
  obtain ⟨body, _, h⟩ := yields_bind.mp h
  obtain ⟨clauses, _, h⟩ := yields_bind.mp h
  obtain rfl := yields_pure.mp h
  simp only [List.append_assoc]
  exact (Script.BeginsWithLine.blockComment scope.language doc).append (.line _ _)

/-- A chained clause begins with its opening. -/
theorem exists_of_clausesScript {onIdiom : IdiomWriter} {scope : BodyScope} {place : TreePath}
    {clause : Block} {header : Option String}
    (hheader : (spellHeader place clause.header).Yields c header)
    (h : (clausesScript onIdiom scope place (some clause)).Yields c script) :
    ∃ rest, script =
      [.append " ", .append (scope.language.blockOpening header)] ++ rest := by
  obtain ⟨doc, code, statements, chained⟩ := clause
  rw [clausesScript] at h
  obtain ⟨other, hother, h⟩ := yields_bind.mp h
  obtain rfl : other = header := Except.ok.inj (hother.symm.trans hheader)
  obtain ⟨body, _, h⟩ := yields_bind.mp h
  obtain ⟨clauses, _, h⟩ := yields_bind.mp h
  obtain rfl := yields_pure.mp h
  exact ⟨_, by simp only [List.append_assoc, List.cons_append]; rfl⟩

/-- An opening ends in a brace. -/
theorem exists_blockOpening (language : Language) (header : Option String) :
    ∃ front, language.blockOpening header = front ++ "\x7b" := by
  cases header with
  | none => exact ⟨"", rfl⟩
  | some header => exact ⟨header ++ " ", by rw [String.append_assoc]; rfl⟩

/-- **A block keeps its level exactly if what is continued in it does.** It only adds lines. Each
line of output that is not blank starts with the indentation of its level, whatever the unit, if
no later line in the header of a chained clause stands before that level and no terminator follows
a blank line. If the unit is white space, it does so only then. -/
theorem nested_keepsLevel_iff (hlanguage : c.language ∈ Language.standard) {func : Func}
    {depth : Nat} {place : TreePath} {block : Block}
    (h : ((BodyTask.nested depth place block).script registry ⟨c.language, func⟩).Yields c
      script) :
    script.Appends ∧ ∀ unit level,
      let continued := KeepsContinued registry ⟨c.language, func⟩ c (.nested depth place block)
        script unit level
      let kept := ∀ line ∈ script.linesFrom level, ∀ output ∈ line.outputs unit,
        KeepsLevel unit level output
      (continued → kept) ∧
        (Text.isAllBlank unit = true → unit ≠ "" → level ≠ 0 → kept → continued) := by
  have hterminator : c.language.terminator = "" ∨ c.language.terminator = ";" := by
    rcases List.mem_pair.mp hlanguage with hgo | hjava
    · exact .inl (hgo ▸ rfl)
    · exact .inr (hjava ▸ rfl)
  have hbegins := beginsWithLine_blockScript h
  have hlines := writesLines_of_reached _ .refl script h
  refine ⟨hlines.wellNested.appends hbegins, fun unit level => ⟨?_, ?_⟩⟩
  · -- What is continued is on its level, and every other line is there anyway.
    intro hcontinued line hline output houtput
    have hunbroken : '\n' ∉ c.language.terminator.toList := by
      rcases hterminator with hnone | hsome
      · simp [hnone]
      · simp [hsome]
    refine (hlines.sound hunbroken ?_ le_rfl (by simp) hcontinued.terminators line
      (List.mem_reverse.mp hline)).keepsLevel output houtput
    intro opening hopening
    obtain ⟨front, hfront⟩ : ∃ front, opening = front ++ "\x7b" := by
      obtain ⟨_, _, _, header, _, _, rfl⟩ := hopening
      exact exists_blockOpening c.language header
    exact ⟨front, hfront, hcontinued.openings opening hopening⟩
  · -- A header or a terminator that leaves the level is seen in the output.
    intro hunit hsome hlevel hkept
    refine ⟨?_, Script.endsLines_of_keepsLevel hunit hsome hlevel hkept hterminator⟩
    rintro _ ⟨depth, place, clause, header, hreached, hheader, rfl⟩
    obtain ⟨own, hown, before, after, rfl⟩ := exists_own_of_reached hreached h
    obtain ⟨rest, rfl⟩ := exists_of_clausesScript hheader hown
    have hscript : before ++
          ([.append " ", .append (c.language.blockOpening header)] ++ rest) ++ after =
        before ++ [.append " ", .append (c.language.blockOpening header)] ++ (rest ++ after) := by
      simp only [List.append_assoc]
    exact Script.keepsLevel_of_continued hunit hbegins hkept hscript

/-- The later line of the first header keeps its level, and so does all that is below it. -/
theorem nested_keepsLevel_if :
    let tree := DeclTree.ofMembers "go" "Row" [] [] [] []
    let c := (RenderJob.ofTree tree).context (Plan.treeFile tree .go ⟨0⟩ ⟨0⟩ none ⟨0⟩)
    let clause : Block := ⟨none, some (.ofText "else"), [], none⟩
    let task := BodyTask.nested 0 (tree.typePath ⟨0⟩)
      ⟨none, some (.ofText "if a ||\nb"), [.invoke .terminator], some clause⟩
    ∃ script, (task.script .standard ⟨c.language, default⟩).Yields c script ∧
      script.linesFrom 1 = [⟨1, "if a ||"⟩, ⟨1, "b \x7b"⟩, ⟨1, "\x7d else \x7b"⟩, ⟨1, "\x7d"⟩] ∧
      KeepsContinued .standard ⟨c.language, default⟩ c task script "\t" 1 := by
  intro tree c clause task
  have hwritten : ((task.script .standard ⟨c.language, default⟩).run c).result.toOption.map
      (Script.linesFrom · 1) =
        some [⟨1, "if a ||"⟩, ⟨1, "b \x7b"⟩, ⟨1, "\x7d else \x7b"⟩, ⟨1, "\x7d"⟩] := by
    decide +kernel
  obtain ⟨script, hscript, hlines : script.linesFrom 1 = _⟩ :=
    exists_of_toOption_map_eq_some hwritten
  obtain ⟨_, hkeeps⟩ := nested_keepsLevel_iff (List.mem_cons_self : c.language ∈ _) hscript
  refine ⟨script, hscript, hlines, (hkeeps "\t" 1).2 rfl (by decide) (by decide) ?_⟩
  rw [hlines]
  decide +kernel

/-- **The later line of a chained header stands at the margin,** where that of the first header
does not. -/
theorem nested_breaks_level :
    let tree := DeclTree.ofMembers "go" "Row" [] [] [] []
    let c := (RenderJob.ofTree tree).context (Plan.treeFile tree .go ⟨0⟩ ⟨0⟩ none ⟨0⟩)
    let clause : Block := ⟨none, some (.ofText "else if a ||\nb"), [], none⟩
    let task := BodyTask.nested 0 (tree.typePath ⟨0⟩)
      ⟨none, some (.ofText "if ok"), [], some clause⟩
    ∃ script, (task.script .standard ⟨c.language, default⟩).Yields c script ∧
      ∃ line ∈ script.linesFrom 1, ∃ output ∈ line.outputs "\t", ¬ KeepsLevel "\t" 1 output := by
  intro tree c clause task
  have hwritten : ((task.script .standard ⟨c.language, default⟩).run c).result.toOption.map
      (Script.linesFrom · 1) =
        some [⟨1, "if ok \x7b"⟩, ⟨1, "\x7d else if a ||\nb \x7b"⟩, ⟨1, "\x7d"⟩] := by
    decide +kernel
  obtain ⟨script, hscript, hlines⟩ := exists_of_toOption_map_eq_some hwritten
  refine ⟨script, hscript, ⟨1, "\x7d else if a ||\nb \x7b"⟩, by simp [hlines], "b \x7b", ?_⟩
  decide +kernel

end DeclPrinter
