import DeclPrinter.Proofs.Render.Expansion
import DeclPrinter.Proofs.Text.JavaLiteral
import DeclPrinter.Proofs.Writing.Idioms

/-!
# Failure messages survive

The message of an attempt or a failure is put into the generated program as a string literal. What
the program makes of the literal is the message again: read as Go or Java reads it, and for an
attempt in Go read once more as a format (`ReadsMessage`). The literal has no line break in it, so
the writer of lines leaves it and all that follows it in the statement on one line
(`KeepsLiteral`).
-/

namespace DeclPrinter

open FileM Text

/-! ### What a message is read as -/

/-- The literal with the message of an idiom. -/
def messageLiteral : Dialect → Idiom → String
  | .go, .attempt operands => literal (goWrapFormat operands.message)
  | .java, .attempt operands => literal operands.message
  | _, .fail message => literal message
  | _, .terminator => literal ""

/-- A Java compiler reads the literal as the text, unless a quote follows it. -/
def JavaReads (written message : String) : Prop :=
  ∀ rest following, javaUnits? rest = some following → following.head? ≠ some '"'.toNat →
    (javaUnits? (written.toList ++ rest)).bind javaString? = some (units message.toList, following)

/-- What a program in the language makes of a literal is the message of the idiom: as the text of
the failure or, for an attempt in Go, as a format that prints the message and then the cause. -/
def ReadsMessage (written : String) : Dialect → Idiom → Prop
  | .go, .attempt operands => ∃ format,
      (∀ rest, goString? (written.toList ++ rest) = some (bytes format.toList, rest)) ∧
      goFormat? format =
        some (operands.message.toList.map .text ++ [.text ':', .text ' ', .verb [] 'w'])
  | .go, .fail message =>
      ∀ rest, goString? (written.toList ++ rest) = some (bytes message.toList, rest)
  | .java, .attempt operands => JavaReads written operands.message
  | .java, .fail message => JavaReads written message
  | _, .terminator => True

/-- Between its quotes the literal has no line break and no quote without a backslash. -/
def ClosedLiteral (written : String) : Prop :=
  ∃ inner, written.toList = '"' :: (inner ++ ['"']) ∧ '\n' ∉ inner ∧ '\r' ∉ inner ∧
    escapesQuotes false inner = true

theorem javaReads_literal (message : String) : JavaReads (literal message) message := by
  intro rest following hrest hquote
  rw [javaUnits?_literal, hrest, Option.map_some, Option.bind_some,
    javaString?_literal message hquote]

theorem readsMessage_messageLiteral (dialect : Dialect) (idiom : Idiom) :
    ReadsMessage (messageLiteral dialect idiom) dialect idiom := by
  cases dialect with
  | go =>
    cases idiom with
    | terminator => exact trivial
    | attempt operands =>
      exact ⟨goWrapFormat operands.message, goString?_literal _, goFormat?_goWrapFormat _⟩
    | fail message => exact goString?_literal message
  | java =>
    cases idiom with
    | terminator => exact trivial
    | attempt operands => exact javaReads_literal operands.message
    | fail message => exact javaReads_literal message

theorem exists_messageLiteral (dialect : Dialect) (idiom : Idiom) :
    ∃ text, messageLiteral dialect idiom = literal text := by
  cases dialect <;> cases idiom <;> exact ⟨_, rfl⟩

theorem closedLiteral_literal (text : String) : ClosedLiteral (literal text) :=
  ⟨literalInner text, toList_literal text, newline_not_mem_literalInner text,
    return_not_mem_literalInner text, escapesQuotes_literalInner text⟩

/-! ### Where a literal stands -/

/-- A statement with the literal in it has as many lines as what stands before the literal. On the
last of them stand the literal and what follows it, and in what the script writes this line is
whole. -/
def KeepsLiteral (script : Script) (before written after : String) : Prop :=
  ∃ earlier last, splitLines before = earlier ++ [last] ∧
    splitLines (before ++ written ++ after) = earlier ++ [last ++ written ++ after] ∧
    ∃ line ∈ script.lines, (last ++ written ++ after).toList <+: line.text.toList

theorem keepsLiteral_of_mem {script : Script} {before after text : String}
    (h : .line (before ++ literal text ++ after) ∈ script) (hafter : '\n' ∉ after.toList)
    (hlast : after.toList.getLast? = some ')') :
    KeepsLiteral script before (literal text) after := by
  rw [String.append_assoc] at h
  have hbreak : '\n' ∉ (literal text ++ after).toList := by
    rw [String.toList_append, List.mem_append]
    exact fun hmem => hmem.elim (newline_not_mem_literal text) hafter
  have hend : (literal text ++ after).toList.getLast? = some ')' := by
    rw [String.toList_append, List.getLast?_append, hlast, Option.some_or]
  obtain ⟨earlier, last, hbefore, hsplit, hline⟩ :=
    Script.exists_line_of_mem h hbreak hend (by decide)
  rw [← String.append_assoc] at hsplit hline
  rw [← String.append_assoc] at hsplit
  exact ⟨earlier, last, hbefore, hsplit, hline⟩

/-- What stands in the statement before the literal: in Go a return with the zero values and with
the function that makes the failure, in Java a throw. -/
def StandsBefore (before : String) : Dialect → Prop
  | .go => ∃ zeros name, before = goReturn zeros (name ++ "(")
  | .java => before = "throw new Exception("

/-- What stands in the statement after the literal. -/
def messageEnd : Dialect → Idiom → String
  | .go, .attempt _ => ", err)"
  | .java, .attempt _ => ", e)"
  | _, _ => ")"

theorem goReturn_append (zeros : List String) (front back : String) :
    goReturn zeros (front ++ back) = goReturn zeros front ++ back := by
  simp only [goReturn, ← join_map_append_comma, String.append_assoc]

section

variable {c : FileContext} {idiom : Idiom} {own : Script}

/-- The statement that leaves the func is among the lines for the idiom. -/
theorem GoLines.mem {leaving : String} (h : GoLines c leaving idiom own) : .line leaving ∈ own := by
  cases h <;> simp

theorem exists_statement_of_go {zeros : List String} {failure : String}
    (hfailure : GoFailure c idiom failure) (hlines : GoLines c (goReturn zeros failure) idiom own) :
    ∃ before, StandsBefore before .go ∧
      .line (before ++ messageLiteral .go idiom ++ messageEnd .go idiom) ∈ own := by
  have hmem := hlines.mem
  cases hfailure with
  | @attempt operands name hname =>
    rw [String.append_assoc, goReturn_append] at hmem
    exact ⟨_, ⟨zeros, name, rfl⟩, by rwa [String.append_assoc]⟩
  | @fail message name hname =>
    rw [String.append_assoc, goReturn_append] at hmem
    exact ⟨_, ⟨zeros, name, rfl⟩, by rwa [String.append_assoc]⟩

theorem exists_statement_of_java {terminator : String} (h : JavaLines terminator idiom own) :
    ∃ before, StandsBefore before .java ∧
      .line (before ++ messageLiteral .java idiom ++ messageEnd .java idiom) ∈ own := by
  -- The literal is the first argument of the exception, and the end depends on the others.
  have hthrow (message arguments : String) : javaThrowText message arguments =
      "throw new Exception(" ++ literal message ++ (arguments ++ ")") := String.append_assoc ..
  refine ⟨"throw new Exception(", rfl, ?_⟩
  cases h with
  | attempt operands declaration call =>
    have hend : messageEnd .java (.attempt operands) = ", e" ++ ")" := rfl
    rw [hend, messageLiteral, ← hthrow]
    simp
  | fail message =>
    have hend : messageEnd .java (.fail message) = "" ++ ")" := rfl
    rw [hend, messageLiteral, ← hthrow]
    · exact List.mem_cons_self

end

theorem messageEnd_ends (dialect : Dialect) (idiom : Idiom) :
    '\n' ∉ (messageEnd dialect idiom).toList ∧
      (messageEnd dialect idiom).toList.getLast? = some ')' := by
  have hends : ∀ text ∈ [", err)", ", e)", ")"],
      '\n' ∉ text.toList ∧ text.toList.getLast? = some ')' := by decide
  apply hends
  cases dialect <;> cases idiom <;> simp [messageEnd]

/-- **Failure messages survive into the generated program.** The literal with the message of an
idiom is read as the message, whatever the message is: in Go as an interpreted string, and for an
attempt once more as a format, where every character prints itself and one verb prints the cause; in
Java as a string. Nothing in the literal ends it early or breaks its line.

In a file that is written, wherever a body comes to an attempt or a failure, however deep, the
literal stands in a statement among the lines for it, and the writer of lines keeps the literal and
what follows it in the statement on one line. -/
theorem messages_survive (registry : Registry) (c : FileContext) :
    (∀ dialect idiom, ReadsMessage (messageLiteral dialect idiom) dialect idiom ∧
      ClosedLiteral (messageLiteral dialect idiom)) ∧
    ∀ script, (fileScript registry).Yields c script → ∀ id, c.contents.HasBody c.tree id →
      let scope : BodyScope := ⟨c.language, c.tree.func id⟩
      ∀ depth block below idiom expander dialect,
        let task : BodyTask := .invoked depth block below idiom
        Relation.ReflTransGen (BodyTask.Calls registry scope c)
          (.ofBody (c.tree.func id) (c.tree.funcPath id)) task →
        registry.expander? c.language.tag idiom.kind = some expander →
        expander ∈ dialect.expanders → idiom.kind ≠ .terminator →
        ∃ own before, (task.script registry scope).Yields c own ∧ own <:+: script ∧
          StandsBefore before dialect ∧
          .line (before ++ messageLiteral dialect idiom ++ messageEnd dialect idiom) ∈ own ∧
          KeepsLiteral script before (messageLiteral dialect idiom) (messageEnd dialect idiom) := by
  constructor
  · -- The literal by itself.
    intro dialect idiom
    obtain ⟨text, htext⟩ := exists_messageLiteral dialect idiom
    refine ⟨readsMessage_messageLiteral dialect idiom, ?_⟩
    rw [htext]
    exact closedLiteral_literal text
  · -- The literal in a file: first the statement that it stands in, then the line that is kept.
    intro script hscript id hid scope depth block below idiom expander dialect task hreached
      hexpander hdialect hkind
    obtain ⟨body, hbody, hin⟩ := exists_body_of_fileScript hscript hid
    obtain ⟨own, hown, hinfix⟩ := BodyTask.exists_own_of_body hreached hbody
    have hstatement : ∃ before, StandsBefore before dialect ∧
        .line (before ++ messageLiteral dialect idiom ++ messageEnd dialect idiom) ∈ own := by
      cases dialect with
      | go =>
        obtain ⟨zeros, failure, _, hfailure, hlines⟩ :=
          yields_goIdiom hexpander hdialect hkind hown
        exact exists_statement_of_go hfailure hlines
      | java => exact exists_statement_of_java (yields_javaIdiom hexpander hdialect hkind hown)
    obtain ⟨before, hbefore, hmem⟩ := hstatement
    obtain ⟨text, htext⟩ := exists_messageLiteral dialect idiom
    obtain ⟨hbreak, hend⟩ := messageEnd_ends dialect idiom
    have hin := hinfix.trans hin
    refine ⟨own, before, hown, hin, hbefore, hmem, ?_⟩
    rw [htext] at hmem ⊢
    exact keepsLiteral_of_mem (hin.subset hmem) hbreak hend

/-- A module in the language with a func that attempts a call under the message. -/
def ofAttempt (language message : String) : DeclTree :=
  let (module, tree) := (DeclTree.empty "demo").addModule "com.acme" language
  let (package, tree) := tree.addPackage module "lib" "lib"
  let (file, tree) := tree.addFile package "load"
  let attempt : Attempt := ⟨[], .ofText "load()", message, none⟩
  let body : Block := ⟨none, none, [.invoke (.attempt attempt)], none⟩
  let failure : Param := ⟨"", .failure, none, []⟩
  (tree.addFunc file ⟨"Load", .exported, none, [], [failure], body, none⟩).2

/-- A message with quotes and a percent sign in it is kept, with the percent sign doubled. -/
theorem messages_survive_percent :
    let job := RenderJob.ofTree (ofAttempt "go" "50% of \"rows\"")
    let c := job.context (Plan.treeFile job.tree .go ⟨0⟩ ⟨0⟩ none ⟨0⟩)
    ∃ script before, (fileScript job.registry).Yields c script ∧
      KeepsLiteral script before "\"50%% of \\\"rows\\\": %w\"" ", err)" := by
  intro job c
  let func := job.tree.func ⟨0⟩
  have hwritten : ((fileScript job.registry).run c).result.isOk = true := by decide +kernel
  obtain ⟨script, hscript⟩ := exists_of_isOk hwritten
  -- The attempt is the first statement of the body.
  have hreached : Relation.ReflTransGen (BodyTask.Calls job.registry ⟨c.language, func⟩ c)
      (.ofBody func (job.tree.funcPath ⟨0⟩)) (.invoked 0 func.body (job.tree.funcPath ⟨0⟩) _) :=
    .single (.idiom 0 func.body _ 0 _ [])
  obtain ⟨_, hfiles⟩ := messages_survive job.registry c
  obtain ⟨own, before, _, _, _, _, hkeeps⟩ := hfiles script hscript ⟨0⟩ (.inl List.mem_cons_self)
    _ _ _ _ goExpanders[1] .go hreached rfl (List.getElem_mem _) (by decide)
  exact ⟨script, before, hscript, hkeeps⟩

end DeclPrinter
