import DeclPrinter.Proofs.Idiom.BuiltIn
import DeclPrinter.Proofs.Writing.Expansion

/-!
# What the built-in idioms are written as

The expansion of an idiom is spelled and laid out like any statements, so in a body a few lines of
a fixed form stand for it. In Go these are a binding and a conditional return, or a return alone
(`GoLines`), and what is returned last is a call with the message (`GoFailure`). In Java they are a
guarded call that throws again, or a throw alone (`JavaLines`). This is what an idiom is written as
wherever a body comes to it (`yields_goIdiom`, `yields_javaIdiom`).
-/

namespace DeclPrinter

open FileM

variable {c : FileContext}

/-! ### Code -/

section

variable {place : TreePath} {text : String}

theorem yields_spellCode_nil : (spellCode ⟨[]⟩ place).Yields c text ↔ text = "" := by
  rw [spellCode, List.mapM_nil, pure_bind, yields_pure]
  exact eq_comm

/-- **Code is spelled piece by piece.** -/
theorem yields_spellCode_cons {segment : Segment} {rest : List Segment} :
    (spellCode ⟨segment :: rest⟩ place).Yields c text ↔
      ∃ first others, (spellSegment place segment).Yields c first ∧
        (spellCode ⟨rest⟩ place).Yields c others ∧ text = first ++ others := by
  simp only [spellCode, List.mapM_cons, yields_bind, yields_pure]
  constructor
  · rintro ⟨_, ⟨first, hfirst, texts, htexts, rfl⟩, rfl⟩
    exact ⟨first, _, hfirst, ⟨texts, htexts, rfl⟩, String.join_cons⟩
  · rintro ⟨first, _, hfirst, ⟨texts, htexts, rfl⟩, rfl⟩
    exact ⟨first :: texts, ⟨first, hfirst, texts, htexts, rfl⟩, String.join_cons⟩

theorem yields_spellCode_append {first second : Code} :
    (spellCode (first ++ second) place).Yields c text ↔
      ∃ front back, (spellCode first place).Yields c front ∧
        (spellCode second place).Yields c back ∧ text = front ++ back := by
  obtain ⟨segments⟩ := first
  induction segments generalizing text with
  | nil =>
    show (spellCode second place).Yields c text ↔ _
    simp [yields_spellCode_nil]
  | cons segment rest ih =>
    show (spellCode ⟨segment :: (⟨rest⟩ ++ second : Code).segments⟩ place).Yields c text ↔ _
    rw [yields_spellCode_cons]
    simp only [ih, yields_spellCode_cons]
    constructor
    · rintro ⟨first, _, hfirst, ⟨front, back, hfront, hback, rfl⟩, rfl⟩
      exact ⟨first ++ front, back, ⟨first, front, hfirst, hfront, rfl⟩, hback,
        (String.append_assoc ..).symm⟩
    · rintro ⟨_, back, ⟨first, front, hfirst, hfront, rfl⟩, hback, rfl⟩
      exact ⟨first, front ++ back, hfirst, ⟨front, back, hfront, hback, rfl⟩,
        String.append_assoc ..⟩

/-- Texts are taken as they are. -/
theorem yields_spellCode_texts {texts : List String} :
    (spellCode ⟨texts.map .text⟩ place).Yields c text ↔ text = String.join texts := by
  induction texts generalizing text with
  | nil => exact yields_spellCode_nil
  | cons first rest ih =>
    rw [List.map_cons, yields_spellCode_cons, String.join_cons]
    simp [ih, spellSegment]

theorem yields_spellCode_ofText {own : String} :
    (spellCode (.ofText own) place).Yields c text ↔ text = own := by
  have htexts := @yields_spellCode_texts c place text [own]
  rwa [String.join_cons, String.join_nil, String.append_empty] at htexts

end

/-! ### Statements -/

section

variable {onIdiom : IdiomWriter} {scope : BodyScope} {block : Block} {place : TreePath}
  {index : Nat} {script : Script}

theorem yields_statements_nil
    (h : (statementsScript onIdiom scope block place index []).Yields c script) : script = [] := by
  rw [statementsScript] at h
  exact (yields_pure.mp h).symm

theorem yields_statements_cons {statement : Statement} {rest : List Statement}
    (h : (statementsScript onIdiom scope block place index (statement :: rest)).Yields c script) :
    ∃ first others, (statementScript onIdiom scope block place index statement).Yields c first ∧
      (statementsScript onIdiom scope block place (index + 1) rest).Yields c others ∧
      script = first ++ others := by
  rw [statementsScript] at h
  obtain ⟨first, hfirst, h⟩ := yields_bind.mp h
  obtain ⟨others, hothers, h⟩ := yields_bind.mp h
  exact ⟨first, others, hfirst, hothers, (yields_pure.mp h).symm⟩

theorem yields_statements_append {first rest : List Statement}
    (h : (statementsScript onIdiom scope block place index (first ++ rest)).Yields c script) :
    ∃ front back, (statementsScript onIdiom scope block place index first).Yields c front ∧
      (statementsScript onIdiom scope block place (index + first.length) rest).Yields c back ∧
      script = front ++ back := by
  induction first generalizing index script with
  | nil =>
    rw [statementsScript]
    exact ⟨[], script, yields_pure.mpr rfl, h, rfl⟩
  | cons statement others ih =>
    obtain ⟨own, below, hown, hbelow, rfl⟩ := yields_statements_cons h
    obtain ⟨front, back, hfront, hback, rfl⟩ := ih hbelow
    rw [Nat.add_assoc, Nat.add_comm 1] at hback
    refine ⟨own ++ front, back, ?_, hback, (List.append_assoc ..).symm⟩
    rw [statementsScript]
    exact yields_bind.mpr ⟨own, hown, yields_bind.mpr ⟨front, hfront, yields_pure.mpr rfl⟩⟩

/-- Code is a line, and the rest follows. -/
theorem yields_statements_code {code : Code} {rest : List Statement}
    (h : (statementsScript onIdiom scope block place index (.code code :: rest)).Yields c script) :
    ∃ text others, (spellCode code place).Yields c text ∧
      (statementsScript onIdiom scope block place (index + 1) rest).Yields c others ∧
      script = .line text :: others := by
  obtain ⟨first, others, hfirst, hothers, rfl⟩ := yields_statements_cons h
  rw [statementScript] at hfirst
  obtain ⟨text, htext, hfirst⟩ := yields_bind.mp hfirst
  have heq := yields_pure.mp hfirst
  subst heq
  exact ⟨text, others, htext, hothers, rfl⟩

/-- A terminator continues the line before it, and the rest follows. -/
theorem yields_statements_terminator {rest : List Statement}
    (h : (statementsScript onIdiom scope block place index (.terminator :: rest)).Yields c
      script) :
    ∃ others, (statementsScript onIdiom scope block place (index + 1) rest).Yields c others ∧
      script = .append scope.language.terminator :: others := by
  obtain ⟨first, others, hfirst, hothers, rfl⟩ := yields_statements_cons h
  rw [statementScript] at hfirst
  have heq := yields_pure.mp hfirst
  subst heq
  exact ⟨others, hothers, rfl⟩

/-- What a block under a header, with a clause chained to it or none, is written as. -/
theorem yields_statements_block {header : Code} {statements : List Statement}
    {chained : Option Block}
    (h : (statementsScript onIdiom scope block place index
      [.block ⟨none, some header, statements, chained⟩]).Yields c script) :
    ∃ head inner clauses, (spellCode header (blockPath place index)).Yields c head ∧
      (statementsScript onIdiom scope ⟨none, some header, statements, chained⟩
        (blockPath place index) 0 statements).Yields c inner ∧
      (clausesScript onIdiom scope (blockPath place index) chained).Yields c clauses ∧
      script = [.line (head ++ " \x7b"), .indent] ++ inner ++ [.dedent, .line "\x7d"] ++
        clauses := by
  obtain ⟨first, _, hfirst, hrest, rfl⟩ := yields_statements_cons h
  obtain rfl := yields_statements_nil hrest
  rw [statementScript, blockScript] at hfirst
  obtain ⟨opening, hopening, hfirst⟩ := yields_bind.mp hfirst
  obtain ⟨head, hhead, hopening⟩ := yields_bind.mp hopening
  obtain ⟨inner, hinner, hfirst⟩ := yields_bind.mp hfirst
  obtain ⟨clauses, hclauses, hfirst⟩ := yields_bind.mp hfirst
  have heq := yields_pure.mp hopening
  subst heq
  have heq := yields_pure.mp hfirst
  subst heq
  exact ⟨head, inner, clauses, hhead, hinner, hclauses, List.append_nil _⟩

theorem yields_clauses_none (h : (clausesScript onIdiom scope place none).Yields c script) :
    script = [] := by
  rw [clausesScript] at h
  exact (yields_pure.mp h).symm

/-- Code under a header is a line of its own. -/
theorem yields_statements_conditional {header code : Code}
    (h : (statementsScript onIdiom scope block place index
      [.block (.headed header [.code code])]).Yields c script) :
    ∃ head text, (spellCode header (blockPath place index)).Yields c head ∧
      (spellCode code (blockPath place index)).Yields c text ∧
      script = [.line (head ++ " \x7b"), .indent, .line text, .dedent, .line "\x7d"] := by
  obtain ⟨head, inner, clauses, hhead, hinner, hclauses, rfl⟩ := yields_statements_block h
  obtain ⟨text, others, htext, hothers, rfl⟩ := yields_statements_code hinner
  obtain rfl := yields_statements_nil hothers
  obtain rfl := yields_clauses_none hclauses
  exact ⟨head, text, hhead, htext, rfl⟩

/-- What a clause under a header is written as, when none is chained to it. -/
theorem yields_clause {header : Code} {statements : List Statement}
    (h : (clausesScript onIdiom scope place
      (some ⟨none, some header, statements, none⟩)).Yields c script) :
    ∃ head inner, (spellCode header place).Yields c head ∧
      (statementsScript onIdiom scope ⟨none, some header, statements, none⟩ place 0
        statements).Yields c inner ∧
      script = [.append " ", .append (head ++ " \x7b"), .indent] ++ inner ++
        [.dedent, .line "\x7d"] := by
  rw [clausesScript] at h
  obtain ⟨opening, hopening, h⟩ := yields_bind.mp h
  obtain ⟨head, hhead, hopening⟩ := yields_bind.mp hopening
  obtain ⟨inner, hinner, h⟩ := yields_bind.mp h
  obtain ⟨clauses, hclauses, h⟩ := yields_bind.mp h
  obtain rfl := yields_clauses_none hclauses
  have heq := yields_pure.mp hopening
  subst heq
  have heq := yields_pure.mp h
  subst heq
  exact ⟨head, inner, hhead, hinner, List.append_nil _⟩

end

/-! ### Go -/

/-- The expression for a failure in Go, spelled in this file: a call with the message. -/
inductive GoFailure (c : FileContext) : Idiom → String → Prop where
  | attempt (operands : Attempt) {name : String}
      (hname : (spell (.ofMember "fmt" "fmt" "Errorf")).Yields c name) :
      GoFailure c (.attempt operands)
        (name ++ "(" ++ Text.literal (goWrapFormat operands.message) ++ ", err)")
  | fail (message : String) {name : String}
      (hname : (spell (.ofMember "errors" "errors" "New")).Yields c name) :
      GoFailure c (.fail message) (name ++ "(" ++ Text.literal message ++ ")")

/-- The return statement that yields these values and then the failure. -/
def goReturn (zeros : List String) (failure : String) : String :=
  "return " ++ ", ".intercalate (zeros ++ [failure])

/-- The lines that stand for an idiom in Go, when `leaving` is the statement that leaves the
func. -/
inductive GoLines (c : FileContext) (leaving : String) : Idiom → Script → Prop where
  | bound (operands : Attempt) {place : TreePath} {call : String} (hnames : operands.names ≠ [])
      (hcall : (spellCode operands.call place).Yields c call) :
      GoLines c leaving (.attempt operands)
        [.line (", ".intercalate operands.names ++ ", err := " ++ call),
          .line "if err != nil \x7b", .indent, .line leaving, .dedent, .line "\x7d"]
  | unbound (operands : Attempt) {place : TreePath} {call : String} (hnames : operands.names = [])
      (hcall : (spellCode operands.call place).Yields c call) :
      GoLines c leaving (.attempt operands)
        [.line ("if err := " ++ call ++ "; err != nil \x7b"), .indent, .line leaving, .dedent,
          .line "\x7d"]
  | fail (message : String) : GoLines c leaving (.fail message) [.line leaving]

section

variable {registry : Registry} {scope : BodyScope} {depth : Nat} {block : Block}
  {place : TreePath} {idiom : Idiom} {expander : Expander} {own : Script}

theorem join_map_append_comma (zeros : List String) (failure : String) :
    String.join (zeros.map (· ++ ", ")) ++ failure = ", ".intercalate (zeros ++ [failure]) := by
  induction zeros with
  | nil => simp
  | cons zero rest ih =>
    rw [List.map_cons, String.join_cons, List.cons_append,
      String.intercalate_cons_of_ne_nil (by simp), String.append_assoc, ih]

/-- A return is spelled with the failure after the zero values. -/
theorem yields_goReturn {zeros : List String} {failure : Code} {text : String} :
    (spellCode (⟨.text "return " :: zeros.map fun zero => .text (zero ++ ", ")⟩ ++ failure)
      place).Yields c text ↔
    ∃ own, (spellCode failure place).Yields c own ∧ text = goReturn zeros own := by
  have hfront : (⟨.text "return " :: zeros.map fun zero => .text (zero ++ ", ")⟩ : Code) =
      ⟨("return " :: zeros.map (· ++ ", ")).map .text⟩ := by
    simp [Function.comp_def]
  rw [hfront, yields_spellCode_append]
  simp only [yields_spellCode_texts, String.join_cons, exists_eq_left, exists_and_left,
    exists_eq_left, goReturn, ← join_map_append_comma, String.append_assoc]

theorem goFailure_of_attempt {operands : Attempt} {text : String}
    (h : (spellCode (goWrapped operands.message) place).Yields c text) :
    GoFailure c (.attempt operands) text := by
  obtain ⟨name, arguments, hname, harguments, rfl⟩ := yields_spellCode_cons.mp h
  obtain rfl := yields_spellCode_ofText.mp harguments
  simp only [← String.append_assoc]
  exact .attempt operands hname

theorem goFailure_of_fail {message text : String}
    (h : (spellCode (goFailure message) place).Yields c text) :
    GoFailure c (.fail message) text := by
  obtain ⟨name, arguments, hname, harguments, rfl⟩ := yields_spellCode_cons.mp h
  obtain rfl := yields_spellCode_ofText.mp harguments
  simp only [← String.append_assoc]
  exact .fail message hname

/-- What leaves the func is a return of a zero value for each result but the last, and of the
failure. -/
theorem yields_goFailureReturn {scope : IdiomScope} {failure : Code} {statement : Statement} :
    (goFailureReturn scope failure).Yields c statement ↔
      ∃ zeros, List.Forall₂ (fun result zero => (goZero result.type scope.path).Yields c zero)
          scope.func.leadingResults zeros ∧
        statement =
          .code (⟨.text "return " :: zeros.map fun zero => .text (zero ++ ", ")⟩ ++ failure) := by
  simp only [goFailureReturn, yields_bind, yields_mapM, yields_pure, eq_comm]

/-- **An idiom of a failure in Go** returns the zero values and the failure, and it is written only
in a func that has the channel. -/
theorem yields_goIdiom
    (hexpander : registry.expander? scope.language.tag idiom.kind = some expander)
    (hgo : expander ∈ goExpanders) (hkind : idiom.kind ≠ .terminator)
    (h : ((BodyTask.invoked depth block place idiom).script registry scope).Yields c own) :
    let here := place.below .idiom idiom.kind.label
    ∃ zeros failure,
      List.Forall₂ (fun result zero => (goZero result.type here).Yields c zero)
        scope.func.leadingResults zeros ∧
      GoFailure c idiom failure ∧ GoLines c (goReturn zeros failure) idiom own := by
  intro here
  have hown := Registry.kind_of_expander? hexpander
  obtain ⟨statements, hstatements, hscript⟩ := BodyTask.yields_invoked hexpander h
  simp only [goExpanders, List.mem_cons, List.not_mem_nil, or_false] at hgo
  rcases hgo with rfl | rfl | rfl
  · exact absurd hown.symm hkind
  · cases idiom with
    | attempt operands =>
      obtain ⟨_, _, hstatements⟩ := yields_bind.mp hstatements
      obtain ⟨statement, hstatement, hstatements⟩ := yields_bind.mp hstatements
      obtain ⟨zeros, hzeros, rfl⟩ := yields_goFailureReturn.mp hstatement
      -- An attempt that binds nothing is made in the header of the condition.
      split at hstatements
      · rename_i hempty
        have heq := yields_pure.mp hstatements
        subst heq
        obtain ⟨head, text, hhead, htext, rfl⟩ := yields_statements_conditional hscript
        obtain ⟨front, _, hfront, hback, rfl⟩ := yields_spellCode_append.mp hhead
        obtain rfl := yields_spellCode_ofText.mp hback
        obtain ⟨_, call, hintro, hcall, rfl⟩ := yields_spellCode_append.mp hfront
        obtain rfl := yields_spellCode_ofText.mp hintro
        obtain ⟨failure, hfailure, rfl⟩ := yields_goReturn.mp htext
        simp only [String.append_assoc]
        exact ⟨zeros, failure, hzeros, goFailure_of_attempt hfailure,
          .unbound operands (List.isEmpty_iff.mp hempty) hcall⟩
      · -- Else it is made in a line of its own, and the condition comes below.
        rename_i hnames
        have heq := yields_pure.mp hstatements
        subst heq
        obtain ⟨binding, others, hbinding, hothers, rfl⟩ := yields_statements_code hscript
        obtain ⟨head, text, hhead, htext, rfl⟩ := yields_statements_conditional hothers
        obtain ⟨_, call, hintro, hcall, rfl⟩ := yields_spellCode_append.mp hbinding
        obtain rfl := yields_spellCode_ofText.mp hintro
        obtain rfl := yields_spellCode_ofText.mp hhead
        obtain ⟨failure, hfailure, rfl⟩ := yields_goReturn.mp htext
        exact ⟨zeros, failure, hzeros, goFailure_of_attempt hfailure,
          .bound operands (fun hnil => hnames (List.isEmpty_iff.mpr hnil)) hcall⟩
    | _ => cases hown
  · cases idiom with
    | fail message =>
      obtain ⟨_, _, hstatements⟩ := yields_bind.mp hstatements
      obtain ⟨statement, hstatement, hstatements⟩ := yields_bind.mp hstatements
      obtain ⟨zeros, hzeros, rfl⟩ := yields_goFailureReturn.mp hstatement
      have heq := yields_pure.mp hstatements
      subst heq
      obtain ⟨text, others, htext, hothers, rfl⟩ := yields_statements_code hscript
      obtain rfl := yields_statements_nil hothers
      obtain ⟨failure, hfailure, rfl⟩ := yields_goReturn.mp htext
      exact ⟨zeros, failure, hzeros, goFailure_of_fail hfailure, .fail message⟩
    | _ => cases hown

end

/-! ### Java -/

/-- The statement that throws a failure with a message and, after it, further arguments. -/
def javaThrowText (message arguments : String) : String :=
  "throw new Exception(" ++ Text.literal message ++ arguments ++ ")"

/-- The lines that stand for an idiom in Java, where a statement ends in the terminator. The
declaration of what an attempt binds comes first. -/
inductive JavaLines (terminator : String) : Idiom → Script → Prop where
  | attempt (operands : Attempt) (declaration : Script) (call : String) :
      JavaLines terminator (.attempt operands)
        (declaration ++
          [.line "try \x7b", .indent, .line call, .append terminator, .dedent, .line "\x7d",
            .append " ", .append "catch (Exception e) \x7b", .indent,
            .line (javaThrowText operands.message ", e"), .append terminator, .dedent,
            .line "\x7d"])
  | fail (message : String) :
      JavaLines terminator (.fail message) [.line (javaThrowText message ""), .append terminator]

section

variable {registry : Registry} {scope : BodyScope} {depth : Nat} {block : Block}
  {place : TreePath} {idiom : Idiom} {expander : Expander} {own : Script}

/-- Code and a terminator are a line that is continued. -/
theorem yields_statements_terminated {onIdiom : IdiomWriter} {index : Nat} {code : Code}
    {script : Script}
    (h : (statementsScript onIdiom scope block place index [.code code, .terminator]).Yields c
      script) :
    ∃ text, (spellCode code place).Yields c text ∧
      script = [.line text, .append scope.language.terminator] := by
  obtain ⟨text, others, htext, hothers, rfl⟩ := yields_statements_code h
  obtain ⟨others, hnone, rfl⟩ := yields_statements_terminator hothers
  obtain rfl := yields_statements_nil hnone
  exact ⟨text, htext, rfl⟩

/-- **An idiom of a failure in Java** throws an exception with the message. -/
theorem yields_javaIdiom
    (hexpander : registry.expander? scope.language.tag idiom.kind = some expander)
    (hjava : expander ∈ javaExpanders) (hkind : idiom.kind ≠ .terminator)
    (h : ((BodyTask.invoked depth block place idiom).script registry scope).Yields c own) :
    JavaLines scope.language.terminator idiom own := by
  have hown := Registry.kind_of_expander? hexpander
  obtain ⟨statements, hstatements, hscript⟩ := BodyTask.yields_invoked hexpander h
  simp only [javaExpanders, List.mem_cons, List.not_mem_nil, or_false] at hjava
  rcases hjava with rfl | rfl | rfl
  · exact absurd hown.symm hkind
  · cases idiom with
    | attempt operands =>
      obtain ⟨_, _, hstatements⟩ := yields_bind.mp hstatements
      split at hstatements
      · exact absurd hstatements not_yields_fail
      · obtain ⟨⟨declaration, assignment⟩, _, hstatements⟩ := yields_bind.mp hstatements
        have heq := yields_pure.mp hstatements
        subst heq
        -- The declaration if there is one, the attempt in a block, and the handler chained to it.
        obtain ⟨front, back, _, hback, rfl⟩ := yields_statements_append hscript
        obtain ⟨head, inner, clauses, hhead, hinner, hclauses, rfl⟩ := yields_statements_block hback
        obtain ⟨catching, handler, hcatching, hhandler, rfl⟩ := yields_clause hclauses
        obtain ⟨call, _, rfl⟩ := yields_statements_terminated hinner
        obtain ⟨text, htext, rfl⟩ := yields_statements_terminated hhandler
        obtain rfl := yields_spellCode_ofText.mp hhead
        obtain rfl := yields_spellCode_ofText.mp hcatching
        obtain rfl := yields_spellCode_ofText.mp htext
        exact .attempt operands front call
    | _ => cases hown
  · cases idiom with
    | fail message =>
      obtain ⟨_, _, hstatements⟩ := yields_bind.mp hstatements
      have heq := yields_pure.mp hstatements
      subst heq
      obtain ⟨text, htext, rfl⟩ := yields_statements_terminated hscript
      obtain rfl := yields_spellCode_ofText.mp htext
      exact .fail message
    | _ => cases hown

end

end DeclPrinter
