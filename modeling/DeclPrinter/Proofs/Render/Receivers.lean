import DeclPrinter.Proofs.Check.Bodies
import DeclPrinter.Proofs.Render.Plan
import DeclPrinter.Proofs.Render.Run
import DeclPrinter.Proofs.Writing.Bodies

/-!
# Receivers among other names

A method is written with three kinds of names that share one scope: its receiver, its parameters
and, in Go, the results that have names. The checks compare parameters and results with each other,
and know of no receiver, which in Go may even be made up while the method is written. So the scope
is free of clashes exactly if no parameter and no such result is called like the receiver
(`RenderJob.receivers_free_iff`). Nothing keeps a method from breaking this
(`RenderJob.receivers_clash`), but a receiver that is made up is one character, and no name of two
or more is in its way.
-/

namespace DeclPrinter

open FileM

/-! ### The names of a method -/

namespace Dialect

/-- The receiver that a func is written with. In Go every method has one, if need be one that is
made up; in Java only a method that names it. -/
def receiver? (dialect : Dialect) (tree : DeclTree) (id : FuncId) : Option String :=
  match dialect, tree.funcHome id with
  | .go, .type type => some ((tree.func id).receiver.getD (implicitReceiver (tree.type type).name))
  | .java, .type _ => (tree.func id).receiver
  | _, _ => none

/-- The names in the scope of a func besides its receiver: its parameters and, in Go, the results
that have names. -/
def localNames (dialect : Dialect) (func : Func) : List String :=
  match dialect with
  | .go => Check.signatureNames func
  | .java => func.params.map (·.name)

/-- The func is written with this receiver and with its parameters and results by name. In Go all of
them stand on its first line. In Java the receiver is bound below that line. -/
def WritesNames (dialect : Dialect) (c : FileContext) (id : FuncId) (receiver : Option String)
    (script : Script) : Prop :=
  let func := c.tree.func id
  ∃ own params, SpelledResults c (c.tree.funcPath id) func.params params ∧
    match dialect with
    | .go => ∃ results, SpelledResults c (c.tree.funcPath id) func.results results ∧
      .line ("func " ++ (receiver.elim "" fun name => "(" ++ name ++ " *" ++ own ++ ") ") ++
        goName func.name func.visibility ++
        ("(" ++ ", ".intercalate (params.map goParamText) ++ ")" ++
          goReturns (returnsOfParts (func.results.any (!·.name.isEmpty))
            (results.map resultText))) ++ " \x7b") ∈ script
    | .java => ∃ returns throws,
      [.line (returns ++ " " ++ Text.uncapitalize func.name ++ "(" ++
        ", ".intercalate (params.map javaParamText) ++ ")" ++ throws ++ " \x7b"), .indent] ++
        (receiver.toList.map fun name => .line ("final " ++ own ++ " " ++ name ++ " = this;")) <:+:
        script

end Dialect

variable {c : FileContext} {registry : Registry} {script : Script} {id : FuncId}

/-- What stands before the name of a Go func. -/
theorem exists_own_of_goReceiver {text : String}
    (h : (goReceiver (c.tree.func id) (c.tree.funcHome id)).Yields c text) :
    ∃ own, text = (Dialect.go.receiver? c.tree id).elim "" fun name =>
      "(" ++ name ++ " *" ++ own ++ ") " := by
  unfold goReceiver at h
  unfold Dialect.receiver?
  generalize c.tree.funcHome id = home at h ⊢
  -- Only a method, which is at home with a type, has a receiver.
  cases home with
  | type type =>
    obtain ⟨own, _, h⟩ := yields_bind.mp h
    have h := yields_context_bind.mp h
    exact ⟨own, (yields_pure.mp h).symm⟩
  | file _ => exact ⟨"", (yields_pure.mp h).symm⟩
  | package _ => exact ⟨"", (yields_pure.mp h).symm⟩

/-- What stands before the statements of a Java method. -/
theorem exists_own_of_javaReceiver
    (h : (javaReceiver (c.tree.func id) (c.tree.funcHome id)).Yields c script) :
    ∃ own, script = (Dialect.java.receiver? c.tree id).toList.map fun name =>
      .line ("final " ++ own ++ " " ++ name ++ " = this;") := by
  unfold javaReceiver at h
  unfold Dialect.receiver?
  generalize c.tree.funcHome id = home at h ⊢
  generalize (c.tree.func id).receiver = receiver at h ⊢
  cases home with
  | type type =>
    cases receiver with
    | none => exact ⟨"", (yields_pure.mp h).symm⟩
    | some receiver =>
      obtain ⟨own, _, h⟩ := yields_bind.mp h
      exact ⟨own, (yields_pure.mp h).symm⟩
  -- A func that is no method binds no receiver, even if it names one.
  | file _ => cases receiver <;> exact ⟨"", (yields_pure.mp h).symm⟩
  | package _ => cases receiver <;> exact ⟨"", (yields_pure.mp h).symm⟩

/-- **A func that is written** is so with its receiver and with all its names. -/
theorem Dialect.WritesFunc.writesNames {dialect : Dialect}
    (h : dialect.WritesFunc registry c id script) :
    dialect.WritesNames c id (dialect.receiver? c.tree id) script := by
  cases dialect with
  | go =>
    -- In Go the receiver stands in front of the name, and results may have names.
    obtain ⟨receiver, doc, signature, body, hreceiver, _, hsignature, _, rfl⟩ := yields_goFunc h
    obtain ⟨own, rfl⟩ := exists_own_of_goReceiver hreceiver
    obtain ⟨params, parts, hparams, hparts, rfl⟩ := exists_params_of_goSignature hsignature
    obtain ⟨results, hresults, rfl⟩ := yields_parts_iff.mp hparts
    refine ⟨own, params, hparams, results, hresults, ?_⟩
    simp
  | java =>
    -- In Java it is the first line of the body.
    obtain ⟨kind, hkind, hmethod⟩ := h
    obtain ⟨above, returns, params, throws, receiver, body, hparams, hreceiver, _, rfl⟩ :=
      exists_block_of_javaMethod hkind hmethod
    obtain ⟨own, rfl⟩ := exists_own_of_javaReceiver hreceiver
    refine ⟨own, params, hparams, returns, throws, above, body ++ [.dedent, .line "\x7d"], ?_⟩
    simp only [List.append_assoc]

theorem Dialect.WritesNames.of_infix {dialect : Dialect} {receiver : Option String}
    {whole : Script} (h : dialect.WritesNames c id receiver script) (hin : script <:+: whole) :
    dialect.WritesNames c id receiver whole := by
  cases dialect with
  | go =>
    obtain ⟨own, params, hparams, results, hresults, hline⟩ := h
    exact ⟨own, params, hparams, results, hresults, hin.subset hline⟩
  | java =>
    obtain ⟨own, params, hparams, returns, throws, hlines⟩ := h
    exact ⟨own, params, hparams, returns, throws, hlines.trans hin⟩

/-! ### Clashes -/

/-- A receiver that is made up has at most one character. -/
theorem length_implicitReceiver_le (type : String) : (implicitReceiver type).length ≤ 1 := by
  rw [implicitReceiver, String.length_ofList, List.length_take]
  exact Nat.min_le_left 1 _

namespace Dialect

variable {dialect : Dialect} {tree : DeclTree}

/-- The receiver of a method that names none, if it has one, is made up. -/
theorem length_of_mem_receiver? (hnone : (tree.func id).receiver = none) {own : String}
    (hown : own ∈ dialect.receiver? tree id) : own.length ≤ 1 := by
  unfold receiver? at hown
  split at hown
  · rename_i type _
    rw [hnone, Option.getD_none] at hown
    obtain rfl := Option.some.inj hown
    exact length_implicitReceiver_le _
  · rw [hnone] at hown
    cases hown
  · cases hown

/-- The names that are compared are all of those in the scope of a func but its receiver. -/
theorem nodup_localNames (h : Check.func tree id = .ok ()) :
    (dialect.localNames (tree.func id)).Nodup := by
  obtain ⟨hparams, hnames⟩ := Check.names_of_func_ok h
  cases dialect with
  | go => exact hnames
  | java =>
    show ((tree.func id).params.map (·.name)).Nodup
    -- All parameters have names, so they are the first of the names that are compared.
    have hall : ∀ name ∈ (tree.func id).params.map (·.name), (!name.isEmpty) = true := by
      simpa using hparams
    rw [Check.signatureNames, List.map_append, List.filter_append,
      List.filter_eq_self.mpr hall] at hnames
    exact (List.nodup_append.mp hnames).1

theorem mem_localNames_iff (h : Check.func tree id = .ok ()) {name : String} :
    name ∈ dialect.localNames (tree.func id) ↔
      (∃ param ∈ (tree.func id).params, param.name = name) ∨
        dialect = .go ∧
          ∃ result ∈ (tree.func id).results, result.name ≠ "" ∧ result.name = name := by
  obtain ⟨hparams, _⟩ := Check.names_of_func_ok h
  cases dialect with
  | go =>
    -- The names that are empty are left out, which those of parameters never are.
    simp only [localNames, Check.signatureNames, List.mem_filter, List.mem_map, List.mem_append,
      Bool.not_eq_true', String.isEmpty_eq_false_iff]
    constructor
    · rintro ⟨⟨param, hparam | hresult, rfl⟩, hname⟩
      · exact .inl ⟨param, hparam, rfl⟩
      · exact .inr ⟨trivial, param, hresult, hname, rfl⟩
    · rintro (⟨param, hparam, rfl⟩ | ⟨_, result, hresult, hname, rfl⟩)
      · exact ⟨⟨param, .inl hparam, rfl⟩, hparams param hparam⟩
      · exact ⟨⟨result, .inr hresult, rfl⟩, hname⟩
  | java => simp [localNames]

end Dialect

namespace RenderJob

/-- A file that has a text has passed its checks. -/
theorem declarations_of_runFile {job : RenderJob} {file : PlannedFile} {text : String}
    (h : (job.runFile false file).1 = .ok text) :
    Check.declarations job.tree file.language file.contents.types file.contents.funcs = .ok () ∧
      (job.writeText file).1 = .ok text := by
  unfold runFile at h
  rw [if_neg Bool.false_ne_true] at h
  split at h
  · cases h
  · exact ⟨‹_›, h⟩

/-- **Nothing but the receiver clashes.** A func in a file that has a text is written with its
receiver, if it has one, its parameters and, in Go, its results that have names. These names are
distinct exactly if no parameter and no such result is called like the receiver. A receiver that is
made up is no name of two or more characters. -/
theorem receivers_free_iff (job : RenderJob) (file : PlannedFile) (text : String)
    (h : (job.runFile false file).1 = .ok text) {id : FuncId}
    (hid : file.contents.HasBody job.tree id) :
    let dialect := file.language.dialect
    let func := job.tree.func id
    let receiver := dialect.receiver? job.tree id
    (∃ script, text = script.text (job.indentUnit file.language) ∧
      dialect.WritesNames (job.writingContext file) id receiver script) ∧
    ((receiver.toList ++ dialect.localNames func).Nodup ↔
      ∀ own ∈ receiver, (∀ param ∈ func.params, param.name ≠ own) ∧
        (dialect = .go → ∀ result ∈ func.results, result.name ≠ "" → result.name ≠ own)) ∧
    (func.receiver = none → (∀ name ∈ dialect.localNames func, 2 ≤ name.length) →
      (receiver.toList ++ dialect.localNames func).Nodup) := by
  intro dialect func receiver
  obtain ⟨hchecks, htext⟩ := declarations_of_runFile h
  have hfunc : Check.func job.tree id = .ok () := by
    refine Check.func_of_declarations_ok hchecks (hid.imp_right ?_)
    rintro ⟨type, htype, _, hmethod⟩
    exact ⟨type, htype, hmethod⟩
  have hnodup : (receiver.toList ++ dialect.localNames func).Nodup ↔
      ∀ own ∈ receiver, own ∉ dialect.localNames func :=
    Check.nodup_toList_append_iff (Dialect.nodup_localNames hfunc)
  refine ⟨?_, ?_, ?_⟩
  · obtain ⟨script, hscript, rfl⟩ := exists_script_of_writeText htext
    obtain ⟨own, hown, hin⟩ := exists_func_of_fileScript hscript hid
    exact ⟨script, rfl, hown.writesNames.of_infix hin⟩
  · rw [hnodup]
    refine forall₂_congr fun own _ => ?_
    rw [Dialect.mem_localNames_iff hfunc]
    push Not
    rfl
  · intro hnone hlong
    -- What is made up is too short to be one of the names.
    refine hnodup.mpr fun own hown hmem => ?_
    have hshort : own.length ≤ 1 := Dialect.length_of_mem_receiver? hnone hown
    have hown : 2 ≤ own.length := hlong own hmem
    omega

/-- A module `com.acme` with a file `store` in its package `lib`. Its struct `Store` has a method
with this receiver, a parameter and a result for each of these names. -/
def ofMethod (language method : String) (receiver : Option String)
    (params results : List String) : DeclTree :=
  let named (name : String) : Param := ⟨name, .simple ⟨"string"⟩, none, []⟩
  let (module, tree) := (DeclTree.empty "demo").addModule "com.acme" language
  let (package, tree) := tree.addPackage module "lib" "lib"
  let (file, tree) := tree.addFile package "store"
  let (type, tree) := tree.addType file .struct "Store"
  (tree.addMethod type ⟨method, .exported, receiver, params.map named, results.map named, .empty,
    none⟩).2

/-- A receiver that is made up, beside a parameter with a longer name. -/
theorem receivers_free_iff_open :
    let tree := ofMethod "go" "Open" none ["path"] []
    ((ofTree tree).runFile false (Plan.treeFile tree .go ⟨0⟩ ⟨0⟩ none ⟨0⟩)).1.isOk = true ∧
      Dialect.go.receiver? tree ⟨0⟩ = some "s" ∧
      ((Dialect.go.receiver? tree ⟨0⟩).toList ++ Dialect.go.localNames (tree.func ⟨0⟩)).Nodup := by
  intro tree
  let file := Plan.treeFile tree .go ⟨0⟩ ⟨0⟩ none ⟨0⟩
  have hok : ((ofTree tree).runFile false file).1.isOk = true := by decide +kernel
  obtain ⟨text, htext⟩ := exists_of_isOk hok
  have hbody : file.contents.HasBody tree ⟨0⟩ :=
    .inr ⟨⟨0⟩, by decide +kernel, by decide +kernel, by decide +kernel⟩
  obtain ⟨_, _, hfree⟩ := receivers_free_iff (ofTree tree) file text htext hbody
  exact ⟨hok, by decide +kernel, hfree (by decide +kernel) (by decide +kernel)⟩

/-- **A parameter, or a result, with the name of the receiver.** The first receiver is made up, and
the others are named. All three methods are rendered without diagnostics. -/
theorem receivers_clash :
    let short := ofMethod "go" "Open" none ["s"] []
    let named := ofMethod "go" "Open" (some "db") [] ["db"]
    let bound := ofMethod "java" "open" (some "self") ["self"] []
    (ofTree short).render.toOption.map (fun rendering =>
        (rendering.diagnostics, rendering.artifact.leaves.map (·.2.content))) =
      some ([], ["package lib\n\ntype Store struct\x7b\x7d\n\n" ++
        "func (s *Store) Open(s string) \x7b\n\x7d\n"]) ∧
    ¬ ((Dialect.go.receiver? short ⟨0⟩).toList ++ Dialect.go.localNames (short.func ⟨0⟩)).Nodup ∧
    (ofTree named).render.toOption.map (fun rendering =>
        (rendering.diagnostics, rendering.artifact.leaves.map (·.2.content))) =
      some ([], ["package lib\n\ntype Store struct\x7b\x7d\n\n" ++
        "func (db *Store) Open() (db string) \x7b\n\x7d\n"]) ∧
    ¬ ((Dialect.go.receiver? named ⟨0⟩).toList ++ Dialect.go.localNames (named.func ⟨0⟩)).Nodup ∧
    (ofTree bound).render.toOption.map (fun rendering =>
        (rendering.diagnostics, rendering.artifact.leaves.map (·.2.content))) =
      some ([], ["package com.acme.lib;\n\npublic class Store \x7b\n" ++
        "    public void open(String self) \x7b\n        final Store self = this;\n" ++
        "    \x7d\n\x7d\n"]) ∧
    ¬ ((Dialect.java.receiver? bound ⟨0⟩).toList ++
      Dialect.java.localNames (bound.func ⟨0⟩)).Nodup := by
  refine ⟨?_, ?_, ?_, ?_, ?_, ?_⟩ <;> decide +kernel

end RenderJob

end DeclPrinter
