import DeclPrinter.Proofs.Columns
import DeclPrinter.Proofs.Writing.Printed

/-!
# The outline of a file

Each declaration of a file has a line on which it is called by its name (`Opens`). These lines
stand in a file in the order of the declarations (`outlines_fileScript`), a type before its
members. So what a file calls its declarations can be read off its lines, and it is the name that
the language gives them (`Dialect.identifier`).
-/

namespace DeclPrinter

open FileM

/-! ### Names -/

/-- What a file declares. -/
inductive Declaration where
  | type (id : TypeId)
  | field (id : FieldId)
  | func (id : FuncId)
  deriving DecidableEq, Repr

/-- What a declaration is called where it is declared. -/
def Dialect.identifier (dialect : Dialect) (tree : DeclTree) : Declaration → String
  | .type id => dialect.nameOfType (tree.type id)
  | .field id =>
    let field := tree.field id
    match dialect with
    | .go => goName field.name field.visibility
    | .java => Text.uncapitalize field.name
  | .func id =>
    let func := tree.func id
    match dialect with
    | .go => goName func.name func.visibility
    | .java => Text.uncapitalize func.name

/-- The text is the line on which the declaration is called by its name. A Go method stands by
itself or, in an interface, is nothing but its signature. -/
inductive Opens (tree : DeclTree) : Dialect → Declaration → String → Prop where
  | goType (id : TypeId) {text : String}
      (h : text ∈ goTypeHeads (Dialect.go.identifier tree (.type id)) (tree.type id).kind) :
      Opens tree .go (.type id) text
  | goField (id : FieldId) (rest : String) :
      Opens tree .go (.field id) (Dialect.go.identifier tree (.field id) ++ " " ++ rest)
  | goFunc (id : FuncId) {receiver : String} (rest : String)
      (h : receiver = "" ∨ ∃ own, receiver = "(" ++ own ++ ") ") :
      Opens tree .go (.func id)
        ("func " ++ receiver ++ Dialect.go.identifier tree (.func id) ++ "(" ++ rest)
  | goSignature (id : FuncId) (rest : String) :
      Opens tree .go (.func id) (Dialect.go.identifier tree (.func id) ++ "(" ++ rest)
  | javaType (id : TypeId) (topLevel : Bool) {text : String}
      (h : text ∈ classHeads (javaTypeHead (tree.type id) topLevel)) :
      Opens tree .java (.type id) text
  | javaField (id : FieldId) (type : String) :
      Opens tree .java (.field id)
        (type ++ " " ++ Dialect.java.identifier tree (.field id) ++ ";")
  | javaFunc (id : FuncId) (returns rest : String) :
      Opens tree .java (.func id)
        (returns ++ " " ++ Dialect.java.identifier tree (.func id) ++ "(" ++ rest)

/-- A type and its members, in order. -/
def typeDeclarations (tree : DeclTree) (id : TypeId) : List Declaration :=
  let type := tree.type id
  .type id :: match type.kind with
    | .struct => type.fields.map .field ++ type.methods.map .func
    | .interface => type.methods.map .func

theorem typeDeclarations_of_struct {tree : DeclTree} {id : TypeId}
    (h : (tree.type id).kind = .struct) : typeDeclarations tree id =
      .type id :: ((tree.type id).fields.map .field ++ (tree.type id).methods.map .func) := by
  rw [typeDeclarations, h]

theorem typeDeclarations_of_interface {tree : DeclTree} {id : TypeId}
    (h : (tree.type id).kind = .interface) :
    typeDeclarations tree id = .type id :: (tree.type id).methods.map .func := by
  rw [typeDeclarations, h]

/-- The members of a type are the fields and the methods that its Java class has. -/
theorem typeDeclarations_eq (tree : DeclTree) (id : TypeId) : typeDeclarations tree id =
    .type id :: ((javaFields (tree.type id)).map .field ++ (tree.type id).methods.map .func) := by
  rcases hkind : (tree.type id).kind with _ | _
  · rw [typeDeclarations_of_struct hkind, javaFields, hkind]
  · rw [typeDeclarations_of_interface hkind, javaFields, hkind]
    rfl

/-- What a file declares, in order. -/
def fileDeclarations (tree : DeclTree) (contents : FileContents) : List Declaration :=
  contents.types.flatMap (typeDeclarations tree) ++ contents.funcs.map .func

/-! ### Lines of a script -/

/-- The texts that the script writes at the depth where it is. -/
def Script.texts (script : Script) : List String :=
  script.filterMap fun
    | .line text => some text
    | _ => none

theorem Script.texts_append (first second : Script) :
    (first ++ second : Script).texts = first.texts ++ second.texts :=
  List.filterMap_append

/-- Blank lines between scripts have no text. -/
theorem texts_separated (scripts : List Script) :
    (separated scripts).texts = Script.texts scripts.flatten := by
  induction scripts with
  | nil => rfl
  | cons script rest ih =>
    cases rest with
    | nil => rw [separated, List.flatten_singleton]
    | cons second others =>
      have hblank : (separated (script :: second :: others)).texts =
          script.texts ++ (separated (second :: others)).texts :=
        Script.texts_append script (.blank :: separated (second :: others))
      rw [hblank, ih, ← Script.texts_append]
      rfl

/-- Among the lines of the script there is, in order, one for each of the items. -/
def Lists {α : Type} (R : α → String → Prop) (items : List α) (script : Script) : Prop :=
  List.SublistForall₂ R items script.texts

namespace Lists

variable {α β : Type} {R : α → String → Prop} {items others : List α} {script other : Script}

theorem code (script : Script) : Lists R [] script :=
  .nil

theorem append (hfirst : Lists R items script) (hsecond : Lists R others other) :
    Lists R (items ++ others) (script ++ other) := by
  obtain ⟨first, hfirst, hscript⟩ := List.sublistForall₂_iff.mp hfirst
  obtain ⟨second, hsecond, hother⟩ := List.sublistForall₂_iff.mp hsecond
  refine List.sublistForall₂_iff.mpr ⟨first ++ second, List.rel_append hfirst hsecond, ?_⟩
  rw [Script.texts_append]
  exact hscript.append hother

theorem before (h : Lists R items script) (other : Script) : Lists R items (script ++ other) := by
  have hcode := h.append (code other)
  rwa [List.append_nil] at hcode

theorem after (h : Lists R items script) (other : Script) : Lists R items (other ++ script) :=
  (code other).append h

theorem ofLine {item : α} {text : String} (h : R item text) (rest : Script) :
    Lists R [item] (.line text :: rest) :=
  .cons h .nil

theorem flatten {f : β → List α} {parts : List β} {scripts : List Script}
    (h : List.Forall₂ (fun part script => Lists R (f part) script) parts scripts) :
    Lists R (parts.flatMap f) scripts.flatten := by
  induction h with
  | nil => exact code []
  | cons hfirst _ ih =>
    rw [List.flatMap_cons, List.flatten_cons]
    exact hfirst.append ih

theorem flattenEach {f : β → α} {parts : List β} {scripts : List Script}
    (h : List.Forall₂ (fun part script => Lists R [f part] script) parts scripts) :
    Lists R (parts.map f) scripts.flatten := by
  rw [List.map_eq_flatMap]
  exact flatten h

theorem separated {scripts : List Script} (h : Lists R items scripts.flatten) :
    Lists R items (separated scripts) := by
  rw [Lists, texts_separated]
  exact h

/-- What is listed for items is listed for what the items stand for. -/
theorem comp {S : β → α → Prop} {P : β → String → Prop} {sources : List β}
    (hsources : List.Forall₂ S sources items) (h : Lists R items script)
    (hboth : ∀ source item text, S source item → R item text → P source text) :
    Lists P sources script := by
  -- By induction on how the items are found among the lines.
  unfold Lists at h ⊢
  generalize script.texts = texts at h ⊢
  induction h generalizing sources with
  | nil =>
    rw [List.forall₂_nil_right_iff] at hsources
    rw [hsources]
    exact .nil
  | cons hitem _ ih =>
    obtain ⟨source, rest, hsource, hrest, rfl⟩ := List.forall₂_cons_right_iff.mp hsources
    exact .cons (hboth source _ _ hsource hitem) (ih hrest)
  | cons_right _ ih => exact .cons_right (ih hsources)

end Lists

/-- Among the lines of the script there is, in order, one for each of the declarations, on which
it is called by its name. -/
abbrev Outlines (c : FileContext) (decls : List Declaration) (script : Script) : Prop :=
  Lists (Opens c.tree c.language.dialect) decls script

theorem Outlines.ofLine {c : FileContext} {dialect : Dialect}
    (hdialect : c.language.dialect = dialect) {decl : Declaration} {text : String}
    (h : Opens c.tree dialect decl text) (rest : Script) :
    Outlines c [decl] (.line text :: rest) := by
  rw [Outlines, hdialect]
  exact .ofLine h rest

variable {c : FileContext} {registry : Registry} {script : Script}

/-! ### Fields of a Go struct -/

/-- Rows of several cells start with their first cell, and a blank. -/
theorem forall₂_layOut {rows : List Columns.Row} (h : ∀ row ∈ rows, 2 ≤ row.length) :
    List.Forall₂ (fun row text => ∃ rest, text = row.headD "" ++ " " ++ rest) rows
      (Columns.layOut rows) := by
  obtain ⟨placed, rfl, haligned, hlines⟩ := Columns.exists_aligned rows
  rw [hlines, List.forall₂_map_left_iff, List.forall₂_map_right_iff, List.forall₂_same]
  rintro ⟨row, gaps⟩ hline
  obtain ⟨hlength, hgaps⟩ := haligned.gaps _ hline
  match row, h _ (List.mem_map_of_mem hline) with
  | cell :: second :: others, _ =>
    obtain ⟨gap, gaps, rfl⟩ := List.exists_cons_of_length_eq_add_one hlength
    -- There is a blank behind the first cell, since there is another cell.
    obtain ⟨more, rfl⟩ := Nat.exists_eq_add_of_le' (hgaps gap List.mem_cons_self)
    rw [Columns.spaced_cons, Columns.blanksAfter, List.replicate_succ, String.ofList_cons]
    exact ⟨_, by simp only [List.headD_cons, String.append_assoc]; rfl⟩

/-- The line of a field starts with its first cell. -/
def StartsRow (row : FieldRow) (text : String) : Prop :=
  ∃ rest, text = row.cells.headD "" ++ " " ++ rest

theorem lists_goFieldGroup {group : List FieldRow} (h : ∀ row ∈ group, 2 ≤ row.cells.length) :
    Lists StartsRow group (goFieldGroup group) := by
  have htexts (texts : List String) : Script.texts (texts.map .line) = texts := by
    rw [Script.texts, List.filterMap_map]
    exact List.filterMap_some
  have hcells : ∀ row ∈ group.map (·.cells), 2 ≤ row.length := by simpa using h
  have hrows := forall₂_layOut hcells
  rw [List.forall₂_map_left_iff] at hrows
  have hlayOut : Lists StartsRow group ((Columns.layOut (group.map (·.cells))).map .line) := by
    rw [Lists, htexts]
    exact List.sublistForall₂_iff.mpr ⟨_, hrows, List.Sublist.refl _⟩
  exact hlayOut.after _

/-- **The fields of a struct are listed in order,** however they are grouped. -/
theorem outlines_goFieldRows (hgo : c.language.dialect = .go) {ids : List FieldId}
    {rows : List FieldRow}
    (h : List.Forall₂ (fun id row => (goFieldRow id).Yields c row) ids rows) :
    Outlines c (ids.map .field) (goFieldRows rows) := by
  have hcells : ∀ row ∈ rows, 2 ≤ row.cells.length := by
    intro row hrow
    obtain ⟨_, _, hid⟩ := exists_of_mem_of_forall₂ h row hrow
    obtain ⟨_, type, hcells⟩ := yields_goFieldRow hid
    rw [hcells]
    exact Nat.le_add_left 2 _
  -- The groups have all rows between them, in order.
  have hgroups := List.flatten_splitBy (fun _ next : FieldRow => next.doc.isEmpty) rows
  have hlists : Lists StartsRow rows (goFieldRows rows) := by
    conv => arg 2; rw [← hgroups]
    rw [goFieldRows, List.flatMap_def, ← List.flatMap_id]
    apply Lists.flatten
    rw [List.forall₂_map_right_iff, List.forall₂_same]
    intro group hgroup
    apply lists_goFieldGroup
    intro row hrow
    refine hcells row ?_
    rw [← hgroups]
    exact List.mem_flatten_of_mem hgroup hrow
  refine List.sublistForall₂_map_left_iff.mpr (Lists.comp h hlists ?_)
  rintro id row text hrow ⟨rest, rfl⟩
  obtain ⟨_, type, hcells⟩ := yields_goFieldRow hrow
  rw [hcells, hgo]
  exact .goField id rest

/-! ### Go -/

theorem outlines_goFunc (hgo : c.language.dialect = .go) {id : FuncId}
    (h : (goFunc registry id).Yields c script) : Outlines c [.func id] script := by
  obtain ⟨receiver, doc, _, body, hreceiver, _, hsignature, _, rfl⟩ := yields_goFunc h
  obtain ⟨rest, rfl⟩ := opens_goSignature hsignature
  have hopens : Opens c.tree .go (.func id) _ :=
    .goFunc id (rest ++ " \x7b") (yields_goReceiver hreceiver)
  have hline := Outlines.ofLine hgo hopens (.indent :: body ++ [.dedent, .line "\x7d"])
  simp only [← String.append_assoc] at hline ⊢
  exact hline.after (goFuncComment doc)

theorem outlines_goInterfaceMethod (hgo : c.language.dialect = .go) {id : FuncId}
    (h : (goInterfaceMethod id).Yields c script) : Outlines c [.func id] script := by
  obtain ⟨doc, rest, _, rfl⟩ := yields_goInterfaceMethod h
  exact (Outlines.ofLine hgo (.goSignature id rest) []).after (goFuncComment doc)

/-- A struct is the line of the type, with its fields below. -/
theorem outlines_goStruct (hgo : c.language.dialect = .go) {type : TypeNode} {name : String}
    (h : (goStruct type name).Yields c script) :
    ∃ text rest, script = .line text :: rest ∧ text ∈ goTypeHeads name .struct ∧
      Outlines c (type.fields.map .field) rest := by
  rcases yields_goStruct h with ⟨hnone, rfl⟩ | ⟨rows, hrows, rfl⟩
  · rw [hnone]
    exact ⟨_, [], rfl, by simp [goTypeHeads], .code []⟩
  · have hfields := outlines_goFieldRows hgo hrows
    exact ⟨_, _, rfl, by simp [goTypeHeads], (hfields.before _).after [.indent]⟩

/-- An interface is the line of the type, with its methods below. -/
theorem outlines_goInterface (hgo : c.language.dialect = .go) {type : TypeNode} {name : String}
    (h : (goInterface type name).Yields c script) :
    ∃ text rest, script = .line text :: rest ∧ text ∈ goTypeHeads name .interface ∧
      Outlines c (type.methods.map .func) rest := by
  rcases yields_goInterface h with ⟨hnone, rfl⟩ | ⟨methods, hmethods, rfl⟩
  · rw [hnone]
    exact ⟨_, [], rfl, by simp [goTypeHeads], .code []⟩
  · have hall : Outlines c (type.methods.map .func) methods.flatten :=
      Lists.flattenEach (hmethods.imp fun _ _ hmethod => outlines_goInterfaceMethod hgo hmethod)
    exact ⟨_, _, rfl, by simp [goTypeHeads], (hall.before _).after [.indent]⟩

/-- Declarations after blank lines. -/
theorem Spaced.outlines {α : Type} {write : α → FileM Script} {f : α → List Declaration}
    {items : List α} {scripts : List Script} (h : Spaced c write items scripts)
    (hwrite : ∀ item script, (write item).Yields c script → Outlines c (f item) script) :
    Outlines c (items.flatMap f) scripts.flatten := by
  refine Lists.flatten (h.imp fun item script hitem => ?_)
  obtain ⟨own, hown, rfl⟩ := hitem
  exact (hwrite item own hown).after [.blank]

/-- Funcs after blank lines. -/
theorem outlines_goFuncs (hgo : c.language.dialect = .go) {funcs : List FuncId}
    {scripts : List Script} (h : Spaced c (goFunc registry) funcs scripts) :
    Outlines c (funcs.map .func) scripts.flatten := by
  rw [List.map_eq_flatMap]
  exact h.outlines fun _ _ hfunc => outlines_goFunc hgo hfunc

theorem outlines_goTypeScript (hgo : c.language.dialect = .go) {id : TypeId}
    (h : (goTypeScript registry id).Yields c script) :
    Outlines c (typeDeclarations c.tree id) script := by
  obtain ⟨declaration, methods, rfl, hdeclaration⟩ := yields_goTypeScript h
  rw [List.append_assoc]
  refine Lists.after ?_ _
  rcases hkind : (c.tree.type id).kind with _ | _
  · -- A struct: its line, its fields, and then its methods below it.
    rw [hkind] at hdeclaration
    obtain ⟨text, rest, rfl, htext, hfields⟩ := outlines_goStruct hgo hdeclaration.1
    rw [← hkind] at htext
    have htype := Outlines.ofLine hgo (.goType id htext) []
    rw [typeDeclarations_of_struct hkind]
    exact htype.append (hfields.append (outlines_goFuncs hgo hdeclaration.2))
  · -- An interface: its line, and its methods in it.
    rw [hkind] at hdeclaration
    obtain ⟨hinterface, rfl⟩ := hdeclaration
    obtain ⟨text, rest, rfl, htext, hmethods⟩ := outlines_goInterface hgo hinterface
    rw [← hkind] at htext
    have htype := Outlines.ofLine hgo (.goType id htext) []
    rw [typeDeclarations_of_interface hkind]
    exact htype.append (hmethods.before _)

/-! ### Java -/

theorem outlines_javaField (hjava : c.language.dialect = .java) {id : FieldId}
    (h : (javaField id).Yields c script) : Outlines c [.field id] script := by
  obtain ⟨type, rfl⟩ := yields_javaField h
  have hopens : Opens c.tree .java (.field id) _ :=
    .javaField id (accessModifier (c.tree.field id).visibility false ++ type)
  exact (Outlines.ofLine hjava hopens []).after _

theorem outlines_javaMethod (hjava : c.language.dialect = .java) {kind : MethodForm} {id : FuncId}
    (h : (javaMethod registry kind id).Yields c script) : Outlines c [.func id] script := by
  obtain ⟨record, doc, returns, params, body, rfl, _, _, hbody⟩ := yields_javaMethod h
  have hopens (rest : String) : Opens c.tree .java (.func id) _ :=
    .javaFunc id returns (params ++ rest)
  have hblock : Outlines c [.func id] body := by
    cases hbody with
    | signature =>
      have hline := Outlines.ofLine hjava (hopens ";") []
      rwa [← String.append_assoc] at hline
    | body _ =>
      have hline := Outlines.ofLine hjava (hopens " \x7b") [.indent]
      rw [← String.append_assoc] at hline
      exact (hline.before _).before _
  exact hblock.after (record ++ docComment (funcCommentLines doc))

theorem outlines_javaFunc (hjava : c.language.dialect = .java) {id : FuncId}
    (h : (javaFunc registry id).Yields c script) : Outlines c [.func id] script := by
  obtain ⟨_, hmethod⟩ := yields_javaFunc h
  exact outlines_javaMethod hjava hmethod

theorem outlines_javaMembers (hjava : c.language.dialect = .java) {type : TypeNode}
    (h : (javaMembers registry type).Yields c script) :
    Outlines c ((javaFields type).map .field ++ type.methods.map .func) script := by
  obtain ⟨fields, methods, between, hfields, hmethods, _, rfl⟩ := yields_javaMembers h
  have hall : Outlines c ((javaFields type).map .field) fields.flatten :=
    Lists.flattenEach (hfields.imp fun _ _ hfield => outlines_javaField hjava hfield)
  have hrest : Outlines c (type.methods.map .func) methods.flatten :=
    Lists.flattenEach (hmethods.imp fun _ _ hmethod => outlines_javaMethod hjava hmethod)
  exact (hall.before between).append hrest.separated

theorem outlines_javaTypeScript (hjava : c.language.dialect = .java) {id : TypeId}
    (h : (javaTypeScript registry id).Yields c script) :
    Outlines c (typeDeclarations c.tree id) script := by
  obtain ⟨members, body, rfl, hbody, hmembers⟩ := yields_javaTypeScript h
  have hopens {text : String} (htext : text ∈ classHeads (javaTypeHead (c.tree.type id)
      (standsAlone c.contents.types c.contents.funcs))) (rest : Script) :
      Outlines c [.type id] (.line text :: rest) :=
    Outlines.ofLine hjava (.javaType id _ htext) rest
  rw [typeDeclarations_eq]
  refine Lists.after ?_ _
  cases hbody with
  | empty =>
    obtain ⟨hfields, hmethods⟩ := hmembers
    rw [hfields, hmethods]
    exact hopens (by simp [classHeads]) []
  | body inner =>
    have hline := hopens (List.mem_cons_of_mem _ List.mem_cons_self) [.indent]
    exact (hline.append (outlines_javaMembers hjava hmembers)).before _

/-! ### Files -/

theorem outlines_goScript (hgo : c.language.dialect = .go) {contents : FileContents}
    (h : (Dialect.go.plainScript registry contents).Yields c script) :
    Outlines c (fileDeclarations c.tree contents) script := by
  obtain ⟨types, funcs, htypes, hfuncs, rfl⟩ := yields_goScript h
  have hall := htypes.outlines fun _ _ htype => outlines_goTypeScript hgo htype
  exact hall.append (outlines_goFuncs hgo hfuncs)

theorem outlines_javaScript (hjava : c.language.dialect = .java)
    (h : (javaScript registry).Yields c script) :
    Outlines c (fileDeclarations c.tree c.contents) script := by
  unfold fileDeclarations
  rcases yields_javaScript h with
    ⟨htypes, hfuncs, rfl⟩ | ⟨id, own, htypes, hfuncs, hown, rfl⟩ | ⟨_, _, hwrapped⟩
  · rw [htypes, hfuncs]
    exact .code []
  · rw [htypes, hfuncs]
    have htype := (outlines_javaTypeScript hjava hown).after [.blank]
    simpa using htype
  · -- In the class around them the types come first, then the funcs.
    obtain ⟨types, funcs, htypes, hfuncs, _, rfl⟩ := yields_javaWrapped hwrapped
    have hall : Outlines c (c.contents.types.flatMap (typeDeclarations c.tree)) types.flatten :=
      Lists.flatten (htypes.imp fun _ _ htype => outlines_javaTypeScript hjava htype)
    have hrest : Outlines c (c.contents.funcs.map .func) funcs.flatten :=
      Lists.flattenEach (hfuncs.imp fun _ _ hfunc => outlines_javaFunc hjava hfunc)
    have hboth := hall.append hrest
    rw [← List.flatten_append] at hboth
    exact (hboth.separated.after _).before _

/-- **A file calls its declarations by their names,** on a line for each, in their order. -/
theorem outlines_fileScript (hderived : c.language.derived = false)
    (h : (fileScript registry).Yields c script) :
    Outlines c (fileDeclarations c.tree c.contents) script := by
  obtain ⟨decls, hdecls, rfl⟩ := yields_fileScript h
  have houtlines : Outlines c (fileDeclarations c.tree c.contents) decls := by
    rcases hdialect : c.language.dialect with _ | _
    · exact outlines_goScript hdialect (yields_declsScript_of_go hdialect hdecls)
    · exact outlines_javaScript hdialect (yields_declsScript_of_java hdialect hderived hdecls)
  exact houtlines.after (fileTop c)

end DeclPrinter
