import DeclPrinter.Language.Layout
import DeclPrinter.Proofs.Writing.JavaForm

/-!
# Where a file declares its types

A type is declared by a line that says what it is and what it is called. In a Go file that line
stands at the margin (`declaredAt_of_go`). A Java file is one class below the package clause and
the imports (`JavaFile`): its one type, or a class that holds all its declarations, and then a
type is declared one level further in.
-/

namespace DeclPrinter

open FileM

variable {c : FileContext} {registry : Registry} {script : Script} {id : TypeId}

/-- In the script one of these lines stands at the level. -/
def DeclaredAt (level : Nat) (heads : List String) (script : Script) : Prop :=
  ∃ before text after, script = before ++ .line text :: after ∧ text ∈ heads ∧
    Script.levelAfter before 0 = level

theorem DeclaredAt.after {level : Nat} {heads : List String} (h : DeclaredAt level heads script)
    {above : Script} (habove : Script.levelAfter above 0 = 0) :
    DeclaredAt level heads (above ++ script) := by
  obtain ⟨before, text, after, rfl, htext, hlevel⟩ := h
  refine ⟨above ++ before, text, after, by simp, htext, ?_⟩
  rw [Script.levelAfter_append, habove, hlevel]

theorem DeclaredAt.before {level : Nat} {heads : List String} (h : DeclaredAt level heads script)
    (below : Script) : DeclaredAt level heads (script ++ below) := by
  obtain ⟨before, text, after, rfl, htext, hlevel⟩ := h
  exact ⟨before, text, after ++ below, by simp, htext, hlevel⟩

/-! ### Above the declarations -/

theorem wellNested_importSection (dialect : Dialect) (imports : Imports) :
    WellNested (dialect.importSection imports) := by
  cases dialect with
  | go =>
    show WellNested (goImports imports)
    unfold goImports
    split
    · exact .nil
    · exact .line _
    · exact (WellNested.lines _).block _ _
  | java =>
    have hlines := WellNested.lines (imports.listed.map fun entry => "import " ++ entry.path ++ ";")
    rwa [List.map_map] at hlines

theorem levelAfter_preambleScript (preamble : Option String) :
    Script.levelAfter (preambleScript preamble) 0 = 0 := by
  unfold preambleScript
  split
  · split
    · rfl
    · rfl
  · rfl

/-- The declarations start at the margin. -/
theorem levelAfter_fileTop (c : FileContext) : Script.levelAfter (fileTop c) 0 = 0 := by
  have hclause : WellNested (c.language.dialect.packageClause (c.tree.module c.module)
      (c.tree.package c.package) c.contents.doc) := by
    cases c.language.dialect with
    | go => exact (wellNested_goComment _).join (.line _)
    | java => exact (wellNested_docComment _).join (.line _)
  have himports : WellNested (importScript c.language c.imports) := by
    unfold importScript
    split
    · split
      · exact .nil
      · exact WellNested.blank.join (wellNested_importSection _ _)
    · exact .nil
  rw [fileTop, Script.levelAfter_append, Script.levelAfter_append,
    levelAfter_preambleScript, hclause.levelAfter_eq, himports.levelAfter_eq]

/-! ### Go -/

/-- The lines by which a Go type of this name is declared. -/
def goTypeHeads (name : String) : TypeForm → List String
  | .struct => ["type " ++ name ++ " struct \x7b", "type " ++ name ++ " struct\x7b\x7d"]
  | .interface => ["type " ++ name ++ " interface \x7b", "type " ++ name ++ " interface\x7b\x7d"]

theorem declaredAt_goTypeScript (h : (goTypeScript registry id).Yields c script) :
    let type := c.tree.type id
    DeclaredAt 0 (goTypeHeads (goName type.name type.visibility) type.kind) script := by
  intro type
  obtain ⟨declaration, methods, rfl, hdeclaration⟩ := yields_goTypeScript h
  have hcomment := (wellNested_goComment
    (Comment.lines (goName type.name type.visibility) type.doc)).levelAfter_eq 0
  -- The first line below the comment; methods come after it.
  have hdeclared : DeclaredAt 0 (goTypeHeads (goName type.name type.visibility) type.kind)
      declaration := by
    rcases hkind : type.kind with _ | _
    · rw [show (c.tree.type id).kind = .struct from hkind] at hdeclaration
      rcases yields_goStruct hdeclaration.1 with ⟨_, rfl⟩ | ⟨rows, _, rfl⟩
      · exact ⟨[], _, [], rfl, by simp [goTypeHeads, type], rfl⟩
      · exact ⟨[], _, _, rfl, by simp [goTypeHeads, type], rfl⟩
    · rw [show (c.tree.type id).kind = .interface from hkind] at hdeclaration
      rcases yields_goInterface hdeclaration.1 with ⟨_, rfl⟩ | ⟨signatures, _, rfl⟩
      · exact ⟨[], _, [], rfl, by simp [goTypeHeads, type], rfl⟩
      · exact ⟨[], _, _, rfl, by simp [goTypeHeads, type], rfl⟩
  exact (hdeclared.after hcomment).before _

/-- **A Go file declares each of its types at the margin.** -/
theorem declaredAt_of_go (hgo : c.language.dialect = .go) (hid : id ∈ c.contents.types)
    (h : (fileScript registry).Yields c script) :
    let type := c.tree.type id
    DeclaredAt 0 (goTypeHeads (goName type.name type.visibility) type.kind) script := by
  intro type
  obtain ⟨decls, hdecls, rfl⟩ := yields_fileScript h
  obtain ⟨types, funcs, htypes, _, rfl⟩ :=
    yields_goScript (yields_declsScript_of_go hgo hdecls)
  -- The types before it are well nested, so it starts where they do.
  have hnested := htypes.wellNested fun _ _ htype => wellNested_goTypeScript htype
  obtain ⟨_, hmem, declaration, hdeclaration, rfl⟩ := exists_related_of_mem htypes id hid
  obtain ⟨earlier, later, rfl⟩ := List.append_of_mem hmem
  have hearlier := WellNested.flatten fun script hscript =>
    hnested script (List.mem_append_left _ hscript)
  have habove : Script.levelAfter (earlier.flatten ++ [.blank]) 0 = 0 := by
    rw [Script.levelAfter_append, hearlier.levelAfter_eq]
    rfl
  have hdeclared := (declaredAt_goTypeScript hdeclaration).after habove
  have hall := ((hdeclared.before (later.flatten ++ funcs.flatten)).after (levelAfter_fileTop c))
  simpa using hall

/-! ### Java -/

/-- A Java file says at the margin what package it is in. -/
theorem declaredAt_fileTop_of_java (hjava : c.language.dialect = .java) :
    let name := javaPackageName (c.tree.module c.module) (c.tree.package c.package)
    DeclaredAt 0 ["package " ++ name ++ ";"] (fileTop c) := by
  intro name
  let lines := Comment.lines (c.tree.package c.package).name c.contents.doc
  have hlevel : Script.levelAfter (preambleScript c.contents.preamble ++ docComment lines) 0 =
      0 := by
    rw [Script.levelAfter_append, levelAfter_preambleScript,
      (wellNested_docComment lines).levelAfter_eq]
  refine ⟨_, _, importScript c.language c.imports, ?_, List.mem_singleton_self _, hlevel⟩
  rw [fileTop, hjava]
  simp [Dialect.packageClause, javaPackageClause, lines, name]

/-- The lines that open a class, given what they say of it. -/
def classHeads (head : String) : List String :=
  [head ++ " \x7b\x7d", head ++ " \x7b"]

/-- A class: a line, or what is in it between two lines. -/
inductive ClassBlock (head : String) : Script → Prop where
  | empty : ClassBlock head [.line (head ++ " \x7b\x7d")]
  | members {inner : Script} (h : WellNested inner) :
      ClassBlock head ([.line (head ++ " \x7b"), .indent] ++ inner ++ [.dedent, .line "\x7d"])

theorem ClassBlock.wellNested {head : String} (h : ClassBlock head script) :
    WellNested script := by
  cases h with
  | empty => exact .line _
  | members hinner => exact hinner.block _ _

theorem ClassBlock.exists_head {head : String} (h : ClassBlock head script) :
    ∃ text rest, script = .line text :: rest ∧ text ∈ classHeads head := by
  cases h with
  | empty => exact ⟨_, [], rfl, by simp [classHeads]⟩
  | members _ => exact ⟨_, _, rfl, by simp [classHeads]⟩

theorem ClassBlock.declaredAt {head : String} (h : ClassBlock head script) {above : Script}
    {level : Nat} (habove : Script.levelAfter above 0 = level) (below : Script) :
    DeclaredAt level (classHeads head) (above ++ script ++ below) := by
  obtain ⟨text, rest, rfl, htext⟩ := h.exists_head
  exact ⟨above, text, rest ++ below, by simp, htext, habove⟩

theorem ClassOf.classBlock {head : String} {members : Option Script}
    (h : ClassOf head members script) (hmembers : ∀ inner ∈ members, WellNested inner) :
    ClassBlock head script := by
  cases h with
  | empty => exact .empty
  | body inner => exact .members (hmembers inner rfl)

/-- A Java type is a class under a comment. -/
theorem classBlock_of_javaTypeScript (h : (javaTypeScript registry id).Yields c script) :
    ∃ lines body, script = docComment lines ++ body ∧
      ClassBlock (javaTypeHead (c.tree.type id)
        (standsAlone c.contents.types c.contents.funcs)) body := by
  obtain ⟨members, body, rfl, hbody, hmembers⟩ := yields_javaTypeScript h
  refine ⟨_, body, rfl, hbody.classBlock ?_⟩
  rintro inner rfl
  exact wellNested_javaMembers hmembers

theorem wellNested_javaTypeScript (h : (javaTypeScript registry id).Yields c script) :
    WellNested script := by
  obtain ⟨lines, body, rfl, hbody⟩ := classBlock_of_javaTypeScript h
  exact (wellNested_docComment lines).join hbody.wellNested

/-- What the class of a Java file of this name is said to be. -/
def topHeads (name : String) : List String :=
  ["public class " ++ name, "class " ++ name, "public interface " ++ name, "interface " ++ name,
    "public final class " ++ name]

/-- The file is one class of this name, below the package clause and the imports. -/
def JavaFile (c : FileContext) (name : String) (script : Script) : Prop :=
  ∃ lines head body, script = fileTop c ++ .blank :: (docComment lines ++ body) ∧
    head ∈ topHeads name ∧ ClassBlock head body

theorem javaTypeHead_mem_topHeads (type : TypeNode) :
    javaTypeHead type true ∈ topHeads (Dialect.java.nameOfType type) := by
  unfold javaTypeHead topHeads
  cases type.visibility <;> cases type.kind <;> simp [accessModifier]

/-- In scripts with a blank line between each and the next, each stands after others. -/
theorem exists_separated {scripts : List Script} {own : Script} (h : own ∈ scripts)
    (hnested : ∀ script ∈ scripts, WellNested script) :
    ∃ before after, separated scripts = before ++ own ++ after ∧ WellNested before := by
  induction scripts with
  | nil => cases h
  | cons first rest ih =>
    cases rest with
    | nil =>
      obtain rfl := List.mem_singleton.mp h
      exact ⟨[], [], by simp [separated], .nil⟩
    | cons second others =>
      rcases List.mem_cons.mp h with rfl | hmem
      · exact ⟨[], .blank :: separated (second :: others), by simp [separated], .nil⟩
      · -- The first script and the blank line are before it as well.
        obtain ⟨before, after, heq, hbefore⟩ :=
          ih hmem fun script hscript => hnested script (List.mem_cons_of_mem first hscript)
        refine ⟨first ++ .blank :: before, after, by simp [separated, heq], ?_⟩
        exact (hnested first List.mem_cons_self).join (WellNested.blank.join hbefore)

/-- **A Java file of one type is that type.** -/
theorem javaFile_of_standsAlone (hjava : c.language.dialect = .java)
    (hderived : c.language.derived = false) (htypes : c.contents.types = [id])
    (hfuncs : c.contents.funcs = []) (h : (fileScript registry).Yields c script) :
    JavaFile c (Dialect.java.nameOfType (c.tree.type id)) script ∧
      DeclaredAt 0 (classHeads (javaTypeHead (c.tree.type id) true)) script := by
  obtain ⟨decls, hdecls, rfl⟩ := yields_fileScript h
  have halone : standsAlone c.contents.types c.contents.funcs = true :=
    standsAlone_iff.mpr ⟨id, htypes, hfuncs⟩
  obtain ⟨own, hown, rfl⟩ : ∃ own, (javaTypeScript registry id).Yields c own ∧
      decls = .blank :: own := by
    -- Of the three forms of a file this is the one with a single type.
    rcases yields_javaScript (yields_declsScript_of_java hjava hderived hdecls) with
      ⟨hnone, _⟩ | ⟨other, own, hone, _, hown, rfl⟩ | ⟨hwrapped, _⟩
    · rw [htypes] at hnone
      cases hnone
    · rw [htypes] at hone
      cases hone
      exact ⟨own, hown, rfl⟩
    · rw [halone] at hwrapped
      cases hwrapped
  obtain ⟨lines, body, rfl, hbody⟩ := classBlock_of_javaTypeScript hown
  rw [halone] at hbody
  refine ⟨⟨lines, _, body, rfl, javaTypeHead_mem_topHeads _, hbody⟩, ?_⟩
  have hcomment := (WellNested.blank.join (wellNested_docComment lines)).levelAfter_eq 0
  have hdeclared := (hbody.declaredAt hcomment []).after (levelAfter_fileTop c)
  rwa [List.append_nil] at hdeclared

theorem wellNested_of_wrapped {contents : FileContents} {types funcs : List Script}
    (htypes : List.Forall₂ (fun id type => (javaTypeScript registry id).Yields c type)
      contents.types types)
    (hfuncs : List.Forall₂ (fun id func => (javaFunc registry id).Yields c func)
      contents.funcs funcs) :
    ∀ script ∈ types ++ funcs, WellNested script := by
  intro script hscript
  rcases List.mem_append.mp hscript with htype | hfunc
  · obtain ⟨_, _, hother⟩ := exists_of_mem_of_forall₂ htypes script htype
    exact wellNested_javaTypeScript hother
  · obtain ⟨_, _, hother⟩ := exists_of_mem_of_forall₂ hfuncs script hfunc
    exact wellNested_javaFunc hother

/-- A class that holds the declarations of a file is all that stands below its top. -/
theorem javaFile_of_javaWrapped {decls : Script}
    (h : (javaWrapped registry c.contents).Yields c decls) :
    JavaFile c (wrappingClass c.contents.name) (fileTop c ++ decls) := by
  obtain ⟨types, funcs, htypes, hfuncs, _, rfl⟩ := yields_javaWrapped h
  have hnested := wellNested_of_wrapped htypes hfuncs
  refine ⟨[], "public final class " ++ wrappingClass c.contents.name, _, rfl, ?_,
    .members (wellNested_separated hnested)⟩
  simp [topHeads]

/-- **Any other Java file is a class that holds its types.** -/
theorem javaFile_of_wrapped (hjava : c.language.dialect = .java)
    (hderived : c.language.derived = false)
    (hwrapped : standsAlone c.contents.types c.contents.funcs = false)
    (hid : id ∈ c.contents.types) (h : (fileScript registry).Yields c script) :
    JavaFile c (wrappingClass c.contents.name) script ∧
      DeclaredAt 1 (classHeads (javaTypeHead (c.tree.type id) false)) script := by
  obtain ⟨decls, hdecls, rfl⟩ := yields_fileScript h
  have hwrapping : (javaWrapped registry c.contents).Yields c decls := by
    rcases yields_javaScript (yields_declsScript_of_java hjava hderived hdecls) with
      ⟨hnone, _⟩ | ⟨other, _, hone, hfuncs, _⟩ | ⟨_, _, hwrapping⟩
    · rw [hnone] at hid
      cases hid
    · -- One type and no func would have stood alone.
      have halone := standsAlone_iff.mpr ⟨other, hone, hfuncs⟩
      rw [halone] at hwrapped
      cases hwrapped
    · exact hwrapping
  refine ⟨javaFile_of_javaWrapped hwrapping, ?_⟩
  obtain ⟨types, funcs, htypes, hfuncs, _, rfl⟩ := yields_javaWrapped hwrapping
  obtain ⟨own, hmem, hown⟩ := exists_related_of_mem htypes id hid
  obtain ⟨before, after, hseparated, hbefore⟩ :=
    exists_separated (List.mem_append_left funcs hmem) (wellNested_of_wrapped htypes hfuncs)
  -- The type is one level further in than the class that holds it.
  obtain ⟨lines, body, rfl, hbody⟩ := classBlock_of_javaTypeScript hown
  rw [hwrapped] at hbody
  let opening : Script :=
    [.blank, .line ("public final class " ++ wrappingClass c.contents.name ++ " \x7b"), .indent]
  have hlevel : Script.levelAfter (opening ++ before ++ docComment lines) 0 = 1 := by
    rw [Script.levelAfter_append, Script.levelAfter_append, hbefore.levelAfter_eq,
      (wellNested_docComment lines).levelAfter_eq]
    rfl
  have hdeclared := (hbody.declaredAt hlevel (after ++ [.dedent, .line "\x7d"])).after
    (levelAfter_fileTop c)
  rw [hseparated]
  simpa [opening] using hdeclared

/-- The class that a Java file declares at the margin, if it declares anything. -/
def javaClass? (tree : DeclTree) (contents : FileContents) : Option String :=
  if contents.types.isEmpty && contents.funcs.isEmpty then none
  else some (Dialect.java.fileStem tree contents)

/-- **A Java file is the class that it is called after,** or nothing but its top. -/
theorem javaFile_of_fileScript (hjava : c.language.dialect = .java)
    (hderived : c.language.derived = false) (h : (fileScript registry).Yields c script) :
    match javaClass? c.tree c.contents with
    | none => script = fileTop c
    | some name => JavaFile c name script := by
  obtain ⟨decls, hdecls, rfl⟩ := yields_fileScript h
  unfold javaClass? Dialect.fileStem
  rcases yields_javaScript (yields_declsScript_of_java hjava hderived hdecls) with
    ⟨htypes, hfuncs, rfl⟩ | ⟨id, _, htypes, hfuncs, _⟩ | ⟨hwrapped, hsome, hwrapping⟩
  · simp [htypes, hfuncs]
  · have halone := (javaFile_of_standsAlone hjava hderived htypes hfuncs h).1
    simpa [htypes, hfuncs] using halone
  · rw [hsome]
    have hfile := javaFile_of_javaWrapped hwrapping
    dsimp only
    rw [if_neg Bool.false_ne_true]
    dsimp only
    split
    · -- One type and no func would have stood alone.
      rename_i type htypes hfuncs
      have halone := standsAlone_iff.mpr ⟨type, htypes, hfuncs⟩
      rw [hwrapped] at halone
      cases halone
    · exact hfile

end DeclPrinter
