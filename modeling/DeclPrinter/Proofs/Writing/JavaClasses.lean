import DeclPrinter.Proofs.Writing.JavaForm
import Mathlib.Data.List.Basic

/-!
# The classes in a Java file

A Java file is a text with classes in it: types, the class that holds them if there is one, and
the records that funcs return. `Members` reads a script as what stands in a class, or at the top
of a file, and finds the classes directly in it; `fileClasses` says which those of a file are, and
`members_javaScript` that they are the ones that are written.

The name of a class clashes with that of a class around it or beside it. Whatever is written, a
record is not called like a class around its func or a type beside it (`RecordFree`), and no type
like the class that holds it. What is left are records beside each other
(`wellScoped_fileClasses_iff`).
-/

namespace DeclPrinter

open FileM

/-! ### Classes -/

/-- A class as it is declared: its name and the classes directly in it. -/
inductive PrintedClass where
  | mk (name : String) (nested : List PrintedClass)

namespace PrintedClass

/-- What the class is called. -/
def name : PrintedClass → String
  | mk name _ => name

/-- A record, which has no classes in it. -/
def record (name : String) : PrintedClass :=
  mk name []

/-- In a class inside these others, the classes directly in it are called differently, and none
like a class around it; and so on inward. -/
inductive WellScoped : List String → PrintedClass → Prop where
  | mk {enclosing : List String} {name : String} {nested : List PrintedClass}
      (hdistinct : (nested.map PrintedClass.name).Nodup)
      (haround : ∀ inner ∈ nested, inner.name ∉ name :: enclosing)
      (hinner : ∀ inner ∈ nested, WellScoped (name :: enclosing) inner) :
      WellScoped enclosing (mk name nested)

theorem wellScoped_record (enclosing : List String) (name : String) :
    (record name).WellScoped enclosing :=
  .mk List.nodup_nil (by simp) (by simp)

theorem map_name_record (names : List String) : (names.map record).map name = names := by
  rw [List.map_map]
  exact List.map_id names

/-- A class with nothing but records in it. -/
theorem wellScoped_records_iff {enclosing records : List String} {name : String} :
    (mk name (records.map record)).WellScoped enclosing ↔
      records.Nodup ∧ ∀ record ∈ records, record ∉ name :: enclosing := by
  constructor
  · intro h
    cases h with
    | mk hdistinct haround _ =>
      rw [map_name_record] at hdistinct
      exact ⟨hdistinct, fun other hother => haround _ (List.mem_map_of_mem hother)⟩
  · rintro ⟨hdistinct, haround⟩
    refine .mk (by rwa [map_name_record]) (List.forall_mem_map.mpr haround) ?_
    exact List.forall_mem_map.mpr fun other _ => wellScoped_record _ other

/-- A class with other classes and then records in it, in a file without clashes between a record
and anything else. -/
theorem wellScoped_holder_iff {holder : String} {classes : List PrintedClass}
    {records : List String} (hclasses : (classes.map name).Nodup)
    (haround : ∀ inner ∈ classes, inner.name ≠ holder)
    (hrecords : ∀ record ∈ records, record ∉ holder :: classes.map name) :
    (mk holder (classes ++ records.map record)).WellScoped [] ↔
      (∀ inner ∈ classes, inner.WellScoped [holder]) ∧ records.Nodup := by
  constructor
  · intro h
    cases h with
    | mk hdistinct _ hinner =>
      rw [List.map_append, map_name_record] at hdistinct
      refine ⟨fun inner hmem => hinner inner (List.mem_append_left _ hmem), ?_⟩
      exact (List.nodup_append.mp hdistinct).2.1
  · rintro ⟨hinner, hdistinct⟩
    refine .mk ?_ ?_ ?_
    · -- A name that is there twice would be that of two classes, of two records or of one each.
      rw [List.map_append, map_name_record]
      refine List.nodup_append.mpr ⟨hclasses, hdistinct, ?_⟩
      rintro name hname record hrecord rfl
      exact hrecords name hrecord (List.mem_cons_of_mem holder hname)
    · intro inner hmem
      rw [List.mem_singleton]
      rcases List.mem_append.mp hmem with hmem | hmem
      · exact haround inner hmem
      · obtain ⟨name, hname, rfl⟩ := List.mem_map.mp hmem
        exact fun hsame => hrecords name hname (List.mem_cons.mpr (.inl hsame))
    · intro inner hmem
      rcases List.mem_append.mp hmem with hmem | hmem
      · exact hinner inner hmem
      · obtain ⟨name, _, rfl⟩ := List.mem_map.mp hmem
        exact wellScoped_record [holder] name

end PrintedClass

/-- The script is what stands in a class, or in a file, with these classes directly in it. -/
inductive Members : List PrintedClass → Script → Prop where
  | nil : Members [] []
  | blank : Members [] [.blank]
  | comment (lines : List String) : Members [] (docComment lines)
  | field (type name : String) : Members [] [.line (type ++ " " ++ name ++ ";")]
  | method {returns name params : String} {script : Script}
      (h : MethodBlock (returns ++ " " ++ name ++ "(" ++ params) script) : Members [] script
  | record (kind : MethodForm) (name : String) (components : List (String × String)) :
      Members [.record name] (javaRecord kind name components)
  | empty (modifiers : String) {keyword : String} (name : String)
      (h : keyword = "class" ∨ keyword = "interface") :
      Members [.mk name []] [.line (modifiers ++ keyword ++ " " ++ name ++ " \x7b\x7d")]
  | body (modifiers : String) {keyword : String} (name : String)
      (h : keyword = "class" ∨ keyword = "interface") {nested : List PrintedClass}
      {inner : Script} (hinner : Members nested inner) :
      Members [.mk name nested]
        ([.line (modifiers ++ keyword ++ " " ++ name ++ " \x7b"), .indent] ++ inner ++
          [.dedent, .line "\x7d"])
  | append {first second : List PrintedClass} {script other : Script}
      (hfirst : Members first script) (hsecond : Members second other) :
      Members (first ++ second) (script ++ other)

namespace Members

variable {classes : List (List PrintedClass)} {scripts : List Script}

theorem flatten (h : List.Forall₂ Members classes scripts) :
    Members classes.flatten scripts.flatten := by
  induction h with
  | nil => exact .nil
  | cons hfirst _ ih => exact hfirst.append ih

theorem separated (h : List.Forall₂ Members classes scripts) :
    Members classes.flatten (separated scripts) := by
  induction h with
  | nil => exact .nil
  | cons hfirst hrest ih =>
    rw [List.flatten_cons]
    cases hrest with
    | nil =>
      rw [List.flatten_nil, List.append_nil]
      exact hfirst
    | cons _ _ => exact hfirst.append (blank.append ih)

end Members

/-! ### The classes of a declaration -/

/-- The records that funcs return, in order. -/
def recordsOf (tree : DeclTree) (funcs : List FuncId) : List String :=
  funcs.filterMap fun id => javaRecordName? (tree.func id)

theorem map_record_recordsOf (tree : DeclTree) (funcs : List FuncId) :
    (recordsOf tree funcs).map PrintedClass.record =
      funcs.flatMap fun id => (javaRecordName? (tree.func id)).toList.map .record := by
  rw [recordsOf, List.filterMap_eq_flatMap_toList, List.map_flatMap]

/-- A type as a class: in it are the records of its methods. -/
def typeClass (tree : DeclTree) (id : TypeId) : PrintedClass :=
  .mk (Dialect.java.nameOfType (tree.type id))
    ((recordsOf tree (tree.type id).methods).map .record)

/-- The classes at the top of a file: its one type, or the class that holds its declarations. -/
def fileClasses (tree : DeclTree) (contents : FileContents) : List PrintedClass :=
  let types := contents.types.map (typeClass tree)
  let records := (recordsOf tree contents.funcs).map .record
  if standsAlone contents.types contents.funcs then types
  else if contents.types.isEmpty && contents.funcs.isEmpty then []
  else [.mk (wrappingClass contents.name) (types ++ records)]

variable {c : FileContext} {registry : Registry} {script : Script}

/-- The record that the func returns, if any, is not called like a class around it or a type
beside it. -/
def RecordFree (c : FileContext) (id : FuncId) : Prop :=
  ∀ name ∈ javaRecordName? (c.tree.func id), name ∉ takenClasses c (c.tree.funcHome id)

theorem members_javaMethod {kind : MethodForm} {id : FuncId}
    (h : (javaMethod registry kind id).Yields c script) :
    Members ((javaRecordName? (c.tree.func id)).toList.map .record) script ∧ RecordFree c id := by
  obtain ⟨record, doc, returns, params, body, rfl, hrecord, _, hbody⟩ := yields_javaMethod h
  -- Below the record there is no class.
  have hbelow := (Members.comment (funcCommentLines doc)).append (.method hbody)
  unfold RecordFree
  rw [List.append_assoc]
  generalize javaRecordName? (c.tree.func id) = name at hrecord
  cases hrecord with
  | nothing => exact ⟨hbelow, by simp⟩
  | record components hfree =>
    exact ⟨(Members.record kind _ components).append hbelow, by simpa using hfree⟩

theorem members_javaFunc {id : FuncId} (h : (javaFunc registry id).Yields c script) :
    Members ((javaRecordName? (c.tree.func id)).toList.map .record) script ∧ RecordFree c id := by
  obtain ⟨_, hmethod⟩ := yields_javaFunc h
  exact members_javaMethod hmethod

/-- In a type the records of its methods are directly in it. -/
theorem members_javaMembers {type : TypeNode} (h : (javaMembers registry type).Yields c script) :
    Members ((recordsOf c.tree type.methods).map .record) script ∧
      ∀ id ∈ type.methods, RecordFree c id := by
  obtain ⟨fields, methods, between, hfields, hmethods, hbetween, rfl⟩ := yields_javaMembers h
  -- Fields hold no classes.
  have habove : Members [] fields.flatten := by
    have hall : List.Forall₂ Members (fields.map fun _ => []) fields := by
      rw [List.forall₂_map_left_iff, List.forall₂_same]
      intro field hfield
      obtain ⟨id, _, hid⟩ := exists_of_mem_of_forall₂ hfields field hfield
      obtain ⟨text, rfl⟩ := yields_javaField hid
      exact (Members.comment _).append (.field _ _)
    simpa using Members.flatten hall
  have hbetween : Members [] between := by
    rcases hbetween with rfl | rfl
    · exact .nil
    · exact .blank
  have hbelow := Members.separated (List.forall₂_map_left_iff.mpr
    (hmethods.imp fun _ _ hmethod => (members_javaMethod hmethod).1))
  rw [map_record_recordsOf]
  -- Below them the record of each method comes with the method.
  constructor
  · exact (habove.append hbetween).append hbelow
  · intro id hid
    obtain ⟨_, _, hmethod⟩ := exists_related_of_mem hmethods id hid
    exact (members_javaMethod hmethod).2

/-- What the declaration of a Java type says of it ends in a keyword and its name. -/
theorem exists_javaTypeHead (type : TypeNode) (topLevel : Bool) :
    ∃ modifiers keyword, (keyword = "class" ∨ keyword = "interface") ∧
      javaTypeHead type topLevel = modifiers ++ keyword ++ " " ++ Dialect.java.nameOfType type := by
  unfold javaTypeHead
  cases type.kind with
  | struct => exact ⟨_, "class", .inl rfl, rfl⟩
  | interface => exact ⟨_, "interface", .inr rfl, rfl⟩

theorem members_javaTypeScript {id : TypeId} (h : (javaTypeScript registry id).Yields c script) :
    Members [typeClass c.tree id] script ∧
      ∀ method ∈ (c.tree.type id).methods, RecordFree c method := by
  obtain ⟨members, body, rfl, hbody, hmembers⟩ := yields_javaTypeScript h
  obtain ⟨modifiers, keyword, hkeyword, hhead⟩ := exists_javaTypeHead (c.tree.type id)
    (standsAlone c.contents.types c.contents.funcs)
  rw [hhead] at hbody
  unfold typeClass
  cases hbody with
  | empty =>
    rw [hmembers.2]
    exact ⟨(Members.comment _).append (.empty modifiers _ hkeyword), by simp⟩
  | body inner =>
    obtain ⟨hinner, hfree⟩ := members_javaMembers hmembers
    exact ⟨(Members.comment _).append (.body modifiers _ hkeyword hinner), hfree⟩

/-! ### The classes of a file -/

/-- The names in a file that are kept apart as it is written. -/
structure KeptApart (c : FileContext) : Prop where
  /-- The records of the methods. -/
  methods : ∀ type ∈ c.contents.types, ∀ id ∈ (c.tree.type type).methods, RecordFree c id
  /-- The records of the funcs. -/
  funcs : ∀ id ∈ c.contents.funcs, RecordFree c id
  /-- The types in the class that holds them. -/
  types : standsAlone c.contents.types c.contents.funcs = false → ∀ id ∈ c.contents.types,
    Dialect.java.nameOfType (c.tree.type id) ≠ wrappingClass c.contents.name

/-- A class that holds declarations has their classes in it. -/
theorem members_javaWrapped (h : (javaWrapped registry c.contents).Yields c script) :
    Members [.mk (wrappingClass c.contents.name) (c.contents.types.map (typeClass c.tree) ++
      (recordsOf c.tree c.contents.funcs).map .record)] script ∧ KeptApart c := by
  obtain ⟨types, funcs, htypes, hfuncs, hnames, rfl⟩ := yields_javaWrapped h
  constructor
  · have htypes := List.forall₂_map_left_iff.mpr
      (htypes.imp fun _ _ htype => (members_javaTypeScript htype).1)
    have hfuncs := List.forall₂_map_left_iff.mpr
      (hfuncs.imp fun _ _ hfunc => (members_javaFunc hfunc).1)
    -- The classes of the types, and then the records of the funcs, all in the one class.
    have hinner := Members.separated (List.rel_append htypes hfuncs)
    rw [List.flatten_append, ← List.flatMap_def, ← List.flatMap_def, ← List.map_eq_flatMap,
      ← map_record_recordsOf] at hinner
    have hclass := Members.body "public final " (wrappingClass c.contents.name) (.inl rfl) hinner
    have hkeywords : "public final " ++ "class" ++ " " = "public final class " := rfl
    rw [hkeywords] at hclass
    exact Members.blank.append hclass
  · refine ⟨?_, ?_, fun _ => hnames⟩
    · intro id hid
      obtain ⟨_, _, htype⟩ := exists_related_of_mem htypes id hid
      exact (members_javaTypeScript htype).2
    · intro id hid
      obtain ⟨_, _, hfunc⟩ := exists_related_of_mem hfuncs id hid
      exact (members_javaFunc hfunc).2

/-- **What a Java file is made of.** Its classes are those of its declarations. -/
theorem members_javaScript (h : (javaScript registry).Yields c script) :
    Members (fileClasses c.tree c.contents) script ∧ KeptApart c := by
  unfold fileClasses
  rcases yields_javaScript h with
    ⟨htypes, hfuncs, rfl⟩ | ⟨id, own, htypes, hfuncs, hown, rfl⟩ | ⟨halone, hsome, hwrapped⟩
  · refine ⟨?_, by simp [htypes], by simp [hfuncs], by simp [htypes]⟩
    rw [htypes, hfuncs]
    exact .nil
  · obtain ⟨hmembers, hfree⟩ := members_javaTypeScript hown
    have halone := standsAlone_iff.mpr ⟨id, htypes, hfuncs⟩
    refine ⟨?_, by simpa [htypes] using hfree, by simp [hfuncs], by simp [halone]⟩
    rw [if_pos halone, htypes]
    exact Members.blank.append hmembers
  · rw [halone, hsome]
    exact members_javaWrapped hwrapped

/-! ### Which names clash -/

/-- The class around the declarations of a file, if there is one. -/
def holderNames (contents : FileContents) : List String :=
  if standsAlone contents.types contents.funcs then [] else [wrappingClass contents.name]

theorem takenClasses_type (id : TypeId) :
    takenClasses c (.type id) = holderNames c.contents ++ [(typeClass c.tree id).name] :=
  rfl

theorem takenClasses_of_ne_type {home : FuncHome} (h : ∀ id, home ≠ .type id) :
    takenClasses c home =
      holderNames c.contents ++ (c.contents.types.map (typeClass c.tree)).map (·.name) := by
  rw [List.map_map]
  cases home with
  | type id => exact absurd rfl (h id)
  | file _ => rfl
  | package _ => rfl

theorem exists_of_mem_recordsOf {tree : DeclTree} {funcs : List FuncId} {record : String}
    (h : record ∈ recordsOf tree funcs) :
    ∃ id ∈ funcs, record ∈ javaRecordName? (tree.func id) :=
  List.mem_filterMap.mp h

/-- Funcs of a file are at home where the file has them. -/
structure HomedIn (tree : DeclTree) (contents : FileContents) : Prop where
  methods : ∀ type ∈ contents.types, ∀ id ∈ (tree.type type).methods,
    tree.funcHome id = .type type
  funcs : ∀ id ∈ contents.funcs, ∀ type, tree.funcHome id ≠ .type type

/-- A type is well scoped exactly if its methods return records of different names. -/
theorem wellScoped_typeClass_iff (hkept : KeptApart c) (hhomed : HomedIn c.tree c.contents)
    {id : TypeId} (hid : id ∈ c.contents.types) :
    (typeClass c.tree id).WellScoped (holderNames c.contents) ↔
      (recordsOf c.tree (c.tree.type id).methods).Nodup := by
  have hfree : ∀ record ∈ recordsOf c.tree (c.tree.type id).methods,
      record ∉ (typeClass c.tree id).name :: holderNames c.contents := by
    intro record hrecord
    obtain ⟨method, hmethod, hname⟩ := exists_of_mem_recordsOf hrecord
    have hfree := hkept.methods id hid method hmethod record hname
    rw [hhomed.methods id hid method hmethod, takenClasses_type] at hfree
    simpa [or_comm] using hfree
  constructor
  · intro h
    exact (PrintedClass.wellScoped_records_iff.mp h).1
  · intro h
    exact PrintedClass.wellScoped_records_iff.mpr ⟨h, hfree⟩

/-- **Only records beside each other can clash.** In a file whose types are called differently the
classes are well scoped exactly if the records of the methods of each type are called differently,
and so are those of its funcs. -/
theorem wellScoped_fileClasses_iff (hkept : KeptApart c) (hhomed : HomedIn c.tree c.contents)
    (htypes : (c.contents.types.map fun id => Dialect.java.nameOfType (c.tree.type id)).Nodup) :
    (∀ printed ∈ fileClasses c.tree c.contents, printed.WellScoped []) ↔
      (∀ type ∈ c.contents.types, (recordsOf c.tree (c.tree.type type).methods).Nodup) ∧
        (recordsOf c.tree c.contents.funcs).Nodup := by
  have hinner : ∀ id ∈ c.contents.types,
      (typeClass c.tree id).WellScoped (holderNames c.contents) ↔
        (recordsOf c.tree (c.tree.type id).methods).Nodup :=
    fun _ hid => wellScoped_typeClass_iff hkept hhomed hid
  unfold fileClasses
  by_cases halone : standsAlone c.contents.types c.contents.funcs = true
  · obtain ⟨_, _, hfuncs⟩ := standsAlone_iff.mp halone
    rw [holderNames, if_pos halone] at hinner
    rw [if_pos halone, hfuncs, List.forall_mem_map]
    have hnone : (recordsOf c.tree []).Nodup := List.nodup_nil
    rw [and_iff_left hnone]
    exact forall₂_congr hinner
  rw [holderNames, if_neg halone] at hinner
  by_cases hempty : (c.contents.types.isEmpty && c.contents.funcs.isEmpty) = true
  · rw [if_neg halone, if_pos hempty]
    rw [Bool.and_eq_true, List.isEmpty_iff, List.isEmpty_iff] at hempty
    rw [hempty.1, hempty.2]
    simp [recordsOf]
  rw [if_neg halone, if_neg hempty, List.forall_mem_singleton]
  -- A record of a func is called neither like the class that holds it nor like a type in that.
  have hrecords : ∀ record ∈ recordsOf c.tree c.contents.funcs,
      record ∉ wrappingClass c.contents.name ::
        (c.contents.types.map (typeClass c.tree)).map (·.name) := by
    intro record hrecord
    obtain ⟨id, hid, hname⟩ := exists_of_mem_recordsOf hrecord
    have hfree := hkept.funcs id hid record hname
    rw [takenClasses_of_ne_type (hhomed.funcs id hid), holderNames, if_neg halone] at hfree
    exact hfree
  have haround : ∀ inner ∈ c.contents.types.map (typeClass c.tree),
      inner.name ≠ wrappingClass c.contents.name :=
    List.forall_mem_map.mpr (hkept.types (Bool.eq_false_iff.mpr halone))
  have hdistinct : ((c.contents.types.map (typeClass c.tree)).map (·.name)).Nodup := by
    rw [List.map_map]
    exact htypes
  rw [PrintedClass.wellScoped_holder_iff hdistinct haround hrecords, List.forall_mem_map]
  exact and_congr_left fun _ => forall₂_congr hinner

end DeclPrinter
