import DeclPrinter.Proofs.Script.Appending

/-!
# Lines that are continued

A text is written line by line, each line at the level where it stands. What continues a line is
put behind it as it is: a line break in it starts a line at the margin, and behind a blank line it
stands at the margin itself. So a script keeps its level as long as nothing like this happens, and
if the unit of indentation is white space, only then.
-/

namespace DeclPrinter

open Text

/-! ### Lines of output -/

/-- The indentation of a level. -/
def indentation (unit : String) (level : Nat) : String :=
  String.join (List.replicate level unit)

/-- The text starts with the indentation of the level. -/
def StartsIn (unit : String) (level : Nat) (text : String) : Prop :=
  (indentation unit level).toList <+: text.toList

/-- If there is anything on it, the line of output starts with the indentation of the level. -/
def KeepsLevel (unit : String) (level : Nat) (output : String) : Prop :=
  isAllBlank output = true ∨ StartsIn unit level output

instance (unit : String) (level : Nat) (output : String) :
    Decidable (KeepsLevel unit level output) :=
  inferInstanceAs (Decidable (_ ∨ (indentation unit level).toList <+: output.toList))

/-- The lines of output that a line makes: more than one if there are line breaks in what it was
continued by. -/
def Line.outputs (unit : String) (line : Line) : List String :=
  (splitLines line.text).modifyHead (indentation unit line.depth ++ ·)

/-- The later lines of a text. -/
def laterLines (text : String) : List String :=
  (splitLines text).tail

theorem exists_splitLines_cons (text : String) :
    ∃ first, splitLines text = first :: laterLines text := by
  obtain ⟨first, rest, hlines⟩ :=
    List.exists_cons_of_ne_nil (LineBuffer.splitLines_ne_nil text)
  exact ⟨first, by rw [laterLines, hlines, List.tail_cons]⟩

theorem laterLines_subset_outputs (unit : String) (line : Line) :
    laterLines line.text ⊆ line.outputs unit := by
  obtain ⟨first, hlines⟩ := exists_splitLines_cons line.text
  rw [Line.outputs, hlines, List.modifyHead_cons]
  exact List.subset_cons_self _ _

theorem startsIn_indentation {unit : String} {level depth : Nat} (h : level ≤ depth)
    (text : String) : StartsIn unit level (indentation unit depth ++ text) := by
  obtain ⟨more, rfl⟩ := Nat.exists_eq_add_of_le h
  rw [StartsIn, indentation, indentation, List.replicate_add, String.join_append,
    String.append_assoc, String.toList_append]
  exact List.prefix_append _ _

/-! ### Lines that keep their level -/

/-- A line that keeps a level, also when it is continued by text without line breaks. -/
inductive Line.Sound (unit : String) (level : Nat) : Line → Prop where
  | blank : Line.Sound unit level .blank
  | unbroken {depth : Nat} {text : String} (hdepth : level ≤ depth)
      (hlines : splitLines text = [text]) : Line.Sound unit level ⟨depth, text⟩
  | broken {depth : Nat} {text first last : String} {between : List String}
      (hdepth : level ≤ depth) (hlines : splitLines text = first :: (between ++ [last]))
      (hbetween : ∀ later ∈ between, KeepsLevel unit level later)
      (hlast : StartsIn unit level last) : Line.Sound unit level ⟨depth, text⟩

namespace Line.Sound

variable {unit : String} {level : Nat} {line : Line}

theorem keepsLevel (h : line.Sound unit level) :
    ∀ output ∈ line.outputs unit, KeepsLevel unit level output := by
  cases h with
  | blank =>
    intro output houtput
    obtain rfl : output = "" := by
      simpa [Line.outputs, Line.blank, indentation, splitLines, splitAt_empty] using houtput
    exact .inl rfl
  | unbroken hdepth hlines =>
    rw [Line.outputs, hlines, List.modifyHead_cons, List.forall_mem_singleton]
    exact .inr (startsIn_indentation hdepth _)
  | broken hdepth hlines hbetween hlast =>
    rw [Line.outputs, hlines, List.modifyHead_cons, List.forall_mem_cons, List.forall_mem_append,
      List.forall_mem_singleton]
    exact ⟨.inr (startsIn_indentation hdepth _), hbetween, .inr hlast⟩

theorem continued (h : line.Sound unit level) (hsome : line ≠ .blank) {more : String}
    (hmore : '\n' ∉ more.toList) :
    Line.Sound unit level { line with text := line.text ++ more } := by
  cases h with
  | blank => exact absurd rfl hsome
  | @unbroken depth text hdepth hlines =>
    have hone : splitLines text = [] ++ [text] := hlines
    exact .unbroken hdepth (LineBuffer.splitLines_append_of_unbroken hone hmore)
  | @broken depth text first last between hdepth hlines hbetween hlast =>
    have hall : splitLines text = (first :: between) ++ [last] := hlines
    refine .broken hdepth (LineBuffer.splitLines_append_of_unbroken hall hmore) hbetween ?_
    rw [StartsIn, String.toList_append]
    exact hlast.trans (List.prefix_append _ _)

/-- What a text is written as. -/
theorem ofText {depth : Nat} (hdepth : level ≤ depth) {text : String}
    (h : '\n' ∉ text.toList) : (Line.ofText depth text).Sound unit level := by
  unfold Line.ofText
  dsimp only
  split
  · exact .blank
  · refine .unbroken hdepth (splitAt_of_unbroken fun c hc => ?_)
    rw [beq_eq_false_iff_ne]
    rintro rfl
    exact h (mem_of_mem_trimEnd hc)

/-- What opens a clause goes behind the brace that closes the block before it. -/
theorem clause {depth : Nat} (hdepth : level ≤ depth) (header : String)
    (hlater : ∀ later ∈ laterLines (header ++ "\x7b"), KeepsLevel unit level later) :
    Line.Sound unit level ⟨depth, "\x7d " ++ (header ++ "\x7b")⟩ := by
  obtain ⟨earlier, last, hheader⟩ := LineBuffer.exists_splitLines_concat header
  have hopening : splitLines (header ++ "\x7b") = earlier ++ [last ++ "\x7b"] :=
    LineBuffer.splitLines_append_of_unbroken hheader (by decide)
  have hline : splitLines ("\x7d " ++ (header ++ "\x7b")) =
      (earlier ++ [last ++ "\x7b"]).modifyHead ("\x7d " ++ ·) := by
    rw [← hopening]
    exact splitAt_append_of_unbroken (by simp)
  rw [laterLines, hopening] at hlater
  cases earlier with
  | nil =>
    have hjoined : "\n".intercalate (splitLines (header ++ "\x7b")) = header ++ "\x7b" :=
      intercalate_splitAt rfl _
    rw [hopening, List.nil_append, String.intercalate_singleton] at hjoined
    refine .unbroken hdepth ?_
    rw [hline, ← hjoined]
    rfl
  | cons first between =>
    obtain ⟨hbetween, hlast⟩ := List.forall_mem_append.mp
      (show ∀ later ∈ between ++ [last ++ "\x7b"], KeepsLevel unit level later from hlater)
    refine .broken hdepth hline hbetween ((List.forall_mem_singleton.mp hlast).resolve_left ?_)
    -- There is a brace on it.
    have hbrace : Text.isBlank '\x7b' = false := rfl
    simp [isAllBlank, hbrace]

end Line.Sound

/-! ### Scripts that continue lines -/

/-- A script of lines, and of scripts of this kind one level further in, that continues lines in
two ways: by the terminator, and by an opening of this kind on a line that closes a block. -/
inductive BlockLines (terminator : String) (opens : String → Prop) : Script → Prop where
  | nil : BlockLines terminator opens []
  | line (text : String) : BlockLines terminator opens [.line text]
  | terminator : BlockLines terminator opens [.append terminator]
  | clause {opening : String} (h : opens opening) :
      BlockLines terminator opens [.line "\x7d", .append " ", .append opening]
  | join {first second : Script} (hfirst : BlockLines terminator opens first)
      (hsecond : BlockLines terminator opens second) :
      BlockLines terminator opens (first ++ second)
  | nest {inner : Script} (hinner : BlockLines terminator opens inner) :
      BlockLines terminator opens (.indent :: inner ++ [.dedent])

/-- Whenever the script, run in the buffer, continues a line by the terminator, that line is not
blank. -/
def Script.EndsLines (script : Script) (terminator : String) (buffer : LineBuffer) : Prop :=
  ∀ before after, script = before ++ .append terminator :: after →
    terminator = "" ∨ ¬ (buffer.run before).EndsBlank

namespace BlockLines

variable {terminator : String} {opens : String → Prop} {script : Script} {unit : String}
  {level : Nat}

theorem lines (texts : List String) : BlockLines terminator opens (texts.map .line) := by
  induction texts with
  | nil => exact .nil
  | cons text rest ih => exact (line text).join ih

theorem wellNested (h : BlockLines terminator opens script) : WellNested script := by
  induction h with
  | nil => exact .nil
  | line text => exact .line text
  | terminator => exact .append terminator
  | @clause opening _ => exact ((WellNested.line "\x7d").join (.append " ")).join (.append opening)
  | join _ _ hfirst hsecond => exact hfirst.join hsecond
  | nest _ hinner => exact hinner.nest

/-- **Lines keep the level of the script** if its openings keep it, and no blank line is continued
by the terminator. -/
theorem sound (h : BlockLines terminator opens script) (hterminator : '\n' ∉ terminator.toList)
    (hopens : ∀ opening, opens opening → ∃ header, opening = header ++ "\x7b" ∧
      ∀ later ∈ laterLines opening, KeepsLevel unit level later)
    {buffer : LineBuffer} (hlevel : level ≤ buffer.level)
    (hbuffer : ∀ line ∈ buffer.lines, line.Sound unit level)
    (hends : script.EndsLines terminator buffer) :
    ∀ line ∈ (buffer.run script).lines, line.Sound unit level := by
  induction h generalizing buffer with
  | nil => exact hbuffer
  | line text =>
    -- What is written as a text is cut at line breaks, so each piece is sound on this level.
    intro line hline
    rcases List.mem_append.mp hline with hnew | hold
    · obtain ⟨piece, hpiece, rfl⟩ := List.mem_map.mp (List.mem_reverse.mp hnew)
      refine .ofText hlevel fun hbreak => ?_
      have hnone := (of_mem_splitAt hpiece '\n' hbreak).1
      simp at hnone
    · exact hbuffer line hold
  | terminator =>
    have hstep : buffer.run [.append terminator] = buffer.step (.append terminator) := rfl
    rw [hstep]
    -- The terminator continues the last line, if there is one and it is not blank.
    rcases hlines : buffer.lines with _ | ⟨last, earlier⟩
    · simp [LineBuffer.step, hlines]
    · rw [hlines] at hbuffer
      obtain ⟨hlast, hearlier⟩ := List.forall_mem_cons.mp hbuffer
      simp only [LineBuffer.step, hlines, List.forall_mem_cons]
      refine ⟨?_, hearlier⟩
      rcases hends [] [] rfl with rfl | hsome
      · rwa [String.append_empty]
      · refine hlast.continued ?_ hterminator
        rintro rfl
        exact hsome ⟨.blank, by simp [LineBuffer.run, hlines], rfl⟩
  | @clause opening hopening =>
    -- A chained clause continues the closing brace in front of it.
    obtain ⟨header, rfl, hlater⟩ := hopens opening hopening
    have hrun : buffer.run [.line "\x7d", .append " ", .append (header ++ "\x7b")] =
        buffer.push [⟨buffer.level, "\x7d " ++ (header ++ "\x7b")⟩] := by
      rfl
    rw [hrun]
    exact List.forall_mem_cons.mpr ⟨.clause hlevel header hlater, hbuffer⟩
  | @join first second hfirst _ ihfirst ihsecond =>
    -- Two scripts: the first leaves the level as it was.
    rw [LineBuffer.run_append]
    have hmiddle : level ≤ (buffer.run first).level := by
      rwa [LineBuffer.level_run, hfirst.wellNested.levelAfter_eq]
    refine ihsecond hmiddle (ihfirst hlevel hbuffer ?_) ?_
    · rintro before after rfl
      exact hends before (after ++ second) (by simp)
    · rintro before after rfl
      rw [← LineBuffer.run_append]
      exact hends (first ++ before) after (by simp)
  | @nest inner hinner ih =>
    -- Inside, the level is one more.
    have hrun : buffer.run (.indent :: inner ++ [.dedent]) =
        ((buffer.step .indent).run inner).step .dedent := by
      rw [List.cons_append]
      exact LineBuffer.run_append (buffer.step .indent) inner [.dedent]
    rw [hrun]
    refine ih (Nat.le_succ_of_le hlevel) hbuffer ?_
    rintro before after rfl
    exact hends (.indent :: before) (after ++ [.dedent]) (by simp)

end BlockLines

/-! ### Lines that do not keep their level -/

section

variable {unit text more : String} {level : Nat}

/-- What is not on its level does not get there by text behind it. -/
theorem KeepsLevel.of_append (hunit : isAllBlank unit = true)
    (h : KeepsLevel unit level (text ++ more)) : KeepsLevel unit level text := by
  have hblank : ∀ c ∈ (indentation unit level).toList, Text.isBlank c = true := by
    intro c hc
    rw [indentation, String.toList_join] at hc
    obtain ⟨own, hown, hmem⟩ := List.mem_flatMap.mp hc
    obtain rfl := List.eq_of_mem_replicate hown
    exact List.all_eq_true.mp hunit c hmem
  rcases h with hall | hstart
  · left
    rw [isAllBlank, List.all_eq_true] at hall ⊢
    exact fun c hc => hall c (by simp [hc])
  · -- The indentation ends within the text, or the text within the indentation and is blank.
    rw [StartsIn, String.toList_append] at hstart
    rcases List.prefix_or_prefix_of_prefix hstart (List.prefix_append _ _) with hshort | hlong
    · exact .inr hshort
    · exact .inl (List.all_eq_true.mpr fun c hc => hblank c (hlong.subset hc))

/-- The later lines of a text are later lines behind another. -/
theorem mem_laterLines_append {later : String} (h : later ∈ laterLines text) (front : String) :
    later ∈ laterLines (front ++ text) := by
  obtain ⟨first, htext⟩ := exists_splitLines_cons text
  obtain ⟨earlier, last, hfront⟩ := LineBuffer.exists_splitLines_concat front
  have hwhole : splitLines (front ++ text) = earlier ++ (last ++ first) :: laterLines text :=
    splitAt_append_eq hfront htext
  rw [laterLines, hwhole]
  cases earlier with
  | nil => exact h
  | cons head others => exact List.mem_append_right others (List.mem_cons_of_mem _ h)

/-- The last line of a text goes on with what is behind the text, and the others stay. -/
theorem exists_mem_laterLines_append {later : String} (h : later ∈ laterLines text)
    (back : String) : ∃ rest, later ++ rest ∈ laterLines (text ++ back) := by
  obtain ⟨first, hback⟩ := exists_splitLines_cons back
  obtain ⟨earlier, last, htext⟩ := LineBuffer.exists_splitLines_concat text
  -- Where the texts meet, the last line of the one and the first of the other become one line.
  have hwhole : splitLines (text ++ back) = earlier ++ (last ++ first) :: laterLines back :=
    splitAt_append_eq htext hback
  rw [laterLines, htext] at h
  rw [laterLines, hwhole]
  -- With nothing before its last line, the text has no later lines at all.
  cases earlier with
  | nil => cases h
  | cons head others =>
    rcases List.mem_append.mp (show later ∈ others ++ [last] from h) with hother | hlast
    · exact ⟨"", by rw [String.append_empty]; exact List.mem_append_left _ hother⟩
    · obtain rfl := List.mem_singleton.mp hlast
      exact ⟨first, List.mem_append_right others List.mem_cons_self⟩

end

namespace Script

variable {script : Script} {unit : String} {level : Nat}

/-- A line that is written stays among the lines of the script, however it is continued. -/
theorem exists_continued_mem_linesFrom {above below : List Line} {first : Script}
    {line : Line} (h : ((⟨[], level⟩ : LineBuffer).run first).lines = above ++ line :: below)
    (rest : Script) :
    ∃ more, { line with text := line.text ++ more } ∈ linesFrom (first ++ rest) level := by
  obtain ⟨_, more, hrun⟩ := LineBuffer.exists_continued_run rest h
  refine ⟨more, ?_⟩
  rw [linesFrom, LineBuffer.run_append, List.mem_reverse, hrun]
  simp

/-- **What is behind a line break of a continued line** has to keep the level by itself. -/
theorem keepsLevel_of_continued (hunit : isAllBlank unit = true) (hbegins : script.BeginsWithLine)
    (hkeeps : ∀ line ∈ script.linesFrom level, ∀ output ∈ line.outputs unit,
      KeepsLevel unit level output) {before after : Script} {separator text : String}
    (hscript : script = before ++ [.append separator, .append text] ++ after) :
    ∀ later ∈ laterLines text, KeepsLevel unit level later := by
  intro later hlater
  subst hscript
  -- The line that is continued is one that the script has written.
  have hsome : ((⟨[], level⟩ : LineBuffer).run before).lines ≠ [] := by
    cases before with
    | nil =>
      obtain ⟨_, hline⟩ := hbegins _ rfl
      cases hline
    | cons step rest =>
      obtain ⟨first, rfl⟩ := hbegins step rfl
      refine LineBuffer.lines_run_ne_nil ?_ rest
      simp [LineBuffer.step, LineBuffer.push, LineBuffer.splitLines_ne_nil]
  obtain ⟨last, earlier, hlines⟩ := List.exists_cons_of_ne_nil hsome
  have hcontinued :
      ((⟨[], level⟩ : LineBuffer).run (before ++ [.append separator, .append text])).lines =
        [] ++ { last with text := last.text ++ separator ++ text } :: earlier := by
    rw [LineBuffer.run_append]
    show ((LineBuffer.step _ (.append separator)).step (.append text)).lines = _
    simp [LineBuffer.step, hlines]
  obtain ⟨more, hline⟩ := exists_continued_mem_linesFrom hcontinued after
  obtain ⟨rest, hrest⟩ :=
    exists_mem_laterLines_append (mem_laterLines_append hlater (last.text ++ separator)) more
  exact (hkeeps _ hline _ (laterLines_subset_outputs unit _ hrest)).of_append hunit

/-- **A blank line is not continued,** except by nothing. -/
theorem endsLines_of_keepsLevel (hunit : isAllBlank unit = true) (hsome : unit ≠ "")
    (hlevel : level ≠ 0)
    (hkeeps : ∀ line ∈ script.linesFrom level, ∀ output ∈ line.outputs unit,
      KeepsLevel unit level output) {terminator : String}
    (hterminator : terminator = "" ∨ terminator = ";") :
    script.EndsLines terminator ⟨[], level⟩ := by
  rintro before after rfl
  refine hterminator.imp_right ?_
  rintro rfl hblank
  obtain ⟨above, habove⟩ :=
    ((LineBuffer.blanksAtMargin_nil level).run before).exists_push hblank
  have hcontinued : ((⟨[], level⟩ : LineBuffer).run (before ++ [.append ";"])).lines =
      [] ++ ⟨0, ";"⟩ :: above.lines := by
    rw [LineBuffer.run_append, habove]
    rfl
  obtain ⟨more, hline⟩ := exists_continued_mem_linesFrom hcontinued after
  rw [List.append_assoc, List.singleton_append] at hline
  obtain ⟨first, hmore⟩ := exists_splitLines_cons more
  have hlines : splitLines (";" ++ more) = (splitLines more).modifyHead (";" ++ ·) :=
    splitAt_append_of_unbroken (by simp)
  have houtput : ";" ++ first ∈ Line.outputs unit ⟨0, ";" ++ more⟩ := by
    simp [Line.outputs, hlines, hmore, indentation]
  -- So there is a semicolon at the margin, where there should be white space.
  have hkept : KeepsLevel unit level ";" := (hkeeps _ hline _ houtput).of_append hunit
  obtain ⟨outer, rfl⟩ := Nat.exists_eq_succ_of_ne_zero hlevel
  obtain ⟨c, rest, hunitList⟩ := List.exists_cons_of_ne_nil (mt String.toList_eq_nil_iff.mp hsome)
  have hc : Text.isBlank c = true := List.all_eq_true.mp hunit c (by simp [hunitList])
  rcases hkept with hnone | hstart
  · exact absurd hnone (by decide)
  · rw [StartsIn, indentation, List.replicate_succ, String.join_cons, String.toList_append,
      hunitList, List.cons_append] at hstart
    obtain rfl : c = ';' := (List.cons_prefix_cons.mp hstart).1
    cases hc

end Script

end DeclPrinter
