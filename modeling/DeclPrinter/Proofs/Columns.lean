import DeclPrinter.Writing.Go
import Mathlib.Algebra.GroupWithZero.Nat
import Mathlib.Data.List.SplitBy

/-!
# Columns stand below each other

A row is laid out as its cells in order, each but the last with blanks behind it. How many is
decided column by column: a column is as wide as the run of neighbouring rows with a cell to its
right asks for, and no wider. Rows that are in one run of a column are in one run of every column
before it (`runOf_eq`), so all columns up to there are equally wide in them, and the next cell
starts at the same offset (`exists_aligned`).

The fields of a Go struct are laid out in groups that a comment starts, and no field is lost or
moved (`struct_columns_aligned`).
-/

namespace DeclPrinter

namespace Columns

/-! ### Rows with blanks -/

/-- A cell with so many blanks behind it. -/
def blanksAfter (cell : String) (gap : Nat) : String :=
  cell ++ String.ofList (List.replicate gap ' ')

/-- What stands in front of the cell of a column when these are the blanks behind the cells. -/
def lead (row : Row) (gaps : List Nat) (column : Nat) : String :=
  String.join (((row.zip gaps).take column).map fun (cell, gap) => blanksAfter cell gap)

/-- A row with blanks behind each cell but the last. -/
def spaced (row : Row) (gaps : List Nat) : String :=
  lead row gaps (row.length - 1) ++ row.getLastD ""

/-- The rows of a run: all of them have a cell to the right of the column, and their neighbours
above and below have none. -/
structure IsRun (column : Nat) (above run below : List Row) : Prop where
  ne_nil : run ≠ []
  goesOn : ∀ row ∈ run, continues column row = true
  endsAbove : ∀ row ∈ above.getLast?, continues column row = false
  endsBelow : ∀ row ∈ below.head?, continues column row = false

/-- Rows with their blanks are aligned: there are blanks behind each cell but the last, in a run
the cells to the right of the column start at the same offset, and behind a cell that is as wide
as any in its column there is one blank. -/
structure Aligned (placed : List (Row × List Nat)) : Prop where
  gaps : ∀ line ∈ placed, line.2.length = line.1.length - 1 ∧ ∀ gap ∈ line.2, 1 ≤ gap
  offset : ∀ column above run below, placed = above ++ run ++ below →
    IsRun column (above.map Prod.fst) (run.map Prod.fst) (below.map Prod.fst) →
    ∃ offset, ∀ line ∈ run, (lead line.1 line.2 (column + 1)).length = offset
  widest : ∀ column above run below, placed = above ++ run ++ below →
    IsRun column (above.map Prod.fst) (run.map Prod.fst) (below.map Prod.fst) →
    ∀ line ∈ run, (∀ other ∈ run, cellLength column other.1 ≤ cellLength column line.1) →
      line.2[column]? = some 1

section

variable {row : Row} {gaps : List Nat}

theorem lead_cons (cell : String) (rest : Row) (gap : Nat) (gaps : List Nat) (column : Nat) :
    lead (cell :: rest) (gap :: gaps) (column + 1) =
      blanksAfter cell gap ++ lead rest gaps column := by
  simp [lead]

theorem spaced_cons (cell second : String) (rest : Row) (gap : Nat) (gaps : List Nat) :
    spaced (cell :: second :: rest) (gap :: gaps) =
      blanksAfter cell gap ++ spaced (second :: rest) gaps := by
  simp [spaced, lead_cons, String.append_assoc]

/-- **Each cell stands behind those before it** and their blanks. -/
theorem exists_spaced_eq (hgaps : gaps.length = row.length - 1) {column : Nat} {cell : String}
    (h : row[column]? = some cell) :
    ∃ rest, spaced row gaps = lead row gaps column ++ (cell ++ rest) := by
  induction row generalizing gaps column with
  | nil => simp at h
  | cons first others ih =>
    cases others with
    | nil =>
      -- The only cell, so the first one.
      cases column with
      | zero =>
        obtain rfl : first = cell := by simpa using h
        exact ⟨"", by simp [spaced, lead]⟩
      | succ column => simp at h
    | cons second rest =>
      obtain ⟨gap, gaps, rfl⟩ : ∃ gap others, gaps = gap :: others :=
        List.exists_cons_of_length_eq_add_one (by simpa using hgaps)
      cases column with
      | zero =>
        obtain rfl : first = cell := by simpa using h
        refine ⟨String.ofList (List.replicate gap ' ') ++ spaced (second :: rest) gaps, ?_⟩
        rw [spaced_cons, blanksAfter, String.append_assoc]
        simp [lead]
      | succ column =>
        have hrest : gaps.length = (second :: rest).length - 1 := by simpa using hgaps
        obtain ⟨tail, htail⟩ := ih hrest (by simpa using h)
        exact ⟨tail, by rw [spaced_cons, lead_cons, htail, String.append_assoc]⟩

end

/-! ### Blanks by width -/

/-- How many blanks fill the cells up to the widths of their columns. -/
def gapsOf (widths : List Nat) (row : Row) : List Nat :=
  List.zipWith (fun width cell => width - cell.length) widths row

theorem exists_width_of_gap {widths : List Nat} {row : Row} {column gap : Nat}
    (h : (gapsOf widths row)[column]? = some gap) :
    ∃ width, widths[column]? = some width ∧ gap = width - cellLength column row := by
  obtain ⟨width, cell, hwidth, hcell, rfl⟩ := List.getElem?_zipWith_eq_some.mp h
  exact ⟨width, hwidth, by simp [cellLength, hcell]⟩

/-- A line with padded cells is a row with blanks. -/
theorem joinRow_eq {widths : List Nat} {row : Row} (h : widths.length = row.length - 1) :
    joinRow widths row = spaced row (gapsOf widths row) := by
  induction row generalizing widths with
  | nil => simp [joinRow, spaced, lead]
  | cons cell rest ih =>
    cases rest with
    | nil => simp [joinRow, spaced, lead]
    | cons second others =>
      obtain ⟨width, widths, rfl⟩ : ∃ width others, widths = width :: others :=
        List.exists_cons_of_length_eq_add_one (by simpa using h)
      show pad width cell ++ joinRow widths (second :: others) = _
      rw [ih (by simpa using h)]
      exact (spaced_cons cell second others _ _).symm

/-- **Where a cell starts** is told by the widths of the columns before it, if the cells in them
are no wider. -/
theorem length_lead {widths : List Nat} {row : Row} {column : Nat} (h : column ≤ widths.length)
    (hfits : ∀ index width, widths[index]? = some width → cellLength index row ≤ width)
    (hrow : widths.length = row.length - 1) :
    (lead row (gapsOf widths row) column).length = (widths.take column).sum := by
  induction column generalizing widths row with
  | zero => simp [lead]
  | succ column ih =>
    obtain ⟨width, widths, rfl⟩ : ∃ width others, widths = width :: others :=
      List.exists_cons_of_length_pos (by omega)
    obtain ⟨cell, rest, rfl⟩ : ∃ cell rest, row = cell :: rest :=
      List.exists_cons_of_length_pos (by simp only [List.length_cons] at hrow; omega)
    -- The first cell and the blanks after it fill the first column.
    have hcell : cell.length ≤ width := hfits 0 width rfl
    have hothers : widths.length = rest.length - 1 := by
      simp only [List.length_cons] at hrow
      omega
    have hrest := ih (Nat.le_of_succ_le_succ h) (fun index => hfits (index + 1)) hothers
    have hgaps : gapsOf (width :: widths) (cell :: rest) =
        (width - cell.length) :: gapsOf widths rest := rfl
    rw [hgaps, lead_cons, String.length_append, hrest]
    simp [blanksAfter]
    omega

/-! ### Widths -/

theorem le_foldl_max (lengths : List Nat) (start : Nat) :
    start ≤ lengths.foldl max start ∧ ∀ length ∈ lengths, length ≤ lengths.foldl max start := by
  induction lengths generalizing start with
  | nil => simp
  | cons first rest ih =>
    obtain ⟨hstart, hrest⟩ := ih (max start first)
    rw [List.foldl_cons]
    refine ⟨by omega, ?_⟩
    intro length hlength
    rcases List.mem_cons.mp hlength with rfl | hmem
    · omega
    · exact hrest length hmem

theorem foldl_max_le {lengths : List Nat} {start bound : Nat} (hstart : start ≤ bound)
    (h : ∀ length ∈ lengths, length ≤ bound) : lengths.foldl max start ≤ bound := by
  induction lengths generalizing start with
  | nil => exact hstart
  | cons first rest ih =>
    have hfirst := h first List.mem_cons_self
    exact ih (by omega) fun length hlength => h length (List.mem_cons_of_mem first hlength)

theorem cellLength_lt_width (column : Nat) {run : List Row} {row : Row} (h : row ∈ run) :
    cellLength column row < width column run := by
  have hle := (le_foldl_max (run.map (cellLength column)) 0).2 _ (List.mem_map_of_mem h)
  rw [width]
  omega

/-- **A column is no wider than its widest cell asks for.** -/
theorem width_eq {column : Nat} {run : List Row} {row : Row} (h : row ∈ run)
    (hwidest : ∀ other ∈ run, cellLength column other ≤ cellLength column row) :
    width column run = cellLength column row + 1 := by
  have hbound : (run.map (cellLength column)).foldl max 0 ≤ cellLength column row := by
    refine foldl_max_le (Nat.zero_le _) fun length hlength => ?_
    obtain ⟨other, hother, rfl⟩ := List.mem_map.mp hlength
    exact hwidest other hother
  have hlt := cellLength_lt_width column h
  rw [width] at hlt ⊢
  omega

/-- The widths of the columns of a row, when these are the rows above it, nearest first, and those
below it. -/
def widthsOf (above : List Row) (row : Row) (below : List Row) : List Nat :=
  (List.range (row.length - 1)).map fun column => width column (runOf column above row below)

section

variable {above below : List Row} {row : Row}

theorem length_widthsOf : (widthsOf above row below).length = row.length - 1 := by
  simp [widthsOf]

theorem getElem?_widthsOf {column : Nat} (h : column < row.length - 1) :
    (widthsOf above row below)[column]? = some (width column (runOf column above row below)) := by
  simp [widthsOf, h]

/-- A row is in each of its runs, so its cells are narrower than their columns. -/
theorem cellLength_lt_of_getElem? {column width : Nat}
    (h : (widthsOf above row below)[column]? = some width) : cellLength column row < width := by
  have hlength : (widthsOf above row below).length = row.length - 1 := length_widthsOf
  have hcolumn : column < row.length - 1 := hlength ▸ (List.getElem?_eq_some_iff.mp h).1
  rw [getElem?_widthsOf hcolumn] at h
  obtain rfl := Option.some.inj h
  exact cellLength_lt_width column (by simp [runOf])

end

/-! ### Runs -/

theorem continues_of_le {row : Row} {first second : Nat} (hle : first ≤ second)
    (h : continues second row = true) : continues first row = true := by
  simp only [continues, decide_eq_true_eq] at h ⊢
  omega

/-- **Rows that go on together are in one run,** with what goes on above and below them. -/
theorem runOf_eq {column : Nat} {above before after below : List Row} {row : Row}
    (h : ∀ other ∈ before ++ row :: after, continues column other = true) :
    runOf column (before.reverse ++ above) row (after ++ below) =
      (above.takeWhile (continues column)).reverse ++ (before ++ row :: after) ++
        below.takeWhile (continues column) := by
  have hbefore : ∀ other ∈ before.reverse, continues column other = true := fun other hother =>
    h other (List.mem_append_left _ (List.mem_reverse.mp hother))
  have hafter : ∀ other ∈ after, continues column other = true := fun other hother =>
    h other (List.mem_append_right _ (List.mem_cons_of_mem row hother))
  rw [runOf, List.takeWhile_append_of_pos hbefore, List.takeWhile_append_of_pos hafter]
  simp

theorem takeWhile_eq_nil {column : Nat} {rows : List Row}
    (h : ∀ row ∈ rows.head?, continues column row = false) :
    rows.takeWhile (continues column) = [] := by
  cases rows with
  | nil => rfl
  | cons row rest => rw [List.takeWhile_cons_of_neg (by simp [h row rfl])]

/-- A run is all that goes on together. -/
theorem IsRun.runOf_eq {column : Nat} {above before after below : List Row} {row : Row}
    (h : IsRun column above (before ++ row :: after) below) :
    runOf column (before.reverse ++ above.reverse) row (after ++ below) =
      before ++ row :: after := by
  have habove : above.reverse.takeWhile (continues column) = [] :=
    takeWhile_eq_nil (by simpa using h.endsAbove)
  rw [Columns.runOf_eq h.goesOn, habove, takeWhile_eq_nil h.endsBelow]
  simp

/-- The columns up to one in which rows go on together are equally wide in all of them. -/
theorem take_widthsOf {column : Nat} {above before after below : List Row} {row : Row}
    (h : ∀ other ∈ before ++ row :: after, continues column other = true) :
    (widthsOf (before.reverse ++ above) row (after ++ below)).take (column + 1) =
      (List.range (column + 1)).map fun index => width index
        ((above.takeWhile (continues index)).reverse ++ (before ++ row :: after) ++
          below.takeWhile (continues index)) := by
  have hrow : column + 1 < row.length := by simpa [continues] using h row (by simp)
  have hmin : min (column + 1) (row.length - 1) = column + 1 := by omega
  rw [widthsOf, ← List.map_take, List.take_range, hmin]
  refine List.map_congr_left fun index hindex => ?_
  have hle : index ≤ column := by simpa [Nat.lt_succ_iff] using hindex
  rw [Columns.runOf_eq fun other hother => continues_of_le hle (h other hother)]

/-! ### Rows laid out -/

/-- The rows below the rows `above`, nearest first, each with the blanks behind its cells. -/
def placedBelow (above : List Row) : List Row → List (Row × List Nat)
  | [] => []
  | row :: below => (row, gapsOf (widthsOf above row below) row) :: placedBelow (row :: above) below

theorem map_fst_placedBelow (above rows : List Row) :
    (placedBelow above rows).map Prod.fst = rows := by
  induction rows generalizing above with
  | nil => rfl
  | cons row below ih => rw [placedBelow, List.map_cons, ih]

theorem layOutBelow_eq (above rows : List Row) :
    layOutBelow above rows = (placedBelow above rows).map fun line => spaced line.1 line.2 := by
  induction rows generalizing above with
  | nil => rfl
  | cons row below ih =>
    rw [placedBelow, List.map_cons, ← ih, ← joinRow_eq length_widthsOf]
    rfl

/-- The blanks of a row are told by all rows, those above and those below. -/
theorem gaps_of_placedBelow {above rows : List Row} {before after : List (Row × List Nat)}
    {line : Row × List Nat} (h : placedBelow above rows = before ++ line :: after) :
    line.2 = gapsOf (widthsOf ((before.map Prod.fst).reverse ++ above) line.1
      (after.map Prod.fst)) line.1 := by
  induction before generalizing above rows with
  | nil =>
    cases rows with
    | nil => cases h
    | cons row below =>
      -- The row itself, with the rows above it in reverse.
      obtain ⟨rfl, rfl⟩ := List.cons.inj h
      rw [map_fst_placedBelow]
      rfl
  | cons first before ih =>
    cases rows with
    | nil => cases h
    | cons row below =>
      -- A row before it is one of those above from here on.
      obtain ⟨rfl, hrest⟩ := List.cons.inj h
      rw [ih hrest]
      simp

theorem exists_of_mem_run {rows : List Row} {above run below : List (Row × List Nat)}
    (h : placedBelow [] rows = above ++ run ++ below) {line : Row × List Nat} (hline : line ∈ run) :
    ∃ before after, run.map Prod.fst = before ++ line.1 :: after ∧
      line.2 = gapsOf (widthsOf (before.reverse ++ (above.map Prod.fst).reverse) line.1
        (after ++ below.map Prod.fst)) line.1 := by
  obtain ⟨before, after, rfl⟩ := List.append_of_mem hline
  have hsplit : placedBelow [] rows = (above ++ before) ++ line :: (after ++ below) := by
    rw [h]
    simp
  refine ⟨before.map Prod.fst, after.map Prod.fst, by simp, ?_⟩
  rw [gaps_of_placedBelow hsplit]
  simp

/-- **Rows are aligned** when each has the blanks that the rows around it ask for. -/
theorem aligned_placedBelow (rows : List Row) : Aligned (placedBelow [] rows) where
  gaps := by
    intro line hline
    obtain ⟨before, after, h⟩ := List.append_of_mem hline
    rw [gaps_of_placedBelow h]
    refine ⟨by simp [gapsOf, length_widthsOf], fun gap hgap => ?_⟩
    obtain ⟨column, hcolumn⟩ := List.mem_iff_getElem?.mp hgap
    obtain ⟨width, hwidth, rfl⟩ := exists_width_of_gap hcolumn
    have hlt := cellLength_lt_of_getElem? hwidth
    omega
  offset := by
    intro column above run below h hrun
    -- The widths of the columns up to this one are the same for all rows of the run.
    refine ⟨((List.range (column + 1)).map fun index => width index
      (((above.map Prod.fst).reverse.takeWhile (continues index)).reverse ++ run.map Prod.fst ++
        (below.map Prod.fst).takeWhile (continues index))).sum, fun line hline => ?_⟩
    obtain ⟨before, after, hrows, hgaps⟩ := exists_of_mem_run h hline
    have hgoesOn := hrun.goesOn
    rw [hrows] at hgoesOn ⊢
    have hcolumn : column + 1 < line.1.length := by simpa [continues] using hgoesOn line.1 (by simp)
    rw [hgaps, length_lead (by rw [length_widthsOf]; omega)
      (fun _ _ hwidth => (cellLength_lt_of_getElem? hwidth).le) length_widthsOf,
      take_widthsOf hgoesOn]
  widest := by
    intro column above run below h hrun line hline hwidest
    obtain ⟨before, after, hrows, hgaps⟩ := exists_of_mem_run h hline
    rw [hrows] at hrun
    have hcolumn : column + 1 < line.1.length := by
      simpa [continues] using hrun.goesOn line.1 (by simp)
    have hwidth : width column (before ++ line.1 :: after) = cellLength column line.1 + 1 := by
      refine width_eq (by simp) fun other hother => ?_
      rw [← hrows] at hother
      obtain ⟨found, hfound, rfl⟩ := List.mem_map.mp hother
      exact hwidest found hfound
    obtain ⟨cell, hcell⟩ : ∃ cell, line.1[column]? = some cell :=
      ⟨line.1[column], List.getElem?_eq_getElem _⟩
    have hlength : cellLength column line.1 = cell.length := by simp [cellLength, hcell]
    rw [hgaps, gapsOf, List.getElem?_zipWith_eq_some]
    refine ⟨_, cell, getElem?_widthsOf (by omega), hcell, ?_⟩
    rw [hrun.runOf_eq, hwidth, hlength]
    omega

/-- **Rows are laid out as aligned lines,** one for each. -/
theorem exists_aligned (rows : List Row) :
    ∃ placed : List (Row × List Nat), placed.map Prod.fst = rows ∧ Aligned placed ∧
      layOut rows = placed.map fun line => spaced line.1 line.2 :=
  ⟨placedBelow [] rows, map_fst_placedBelow [] rows, aligned_placedBelow rows,
    layOutBelow_eq [] rows⟩

theorem length_layOut (rows : List Row) : (layOut rows).length = rows.length := by
  rw [layOut, layOutBelow_eq, List.length_map, ← List.length_map Prod.fst, map_fst_placedBelow]

end Columns

/-! ### Fields of a Go struct -/

theorem forall_mem_tail_of_isChain {α : Type} {R : α → α → Prop} {p : α → Prop}
    (hR : ∀ first second, R first second → p second) {items : List α} (h : items.IsChain R) :
    ∀ item ∈ items.tail, p item := by
  induction items with
  | nil => simp
  | cons first rest ih =>
    cases rest with
    | nil => simp
    | cons second others =>
      obtain ⟨hfirst, hrest⟩ := List.isChain_cons_cons.mp h
      exact List.forall_mem_cons.mpr ⟨hR first second hfirst, ih hrest⟩

/-- A row of a struct, under its comment. -/
def fieldLine (row : FieldRow) (line : String) : Script :=
  goComment row.doc ++ [.line line]

/-- Rows without comments are just their lines. -/
theorem flatten_zipWith_fieldLine {rows : List FieldRow} (h : ∀ row ∈ rows, row.doc = [])
    {lines : List String} (hlength : rows.length = lines.length) :
    (List.zipWith fieldLine rows lines).flatten = lines.map .line := by
  induction rows generalizing lines with
  | nil =>
    rw [List.length_eq_zero_iff.mp hlength.symm]
    rfl
  | cons row rest ih =>
    obtain ⟨line, lines, rfl⟩ := List.exists_cons_of_length_eq_add_one hlength.symm
    rw [List.zipWith_cons_cons, List.flatten_cons, ih (List.forall_mem_cons.mp h).2
      (Nat.succ.inj hlength), fieldLine, h row List.mem_cons_self]
    rfl

/-- **In a group each row stands under its own comment,** if only the first has one. -/
theorem goFieldGroup_eq {first : FieldRow} {rest : List FieldRow}
    (h : ∀ row ∈ rest, row.doc = []) :
    goFieldGroup (first :: rest) =
      (List.zipWith fieldLine (first :: rest)
        (Columns.layOut ((first :: rest).map (·.cells)))).flatten := by
  have hlength : (Columns.layOut ((first :: rest).map (·.cells))).length = rest.length + 1 := by
    rw [Columns.length_layOut, List.length_map, List.length_cons]
  obtain ⟨line, lines, hlines⟩ := List.exists_cons_of_length_eq_add_one hlength
  rw [hlines, List.length_cons] at hlength
  rw [goFieldGroup, hlines, List.zipWith_cons_cons, List.flatten_cons,
    flatten_zipWith_fieldLine h (Nat.succ.inj hlength).symm]
  simp [fieldLine]

/-- **Struct bodies are aligned in groups.** Any rows of cells are laid out as one line each: the
cells in order, each but the last with blanks behind it, at least one. In a run of rows that have a
cell to the right of a column, with no such row next to the run, these cells start at the same
offset, and behind a cell of the column that is as wide as any in the run there is just one blank.

The rows of a struct are written in order, each under its own comment. They are laid out in groups:
one starts at the first row, one at each row with a comment, and none anywhere else. -/
theorem struct_columns_aligned :
    (∀ rows : List Columns.Row, ∃ placed : List (Columns.Row × List Nat),
      placed.map Prod.fst = rows ∧
      Columns.layOut rows = placed.map (fun line => Columns.spaced line.1 line.2) ∧
      Columns.Aligned placed ∧
      ∀ line ∈ placed, ∀ column cell, line.1[column]? = some cell →
        ∃ rest, Columns.spaced line.1 line.2 =
          Columns.lead line.1 line.2 column ++ (cell ++ rest)) ∧
    ∀ rows : List FieldRow, ∃ groups : List (List FieldRow),
      groups.flatten = rows ∧
      (∀ group ∈ groups, group ≠ [] ∧ ∀ row ∈ group.tail, row.doc = []) ∧
      (∀ group ∈ groups.tail, ∀ row ∈ group.head?, row.doc ≠ []) ∧
      goFieldRows rows = groups.flatMap fun group =>
        (List.zipWith fieldLine group (Columns.layOut (group.map (·.cells)))).flatten := by
  constructor
  · intro rows
    obtain ⟨placed, hrows, haligned, hlines⟩ := Columns.exists_aligned rows
    refine ⟨placed, hrows, hlines, haligned, fun line hline column cell hcell => ?_⟩
    exact Columns.exists_spaced_eq (haligned.gaps line hline).1 hcell
  · intro rows
    let together (_ next : FieldRow) : Bool := next.doc.isEmpty
    have hgroups : ∀ group ∈ rows.splitBy together, group ≠ [] ∧
        ∀ row ∈ group.tail, row.doc = [] := by
      intro group hgroup
      have hchain : group.IsChain fun first next => together first next = true :=
        List.isChain_of_mem_splitBy hgroup
      have hnone (first next : FieldRow) (h : together first next = true) : next.doc = [] :=
        List.isEmpty_iff.mp h
      exact ⟨List.ne_nil_of_mem_splitBy hgroup, forall_mem_tail_of_isChain hnone hchain⟩
    refine ⟨rows.splitBy together, List.flatten_splitBy together rows, hgroups, ?_, ?_⟩
    · -- A group ends only where the next row has a comment.
      refine forall_mem_tail_of_isChain ?_ (List.isChain_getLast_head_splitBy together rows)
      rintro _ group ⟨_, hne, hhead⟩ row hrow
      rw [List.head?_eq_some_head hne] at hrow
      obtain rfl := Option.some.inj hrow
      simpa [together] using hhead
    · refine List.flatMap_congr fun group hgroup => ?_
      obtain ⟨hne, hrest⟩ := hgroups group hgroup
      obtain ⟨first, rest, rfl⟩ := List.exists_cons_of_ne_nil hne
      exact goFieldGroup_eq hrest

/-- A row without a tag interrupts the column of types, but not that of names. -/
example : Columns.layOut [["A", "int", "`json:\"a\"`"], ["Bbb", "string"],
    ["C", "int", "`json:\"c\"`"]] =
      ["A   int `json:\"a\"`", "Bbb string", "C   int `json:\"c\"`"] := by
  decide +kernel

end DeclPrinter
