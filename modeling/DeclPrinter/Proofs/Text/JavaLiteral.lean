import DeclPrinter.Proofs.Text.GoLiteral

/-!
# Literals as Java reads them

A Java compiler goes through a source text twice. First the text becomes UTF-16 code units, and a
backslash with a `u` and four digits becomes the unit of that number, unless the backslash is
itself behind one (`javaUnits?`). Only then are literals read off, with escapes of their own
(`javaString?`). A literal stands both: no backslash in it is taken for the start of a unit, and
what it is read as is the text it was made from (`javaUnits?_literal`, `javaString?_literal`).
-/

namespace DeclPrinter.Text

/-! ### Code units -/

/-- A character in UTF-16: one code unit, or two for a character beyond the first 65536. -/
def utf16 (c : Char) : List Nat :=
  if c.toNat < 0x10000 then [c.toNat]
  else [0xd800 + (c.toNat - 0x10000) / 0x400, 0xdc00 + (c.toNat - 0x10000) % 0x400]

/-- The code units of a text in UTF-16. -/
def units (text : List Char) : List Nat :=
  text.flatMap utf16

/-- A character of a source text, or the unit that stands there by its number. A backslash that
starts no number is taken together with the character behind it, since that is what keeps a
backslash there from starting one. -/
def javaSourcePiece? : PieceReader Char Nat
  | [] => none
  | c :: rest =>
    if c = '\\' then
      match rest with
      | [] => some (utf16 c, [])
      | d :: more =>
        if d = 'u' then do
          let (number, last) ← takeNumber? 16 4 (more.dropWhile (· == 'u'))
          return ([number], last)
        else some (utf16 c ++ utf16 d, more)
    else some (utf16 c, rest)

/-- The code units that a source text stands for. -/
def javaUnits? (text : List Char) : Option (List Nat) :=
  readWhole? javaSourcePiece? text

theorem javaSourcePiece?_of_ne {c : Char} (h : c ≠ '\\') (rest : List Char) :
    javaSourcePiece? (c :: rest) = some (utf16 c, rest) := by
  simp [javaSourcePiece?, h]

theorem javaSourcePiece?_literalChar (c : Char) (rest : List Char) :
    javaSourcePiece? (literalChar c ++ rest) = some (units (literalChar c), rest) := by
  refine literalChar_cases
    (P := fun _ own => javaSourcePiece? (own ++ rest) = some (units own, rest))
    rfl rfl rfl rfl rfl (fun c hc => ?_) c
  simp only [literalMarks, List.mem_cons, not_or] at hc
  simp [javaSourcePiece?_of_ne hc.2.1, units]

/-- **Nothing in a literal is taken for the number of a code unit.** -/
theorem javaUnits?_literal (s : String) (rest : List Char) :
    javaUnits? ((literal s).toList ++ rest) =
      (javaUnits? rest).map (units (literal s).toList ++ ·) := by
  have hquote (more : List Char) : javaSourcePiece? ('"' :: more) = some (utf16 '"', more) :=
    javaSourcePiece?_of_ne (by decide) more
  have hinner : units (literalInner s) = s.toList.flatMap (units ∘ literalChar) :=
    List.flatMap_assoc
  have hunits : units (literal s).toList =
      utf16 '"' ++ (s.toList.flatMap (units ∘ literalChar) ++ utf16 '"') := by
    rw [toList_literal, ← hinner, units, List.flatMap_cons, List.flatMap_append]
    rfl
  unfold javaUnits?
  rw [hunits, toList_literal, List.cons_append, List.append_assoc, List.singleton_append,
    readWhole?_of_some (hquote _) (Nat.lt_succ_self _), literalInner,
    readWhole?_flatMap (fun c _ => javaSourcePiece?_literalChar c) literalChar_ne_nil,
    readWhole?_of_some (hquote _) (Nat.lt_succ_self _)]
  simp [Function.comp_def]

/-! ### Strings -/

/-- The escapes of one character, with the unit that each stands for. -/
def javaEscapes : List (Char × Nat) :=
  [('b', 8), ('s', 32), ('t', 9), ('n', 10), ('f', 12), ('r', 13), ('"', 34), ('\'', 39),
    ('\\', 92)]

/-- Whether a unit is an octal digit. -/
def isOctalUnit (unit : Nat) : Bool :=
  '0'.toNat ≤ unit && unit ≤ '7'.toNat

/-- What stands behind the backslash of an escape. A number has up to three octal digits, but only
two if it would be too large. -/
def javaEscape? : PieceReader Nat Nat
  | [] => none
  | mark :: rest =>
    match javaEscapes.find? (·.1.toNat == mark) with
    | some escape => some ([escape.2], rest)
    | none =>
      let limit := if mark ≤ '3'.toNat then 3 else 2
      let digits := ((mark :: rest).take limit).takeWhile isOctalUnit
      if digits.isEmpty then none
      else
        let number := digits.foldl (fun value digit => value * 8 + (digit - '0'.toNat)) 0
        some ([number], (mark :: rest).drop digits.length)

/-- A unit or an escape in a string. -/
def javaPiece? : PieceReader Nat Nat
  | [] => none
  | unit :: rest =>
    if unit = '"'.toNat || unit = '\n'.toNat || unit = '\r'.toNat then none
    else if unit = '\\'.toNat then javaEscape? rest
    else some ([unit], rest)

/-- Reads a string literal off the front of the units of a source text: the units that it stands
for, and what follows it. Three quotes are the start of a text block, which is no such literal. -/
def javaString? : PieceReader Nat Nat
  | [] => none
  | unit :: rest =>
    if unit = '"'.toNat && !(units ['"', '"']).isPrefixOf rest then
      match readPieces javaPiece? rest with
      | (value, last :: more) => if last = '"'.toNat then some (value, more) else none
      | _ => none
    else none

/-- What stands for a unit inside a literal. -/
def literalUnit (unit : Nat) : List Nat :=
  if unit = '"'.toNat then units ['\\', '"']
  else if unit = '\\'.toNat then units ['\\', '\\']
  else if unit = '\n'.toNat then units ['\\', 'n']
  else if unit = '\r'.toNat then units ['\\', 'r']
  else if unit = '\t'.toNat then units ['\\', 't']
  else [unit]

/-- The same for units as for characters. -/
theorem literalUnit_cases {P : Nat → List Nat → Prop} (hquote : P '"'.toNat (units ['\\', '"']))
    (hbackslash : P '\\'.toNat (units ['\\', '\\'])) (hnewline : P '\n'.toNat (units ['\\', 'n']))
    (hreturn : P '\r'.toNat (units ['\\', 'r'])) (htab : P '\t'.toNat (units ['\\', 't']))
    (hself : ∀ unit, unit ∉ literalMarks.map Char.toNat → P unit [unit]) (unit : Nat) :
    P unit (literalUnit unit) := by
  unfold literalUnit
  split
  · subst_vars; exact hquote
  split
  · subst_vars; exact hbackslash
  split
  · subst_vars; exact hnewline
  split
  · subst_vars; exact hreturn
  split
  · subst_vars; exact htab
  · refine hself unit ?_
    simp only [literalMarks, List.map_cons, List.map_nil, List.mem_cons, List.not_mem_nil, or_false,
      not_or]
    exact ⟨by assumption, by assumption, by assumption, by assumption, by assumption⟩

theorem literalUnit_of_not_mem {unit : Nat} (h : unit ∉ literalMarks.map Char.toNat) :
    literalUnit unit = [unit] := by
  simp only [literalMarks, List.map_cons, List.map_nil, List.mem_cons, List.not_mem_nil, or_false,
    not_or] at h
  obtain ⟨hquote, hbackslash, hnewline, hreturn, htab⟩ := h
  rw [literalUnit, if_neg hquote, if_neg hbackslash, if_neg hnewline, if_neg hreturn, if_neg htab]

/-- No half of a character is taken for another character. -/
theorem units_literalChar (c : Char) :
    units (literalChar c) = (utf16 c).flatMap literalUnit := by
  refine literalChar_cases (P := fun c own => units own = (utf16 c).flatMap literalUnit)
    rfl rfl rfl rfl rfl (fun c hc => ?_) c
  have hplain : ∀ unit ∈ utf16 c, literalUnit unit = [unit] := by
    intro unit hunit
    refine literalUnit_of_not_mem fun hmem => ?_
    obtain ⟨special, hspecial, rfl⟩ := List.mem_map.mp hmem
    have hsmall : ∀ special ∈ literalMarks, special.toNat < 0x80 := by simp [literalMarks]
    have hlimit := hsmall special hspecial
    unfold utf16 at hunit
    split at hunit
    · rw [List.mem_singleton, Char.toNat_inj] at hunit
      exact hc (hunit ▸ hspecial)
    · -- Both halves of a character are far beyond the characters that are escaped.
      simp only [List.mem_cons, List.not_mem_nil, or_false] at hunit
      omega
  rw [List.flatMap_congr hplain, List.flatMap_singleton']
  exact List.append_nil _

theorem units_literal (s : String) :
    units (literal s).toList =
      '"'.toNat :: ((units s.toList).flatMap literalUnit ++ ['"'.toNat]) := by
  have hinner : units (literalInner s) = (units s.toList).flatMap literalUnit := by
    simp only [units, literalInner, List.flatMap_assoc, ← units_literalChar]
  rw [toList_literal, ← hinner, units, List.flatMap_cons, List.flatMap_append]
  rfl

theorem javaPiece?_literalUnit (unit : Nat) (rest : List Nat) :
    javaPiece? (literalUnit unit ++ rest) = some ([unit], rest) := by
  refine literalUnit_cases (P := fun unit own => javaPiece? (own ++ rest) = some ([unit], rest))
    rfl rfl rfl rfl rfl (fun unit hunit => ?_) unit
  simp only [literalMarks, List.map_cons, List.map_nil, List.mem_cons, List.not_mem_nil, or_false,
    not_or] at hunit
  obtain ⟨hquote, hbackslash, hnewline, hreturn, _⟩ := hunit
  simp only [List.cons_append, List.nil_append, javaPiece?, hquote, hbackslash, hnewline, hreturn,
    decide_false, Bool.or_self, Bool.false_eq_true, if_false]

/-- A unit inside a literal starts with no quote. -/
theorem exists_literalUnit (unit : Nat) :
    ∃ first more, literalUnit unit = first :: more ∧ first ≠ '"'.toNat := by
  have hbackslash : '\\'.toNat ≠ '"'.toNat := by decide
  have hescape (mark : Char) : ∃ first more,
      units ['\\', mark] = first :: more ∧ first ≠ '"'.toNat := ⟨_, _, rfl, hbackslash⟩
  refine literalUnit_cases (P := fun _ own => ∃ first more, own = first :: more ∧ first ≠ '"'.toNat)
    (hescape _) (hescape _) (hescape _) (hescape _) (hescape _) (fun unit hunit => ?_) unit
  refine ⟨unit, [], rfl, ?_⟩
  rintro rfl
  exact hunit (by decide)

theorem literalUnit_ne_nil (unit : Nat) : literalUnit unit ≠ [] := by
  obtain ⟨first, more, heq, _⟩ := exists_literalUnit unit
  rw [heq]
  exact List.cons_ne_nil first more

/-- **A literal is read as the text it was made from,** unless a quote follows it. -/
theorem javaString?_literal (s : String) {rest : List Nat}
    (hrest : rest.head? ≠ some '"'.toNat) :
    javaString? (units (literal s).toList ++ rest) = some (units s.toList, rest) := by
  have hinner : readPieces javaPiece?
      ((units s.toList).flatMap literalUnit ++ '"'.toNat :: rest) =
        (units s.toList, '"'.toNat :: rest) := by
    rw [readPieces_flatMap (fun unit _ => javaPiece?_literalUnit unit) literalUnit_ne_nil,
      readPieces_of_none (by rfl), List.append_nil, List.flatMap_singleton']
  -- The literal opens no text block: what is written for a text never starts with a quote, and
  -- behind the two quotes of an empty one no third follows.
  have hblock : (units ['"', '"']).isPrefixOf
      ((units s.toList).flatMap literalUnit ++ '"'.toNat :: rest) = false := by
    rw [Bool.eq_false_iff, ne_eq, List.isPrefixOf_iff_prefix]
    rintro ⟨more, hmore⟩
    generalize units s.toList = value at hmore
    rcases value with _ | ⟨unit, others⟩
    · obtain ⟨_, hsecond⟩ := List.cons.inj hmore
      exact hrest (by rw [← hsecond]; rfl)
    · obtain ⟨first, others', heq, hfirst⟩ := exists_literalUnit unit
      rw [List.flatMap_cons, heq] at hmore
      exact hfirst (List.cons.inj hmore).1.symm
  rw [units_literal, List.cons_append, List.append_assoc, List.singleton_append, javaString?,
    hblock, if_pos (by rfl), hinner]
  rfl

end DeclPrinter.Text
