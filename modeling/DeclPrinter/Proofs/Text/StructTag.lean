import DeclPrinter.Proofs.Text.GoLiteral

/-!
# Struct tags as Go reads them

The tag of a field is a raw string literal: it ends at the first backtick, and carriage returns in
it are dropped (`goRaw?`). The text is read in turn, by convention, as names with interpreted
strings (`goTagPairs?`).

Between the quotes of such a string a text is taken as it stands only if no character in it has a
meaning there. Any other text is not read as itself: what is read has fewer bytes than the text, or
it has more quotes (`readsWithin_of_readPieces`). So the content of a tag gives back the texts it
was written from exactly if each of their characters stands for itself
(`goTagPairs?_eq_some_iff`).
-/

namespace DeclPrinter.Text

/-! ### Bytes -/

theorem ofNat_eq_quote_iff (number : Nat) : UInt8.ofNat number = 34 ↔ number % 256 = 34 := by
  rw [← UInt8.toNat_inj, UInt8.toNat_ofNat']
  exact Iff.rfl

/-- Only the quote has the byte of the quote in its encoding. -/
theorem count_quote_utf8EncodeChar (c : Char) :
    (String.utf8EncodeChar c).count 34 = if c = '"' then 1 else 0 := by
  have hquote : c = '"' ↔ c.val.toNat = 34 := by
    rw [← Char.toNat_inj]
    exact Iff.rfl
  simp only [hquote, String.utf8EncodeChar]
  split
  · rw [List.count_singleton]
    simp only [beq_iff_eq, ofNat_eq_quote_iff]
    split <;> split <;> omega
  · rw [if_neg (show ¬ c.val.toNat = 34 by omega), List.count_eq_zero]
    -- All bytes of a longer encoding have their high bit set.
    split
    · simp only [List.mem_cons, List.not_mem_nil, or_false, eq_comm (a := (34 : UInt8)),
        ofNat_eq_quote_iff]
      omega
    split
    · simp only [List.mem_cons, List.not_mem_nil, or_false, eq_comm (a := (34 : UInt8)),
        ofNat_eq_quote_iff]
      omega
    · simp only [List.mem_cons, List.not_mem_nil, or_false, eq_comm (a := (34 : UInt8)),
        ofNat_eq_quote_iff]
      omega

@[simp]
theorem bytes_nil : bytes [] = [] :=
  rfl

@[simp]
theorem bytes_cons (c : Char) (rest : List Char) :
    bytes (c :: rest) = String.utf8EncodeChar c ++ bytes rest :=
  List.flatMap_cons

/-- The quotes of a text are the bytes of that value. -/
theorem count_quote_bytes (text : List Char) : (bytes text).count 34 = text.count '"' := by
  induction text with
  | nil => rfl
  | cons c rest ih =>
    rw [bytes_cons, List.count_append, count_quote_utf8EncodeChar, ih, List.count_cons,
      Nat.add_comm]
    simp

/-- Without its carriage returns a text has one byte less for each. -/
theorem length_bytes_filter (text : List Char) :
    (bytes (text.filter (· != '\r'))).length + text.count '\r' = (bytes text).length := by
  induction text with
  | nil => rfl
  | cons c rest ih =>
    by_cases hc : c = '\r'
    · subst hc
      have hone : (String.utf8EncodeChar '\r').length = 1 := rfl
      simp [hone]
      omega
    · simp [hc]
      omega

/-! ### Where a string ends -/

variable {text rest last : List Char} {value : List UInt8}

/-- A character that stands for itself between the quotes of an interpreted string. -/
def standsInString (c : Char) : Bool :=
  c != '"' && c != '\\' && c != '\n'

theorem goPiece?_of_standsInString {c : Char} (h : standsInString c = true) (rest : List Char) :
    goPiece? (c :: rest) = some (String.utf8EncodeChar c, rest) := by
  simp only [standsInString, Bool.and_eq_true, bne_iff_ne] at h
  simp [goPiece?, h]

/-- **A text of such characters is read as it is.** -/
theorem goString?_of_standsInString (h : ∀ c ∈ text, standsInString c = true) :
    goString? ('"' :: (text ++ '"' :: rest)) = some (bytes text, rest) := by
  have hpieces : readPieces goPiece? (text.flatMap ([·]) ++ '"' :: rest) =
      (bytes text, '"' :: rest) := by
    rw [readPieces_flatMap (fun c hc => goPiece?_of_standsInString (h c hc))
      (fun c => List.cons_ne_nil c []), readPieces_of_none (by rfl), List.append_nil, bytes]
  rw [List.flatMap_singleton'] at hpieces
  exact goString?_eq_some_iff.mpr hpieces

/-- The digits of a number are taken from the text in front of a quote. -/
theorem takeNumber?_append {base count number : Nat} {left : List Char}
    (h : takeNumber? base count (text ++ '"' :: rest) = some (number, left)) :
    ∃ digits others, text = digits ++ others ∧ digits.length = count ∧ '"' ∉ digits ∧
      left = others ++ '"' :: rest := by
  unfold takeNumber? at h
  dsimp only at h
  split at h
  · rename_i hdigits
    rw [Bool.and_eq_true, List.all_eq_true] at hdigits
    obtain ⟨hcount, hall⟩ := hdigits
    obtain ⟨_, rfl⟩ := Prod.mk.inj (Option.some.inj h)
    -- A quote is no digit, so it is not among those taken.
    have hquote : ∀ taken, '"' ∈ taken → taken = (text ++ '"' :: rest).take count → False := by
      rintro _ hmem rfl
      have hdigit := hall '"' hmem
      simp [show isHexDigit '"' = false by decide] at hdigit
    -- The text has as many characters as the number has digits, else the quote would be one.
    by_cases hlength : count ≤ text.length
    · refine ⟨text.take count, text.drop count, (List.take_append_drop ..).symm, ?_, ?_, ?_⟩
      · exact List.length_take_of_le hlength
      · intro hmem
        exact hquote _ hmem (List.take_append_of_le_length hlength).symm
      · exact List.drop_append_of_le_length hlength
    · refine absurd ?_ (fun hmem => hquote _ hmem rfl)
      rw [List.take_append]
      have hsome : count - text.length = (count - text.length - 1) + 1 := by omega
      rw [hsome, List.take_succ_cons]
      simp
  · cases h

theorem length_le_length_bytes (text : List Char) : text.length ≤ (bytes text).length := by
  induction text with
  | nil => exact Nat.le_refl 0
  | cons c rest ih =>
    have hpos : 0 < (String.utf8EncodeChar c).length := by
      rw [String.length_utf8EncodeChar]
      exact c.utf8Size_pos
    rw [bytes_cons, List.length_append, List.length_cons]
    omega

/-- The same for a code point by its number. -/
theorem goPoint?_append {count : Nat} {front : List UInt8} {left : List Char} (hcount : 4 ≤ count)
    (h : goPoint? count (text ++ '"' :: rest) = some (front, left)) :
    ∃ digits others, text = digits ++ others ∧ front.length ≤ digits.length ∧ '"' ∉ digits ∧
      left = others ++ '"' :: rest := by
  unfold goPoint? at h
  obtain ⟨⟨number, afterwards⟩, hnumber, h⟩ := Option.bind_eq_some_iff.mp h
  obtain ⟨digits, others, htext, hlength, hquote, hleft⟩ := takeNumber?_append hnumber
  dsimp only at h
  split at h
  · obtain ⟨rfl, rfl⟩ := Prod.mk.inj (Option.some.inj h)
    refine ⟨digits, others, htext, ?_, hquote, hleft⟩
    -- The code point takes four bytes at most, and it has four digits at least.
    have hsize := (Char.ofNat number).utf8Size_le_four
    rw [String.length_utf8EncodeChar]
    omega
  · cases h

/-- Something is taken from a text in front of a quote. It has as many characters as what it stands
for has bytes, or more, and no more quotes. -/
def Takes (text rest : List Char) (front : List UInt8) (left : List Char) : Prop :=
  ∃ taken others, text = taken ++ others ∧ front.length ≤ taken.length ∧
    taken.count '"' ≤ front.count 34 ∧ left = others ++ '"' :: rest

theorem Takes.of_not_mem {taken others left : List Char} {front : List UInt8}
    (htext : text = taken ++ others) (hlength : front.length ≤ taken.length) (hquote : '"' ∉ taken)
    (hleft : left = others ++ '"' :: rest) : Takes text rest front left := by
  refine ⟨taken, others, htext, hlength, ?_, hleft⟩
  rw [List.count_eq_zero.mpr hquote]
  exact Nat.zero_le _

/-- No escape takes the quote behind a text, unless it starts with it. -/
theorem takes_of_goEscape? {mark : Char} {front : List UInt8} {left : List Char}
    (h : goEscape? (mark :: (text ++ '"' :: rest)) = some (front, left)) :
    Takes (mark :: text) rest front left := by
  rw [goEscape?] at h
  split at h
  · rename_i escape hfind
    obtain ⟨rfl, rfl⟩ := Prod.mk.inj (Option.some.inj h)
    refine ⟨[mark], text, rfl, Nat.le_refl 1, ?_, rfl⟩
    have hcount : ∀ escape ∈ goEscapes, [escape.1].count '"' ≤ [escape.2].count 34 := by decide
    have hmark : escape.1 = mark := by simpa using List.find?_some hfind
    exact hmark ▸ hcount escape (List.mem_of_find?_eq_some hfind)
  · rename_i hnone
    have hmark : '"' ≠ mark := by
      rintro rfl
      cases hnone
    -- A number is its mark with digits, or digits alone.
    have hnumber {digits others : List Char} (htext : text = digits ++ others)
        (hlength : front.length ≤ digits.length + 1) (hquote : '"' ∉ digits)
        (hleft : left = others ++ '"' :: rest) : Takes (mark :: text) rest front left := by
      have hbehind : mark :: text = (mark :: digits) ++ others := by rw [htext, List.cons_append]
      exact .of_not_mem hbehind hlength (List.not_mem_cons_of_ne_of_not_mem hmark hquote) hleft
    split at h
    · obtain ⟨⟨number, afterwards⟩, hdigits, h⟩ := Option.bind_eq_some_iff.mp h
      obtain ⟨digits, others, htext, _, hquote, hleft⟩ := takeNumber?_append hdigits
      obtain ⟨rfl, rfl⟩ := Prod.mk.inj (Option.some.inj h)
      exact hnumber htext (by simp) hquote hleft
    split at h
    · obtain ⟨digits, others, htext, hlength, hquote, hleft⟩ := goPoint?_append (by decide) h
      exact hnumber htext (Nat.le_succ_of_le hlength) hquote hleft
    split at h
    · obtain ⟨digits, others, htext, hlength, hquote, hleft⟩ := goPoint?_append (by decide) h
      exact hnumber htext (Nat.le_succ_of_le hlength) hquote hleft
    · obtain ⟨⟨number, afterwards⟩, hdigits, h⟩ := Option.bind_eq_some_iff.mp h
      rw [← List.cons_append] at hdigits
      obtain ⟨digits, others, htext, hlength, hquote, hleft⟩ := takeNumber?_append hdigits
      dsimp only at h
      split at h
      · obtain ⟨rfl, rfl⟩ := Prod.mk.inj (Option.some.inj h)
        exact .of_not_mem htext (by simp [hlength]) hquote hleft
      · cases h

/-- What is read where a text was written, up to the end of the string: no more bytes than the text
has, and as many only if it is `whole`, or else more quotes than are in the text. -/
def ReadsWithin (written : List Char) (value : List UInt8) (whole : Prop) : Prop :=
  (value.length ≤ (bytes written).length ∧ (value.length = (bytes written).length → whole)) ∨
    written.count '"' < value.count 34

theorem ReadsWithin.cons {c : Char} {others : List Char} {whole : Prop}
    (hc : standsInString c = true) (h : ReadsWithin others value whole) :
    ReadsWithin (c :: others) (String.utf8EncodeChar c ++ value) whole := by
  have hquote : c ≠ '"' := by
    rintro rfl
    cases hc
  simp only [ReadsWithin, bytes_cons, List.length_append, Nat.add_le_add_iff_left,
    Nat.add_left_cancel_iff, List.count_append, count_quote_utf8EncodeChar, if_neg hquote,
    List.count_cons_of_ne hquote, Nat.zero_add]
  exact h

/-- Behind an escape the text is never read as a whole, since it takes more than it stands for. -/
theorem ReadsWithin.escape {taken others : List Char} {front : List UInt8} {some whole : Prop}
    (hlength : front.length ≤ taken.length) (hcount : taken.count '"' ≤ front.count 34)
    (h : ReadsWithin others value some) :
    ReadsWithin ('\\' :: (taken ++ others)) (front ++ value) whole := by
  have hone : (String.utf8EncodeChar '\\').length = 1 := rfl
  have htaken := length_le_length_bytes taken
  have hbytes : (bytes ('\\' :: (taken ++ others))).length =
      1 + (bytes taken).length + (bytes others).length := by
    rw [bytes_cons, List.length_append, hone, bytes, List.flatMap_append, List.length_append]
    exact (Nat.add_assoc ..).symm
  have hquotes : ('\\' :: (taken ++ others)).count '"' = taken.count '"' + others.count '"' := by
    rw [List.count_cons_of_ne (by decide), List.count_append]
  rw [ReadsWithin, hbytes, hquotes, List.length_append, List.count_append]
  -- The backslash is one byte more than what is read, wherever the rest stands.
  rcases h with ⟨hle, _⟩ | hlt
  · exact .inl ⟨by omega, by omega⟩
  · exact .inr (by omega)

/-- **A string is read as what was written only if it was taken as it stands.** -/
theorem readsWithin_of_readPieces {written : List Char}
    (h : readPieces goPiece? (written ++ '"' :: rest) = (value, '"' :: last)) :
    ReadsWithin written value ((∀ c ∈ written, standsInString c = true) ∧ last = rest) := by
  induction hlength : written.length using Nat.strongRecOn generalizing written value with
  | _ length ih =>
  subst hlength
  have hstuck (hnone : goPiece? (written ++ '"' :: rest) = none) :
      value = [] ∧ '"' :: last = written ++ '"' :: rest := by
    rw [readPieces_of_none hnone] at h
    exact (Prod.mk.inj h).imp Eq.symm Eq.symm
  -- What is behind a piece is given by induction.
  have hpiece {others : List Char} {front : List UInt8} (hshorter : others.length < written.length)
      (hfront : goPiece? (written ++ '"' :: rest) = some (front, others ++ '"' :: rest)) :
      ∃ more, value = front ++ more ∧
        ReadsWithin others more ((∀ c ∈ others, standsInString c = true) ∧ last = rest) := by
    rw [readPieces_of_some hfront (by simp [hshorter])] at h
    obtain ⟨hvalue, hlast⟩ := Prod.mk.inj h
    exact ⟨_, hvalue.symm, ih _ hshorter (Prod.ext rfl hlast) rfl⟩
  cases written with
  | nil =>
    obtain ⟨rfl, hlast⟩ := hstuck rfl
    exact .inl ⟨Nat.le_refl 0, fun _ => ⟨by simp, (List.cons.inj hlast).2⟩⟩
  | cons c others =>
    by_cases hc : standsInString c = true
    · obtain ⟨more, rfl, hmore⟩ := hpiece (Nat.lt_succ_self _) (goPiece?_of_standsInString hc _)
      refine (hmore.cons hc).imp_left (And.imp_right (fun hwhole hbytes => ?_))
      obtain ⟨hstands, hlast⟩ := hwhole hbytes
      exact ⟨List.forall_mem_cons.mpr ⟨hc, hstands⟩, hlast⟩
    by_cases hslash : c = '\\'
    · subst hslash
      cases hescape : goEscape? (others ++ '"' :: rest) with
      | none =>
        have hlast := (hstuck hescape).2
        cases hlast
      | some read =>
        obtain ⟨front, left⟩ := read
        cases others with
        | nil =>
          -- The escape takes the quote behind the text, and stands for one.
          have hquote : goPiece? (['\\'] ++ '"' :: rest) = some ([34], rest) := rfl
          have hshorter : rest.length < (['\\'] ++ '"' :: rest).length := by
            show rest.length < rest.length + 1 + 1
            omega
          rw [readPieces_of_some hquote hshorter] at h
          obtain ⟨rfl, _⟩ := Prod.mk.inj h
          exact .inr (by simp)
        | cons mark text =>
          obtain ⟨taken, behind, htext, hlength, hcount, rfl⟩ := takes_of_goEscape? hescape
          have hshorter : behind.length < ('\\' :: mark :: text).length := by
            rw [htext, List.length_cons, List.length_append]
            omega
          obtain ⟨more, rfl, hmore⟩ := hpiece hshorter hescape
          rw [htext]
          exact hmore.escape hlength hcount
    · have hends : c = '"' ∨ c = '\n' := by
        simp only [standsInString, Bool.and_eq_true, bne_iff_ne] at hc
        tauto
      obtain ⟨rfl, hlast⟩ := hstuck (by rcases hends with rfl | rfl <;> rfl)
      have hpos := length_le_length_bytes (c :: others)
      exact .inl ⟨Nat.zero_le _, fun hbytes => absurd (hbytes ▸ hpos) (Nat.not_succ_le_zero _)⟩

theorem count_quote_filter (text : List Char) :
    (text.filter (· != '\r')).count '"' = text.count '"' :=
  List.count_filter (by decide)

/-- A character that stands for itself in a tag: in the raw literal, and between quotes there. -/
def standsInTag (c : Char) : Bool :=
  standsInString c && c != '\r'

/-- **A text is read back from between the quotes exactly if it stands for itself there.** The text
has lost its carriage returns before. -/
theorem goString?_eq_bytes_iff {left : List Char} :
    goString? ('"' :: (text.filter (· != '\r') ++ '"' :: rest)) = some (bytes text, left) ↔
      (∀ c ∈ text, standsInTag c = true) ∧ left = rest := by
  simp only [standsInTag, Bool.and_eq_true, bne_iff_ne]
  constructor
  · intro h
    have hlength := length_bytes_filter text
    rcases readsWithin_of_readPieces (goString?_eq_some_iff.mp h) with ⟨hle, hwhole⟩ | hquotes
    · -- The text is read as many bytes as it has, so none of its characters was lost.
      have hnone : '\r' ∉ text := List.count_eq_zero.mp (by omega)
      have hkept (c : Char) (hc : c ∈ text) : c ≠ '\r' := by
        rintro rfl
        exact hnone hc
      obtain ⟨hstands, hleft⟩ := hwhole (by omega)
      refine ⟨fun c hc => ⟨hstands c ?_, hkept c hc⟩, hleft⟩
      exact List.mem_filter.mpr ⟨hc, bne_iff_ne.mpr (hkept c hc)⟩
    · rw [count_quote_bytes, count_quote_filter] at hquotes
      exact absurd hquotes (Nat.lt_irrefl _)
  · rintro ⟨hstands, rfl⟩
    have hkept : text.filter (· != '\r') = text :=
      List.filter_eq_self.mpr fun c hc => bne_iff_ne.mpr (hstands c hc).2
    rw [hkept]
    exact goString?_of_standsInString fun c hc => (hstands c hc).1

/-! ### Raw literals -/

/-- Reads a raw string literal off the front of a text: the characters that it stands for, and what
follows it. It is closed by the first backtick, and carriage returns in it are dropped. -/
def goRaw? : PieceReader Char Char
  | [] => none
  | c :: rest =>
    if c = '`' then
      match rest.dropWhile (· != '`') with
      | [] => none
      | _ :: last => some ((rest.takeWhile (· != '`')).filter (· != '\r'), last)
    else none

/-- A raw literal is read to its end exactly if there is no backtick inside. -/
theorem goRaw?_eq_some_iff {inner content : List Char} :
    goRaw? ('`' :: (inner ++ ['`'])) = some (content, []) ↔
      '`' ∉ inner ∧ content = inner.filter (· != '\r') := by
  have hplain {front : List Char} (hfront : '`' ∉ front) (c : Char) (hc : c ∈ front) :
      (c != '`') = true := by
    rw [bne_iff_ne]
    rintro rfl
    exact hfront hc
  rw [goRaw?, if_pos rfl]
  by_cases htick : '`' ∈ inner
  · -- At the first backtick the literal ends, with the rest and the last backtick left over.
    obtain ⟨front, back, rfl, hfront⟩ := List.eq_append_cons_of_mem htick
    rw [List.append_assoc, List.cons_append, List.dropWhile_append_of_pos (hplain hfront)]
    simp
  · rw [List.dropWhile_append_of_pos (hplain htick), List.takeWhile_append_of_pos (hplain htick)]
    simp [htick, eq_comm]

/-! ### Pairs of names and texts -/

/-- A character of the names in a tag. -/
def isTagNameChar (c : Char) : Bool :=
  0x20 < c.toNat && c != ':' && c != '"' && c != '\x7f'

/-- Reads a name, a colon and an interpreted string, and the blanks that part them from the next. -/
def goTagPair? : PieceReader Char (List Char × List UInt8) := fun text =>
  match text.takeWhile isTagNameChar, text.dropWhile isTagNameChar with
  | c :: name, mark :: rest =>
    if mark = ':' then do
      let (value, left) ← goString? rest
      return ([(c :: name, value)], left.dropWhile (· == ' '))
    else none
  | _, _ => none

/-- Reads the content of a tag: names with what the strings behind them stand for. -/
def goTagPairs? (content : List Char) : Option (List (List Char × List UInt8)) :=
  readWhole? goTagPair? (content.dropWhile (· == ' '))

/-- A name with a text between quotes. -/
def tagPair (name text : List Char) : List Char :=
  name ++ ':' :: '"' :: (text ++ ['"'])

theorem goTagPair?_name {name : List Char} (hne : name ≠ [])
    (hname : ∀ c ∈ name, isTagNameChar c = true) (rest : List Char) :
    goTagPair? (name ++ ':' :: rest) =
      (goString? rest).map fun read => ([(name, read.1)], read.2.dropWhile (· == ' ')) := by
  -- A name is read up to the colon, which stands in no name.
  have hcolon : isTagNameChar ':' = false := by decide
  have htake : (name ++ ':' :: rest).takeWhile isTagNameChar = name := by
    rw [List.takeWhile_append_of_pos hname, List.takeWhile_cons_of_neg (by simp [hcolon]),
      List.append_nil]
  have hdrop : (name ++ ':' :: rest).dropWhile isTagNameChar = ':' :: rest := by
    rw [List.dropWhile_append_of_pos hname, List.dropWhile_cons_of_neg (by simp [hcolon])]
  obtain ⟨c, others, rfl⟩ := List.exists_cons_of_ne_nil hne
  unfold goTagPair?
  rw [htake, hdrop]
  dsimp only
  rw [if_pos rfl]
  cases goString? rest <;> rfl

/-- No carriage return is dropped but from the text. -/
theorem filter_tagPair {name : List Char} (hname : ∀ c ∈ name, isTagNameChar c = true) :
    (tagPair name text).filter (· != '\r') = tagPair name (text.filter (· != '\r')) := by
  have hkept : name.filter (· != '\r') = name := by
    refine List.filter_eq_self.mpr fun c hc => bne_iff_ne.mpr ?_
    rintro rfl
    exact absurd (hname '\r' hc) (by decide)
  simp [tagPair, hkept]

theorem goTagPairs?_blank_cons (content : List Char) :
    goTagPairs? (' ' :: content) = goTagPairs? content := by
  rw [goTagPairs?, goTagPairs?, List.dropWhile_cons_of_pos (by decide)]

theorem goTagPairs?_nil : goTagPairs? [] = some [] := by
  rw [goTagPairs?, List.dropWhile_nil, readWhole?_eq_some, readPieces_of_none (by rfl)]

/-- A pair in front of others is read back exactly if its text stands for itself. -/
theorem goTagPairs?_cons_iff {name : List Char} (hne : name ≠ [])
    (hname : ∀ c ∈ name, isTagNameChar c = true) {pairs : List (List Char × List UInt8)} :
    goTagPairs? (' ' :: (tagPair name (text.filter (· != '\r')) ++ rest)) =
      some ((name, bytes text) :: pairs) ↔
    (∀ c ∈ text, standsInTag c = true) ∧ goTagPairs? rest = some pairs := by
  let body := name ++ ':' :: '"' :: (text.filter (· != '\r') ++ '"' :: rest)
  have hbody : tagPair name (text.filter (· != '\r')) ++ rest = body := by
    simp [tagPair, body]
  have hblank : (' ' :: body).dropWhile (· == ' ') = body := by
    obtain ⟨c, others, rfl⟩ := List.exists_cons_of_ne_nil hne
    have hc : c ≠ ' ' := by
      rintro rfl
      exact absurd (hname ' ' List.mem_cons_self) (by decide)
    simp [body, hc]
  rw [hbody, goTagPairs?, hblank]
  have hpair := goTagPair?_name hne hname ('"' :: (text.filter (· != '\r') ++ '"' :: rest))
  constructor
  · intro h
    -- The first pair that is read is this one, with its text up to the quote.
    obtain ⟨front, left, others, hfront, hothers, heq⟩ := exists_of_readWhole?_cons h
    rw [hpair] at hfront
    obtain ⟨⟨value, last⟩, hstring, hfront⟩ := Option.map_eq_some_iff.mp hfront
    obtain ⟨rfl, rfl⟩ := Prod.mk.inj hfront
    obtain ⟨hvalue, rfl⟩ := List.cons.inj heq
    obtain ⟨_, rfl⟩ := Prod.mk.inj hvalue
    obtain ⟨hstands, rfl⟩ := goString?_eq_bytes_iff.mp hstring
    exact ⟨hstands, hothers⟩
  · rintro ⟨hstands, hrest⟩
    rw [goString?_eq_bytes_iff.mpr ⟨hstands, rfl⟩] at hpair
    -- The rest is shorter, so the reader goes on with it.
    have hshorter : (rest.dropWhile (· == ' ')).length < body.length := by
      have hle := (List.dropWhile_suffix (l := rest) (· == ' ')).length_le
      simp only [body, List.length_append, List.length_cons]
      omega
    rw [readWhole?_of_some hpair hshorter]
    show (goTagPairs? rest).map _ = _
    rw [hrest]
    rfl

section

variable {α : Type} {items : List α} {name text : α → List Char}

/-- **The pairs of a tag are read back exactly if each text stands for itself.** -/
theorem goTagPairs?_eq_some_iff (hne : ∀ item ∈ items, name item ≠ [])
    (hname : ∀ item ∈ items, ∀ c ∈ name item, isTagNameChar c = true) :
    goTagPairs? (items.flatMap fun item =>
        ' ' :: tagPair (name item) ((text item).filter (· != '\r'))) =
      some (items.map fun item => (name item, bytes (text item))) ↔
    ∀ item ∈ items, ∀ c ∈ text item, standsInTag c = true := by
  induction items with
  | nil => simp [goTagPairs?_nil]
  | cons item others ih =>
    obtain ⟨hne, hothers⟩ := List.forall_mem_cons.mp hne
    obtain ⟨hname, hnames⟩ := List.forall_mem_cons.mp hname
    rw [List.forall_mem_cons, ← ih hothers hnames, List.flatMap_cons, List.map_cons]
    exact goTagPairs?_cons_iff hne hname

-- A quote would be read back behind a backslash.
example :
    goTagPairs? "json:\"say \"hi\"\"".toList = none ∧
      goTagPairs? "json:\"say \\\"hi\\\"\"".toList =
        some [("json".toList, bytes "say \"hi\"".toList)] := by
  decide +kernel

end

end DeclPrinter.Text
