import PlanOrbits.Json.Parser
import PlanOrbits.Json.Printer
import PlanOrbits.Proofs.Number.Reading

/-!
# Documents that are read back from their text

The indented text of a document is read as the document (`Json.parse?_pretty`), if its numbers are
spelled as numbers can be: with digits, at least one before the point and one in an exponent, and
no zero in front of another digit.

Each reader is shown to undo its writer in front of any text that cannot go on with what was
written. For a value this is a text that ends or goes on with a comma or a new line
(`Json.IsCutOff`), since only a number could go on. Blanks in front of a value are skipped, so that
the indentation plays no part; the fuel that is needed is counted by the characters written.
-/

namespace PlanOrbits

open Text (isDigit digit?)

/-! ### Spellings -/

/-- Digits, and at least one. -/
def AreDigits (digits : List Nat) : Prop := digits ≠ [] ∧ ∀ d ∈ digits, d < 10

/-- A spelling that the text of a number can have. -/
structure Numeral.IsSpelled (n : Numeral) : Prop where
  whole : AreDigits n.whole
  noLeadingZero : n.whole.head? = some 0 → n.whole.length = 1
  fraction : ∀ d ∈ n.fraction, d < 10
  exponent : ∀ negative digits, n.exponent = some (negative, digits) → AreDigits digits

namespace Json

/-- All numbers of the document are spelled as numbers can be. -/
inductive IsSpelled : Json → Prop where
  | null : IsSpelled null
  | bool (value : Bool) : IsSpelled (bool value)
  | number {n : Numeral} (h : n.IsSpelled) : IsSpelled (number n)
  | string (text : Option String) : IsSpelled (string text)
  | array {items : List Json} (h : ∀ item ∈ items, IsSpelled item) : IsSpelled (array items)
  | object {fields : List (Option String × Json)} (h : ∀ field ∈ fields, IsSpelled field.2) :
      IsSpelled (object fields)

/-- The text ends here, or goes on with a comma or a new line. -/
def IsCutOff (rest : List Char) : Prop := ∀ c ∈ rest.head?, c = ',' ∨ c = '\n'

theorem isCutOff_nil : IsCutOff [] := nofun

theorem isCutOff_comma (rest : List Char) : IsCutOff (',' :: rest) := by
  rintro c ⟨⟩
  exact .inl rfl

theorem isCutOff_newLine (level : Nat) (rest : List Char) : IsCutOff (newLine level ++ rest) := by
  rintro c ⟨⟩
  exact .inr rfl

/-! ### Numbers -/

/-- A digit is read from its character. -/
theorem digit?_digitChar : ∀ d < 10, digit? (Nat.digitChar d) = some d := by decide

/-- Written digits are digits, so that the reader goes on to their end. -/
theorem isDigit_of_mem_writeDigits {digits : List Nat} (h : ∀ d ∈ digits, d < 10) :
    ∀ c ∈ writeDigits digits, isDigit c = true := by
  intro c hc
  obtain ⟨d, hd, rfl⟩ := List.mem_map.1 hc
  rw [isDigit, digit?_digitChar d (h d hd)]
  rfl

theorem filterMap_writeDigits {digits : List Nat} (h : ∀ d ∈ digits, d < 10) :
    (writeDigits digits).filterMap digit? = digits := by
  induction digits with
  | nil => rfl
  | cons d digits ih =>
      obtain ⟨hd, hdigits⟩ := List.forall_mem_cons.1 h
      rw [writeDigits, List.map_cons, List.filterMap_cons_some (digit?_digitChar d hd)]
      exact congrArg (d :: ·) (ih hdigits)

/-- Digits are read up to a character that is none. At least one has to be there, as `AreDigits`
says. -/
theorem readDigits?_writeDigits {digits : List Nat} {rest : List Char} (h : AreDigits digits)
    (hrest : ∀ c ∈ rest.head?, isDigit c = false) :
    readDigits? (writeDigits digits ++ rest) = some (digits, rest) := by
  obtain ⟨hne, hlt⟩ := h
  unfold readDigits?
  rw [Text.span_isDigit (isDigit_of_mem_writeDigits hlt) hrest]
  simp only [filterMap_writeDigits hlt]

/-- The fraction of a number with its point. -/
def writeFraction (fraction : List Nat) : List Char :=
  if fraction.isEmpty then [] else '.' :: writeDigits fraction

/-- The exponent of a number with its letter and its sign. -/
def writeExponent : Option (Bool × List Nat) → List Char
  | none => []
  | some (negative, digits) => 'e' :: (if negative then '-' else '+') :: writeDigits digits

/-- A number is written in four parts, each of which may be empty but the second. -/
theorem writeNumber_eq (n : Numeral) : writeNumber n =
    (if n.negative then ['-'] else []) ++ (writeDigits n.whole ++
      (writeFraction n.fraction ++ writeExponent n.exponent)) := by
  rw [← List.append_assoc, ← List.append_assoc]
  rfl

/-- A character that ends a number, or goes on with its exponent. -/
def EndsFraction (rest : List Char) : Prop := ∀ c ∈ rest.head?, isDigit c = false ∧ c ≠ '.'

/-- Behind a value no digit follows, so that a number ends where it was written to end. -/
theorem IsCutOff.isDigit {rest : List Char} (h : IsCutOff rest) :
    ∀ c ∈ rest.head?, isDigit c = false := by
  intro c hc
  rcases h c hc with rfl | rfl <;> decide

/-- Behind a fraction stands an exponent or the end of the value, and neither begins with a digit or
a point. -/
theorem endsFraction_writeExponent {rest : List Char} (h : IsCutOff rest)
    (exponent : Option (Bool × List Nat)) : EndsFraction (writeExponent exponent ++ rest) := by
  intro c hc
  cases exponent with
  | none => rcases h c hc with rfl | rfl <;> decide
  | some sign =>
      cases hc
      decide

/-- A fraction is read; if there is none, none is read, since no point follows. -/
theorem readFraction?_writeFraction {fraction : List Nat} {rest : List Char}
    (h : ∀ d ∈ fraction, d < 10) (hrest : EndsFraction rest) :
    readFraction? (writeFraction fraction ++ rest) = some (fraction, rest) := by
  cases fraction with
  | nil =>
      show readFraction? rest = some ([], rest)
      unfold readFraction?
      split
      · exact absurd rfl (hrest '.' rfl).2
      · rfl
  | cons d fraction =>
      exact readDigits?_writeDigits ⟨List.cons_ne_nil _ _, h⟩ fun c hc => (hrest c hc).1

/-- An exponent is read with its sign; if there is none, none is read, since no `e` follows. -/
theorem readExponent?_writeExponent {exponent : Option (Bool × List Nat)} {rest : List Char}
    (h : ∀ negative digits, exponent = some (negative, digits) → AreDigits digits)
    (hrest : IsCutOff rest) :
    readExponent? (writeExponent exponent ++ rest) = some (exponent, rest) := by
  rcases exponent with _ | ⟨negative, digits⟩
  · show readExponent? rest = some (none, rest)
    cases rest with
    | nil => rfl
    | cons c rest =>
        have hc : ¬(c = 'e' ∨ c = 'E') := by
          rcases hrest c rfl with rfl | rfl <;> decide
        unfold readExponent?
        exact if_neg hc
  · have hread := readDigits?_writeDigits (h negative digits rfl) hrest.isDigit
    cases negative <;> simp [writeExponent, readExponent?, hread]

/-- Behind the whole part no digit follows. -/
theorem isDigit_writeFraction {rest : List Char} (h : EndsFraction rest) (fraction : List Nat) :
    ∀ c ∈ (writeFraction fraction ++ rest).head?, isDigit c = false := by
  cases fraction with
  | nil => exact fun c hc => (h c hc).1
  | cons d fraction =>
      rintro c ⟨⟩
      decide

/-- What begins with a digit does not begin with a sign, so the case of a negative number is not
taken for it. -/
theorem ne_minus_of_areDigits {digits : List Nat} (h : AreDigits digits) (rest rest' : List Char) :
    writeDigits digits ++ rest ≠ '-' :: rest' := by
  obtain ⟨hne, hlt⟩ := h
  cases digits with
  | nil => exact absurd rfl hne
  | cons d digits =>
      intro heq
      have hdigit := isDigit_of_mem_writeDigits hlt (Nat.digitChar d) List.mem_cons_self
      rw [(List.cons.inj heq).1] at hdigit
      cases hdigit

/-- A number is read from its four parts, one reader behind the other. A leading zero, which the
reader refuses, is not written. -/
theorem readNumber?_writeNumber {n : Numeral} {rest : List Char} (h : n.IsSpelled)
    (hrest : IsCutOff rest) : readNumber? (writeNumber n ++ rest) = some (n, rest) := by
  have hends := endsFraction_writeExponent hrest n.exponent
  have hwhole := readDigits?_writeDigits h.whole (isDigit_writeFraction hends n.fraction)
  have hfraction := readFraction?_writeFraction h.fraction hends
  have hexponent := readExponent?_writeExponent h.exponent hrest
  have hzero : ¬(n.whole.head? = some 0 ∧ n.whole.length ≠ 1) := fun hzero =>
    hzero.2 (h.noLeadingZero hzero.1)
  rw [writeNumber_eq, List.append_assoc, List.append_assoc, List.append_assoc]
  unfold readNumber?
  obtain ⟨negative, whole, fraction, exponent⟩ := n
  cases negative with
  | true => simp [hwhole, hfraction, hexponent, hzero]
  -- without a sign the text begins with its whole part
  | false =>
      have hsign := ne_minus_of_areDigits h.whole
        (writeFraction fraction ++ (writeExponent exponent ++ rest))
      split
      rename_i negative unsigned heq
      split at heq
      · rename_i heq'
        exact absurd heq' (hsign _)
      · cases heq
        simp [hwhole, hfraction, hexponent, hzero]

/-! ### Strings -/

/-- A hexadecimal digit is read from its character. -/
theorem hexDigit?_hexChar : ∀ n < 16, Text.hexDigit? (hexChar n) = some n := by decide

/-- The characters with an escape of two characters, and the second of the two. -/
def simpleEscapes : List (Char × Char) :=
  [('"', '"'), ('\\', '\\'), ('\x08', 'b'), ('\x0c', 'f'), ('\n', 'n'), ('\r', 'r'), ('\t', 't')]

/-- The characters with an escape of their own: the escape is written, read back, and not the one of
numbers. -/
theorem simpleEscapes_spec : ∀ escape ∈ simpleEscapes,
    escapeChar escape.1 = ['\\', escape.2] ∧ simpleEscape? escape.2 = some escape.1 ∧
      escape.2 ≠ 'u' := by decide

/-- All other characters are written as their number, if they are control characters, or as they
are. -/
theorem escapeChar_of_not_mem {c : Char} (h : ∀ escape ∈ simpleEscapes, c ≠ escape.1) :
    escapeChar c = if c.toNat < 0x20 then
      ['\\', 'u', '0', '0', hexChar (c.toNat / 16), hexChar (c.toNat % 16)] else [c] := by
  simp only [simpleEscapes, List.forall_mem_cons] at h
  obtain ⟨h₁, h₂, h₃, h₄, h₅, h₆, h₇, -⟩ := h
  simp only [escapeChar, h₁, h₂, h₃, h₄, h₅, h₆, h₇, if_false]

/-- One character is read from its spelling, whichever of the three it is, and the reader goes on
behind it. -/
theorem readUnits?_escapeChar (c : Char) (rest : List Char) :
    readUnits? (escapeChar c ++ rest) =
      (readUnits? rest).map fun (units, rest) => (c.toNat :: units, rest) := by
  by_cases hsimple : ∃ escape ∈ simpleEscapes, c = escape.1
  · obtain ⟨⟨_, e⟩, hmem, rfl⟩ := hsimple
    obtain ⟨hescape, hread, hu⟩ := simpleEscapes_spec _ hmem
    rw [hescape, List.cons_append, List.singleton_append, readUnits?, hread]
    · cases readUnits? rest <;> rfl
    · rintro _ _ _ _ _ rfl
      exact absurd rfl hu
  · have hnot : ∀ escape ∈ simpleEscapes, c ≠ escape.1 := fun escape hmem heq =>
      hsimple ⟨escape, hmem, heq⟩
    rw [escapeChar_of_not_mem hnot]
    split
    · -- a control character, with two zeros and its two hexadecimal digits
      have hhigh := hexDigit?_hexChar (c.toNat / 16) (by omega)
      have hlow := hexDigit?_hexChar (c.toNat % 16) (by omega)
      have hzero : Text.hexDigit? '0' = some 0 := rfl
      have hvalue : (0 * 16 + 0) * 256 + (c.toNat / 16 * 16 + c.toNat % 16) = c.toNat := by omega
      simp only [List.cons_append, List.nil_append, readUnits?, hhigh, hlow, hzero,
        Option.bind_eq_bind, Option.bind_some, hvalue]
      cases readUnits? rest <;> rfl
    · rename_i hcontrol
      have hquote : c ≠ '"' := hnot ('"', '"') (by decide)
      have hescape : c ≠ '\\' := hnot ('\\', '\\') (by decide)
      have hplain : ¬(c.toNat < 0x20 ∨ c = '\\') := not_or.2 ⟨hcontrol, hescape⟩
      rw [List.singleton_append, readUnits?, if_neg hplain]
      · exact hquote
      · exact fun _ _ _ _ _ heq _ => hescape heq
      · exact fun _ _ heq _ => hescape heq

/-- The characters of a string are read up to its closing quote, by induction on the characters. -/
theorem readUnits?_flatMap_escapeChar (cs rest : List Char) :
    readUnits? (cs.flatMap escapeChar ++ '"' :: rest) = some (cs.map Char.toNat, rest) := by
  induction cs with
  | nil => rw [List.flatMap_nil, List.nil_append, readUnits?, List.map_nil]
  | cons c cs ih =>
      rw [List.flatMap_cons, List.append_assoc, readUnits?_escapeChar, ih]
      rfl

/-- No character is half of a surrogate pair, so units are not joined in pairs. -/
theorem not_surrogate (c : Char) : ¬(0xD800 ≤ c.toNat ∧ c.toNat < 0xE000) := by
  have hvalid : c.toNat < 0xD800 ∨ (0xDFFF < c.toNat ∧ c.toNat < 0x110000) := c.valid
  omega

/-- The units of a text that has no pairs are the numbers of its characters. -/
theorem joinUnits?_map_toNat (cs : List Char) : joinUnits? (cs.map Char.toNat) = some cs := by
  induction cs with
  | nil => rfl
  | cons c cs ih =>
      have hc := not_surrogate c
      have hhigh : ¬(0xD800 ≤ c.toNat ∧ c.toNat < 0xDC00) := by omega
      have hlow : ¬(0xDC00 ≤ c.toNat ∧ c.toNat < 0xE000) := by omega
      cases cs with
      | nil => 
          rw [List.map_cons, List.map_nil, joinUnits?, if_neg hc, Char.ofNat_toNat]
      | cons d cs =>
          rw [List.map_cons, List.map_cons, joinUnits?, if_neg hhigh, if_neg hlow,
            ← List.map_cons, ih, Char.ofNat_toNat]
          rfl

/-- A string is read behind its opening quote. A string that denotes no text is written as half of a
surrogate pair, from which no text is joined. -/
theorem readString?_writeString (text : Option String) (rest : List Char) :
    ∃ spelling, writeString text ++ rest = '"' :: spelling ∧
      readString? spelling = some (text, rest) := by
  cases text with
  | none =>
      have hd : Text.hexDigit? 'd' = some 13 := rfl
      have h8 : Text.hexDigit? '8' = some 8 := rfl
      have h0 : Text.hexDigit? '0' = some 0 := rfl
      have hhalf : joinUnits? [0xD800] = none := by decide
      refine ⟨_, rfl, ?_⟩
      simp [readString?, readUnits?, hd, h8, h0, hhalf]
  | some text =>
      refine ⟨text.toList.flatMap escapeChar ++ '"' :: rest, ?_, ?_⟩
      · simp [writeString]
      · rw [readString?, readUnits?_flatMap_escapeChar, Option.map_some]
        simp only [joinUnits?_map_toNat, Option.map_some, String.ofList_toList]

/-! ### Values -/

/-- Nothing is skipped in front of a character that is no blank. -/
theorem skipSpace_of_not_isSpace {c : Char} (h : isSpace c = false) (rest : List Char) :
    skipSpace (c :: rest) = c :: rest := List.dropWhile_cons_of_neg (by simp [h])

/-- A new line is skipped with the indentation behind it, whatever the level. -/
theorem skipSpace_newLine (level : Nat) (rest : List Char) :
    skipSpace (newLine level ++ rest) = skipSpace rest := by
  refine List.dropWhile_append_of_pos fun c hc => ?_
  rcases List.mem_cons.1 hc with rfl | hc
  · rfl
  · rw [List.eq_of_mem_replicate hc]
    rfl

/-- The characters with which a number begins. -/
def numberStarts : List Char := '-' :: (List.range 10).map Nat.digitChar

/-- A number begins with a sign or a digit. -/
theorem exists_writeNumber_eq_cons {n : Numeral} (h : n.IsSpelled) :
    ∃ c cs, writeNumber n = c :: cs ∧ c ∈ numberStarts := by
  obtain ⟨negative, whole, fraction, exponent⟩ := n
  cases negative with
  | true => exact ⟨'-', _, rfl, List.mem_cons_self⟩
  | false =>
      obtain ⟨hne, hlt⟩ := h.whole
      cases whole with
      | nil => exact absurd rfl hne
      | cons d whole =>
          have hd : d < 10 := hlt d List.mem_cons_self
          exact ⟨Nat.digitChar d, _, rfl,
            List.mem_cons_of_mem _ (List.mem_map_of_mem (List.mem_range.2 hd))⟩

/-- A string begins with its quote. -/
theorem exists_writeString_eq_cons (text : Option String) : ∃ cs, writeString text = '"' :: cs := by
  cases text with
  | none => exact ⟨_, rfl⟩
  | some text => exact ⟨_, rfl⟩

/-- A value begins with no blank, and not with the bracket that closes an array, by which the reader
tells an empty array. -/
theorem exists_writePretty_eq_cons {j : Json} (h : j.IsSpelled) (level : Nat) :
    ∃ c cs, writePretty level j = c :: cs ∧ isSpace c = false ∧ c ≠ ']' := by
  cases h with
  | null => exact ⟨'n', _, rfl, by decide⟩
  | bool value =>
      cases value with
      | true => exact ⟨'t', _, rfl, by decide⟩
      | false => exact ⟨'f', _, rfl, by decide⟩
  | number h =>
      have hstarts : numberStarts.all fun c => !isSpace c && c != ']' := by decide
      obtain ⟨c, cs, hwrite, hc⟩ := exists_writeNumber_eq_cons h
      exact ⟨c, cs, hwrite, by simpa using List.all_eq_true.1 hstarts c hc⟩
  | string text =>
      obtain ⟨cs, hwrite⟩ := exists_writeString_eq_cons text
      exact ⟨'"', cs, hwrite, by decide⟩
  | @array items h =>
      cases items with
      | nil => exact ⟨'[', _, rfl, by decide⟩
      | cons item items => exact ⟨'[', _, rfl, by decide⟩
  | @object fields h =>
      cases fields with
      | nil => exact ⟨'\x7b', _, rfl, by decide⟩
      | cons field fields => exact ⟨'\x7b', _, rfl, by decide⟩

/-- Skipping blanks takes nothing of the text of a value. -/
theorem skipSpace_writePretty {j : Json} (h : j.IsSpelled) (level : Nat) (rest : List Char) :
    skipSpace (writePretty level j ++ rest) = writePretty level j ++ rest := by
  obtain ⟨c, cs, hwrite, hc, -⟩ := exists_writePretty_eq_cons h level
  rw [hwrite, List.cons_append, skipSpace_of_not_isSpace hc]

theorem skipSpace_writeString (text : Option String) (rest : List Char) :
    skipSpace (writeString text ++ rest) = writeString text ++ rest :=
  skipSpace_writePretty (.string text) 0 rest

/-- The value is read from its text, with blanks in front of it and whatever may stand behind. Fuel
is spent on values, items and fields, of which there are at most two for each character. -/
def IsReadBack (j : Json) : Prop :=
  ∀ (level fuel : Nat) (front rest : List Char), skipSpace front = writePretty level j ++ rest →
    IsCutOff rest → 2 * (writePretty level j).length ≤ fuel → readValue? fuel front = some (j, rest)

/-- An item is followed by a comma or by the new line in front of the bracket. -/
theorem isCutOff_writePrettyItems (level : Nat) (items : List Json) (rest : List Char) :
    IsCutOff (writePrettyItems level items ++ rest) := by
  cases items with
  | nil =>
      rw [writePrettyItems, List.append_assoc]
      exact isCutOff_newLine level _
  | cons item items => exact isCutOff_comma _

/-- A field is followed by a comma or by the new line in front of the brace. -/
theorem isCutOff_writePrettyFields (level : Nat) (fields : List (Option String × Json))
    (rest : List Char) : IsCutOff (writePrettyFields level fields ++ rest) := by
  cases fields with
  | nil =>
      rw [writePrettyFields, List.append_assoc]
      exact isCutOff_newLine level _
  | cons field fields => exact isCutOff_comma _

/-- Items are read up to the closing bracket, by induction on those behind the first. Each item is
read back by hypothesis, and the text behind it is cut off. -/
theorem readItems?_writePrettyItems {level fuel : Nat} {item : Json} {items : List Json}
    {front rest : List Char} (hitem : item.IsReadBack) (hspelled : ∀ j ∈ items, j.IsSpelled)
    (hread : ∀ j ∈ items, j.IsReadBack)
    (hfront : skipSpace front =
      writePretty (level + 1) item ++ (writePrettyItems level items ++ rest))
    (hfuel : 2 * ((writePretty (level + 1) item).length +
      (writePrettyItems level items).length) < fuel) :
    readItems? fuel front = some (item :: items, rest) := by
  induction items generalizing item fuel front with
  | nil =>
      obtain ⟨fuel, rfl⟩ : ∃ f, fuel = f + 1 := ⟨fuel - 1, by omega⟩
      have hclosing := skipSpace_of_not_isSpace (show isSpace ']' = false by decide)
      have hvalue :=
        hitem _ fuel front _ hfront (isCutOff_writePrettyItems level [] rest) (by omega)
      rw [readItems?, hvalue, writePrettyItems, List.append_assoc]
      simp [skipSpace_newLine, hclosing]
  | cons next items ih =>
      obtain ⟨fuel, rfl⟩ : ∃ f, fuel = f + 1 := ⟨fuel - 1, by omega⟩
      obtain ⟨hnext, hspelled⟩ := List.forall_mem_cons.1 hspelled
      obtain ⟨hnextRead, hread⟩ := List.forall_mem_cons.1 hread
      have hcomma := skipSpace_of_not_isSpace (show isSpace ',' = false by decide)
      have hvalue := hitem _ fuel front _ hfront (isCutOff_writePrettyItems level _ rest) (by omega)
      -- the next item stands on a line of its own, which is skipped
      have hfront' : skipSpace (newLine (level + 1) ++ (writePretty (level + 1) next ++
          (writePrettyItems level items ++ rest))) =
          writePretty (level + 1) next ++ (writePrettyItems level items ++ rest) := by
        rw [skipSpace_newLine, skipSpace_writePretty hnext]
      simp only [writePrettyItems, List.length_cons, List.length_append] at hfuel
      have hitems : readItems? fuel _ = some (next :: items, rest) :=
        ih hnextRead hspelled hread hfront' (by omega)
      rw [readItems?, hvalue, writePrettyItems]
      simp [hcomma, hitems]

/-- The name and the value of a field are read, and the next character says whether it is the last
field. Both continuations are stated at once, as the text in front of them is the same. -/
theorem readFields?_writeString {level fuel : Nat} {name : Option String} {value : Json}
    {front tail rest : List Char} (hspelled : value.IsSpelled) (hread : value.IsReadBack)
    (hfront : skipSpace front =
      writeString name ++ ':' :: ' ' :: (writePretty (level + 1) value ++ tail))
    (htail : IsCutOff tail) (hfuel : 2 * (writePretty (level + 1) value).length ≤ fuel) :
    (skipSpace tail = '\x7d' :: rest →
      readFields? (fuel + 1) front = some ([(name, value)], rest)) ∧
    (skipSpace tail = ',' :: rest → readFields? (fuel + 1) front =
      (readFields? fuel rest).map fun (fields, rest) => ((name, value) :: fields, rest)) := by
  obtain ⟨spelling, hspelling, hname⟩ := readString?_writeString name
    (':' :: ' ' :: (writePretty (level + 1) value ++ tail))
  have hblank : skipSpace (' ' :: (writePretty (level + 1) value ++ tail)) =
      writePretty (level + 1) value ++ tail := skipSpace_writePretty hspelled _ _
  have hvalue := hread _ fuel _ _ hblank htail hfuel
  have hcolon := skipSpace_of_not_isSpace (show isSpace ':' = false by decide)
  rw [readFields?, hfront, hspelling]
  constructor
  · intro hclosing
    simp [hname, hcolon, hvalue, hclosing]
  · intro hcomma
    simp [hname, hcolon, hvalue, hcomma]

/-- Fields are read up to the closing brace, by induction on those behind the first;
`readFields?_writeString` does one step. -/
theorem readFields?_writePrettyFields {level fuel : Nat} {name : Option String} {value : Json}
    {fields : List (Option String × Json)} {front rest : List Char}
    (hvalue : value.IsSpelled) (hspelled : ∀ field ∈ fields, field.2.IsSpelled)
    (hvalueRead : value.IsReadBack) (hread : ∀ field ∈ fields, field.2.IsReadBack)
    (hfront : skipSpace front = writeString name ++ ':' :: ' ' ::
      (writePretty (level + 1) value ++ (writePrettyFields level fields ++ rest)))
    (hfuel : 2 * ((writePretty (level + 1) value).length +
      (writePrettyFields level fields).length) < fuel) :
    readFields? fuel front = some ((name, value) :: fields, rest) := by
  induction fields generalizing name value fuel front with
  | nil =>
      obtain ⟨fuel, rfl⟩ : ∃ f, fuel = f + 1 := ⟨fuel - 1, by omega⟩
      refine (readFields?_writeString hvalue hvalueRead hfront
        (isCutOff_writePrettyFields level [] rest) (by omega)).1 ?_
      rw [writePrettyFields, List.append_assoc, skipSpace_newLine]
      exact skipSpace_of_not_isSpace (by decide) _
  | cons next fields ih =>
      obtain ⟨fuel, rfl⟩ : ∃ f, fuel = f + 1 := ⟨fuel - 1, by omega⟩
      obtain ⟨name', value'⟩ := next
      obtain ⟨hnext, hspelled⟩ := List.forall_mem_cons.1 hspelled
      obtain ⟨hnextRead, hread⟩ := List.forall_mem_cons.1 hread
      have hfront' : skipSpace (newLine (level + 1) ++ (writeString name' ++ ':' :: ' ' ::
          (writePretty (level + 1) value' ++ (writePrettyFields level fields ++ rest)))) =
          writeString name' ++ ':' :: ' ' ::
            (writePretty (level + 1) value' ++ (writePrettyFields level fields ++ rest)) := by
        rw [skipSpace_newLine, skipSpace_writeString]
      simp only [writePrettyFields, List.length_cons, List.length_append] at hfuel
      -- what is behind the comma is shorter, so the fuel that is left is enough for it
      have hfields : readFields? fuel _ = some ((name', value') :: fields, rest) :=
        ih hnext hspelled hnextRead hread hfront' (by omega)
      rw [(readFields?_writeString hvalue hvalueRead hfront
        (isCutOff_writePrettyFields level _ rest) (by omega)).2 ?_, hfields, Option.map_some]
      rw [writePrettyFields]
      simp [skipSpace_of_not_isSpace (show isSpace ',' = false by decide)]

/-- A number begins with none of the characters that tell the other values, so `readValue?` takes
its last case. -/
theorem readValue?_of_mem_numberStarts {c : Char} {cs front : List Char} (hc : c ∈ numberStarts)
    (hfront : skipSpace front = c :: cs) (fuel : Nat) : readValue? (fuel + 1) front =
      (readNumber? (c :: cs)).map fun (numeral, rest) => (number numeral, rest) := by
  have hother : numberStarts.all (· ∉ ['"', '[', '\x7b', 't', 'f', 'n']) := by decide
  have hnot := List.all_eq_true.1 hother c hc
  simp only [List.mem_cons, not_or, decide_eq_true_eq] at hnot
  obtain ⟨hquote, hbracket, hbrace, htrue, hfalse, hnull, -⟩ := hnot
  rw [readValue?, hfront]
  split <;> rename_i heq
  · exact absurd (List.cons.inj heq).1 hquote
  · exact absurd (List.cons.inj heq).1 hbracket
  · exact absurd (List.cons.inj heq).1 hbrace
  · exact absurd (List.cons.inj heq).1 htrue
  · exact absurd (List.cons.inj heq).1 hfalse
  · exact absurd (List.cons.inj heq).1 hnull
  · rfl

/-- It is enough to show a value read with fuel for a first step, for its text is not empty. -/
theorem IsSpelled.isReadBack_of_step {j : Json} (h : j.IsSpelled)
    (hstep : ∀ (level fuel : Nat) (front rest : List Char),
      skipSpace front = writePretty level j ++ rest → IsCutOff rest →
        2 * (writePretty level j).length ≤ fuel + 1 →
          readValue? (fuel + 1) front = some (j, rest)) : j.IsReadBack := by
  intro level fuel front rest hfront hrest hfuel
  obtain ⟨c, cs, hwrite, -⟩ := exists_writePretty_eq_cons h level
  have hpos : (writePretty level j).length ≠ 0 := by simp [hwrite]
  obtain ⟨fuel, rfl⟩ : ∃ f, fuel = f + 1 := ⟨fuel - 1, by omega⟩
  exact hstep level fuel front rest hfront hrest hfuel

/-- A number is read back in front of a text that cuts it off. For the other values the cut is not
needed. -/
theorem isReadBack_number {n : Numeral} (h : n.IsSpelled) : (number n).IsReadBack := by
  refine (IsSpelled.number h).isReadBack_of_step fun level fuel front rest hfront hrest _ => ?_
  change skipSpace front = writeNumber n ++ rest at hfront
  obtain ⟨c, cs, hwrite, hc⟩ := exists_writeNumber_eq_cons h
  have hread := readNumber?_writeNumber h hrest
  rw [hwrite, List.cons_append] at hfront hread
  rw [readValue?_of_mem_numberStarts hc hfront, hread]
  rfl

/-- A string is read back up to its closing quote. -/
theorem isReadBack_string (text : Option String) : (string text).IsReadBack := by
  refine (IsSpelled.string text).isReadBack_of_step fun level fuel front rest hfront _ _ => ?_
  change skipSpace front = writeString text ++ rest at hfront
  obtain ⟨spelling, hspelling, hread⟩ := readString?_writeString text rest
  rw [readValue?, hfront, hspelling]
  simp [hread]

/-- An array is read back if its items are. An empty one is closed on the same line. -/
theorem isReadBack_array {items : List Json} (hspelled : ∀ j ∈ items, j.IsSpelled)
    (hread : ∀ j ∈ items, j.IsReadBack) : (array items).IsReadBack := by
  refine (IsSpelled.array hspelled).isReadBack_of_step
    fun level fuel front rest hfront _ hfuel => ?_
  cases items with
  | nil =>
      have hclosing := skipSpace_of_not_isSpace (show isSpace ']' = false by decide)
      change skipSpace front = '[' :: ']' :: rest at hfront
      rw [readValue?, hfront]
      simp [hclosing]
  | cons item items =>
      obtain ⟨hitem, hspelled⟩ := List.forall_mem_cons.1 hspelled
      obtain ⟨hitemRead, hread⟩ := List.forall_mem_cons.1 hread
      simp only [writePretty, List.length_cons, List.length_append] at hfuel
      simp only [writePretty, List.cons_append, List.append_assoc] at hfront
      have hfront' : skipSpace (newLine (level + 1) ++ (writePretty (level + 1) item ++
          (writePrettyItems level items ++ rest))) =
          writePretty (level + 1) item ++ (writePrettyItems level items ++ rest) := by
        rw [skipSpace_newLine, skipSpace_writePretty hitem]
      have hitems : readItems? fuel _ = some (item :: items, rest) :=
        readItems?_writePrettyItems hitemRead hspelled hread hfront' (by omega)
      obtain ⟨c, cs, hwrite, -, hc⟩ := exists_writePretty_eq_cons hitem (level + 1)
      rw [readValue?, hfront]
      simp only [hfront', hitems]
      -- the first item does not begin as the array would end
      rw [hwrite, List.cons_append]
      split
      · rename_i heq
        exact absurd (List.cons.inj heq).1 hc
      · rfl

/-- An object is read back if the values of its fields are. -/
theorem isReadBack_object {fields : List (Option String × Json)}
    (hspelled : ∀ field ∈ fields, field.2.IsSpelled)
    (hread : ∀ field ∈ fields, field.2.IsReadBack) : (object fields).IsReadBack := by
  refine (IsSpelled.object hspelled).isReadBack_of_step
    fun level fuel front rest hfront _ hfuel => ?_
  cases fields with
  | nil =>
      have hclosing := skipSpace_of_not_isSpace (show isSpace '\x7d' = false by decide)
      change skipSpace front = '\x7b' :: '\x7d' :: rest at hfront
      rw [readValue?, hfront]
      simp [hclosing]
  | cons field fields =>
      obtain ⟨name, value⟩ := field
      obtain ⟨hvalue, hspelled⟩ := List.forall_mem_cons.1 hspelled
      obtain ⟨hvalueRead, hread⟩ := List.forall_mem_cons.1 hread
      simp only [writePretty, List.length_cons, List.length_append] at hfuel
      simp only [writePretty, List.cons_append, List.append_assoc] at hfront
      obtain ⟨cs, hquote⟩ := exists_writeString_eq_cons name
      have hfront' : skipSpace (newLine (level + 1) ++ (writeString name ++ ':' :: ' ' ::
          (writePretty (level + 1) value ++ (writePrettyFields level fields ++ rest)))) =
          writeString name ++ ':' :: ' ' ::
            (writePretty (level + 1) value ++ (writePrettyFields level fields ++ rest)) := by
        rw [skipSpace_newLine, skipSpace_writeString]
      -- the opening brace takes one step of the fuel, and the fields have the rest
      have hfields : readFields? fuel _ = some ((name, value) :: fields, rest) :=
        readFields?_writePrettyFields hvalue hspelled hvalueRead hread hfront' (by omega)
      rw [readValue?, hfront]
      simp only [hfront', hfields]
      rw [hquote, List.cons_append]
      rfl

/-- Every value is read from its indented text, at any level of indentation, by induction on how it
is spelled. -/
theorem IsSpelled.isReadBack {j : Json} (h : j.IsSpelled) : j.IsReadBack := by
  induction h with
  | null =>
      refine IsSpelled.null.isReadBack_of_step fun level fuel front rest hfront _ _ => ?_
      change skipSpace front = 'n' :: 'u' :: 'l' :: 'l' :: rest at hfront
      rw [readValue?, hfront]
      rfl
  | bool value =>
      refine (IsSpelled.bool value).isReadBack_of_step fun level fuel front rest hfront _ _ => ?_
      cases value with
      | true =>
          change skipSpace front = 't' :: 'r' :: 'u' :: 'e' :: rest at hfront
          rw [readValue?, hfront]
          rfl
      | false =>
          change skipSpace front = 'f' :: 'a' :: 'l' :: 's' :: 'e' :: rest at hfront
          rw [readValue?, hfront]
          rfl
  | number h => exact isReadBack_number h
  | string text => exact isReadBack_string text
  | array h ih => exact isReadBack_array h ih
  | object h ih => exact isReadBack_object h ih

/-- A document is read from its indented text: the value is read from the front and nothing is left
behind it. -/
theorem parse?_pretty {j : Json} (h : j.IsSpelled) : parse? j.pretty = some j := by
  have hread := h.isReadBack 0 (2 * (writePretty 0 j).length + 2) (writePretty 0 j) []
    (by rw [← skipSpace_writePretty h, List.append_nil]) isCutOff_nil (by omega)
  rw [parse?, pretty, String.toList_ofList]
  simp only [hread]
  rfl

end Json

end PlanOrbits
