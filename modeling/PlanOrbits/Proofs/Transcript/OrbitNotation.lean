import PlanOrbits.Proofs.Checked
import PlanOrbits.Proofs.Number.Reading
import PlanOrbits.Proofs.Text.Pieces
import PlanOrbits.Transcript.Parts

/-!
# Orbit notation

Which texts are read as listings of orbits is said here without the reader, by what a text is
put together from: vertices and ranges (`EntryText`), with blanks between them (`ListText`), a
note behind them (`GroupText`), and semicolons between the groups (`ListingText`). For every
part there is one statement, that reading it succeeds exactly if it is such a text.

A note should be nothing or a number in parentheses, at the end of its group (`NoteText`). The
reader does not look at it: anything goes from the first parenthesis on (`SkippedText`). So it
reads every listing whose notes are proper as it should, but it also reads texts with other
notes, and then it loses what stands behind the parenthesis (`isReadProperly_iff`).
-/

namespace PlanOrbits.Transcript

open Text (IsNumeral isBlank isDigit pieces valueFrom wordLimit words)

/-! ### What orbit notation is -/

/-- A vertex in decimal digits, perhaps with a plus sign before them. -/
inductive VertexText : List Char → Nat → Prop
  | plain {ds : List Char} (hds : IsNumeral ds) (hlt : valueFrom 0 ds < wordLimit) :
      VertexText ds (valueFrom 0 ds)
  | signed {ds : List Char} (hds : IsNumeral ds) (hlt : valueFrom 0 ds < wordLimit) :
      VertexText ('+' :: ds) (valueFrom 0 ds)

/-- A vertex, or the vertices from one to another that is not smaller. -/
inductive EntryText : List Char → List Nat → Prop
  | vertex {cs : List Char} {v : Nat} (hv : VertexText cs v) : EntryText cs [v]
  | range {low high : List Char} {v w : Nat} (hlow : VertexText low v) (hhigh : VertexText high w)
      (hle : v ≤ w) : EntryText (low ++ ':' :: high) (List.range' v (w - v + 1))

/-- Words with blanks between them, and perhaps before and behind them. -/
inductive Separated : List (List Char) → List Char → Prop
  | done : Separated [] []
  | blank {ws : List (List Char)} {c : Char} {cs : List Char} (hc : isBlank c = true)
      (h : Separated ws cs) : Separated ws (c :: cs)
  | word {w : List Char} {ws : List (List Char)} {cs : List Char} (hne : w ≠ [])
      (hw : ∀ c ∈ w, isBlank c = false) (hends : ∀ c ∈ cs.head?, isBlank c = true)
      (h : Separated ws cs) : Separated (w :: ws) (w ++ cs)

/-- Entries with blanks between them, and all their vertices in order. -/
def ListText (cs : List Char) (vertices : List Nat) : Prop :=
  ∃ ws vss, Separated ws cs ∧ List.Forall₂ EntryText ws vss ∧ vertices = vss.flatten

/-- Nothing, or a number in parentheses with nothing but blanks behind it. -/
inductive NoteText : List Char → Prop
  | none : NoteText []
  | size {ds gap : List Char} (hds : IsNumeral ds) (hgap : ∀ c ∈ gap, isBlank c = true) :
      NoteText ('(' :: (ds ++ ')' :: gap))

/-- Nothing, or anything behind an opening parenthesis. -/
def SkippedText (cs : List Char) : Prop := ∀ c ∈ cs.head?, c = '('

/-- Entries with a note behind them. -/
def GroupText (Note : List Char → Prop) (cs : List Char) (vertices : List Nat) : Prop :=
  ∃ list note, cs = list ++ note ∧ ListText list vertices ∧ Note note

/-- Groups with semicolons between them. The orbits are the vertices of those groups that have
any. -/
def ListingText (Note : List Char → Prop) (cs : List Char) (orbits : List (List Nat)) : Prop :=
  ∃ groups vss, cs = [';'].intercalate groups ∧ groups ≠ [] ∧ (∀ group ∈ groups, ';' ∉ group) ∧
    List.Forall₂ (GroupText Note) groups vss ∧ orbits = vss.filter (!·.isEmpty)

variable {source : String} {c : Char} {cs : List Char} {ws : List (List Char)} {v : Nat}
  {vertices : List Nat} {orbits : List (List Nat)} {Note : List Char → Prop}

/-! ### Vertices and entries -/

theorem isDigit_of_mapM_digit? {ds : List Nat} (h : cs.mapM Text.digit? = some ds) :
    ∀ c ∈ cs, isDigit c = true := by
  induction cs generalizing ds with
  | nil => simp
  | cons c cs ih =>
      simp only [List.mapM_cons, Option.bind_eq_bind, Option.bind_eq_some_iff] at h
      obtain ⟨d, hd, ds', hds, -⟩ := h
      refine List.forall_mem_cons.2 ⟨?_, ih hds⟩
      rw [isDigit, hd]
      rfl

/-- Digits are read from a numeral, each as its number. -/
theorem digits?_eq_some_iff {ds : List Nat} : Text.digits? cs = some ds ↔
    IsNumeral cs ∧ ds = cs.map fun c => c.toNat - '0'.toNat := by
  constructor
  · intro h
    cases cs with
    | nil => cases h
    | cons c cs =>
        have hnumeral : IsNumeral (c :: cs) := ⟨List.cons_ne_nil c cs, isDigit_of_mapM_digit? h⟩
        rw [Text.digits?_of_isNumeral hnumeral, Option.some.injEq] at h
        exact ⟨hnumeral, h.symm⟩
  · rintro ⟨hnumeral, rfl⟩
    exact Text.digits?_of_isNumeral hnumeral

/-- `wordOf?` reads the two forms of `VertexText`, with a plus sign and without, and refuses numbers
that do not fit a word. -/
theorem wordOf?_eq_some_iff : Text.wordOf? cs = some v ↔ VertexText cs v := by
  have hvalue : ∀ ds, ((Text.digits? ds).bind fun digits =>
      if Text.number digits < wordLimit then some (Text.number digits) else none) = some v ↔
        IsNumeral ds ∧ valueFrom 0 ds < wordLimit ∧ v = valueFrom 0 ds := by
    intro ds
    simp only [Option.bind_eq_some_iff, digits?_eq_some_iff]
    constructor
    · rintro ⟨_, ⟨hds, rfl⟩, h⟩
      split at h
      · rename_i hlt
        cases h
        exact ⟨hds, hlt, rfl⟩
      · cases h
    · rintro ⟨hds, hlt, rfl⟩
      exact ⟨_, ⟨hds, rfl⟩, if_pos hlt⟩
  -- the sign is dropped once; a second one is no digit
  have hplus : ∀ ds, ¬IsNumeral ('+' :: ds) := fun ds h =>
    h.not_mem (by decide) List.mem_cons_self
  unfold Text.wordOf?
  split
  · rename_i rest
    refine (hvalue rest).trans ⟨?_, ?_⟩
    · rintro ⟨hds, hlt, rfl⟩
      exact .signed hds hlt
    · intro h
      cases h with
      | plain hds hlt => exact absurd hds (hplus rest)
      | signed hds hlt => exact ⟨hds, hlt, rfl⟩
  · rename_i hnot
    refine (hvalue cs).trans ⟨?_, ?_⟩
    · rintro ⟨hds, hlt, rfl⟩
      exact .plain hds hlt
    · intro h
      cases h with
      | plain hds hlt => exact ⟨hds, hlt, rfl⟩
      | signed hds hlt => exact absurd rfl (hnot _)

/-- A vertex has digits only, behind a plus sign at most. -/
theorem VertexText.not_mem (h : VertexText cs v) (hdigit : isDigit c = false) (hplus : c ≠ '+') :
    c ∉ cs := by
  cases h with
  | plain hds => exact hds.not_mem hdigit
  | signed hds =>
      rw [List.mem_cons, not_or]
      exact ⟨hplus, hds.not_mem hdigit⟩

theorem EntryText.not_mem (h : EntryText cs vertices) (hdigit : isDigit c = false)
    (hplus : c ≠ '+') (hcolon : c ≠ ':') : c ∉ cs := by
  cases h with
  | vertex hv => exact hv.not_mem hdigit hplus
  | range hlow hhigh =>
      rw [List.mem_append, List.mem_cons, not_or, not_or]
      exact ⟨hlow.not_mem hdigit hplus, hcolon, hhigh.not_mem hdigit hplus⟩

theorem parseVertex_eq_ok_iff : parseVertex source cs = .ok v ↔ VertexText cs v := by
  rw [parseVertex, ← wordOf?_eq_some_iff]
  cases Text.wordOf? cs <;> simp

/-- An entry is read as a range if it has a colon, and else as a vertex. A range that goes down is
refused. -/
theorem parseEntry_eq_ok_iff : parseEntry source cs = .ok vertices ↔ EntryText cs vertices := by
  constructor
  · intro h
    rw [parseEntry] at h
    cases hcut : Text.cutAt? ':' cs with
    | none =>
        simp only [hcut, map_eq_ok_iff, parseVertex_eq_ok_iff] at h
        obtain ⟨v, hv, rfl⟩ := h
        exact .vertex hv
    | some parts =>
        obtain ⟨low, high⟩ := parts
        simp only [hcut, bind_eq_ok_iff, parseVertex_eq_ok_iff] at h
        obtain ⟨v, hv, w, hw, h⟩ := h
        rw [Text.eq_append_of_cutAt? hcut]
        split at h
        · cases h
        · rename_i hnot
          cases h
          exact .range hv hw (Nat.le_of_not_lt hnot)
  · intro h
    rw [parseEntry]
    cases h with
    -- the text of a vertex has no colon, so the cut at the first colon is the one of the range
    | vertex hv =>
        rw [Text.cutAt?_of_not_mem (hv.not_mem (by decide) (by decide))]
        exact map_eq_ok_iff.2 ⟨_, parseVertex_eq_ok_iff.2 hv, rfl⟩
    | range hlow hhigh hle =>
        rw [Text.cutAt?_append_cons (hlow.not_mem (by decide) (by decide))]
        simp only [bind_eq_ok_iff, parseVertex_eq_ok_iff]
        exact ⟨_, hlow, _, hhigh, if_neg (Nat.not_lt.2 hle)⟩

/-! ### Lists of entries -/

theorem Separated.isBlank_or_mem (h : Separated ws cs) (hc : c ∈ cs) :
    isBlank c = true ∨ ∃ w ∈ ws, c ∈ w := by
  induction h with
  | done => cases hc
  | blank hblank _ ih =>
      rcases List.mem_cons.1 hc with rfl | hc
      · exact .inl hblank
      · exact ih hc
  | word _ _ _ _ ih =>
      rcases List.mem_append.1 hc with hc | hc
      · exact .inr ⟨_, List.mem_cons_self, hc⟩
      · rcases ih hc with hblank | ⟨w, hw, hc⟩
        · exact .inl hblank
        · exact .inr ⟨w, List.mem_cons_of_mem _ hw, hc⟩

theorem Separated.eq_words (h : Separated ws cs) : ws = words cs := by
  induction h with
  | done => rfl
  | blank hc _ ih => rw [Text.words_cons_of_isBlank hc, ih]
  | word hne hw hends _ ih => rw [Text.words_append hne hw hends, ih]

/-- Every text consists of words with blanks between them, in one way. -/
theorem exists_separated (cs : List Char) : ∃ ws, Separated ws cs := by
  induction cs with
  | nil => exact ⟨[], .done⟩
  | cons c cs ih =>
      obtain ⟨ws, h⟩ := ih
      cases hc : isBlank c with
      | true => exact ⟨ws, .blank hc h⟩
      | false =>
          have hsingle : ∀ d ∈ [c], isBlank d = false := List.forall_mem_singleton.2 hc
          -- the character begins a word, or it goes in front of the word that begins the rest
          cases h with
          | done => exact ⟨_, .word (List.cons_ne_nil c []) hsingle (by simp) .done⟩
          | blank hd h =>
              exact ⟨_, .word (List.cons_ne_nil c []) hsingle (by simpa using hd) (.blank hd h)⟩
          | word hne hw hends h =>
              exact ⟨_, .word (List.cons_ne_nil c _) (List.forall_mem_cons.2 ⟨hc, hw⟩) hends h⟩

/-- `Separated`, the rule, holds of exactly the words that the reader cuts the text into. -/
theorem separated_iff : Separated ws cs ↔ ws = words cs := by
  refine ⟨Separated.eq_words, fun h => ?_⟩
  obtain ⟨ws', h'⟩ := exists_separated cs
  rwa [h, ← h'.eq_words]

/-- A list of entries is read word by word. -/
theorem listText_iff : ((words cs).mapM (parseEntry source)).map List.flatten = .ok vertices ↔
    ListText cs vertices := by
  simp only [ListText, map_eq_ok_iff, mapM_eq_ok_iff, parseEntry_eq_ok_iff, separated_iff]
  constructor
  · rintro ⟨vss, hvss, rfl⟩
    exact ⟨_, vss, rfl, hvss, rfl⟩
  · rintro ⟨_, vss, rfl, hvss, rfl⟩
    exact ⟨vss, hvss, rfl⟩

theorem ListText.opening_not_mem (h : ListText cs vertices) : '(' ∉ cs := by
  obtain ⟨ws, vss, hws, hentries, -⟩ := h
  intro hc
  rcases hws.isBlank_or_mem hc with hblank | ⟨w, hw, hc⟩
  · exact absurd hblank (by decide)
  · obtain ⟨i, hi⟩ := List.mem_iff_getElem?.1 hw
    obtain ⟨vs, -, hentry⟩ := exists_right_of_forall₂ hentries hi
    exact hentry.not_mem (by decide) (by decide) (by decide) hc

/-! ### Groups -/

section

variable {list note : List Char} (hlist : ListText list vertices) (hnote : SkippedText note)

include hlist hnote

/-- The list of a group ends at the first parenthesis, since no entry has one. -/
theorem beforeNote_append : beforeNote (list ++ note) = list := by
  cases note with
  | nil => rw [List.append_nil, beforeNote, Text.takeWhile_of_not_mem hlist.opening_not_mem]
  | cons c note =>
      obtain rfl : c = '(' := hnote c rfl
      rw [beforeNote, Text.takeWhile_append_cons hlist.opening_not_mem]

theorem dropWhile_append : (list ++ note).dropWhile (· != '(') = note := by
  have happend := List.takeWhile_append_dropWhile (p := (· != '(')) (l := list ++ note)
  rw [← beforeNote, beforeNote_append hlist hnote] at happend
  exact List.append_cancel_left happend

end

theorem skippedText_dropWhile (cs : List Char) : SkippedText (cs.dropWhile (· != '(')) := by
  intro c hc
  have hhead := List.head?_dropWhile_not (· != '(') cs
  rw [Option.mem_def.1 hc] at hhead
  simpa using hhead

/-- A group is read as its list; the reader accepts anything from the first parenthesis on. -/
theorem parseOrbit_eq_ok_iff :
    parseOrbit source cs = .ok vertices ↔ GroupText SkippedText cs vertices := by
  rw [parseOrbit, listText_iff]
  constructor
  · intro h
    exact ⟨_, _, List.takeWhile_append_dropWhile.symm, h, skippedText_dropWhile cs⟩
  · rintro ⟨list, note, rfl, hlist, hnote⟩
    rwa [beforeNote_append hlist hnote]

theorem skippedText_of_noteText (h : NoteText cs) : SkippedText cs := by
  cases h with
  | none => exact fun c hc => by cases hc
  | size => exact fun c hc => (Option.some.inj hc).symm

/-- A note ends with its closing parenthesis and blanks, so that nothing stands behind the note. -/
theorem NoteText.getLast? (h : NoteText cs) : ∀ c ∈ cs.getLast?, c = ')' ∨ isBlank c = true := by
  cases h with
  | none => simp
  | @size ds gap hds hgap =>
      intro c hc
      rw [← List.cons_append, List.getLast?_append, List.getLast?_cons, Option.some_or] at hc
      obtain rfl := Option.some.inj hc
      cases hlast : gap.getLast? with
      | none => exact .inl rfl
      | some d => exact .inr (hgap d (List.mem_of_getLast? hlast))

/-- A group with a proper note is a group of which the rest from the first parenthesis on is a note.
-/
theorem groupText_noteText_iff : GroupText NoteText cs vertices ↔
    GroupText SkippedText cs vertices ∧ NoteText (cs.dropWhile (· != '(')) := by
  constructor
  · rintro ⟨list, note, rfl, hlist, hnote⟩
    have hskipped := skippedText_of_noteText hnote
    refine ⟨⟨list, note, rfl, hlist, hskipped⟩, ?_⟩
    rwa [dropWhile_append hlist hskipped]
  · rintro ⟨⟨list, note, rfl, hlist, hskipped⟩, hnote⟩
    rw [dropWhile_append hlist hskipped] at hnote
    exact ⟨list, note, rfl, hlist, hnote⟩

/-! ### Listings -/

/-- There is only one way to take a listing apart, namely at its semicolons. -/
theorem listingText_iff : ListingText Note cs orbits ↔ ∃ vss,
    List.Forall₂ (GroupText Note) (pieces (· == ';') cs) vss ∧
      orbits = vss.filter (!·.isEmpty) := by
  constructor
  · rintro ⟨groups, vss, rfl, hne, hgroups, hvss, rfl⟩
    rw [Text.pieces_intercalate hne hgroups]
    exact ⟨vss, hvss, rfl⟩
  · rintro ⟨vss, hvss, rfl⟩
    exact ⟨_, vss, (Text.intercalate_pieces ';' cs).symm, Text.pieces_ne_nil _ cs,
      fun _ => Text.not_mem_of_mem_pieces, hvss, rfl⟩

/-- The reader accepts exactly the listings whose notes may be anything. -/
theorem parseOrbits_eq_ok_iff {text : String} :
    parseOrbits text = .ok orbits ↔ ListingText SkippedText text.toList orbits := by
  simp only [parseOrbits, map_eq_ok_iff, mapM_eq_ok_iff, parseOrbit_eq_ok_iff, listingText_iff,
    eq_comm (a := orbits)]

/-- What is no listing, even if notes are not looked at, violates the protocol. -/
theorem exists_parseOrbits_eq_error {text : String}
    (h : ∀ orbits, ¬ListingText SkippedText text.toList orbits) :
    ∃ cause, parseOrbits text = .error cause ∧
      cause.diagnostic.family = .protocolViolation := by
  cases hread : parseOrbits text with
  | ok orbits => exact absurd (parseOrbits_eq_ok_iff.1 hread) (h orbits)
  | error cause => exact ⟨cause, rfl, cause.family_diagnostic⟩

/-! ### Notes -/

/-- The text is read if it is a listing with proper notes, and as this listing; otherwise it is
refused. -/
structure IsReadProperly (text : String) : Prop where
  ok : ∀ orbits, parseOrbits text = .ok orbits ↔ ListingText NoteText text.toList orbits
  error : (∀ orbits, ¬ListingText NoteText text.toList orbits) →
    ∃ cause, parseOrbits text = .error cause ∧ cause.diagnostic.family = .protocolViolation

/-- In every group the rest from the first parenthesis on is a note. -/
def HasProperNotes (cs : List Char) : Prop :=
  ∀ group ∈ pieces (· == ';') cs, NoteText (group.dropWhile (· != '('))

theorem forall₂_groupText_noteText_iff {groups : List (List Char)} {vss : List (List Nat)} :
    List.Forall₂ (GroupText NoteText) groups vss ↔
      List.Forall₂ (GroupText SkippedText) groups vss ∧
        ∀ group ∈ groups, NoteText (group.dropWhile (· != '(')) := by
  induction groups generalizing vss with
  | nil => simp
  | cons group groups ih =>
      cases vss with
      | nil => simp
      | cons vs vss =>
          rw [List.forall₂_cons, List.forall₂_cons, List.forall_mem_cons, groupText_noteText_iff,
            ih, and_and_and_comm]

theorem listingText_noteText_iff : ListingText NoteText cs orbits ↔
    ListingText SkippedText cs orbits ∧ HasProperNotes cs := by
  simp only [listingText_iff, forall₂_groupText_noteText_iff, HasProperNotes]
  constructor
  · rintro ⟨vss, ⟨hvss, hnotes⟩, rfl⟩
    exact ⟨⟨vss, hvss, rfl⟩, hnotes⟩
  · rintro ⟨⟨vss, hvss, rfl⟩, hnotes⟩
    exact ⟨vss, ⟨hvss, hnotes⟩, rfl⟩

/-- A text is read properly if and only if it is no listing in the wide sense or all of its notes
are proper. A listing with another note is read although it should be refused. -/
theorem isReadProperly_iff {text : String} : IsReadProperly text ↔
    ((∃ orbits, ListingText SkippedText text.toList orbits) → HasProperNotes text.toList) := by
  constructor
  · rintro h ⟨orbits, horbits⟩
    have hlisting := (h.ok orbits).1 (parseOrbits_eq_ok_iff.2 horbits)
    exact (listingText_noteText_iff.1 hlisting).2
  · intro h
    have hiff : ∀ orbits, ListingText SkippedText text.toList orbits ↔
        ListingText NoteText text.toList orbits := fun orbits =>
      ⟨fun horbits => listingText_noteText_iff.2 ⟨horbits, h ⟨orbits, horbits⟩⟩,
        fun horbits => (listingText_noteText_iff.1 horbits).1⟩
    exact {
      ok := fun orbits => parseOrbits_eq_ok_iff.trans (hiff orbits)
      error := fun hnone => exists_parseOrbits_eq_error fun orbits horbits =>
        hnone orbits ((hiff orbits).1 horbits) }

/-- Exactly the listings are read in whose groups a note may be anything, as the vertices before
the notes, and any other text violates the protocol. So a text is read as it should be exactly
if it is no such listing or its notes are proper. -/
theorem parseOrbits_reads_listing (text : String) :
    (∀ orbits, parseOrbits text = .ok orbits ↔ ListingText SkippedText text.toList orbits) ∧
    ((∀ orbits, ¬ListingText SkippedText text.toList orbits) → ∃ cause,
      parseOrbits text = .error cause ∧ cause.diagnostic.family = .protocolViolation) ∧
    (IsReadProperly text ↔
      ((∃ orbits, ListingText SkippedText text.toList orbits) → HasProperNotes text.toList)) :=
  ⟨fun _ => parseOrbits_eq_ok_iff, exists_parseOrbits_eq_error, isReadProperly_iff⟩

/-- A listing with a range and a size is read as it should be. A range that goes down is refused,
and the text is a listing of no kind. -/
theorem parseOrbits_reads_listing_size :
    IsReadProperly "0 1 2; 3:5 (3)" ∧
      ListingText NoteText "0 1 2; 3:5 (3)".toList [[0, 1, 2], [3, 4, 5]] ∧
      ∃ cause, parseOrbits "0; 5:3" = .error cause ∧
        cause.diagnostic.family = .protocolViolation := by
  have hnumeral : IsNumeral ['3'] := ⟨List.cons_ne_nil _ _, List.forall_mem_singleton.2 rfl⟩
  have hsize : NoteText ['(', '3', ')'] := .size hnumeral (List.forall_mem_nil _)
  have hnotes : HasProperNotes "0 1 2; 3:5 (3)".toList := by
    intro group hgroup
    have hpieces : pieces (· == ';') "0 1 2; 3:5 (3)".toList =
        ["0 1 2".toList, " 3:5 (3)".toList] := by decide +kernel
    rw [hpieces, List.mem_pair] at hgroup
    rcases hgroup with rfl | rfl
    · exact .none
    · exact hsize
  obtain ⟨-, -, hproper⟩ := parseOrbits_reads_listing "0 1 2; 3:5 (3)"
  obtain ⟨hread, hrefuse, -⟩ := parseOrbits_reads_listing "0; 5:3"
  have hisProper := hproper.2 fun _ => hnotes
  refine ⟨hisProper, (hisProper.ok _).1 (by decide +kernel), hrefuse fun orbits horbits => ?_⟩
  have hrefused : (parseOrbits "0; 5:3").toOption = none := by decide +kernel
  rw [(hread orbits).2 horbits] at hrefused
  cases hrefused

/-- The vertex 2 stands behind the note. The text is read nevertheless, and the vertex is
lost. -/
theorem not_isReadProperly_vertex_behind_note :
    parseOrbits "0 1 (2) 2; 3" = .ok [[0, 1], [3]] ∧ ¬IsReadProperly "0 1 (2) 2; 3" := by
  have hread : parseOrbits "0 1 (2) 2; 3" = .ok [[0, 1], [3]] := by decide +kernel
  refine ⟨hread, fun h => ?_⟩
  have hlisting := (h.ok _).1 hread
  have hgroup : "0 1 (2) 2".toList ∈ pieces (· == ';') "0 1 (2) 2; 3".toList := by
    decide +kernel
  have hnote : NoteText "(2) 2".toList := (listingText_noteText_iff.1 hlisting).2 _ hgroup
  exact absurd (hnote.getLast? '2' (by decide)) (by decide)

end PlanOrbits.Transcript
