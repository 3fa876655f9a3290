import PlanOrbits.Proofs.Checked
import PlanOrbits.Proofs.Text.Spelling
import PlanOrbits.Proofs.Transcript.OrbitNotation

/-!
# Written orbits

An orbit is written as vertices and ranges, perhaps with a note of its size, and is ended by
a semicolon. There are many notations for one orbit; `parseOrbits` reads every writing of
every one of them as the orbit (`parseOrbits_of_spells`). Two characters lead the reader and
are in no entry: the semicolon, which ends an orbit, and the parenthesis, behind which it
does not look.
-/

namespace PlanOrbits.Transcript

open Text (Spells IsSolid Meets isBlank isDigit decimal wordLimit)

variable {source : String} {cs : List Char}

/-! ### Entries -/

/-- An entry of an orbit: one vertex, or the vertices from a first to a last one. -/
inductive OrbitEntry where
  | vertex (v : Nat) (hv : v < wordLimit)
  | range (low high : Nat) (hle : low ≤ high) (hhigh : high < wordLimit)

namespace OrbitEntry

/-- The vertices that an entry stands for. -/
def vertices : OrbitEntry → List Nat
  | vertex v _ => [v]
  | range low high _ _ => List.range' low (high - low + 1)

/-- How an entry is written. -/
def text : OrbitEntry → List Char
  | vertex v _ => decimal v
  | range low high _ _ => decimal low ++ ':' :: decimal high

/-- Besides digits an entry has colons only, so neither a blank, a semicolon nor a parenthesis. -/
theorem not_mem_text (e : OrbitEntry) {c : Char} (hdigit : isDigit c = false) (hcolon : c ≠ ':') :
    c ∉ e.text := by
  have hdecimal : ∀ v, c ∉ decimal v := by
    intro v hc
    rw [Text.isDigit_of_mem_decimal hc] at hdigit
    cases hdigit
  cases e with
  | vertex v hv => exact hdecimal v
  | range low high hle hhigh =>
      intro hc
      rcases List.mem_append.1 hc with hc | hc
      · exact hdecimal low hc
      · rcases List.mem_cons.1 hc with hc | hc
        · exact hcolon hc
        · exact hdecimal high hc

theorem isSolid_text (e : OrbitEntry) : IsSolid e.text := by
  constructor
  · cases e with
    | vertex v hv => exact Text.decimal_ne_nil
    | range low high hle hhigh => exact List.append_ne_nil_of_left_ne_nil Text.decimal_ne_nil _
  · intro c hc
    rw [Bool.eq_false_iff]
    intro hblank
    exact e.not_mem_text (Text.isDigit_of_isBlank hblank) (Text.ne_of_isBlank hblank (by decide)) hc

/-- Two entries meet, since each begins and ends with a number; so a blank stands between them. -/
theorem meets_text (e e' : OrbitEntry) : Meets e.text e'.text := by
  have hright : ∀ v, Meets (decimal v) e'.text := by
    intro v
    cases e' with
    | vertex w hw => exact Text.meets_decimal v w
    | range low high hle hhigh => exact (Text.meets_decimal v low).append_right _
  cases e with
  | vertex v hv => exact hright v
  | range low high hle hhigh => exact ((hright high).append_left [':']).append_left (decimal low)

end OrbitEntry

/-- The text of an entry is one that the reader of entries accepts, as the vertices of the entry. -/
theorem OrbitEntry.entryText (e : OrbitEntry) : EntryText e.text e.vertices := by
  have hvertex : ∀ {v}, v < wordLimit → VertexText (decimal v) v := fun hv =>
    wordOf?_eq_some_iff.1 (Text.wordOf?_decimal hv)
  cases e with
  | vertex v hv => exact .vertex (hvertex hv)
  | range low high hle hhigh =>
      exact .range (hvertex (Nat.lt_of_le_of_lt hle hhigh)) (hvertex hhigh) hle

/-! ### Notations -/

/-- A token of a listing of orbits. -/
inductive OrbitToken where
  | entry (e : OrbitEntry)
  | opening
  | size (n : Nat)
  | closing
  | ending

namespace OrbitToken

/-- How a token is written. -/
def text : OrbitToken → List Char
  | entry e => e.text
  | opening => ['(']
  | size n => decimal n
  | closing => [')']
  | ending => [';']

theorem isSolid_text (t : OrbitToken) : IsSolid t.text := by
  cases t with
  | entry e => exact e.isSolid_text
  | size n => exact Text.isSolid_decimal n
  | opening => exact Text.isSolid_singleton (by decide)
  | closing => exact Text.isSolid_singleton (by decide)
  | ending => exact Text.isSolid_singleton (by decide)

/-- The characters of a token are digits and colons, or the token is a character of its own. -/
theorem mem_text {t : OrbitToken} {c : Char} (h : c ∈ t.text) (hdigit : isDigit c = false)
    (hcolon : c ≠ ':') : t = opening ∧ c = '(' ∨ t = closing ∧ c = ')' ∨ t = ending ∧ c = ';' := by
  cases t with
  | entry e => exact absurd h (e.not_mem_text hdigit hcolon)
  | size n =>
      rw [Text.isDigit_of_mem_decimal h] at hdigit
      cases hdigit
  | opening => exact .inl ⟨rfl, List.mem_singleton.1 h⟩
  | closing => exact .inr (.inl ⟨rfl, List.mem_singleton.1 h⟩)
  | ending => exact .inr (.inr ⟨rfl, List.mem_singleton.1 h⟩)

end OrbitToken

/-- How an orbit is written down: its entries, and its size if this is noted. -/
structure OrbitNotation where
  entries : List OrbitEntry
  size? : Option Nat

namespace OrbitNotation

/-- The orbit that is written. -/
def vertices (o : OrbitNotation) : List Nat := o.entries.flatMap OrbitEntry.vertices

/-- The tokens of the note. -/
def note (o : OrbitNotation) : List OrbitToken :=
  match o.size? with
  | none => []
  | some n => [.opening, .size n, .closing]

/-- The tokens of an orbit, without the end. -/
def tokens (o : OrbitNotation) : List OrbitToken := o.entries.map .entry ++ o.note

/-- The tokens of a listing. -/
def listing (os : List OrbitNotation) : List OrbitToken := os.flatMap (·.tokens ++ [.ending])

theorem ending_not_mem_tokens (o : OrbitNotation) : .ending ∉ o.tokens := by
  obtain ⟨entries, size?⟩ := o
  cases size? <;> simp [tokens, note]

theorem listing_cons (o : OrbitNotation) (os : List OrbitNotation) :
    listing (o :: os) = o.tokens ++ .ending :: listing os := by
  rw [listing, List.flatMap_cons, List.append_assoc]
  rfl

end OrbitNotation

/-! ### Reading one orbit -/

open OrbitToken (text)

theorem opening_not_mem_of_spells {entries : List OrbitEntry}
    (h : Spells text (entries.map .entry) cs) : '(' ∉ cs := by
  refine h.not_mem (by decide) fun t ht => ?_
  obtain ⟨e, -, rfl⟩ := List.mem_map.1 ht
  exact e.not_mem_text (by decide) (by decide)

/-- The reader cuts a group at its first parenthesis, and what stands in front writes the entries.
-/
theorem spells_beforeNote {o : OrbitNotation} (h : Spells text o.tokens cs) :
    Spells text (o.entries.map .entry) (beforeNote cs) := by
  obtain ⟨entries, size?⟩ := o
  cases size? with
  | none =>
      have hcs : Spells text (entries.map .entry) cs := by
        rwa [OrbitNotation.tokens, OrbitNotation.note, List.append_nil] at h
      rwa [beforeNote, Text.takeWhile_of_not_mem (opening_not_mem_of_spells hcs)]
  | some n =>
      obtain ⟨xs, ys, rfl, hxs, -⟩ := Spells.split h
      rwa [beforeNote, text, List.singleton_append,
        Text.takeWhile_append_cons (opening_not_mem_of_spells hxs)]

/-- A group is read as the vertices of its entries, whatever its note. -/
theorem parseOrbit_of_spells {o : OrbitNotation} (h : Spells text o.tokens cs) :
    parseOrbit source cs = .ok o.vertices := by
  have hwords : Text.words (beforeNote cs) = o.entries.map OrbitEntry.text := by
    rw [(spells_beforeNote h).words OrbitToken.isSolid_text, List.map_map]
    · rfl
    · intro t ht u hu
      obtain ⟨e, -, rfl⟩ := List.mem_map.1 ht
      obtain ⟨e', -, rfl⟩ := List.mem_map.1 hu
      exact e.meets_text e'
  rw [parseOrbit, map_eq_ok_iff]
  refine ⟨o.entries.map OrbitEntry.vertices, ?_, rfl⟩
  rw [mapM_eq_ok_iff, hwords, List.forall₂_map_left_iff, List.forall₂_map_right_iff]
  exact List.forall₂_same.2 fun e _ => parseEntry_eq_ok_iff.2 e.entryText

/-! ### Reading all orbits -/

theorem ending_not_mem_of_spells {o : OrbitNotation} (h : Spells text o.tokens cs) : ';' ∉ cs := by
  refine h.not_mem (by decide) fun t ht hc => ?_
  rcases OrbitToken.mem_text hc (by decide) (by decide) with ⟨-, h⟩ | ⟨-, h⟩ | ⟨rfl, -⟩
  · exact absurd h (by decide)
  · exact absurd h (by decide)
  · exact o.ending_not_mem_tokens ht

/-- The pieces between semicolons are the groups one by one, and the piece behind the last semicolon
has no vertices. The induction is on the groups; `Spells.split` cuts the text at the first
semicolon. -/
theorem forall₂_pieces_of_spells {os : List OrbitNotation}
    (h : Spells text (OrbitNotation.listing os) cs) :
    List.Forall₂ (fun piece orbit => parseOrbit source piece = .ok orbit)
      (Text.pieces (· == ';') cs) (os.map OrbitNotation.vertices ++ [[]]) := by
  induction os generalizing cs with
  | nil =>
      have hnone : Spells text (OrbitNotation.tokens ⟨[], none⟩) cs := h
      rw [Text.pieces_of_not_mem (ending_not_mem_of_spells hnone)]
      exact .cons (parseOrbit_of_spells hnone) .nil
  | cons o os ih =>
      rw [OrbitNotation.listing_cons] at h
      obtain ⟨xs, ys, rfl, hxs, hys⟩ := Spells.split h
      rw [text, List.singleton_append, Text.pieces_append_cons (by rfl),
        Text.pieces_of_not_mem (ending_not_mem_of_spells hxs)]
      exact .cons (parseOrbit_of_spells hxs) (ih hys)

/-- Every writing of orbits is read as these orbits; the empty piece at the end is dropped. -/
theorem parseOrbits_of_spells {os : List OrbitNotation}
    (h : Spells text (OrbitNotation.listing os) cs) (hne : ∀ o ∈ os, o.vertices ≠ []) :
    parseOrbits (String.ofList cs) = .ok (os.map OrbitNotation.vertices) := by
  rw [parseOrbits, String.toList_ofList, map_eq_ok_iff]
  refine ⟨_, mapM_eq_ok_iff.2 (forall₂_pieces_of_spells h), ?_⟩
  rw [List.filter_append, List.filter_eq_self.2 (by simpa using hne)]
  exact List.append_nil _

end PlanOrbits.Transcript
