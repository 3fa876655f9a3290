import PlanOrbits.Proofs.Transcript.Cycles
import PlanOrbits.Proofs.Transcript.Orbits
import PlanOrbits.Transcript.Reader

/-!
# What the reader keeps of the lines

The reader goes through three parts of a transcript, and for each part there is a statement
about one line and one about all lines of the part:

* the lines of an open generator make up a writing of the tokens that were read of it
  (`OpenGenerator`), so that the generator is right when it is closed;
* the line with the group order closes the last generator (`feed_order`);
* the lines of the listing are kept as they are (`feedAll_orbits`), and what is kept writes
  the tokens of the listing (`spells_listingText`).
-/

namespace PlanOrbits.Transcript

open Text (Spells SpellsAll isBlank wordLimit)

/-! ### Feeding many lines -/

/-- The stage after some lines. -/
def Stage.feedAll (lines : List (List Char)) (s : Stage) : Except TranscriptError Stage :=
  lines.foldlM (fun s line => s.feed line) s

variable {s s' : Stage} {line : List Char} {lines css : List (List Char)}

theorem feedAll_cons (h : s.feed line = .ok s') :
    s.feedAll (line :: lines) = s'.feedAll lines := by
  rw [Stage.feedAll, List.foldlM_cons, h]
  rfl

theorem feedAll_append (h : s.feedAll lines = .ok s') :
    s.feedAll (lines ++ css) = s'.feedAll css := by
  rw [Stage.feedAll, List.foldlM_append]
  exact congrArg (· >>= Stage.feedAll css) h

/-- A reader that is fed several lines is in the stage that the lines lead to, or keeps the first
error. -/
theorem stage_foldl_feed (r : Reader) :
    (lines.foldl Reader.feed r).stage = r.stage.bind (·.feedAll lines) := by
  induction lines generalizing r with
  | nil =>
      cases h : r.stage with
      | error e => exact h
      | ok s => exact h
  | cons line lines ih =>
      rw [List.foldl_cons, ih, Reader.feed]
      cases r.stage with
      | error e => rfl
      | ok s =>
          rw [Except.bind, Except.bind, Stage.feedAll, List.foldlM_cons]
          rfl

/-- A reader that has come to the orbits gives what it has kept, with the orbits that the kept lines
list. -/
theorem ofLines_of_feedAll {complete : List (List (List Nat))} {order : UInt64}
    {orbits : List (List Nat)}
    (h : Stage.feedAll lines (.generators [] none) = .ok (.orbits complete order css))
    (horbits : parseOrbits (String.ofList (listingText css.reverse)) = .ok orbits) :
    ofLines lines = .ok { generators := complete.reverse, groupOrder := order, orbits } := by
  have hstage : (lines.foldl Reader.feed Reader.start).stage = .ok (.orbits complete order css) :=
    (stage_foldl_feed Reader.start).trans h
  rw [ofLines, Reader.finish, hstage]
  simp only [bind, Except.bind, horbits]
  rfl

/-! ### Generators -/

variable {complete : List (List (List Nat))} {pending : Option (List (List Char))}
  {ts us : List CycleToken}

/-- The stage holds the generators, the last of which may still be open. -/
def Stage.Holds (generators : List (List (List Nat))) (s : Stage) : Prop :=
  ∃ complete pending, s = .generators complete pending ∧
    closePending complete pending = .ok generators.reverse

theorem holds_start : Stage.Holds [] (.generators [] none) := ⟨[], none, rfl, rfl⟩

/-- The lines of an open generator write the tokens that were read of it. -/
structure OpenGenerator (ts : List CycleToken) (lines : List (List Char)) : Prop where
  ne_nil : lines ≠ []
  spells : Spells CycleToken.text ts (generatorText lines.reverse)

namespace OpenGenerator

theorem opening (h : Spells CycleToken.text ts line) : OpenGenerator ts [line] := by
  refine ⟨by simp, ?_⟩
  rw [List.reverse_singleton, generatorText, List.flatMap_nil, List.append_nil]
  exact h

/-- The text of a generator with one more line: a blank is put in front of the line unless it starts
with a parenthesis. -/
theorem generatorText_concat (hne : lines ≠ []) : generatorText (lines ++ [line]) =
    generatorText lines ++ (if line.head? == some '(' then line else ' ' :: line) := by
  obtain ⟨first, rest, rfl⟩ := List.exists_cons_of_ne_nil hne
  rw [List.cons_append, generatorText, generatorText, List.flatMap_append, List.append_assoc]
  simp only [List.flatMap_cons, List.flatMap_nil, List.append_nil]

/-- A continued generator is again one that writes its tokens. No number goes on in the next line,
since a blank or a parenthesis stands between the lines. -/
theorem continued (h : OpenGenerator ts lines) (hline : Spells CycleToken.text us line) :
    OpenGenerator (ts ++ us) (line :: lines) := by
  refine ⟨by simp, ?_⟩
  rw [List.reverse_cons, generatorText_concat (by simpa using h.ne_nil)]
  split
  · rename_i hopen
    rw [beq_iff_eq, List.head?_eq_some_iff] at hopen
    obtain ⟨rest, rfl⟩ := hopen
    exact h.spells.append hline (Text.not_meets_cons (by decide))
  · exact h.spells.append (.blank (by decide) hline) (Text.not_meets_cons (by decide))

/-- When the generator is closed, its cycles are read from the text of its lines. -/
theorem closePending {cycles : List (List Nat)}
    (h : OpenGenerator (CycleToken.ofCycles cycles) lines)
    (hbounded : ∀ cycle ∈ cycles, ∀ v ∈ cycle, v < wordLimit) :
    closePending complete (some lines) = .ok (cycles :: complete) := by
  rw [Transcript.closePending, parseCycles_of_spells h.spells hbounded]
  rfl

end OpenGenerator

/-- Cycle notation does not name a group order, as the marker has letters. -/
theorem contains_groupOrderMarker_of_spells (h : Spells CycleToken.text ts line) :
    Text.contains groupOrderMarker line = false := by
  have hg : 'g' ∉ line := h.not_mem (by decide) fun t _ =>
    t.not_mem_text (by decide) (by decide) (by decide)
  exact Text.contains_eq_false_of_not_mem (by decide) hg

/-- A line that starts with a parenthesis closes one generator and opens the next. -/
theorem feed_opening {generators : List (List (List Nat))} (hs : s.Holds generators)
    (hline : Spells CycleToken.text ts ('(' :: line)) :
    s.feed ('(' :: line) =
      .ok (.generators generators.reverse (some [Text.trim ('(' :: line)])) := by
  obtain ⟨complete, pending, rfl, hclose⟩ := hs
  rw [Stage.feed, if_neg (by rw [contains_groupOrderMarker_of_spells hline]; decide),
    if_pos (by simp), hclose]
  rfl

/-- A line that starts with a blank continues the open generator. -/
theorem feed_blank {c : Char} (hc : isBlank c = true)
    (hline : Spells CycleToken.text ts (c :: line)) :
    Stage.feed (c :: line) (.generators complete pending) =
      .ok (.generators complete (pending.map (Text.trim (c :: line) :: ·))) := by
  have hopen : c ≠ '(' := Text.ne_of_isBlank hc (by decide)
  rw [Stage.feed, if_neg (by rw [contains_groupOrderMarker_of_spells hline]; decide),
    if_neg (by simpa using hopen), if_pos (by simpa using hc)]
  rfl

theorem feed_nil :
    Stage.feed [] (.generators complete pending) = .ok (.generators complete pending) := by
  rw [Stage.feed, if_neg (by decide), if_neg (by decide), if_neg (by decide)]
  rfl

/-- Indented lines behind the first line of a generator, by induction on the lines: each continues
the generator with the tokens that it writes. -/
theorem feedAll_indented (hcss : SpellsAll CycleToken.text us css)
    (hcontinues : ∀ line ∈ css, ∀ c ∈ line.head?, isBlank c = true)
    (hopen : OpenGenerator ts lines) :
    ∃ lines', Stage.feedAll css (.generators complete (some lines)) =
      .ok (.generators complete (some lines')) ∧ OpenGenerator (ts ++ us) lines' := by
  induction hcss generalizing ts lines with
  | nil => exact ⟨lines, rfl, by rwa [List.append_nil]⟩
  | @cons us vs line css hline _ ih =>
      obtain ⟨hhead, hrest⟩ := List.forall_mem_cons.1 hcontinues
      rw [← List.append_assoc]
      cases line with
      | nil =>
          -- an empty line is passed over, and it writes no tokens
          rw [hline.eq_nil_of_nil CycleToken.isSolid_text, List.append_nil, feedAll_cons feed_nil]
          exact ih hrest hopen
      | cons c line =>
          rw [feedAll_cons (feed_blank (hhead c rfl) hline)]
          exact ih hrest (hopen.continued (hline.trim CycleToken.isSolid_text))

/-! ### The line with the group order -/

theorem parseGroupOrder_eq_ok_iff {order : UInt64} :
    parseGroupOrder (String.ofList line) = .ok order ↔
      ∃ rest value, Text.after? groupOrderMarker line = some rest ∧
        magnitude? (Text.trim (rest.takeWhile (· != ';'))) = some value ∧ value.toWord = order := by
  rw [parseGroupOrder, String.toList_ofList]
  cases Text.after? groupOrderMarker line with
  | none => simp
  | some rest => cases h : magnitude? (Text.trim (rest.takeWhile (· != ';'))) <;> simp [h]

/-- A carriage return at the end of the line with the group order does not matter, since the numeral
is trimmed. -/
theorem parseGroupOrder_dropReturn {order : UInt64}
    (h : parseGroupOrder (String.ofList line) = .ok order) :
    parseGroupOrder (String.ofList (Text.dropReturn line)) = .ok order := by
  rcases Text.dropReturn_cases line with heq | heq
  · rwa [heq]
  · rw [parseGroupOrder_eq_ok_iff] at h ⊢
    obtain ⟨rest, value, hafter, hvalue, hword⟩ := h
    rw [heq, Text.after?_append_singleton (by decide) (by decide), Option.map_eq_some_iff] at hafter
    obtain ⟨rest, hafter, rfl⟩ := hafter
    rw [Text.trim_takeWhile_append (by decide)] at hvalue
    exact ⟨rest, value, hafter, hvalue, hword⟩

theorem contains_of_parseGroupOrder {order : UInt64}
    (h : parseGroupOrder (String.ofList line) = .ok order) :
    Text.contains groupOrderMarker line = true := by
  obtain ⟨rest, -, hafter, -⟩ := parseGroupOrder_eq_ok_iff.1 h
  rw [Text.contains, hafter]
  rfl

/-- The line with the group order closes the last generator and leads to the orbits. -/
theorem feed_order {generators : List (List (List Nat))} {order : UInt64} (hs : s.Holds generators)
    (h : parseGroupOrder (String.ofList line) = .ok order) :
    s.feed line = .ok (.orbits generators.reverse order []) := by
  obtain ⟨complete, pending, rfl, hclose⟩ := hs
  rw [Stage.feed, if_pos (contains_of_parseGroupOrder h), hclose, h]
  rfl

/-! ### The listing of the orbits -/

/-- Lines behind the group order are kept, trimmed and the last one first, unless they are about
processor time. -/
theorem feedAll_orbits {order : UInt64} {kept : List (List Char)}
    (htime : ∀ line ∈ lines, Text.contains timeMarker line = false) :
    Stage.feedAll lines (.orbits complete order kept) =
      .ok (.orbits complete order ((lines.map Text.trim).reverse ++ kept)) := by
  induction lines generalizing kept with
  | nil => rfl
  | cons line lines ih =>
      obtain ⟨hline, htime⟩ := List.forall_mem_cons.1 htime
      have hfeed : Stage.feed line (.orbits complete order kept) =
          .ok (.orbits complete order (Text.trim line :: kept)) := by
        rw [Stage.feed, if_neg (by rw [hline]; decide)]
        rfl
      rw [feedAll_cons hfeed, ih htime, List.map_cons, List.reverse_cons, List.append_assoc]
      rfl

/-- The listing that is put together from its lines writes what the lines write, since blanks are
put between them. -/
theorem spells_listingText {tokens : List OrbitToken}
    (h : SpellsAll OrbitToken.text tokens css) :
    Spells OrbitToken.text tokens (listingText (css.map Text.trim)) := by
  induction h with
  | nil => exact .done
  | @cons ts us cs css hcs _ ih =>
      rw [List.map_cons, listingText, List.flatMap_cons, List.append_assoc]
      exact (hcs.trim OrbitToken.isSolid_text).append (.blank (by decide) ih)
        (Text.not_meets_cons (by decide))

end PlanOrbits.Transcript
