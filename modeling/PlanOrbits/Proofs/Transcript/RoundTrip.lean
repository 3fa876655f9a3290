import Mathlib.Data.List.Forall2
import PlanOrbits.Proofs.Transcript.Reader

/-!
# Written transcripts

A transcript can be written in many ways: generators may be broken into indented lines
between any two tokens, runs of vertices may be shortened to ranges, the sizes of orbits may
be noted, and the listing may be broken anywhere. `parse` reads all of these texts as what
was written (`parse_of_writes`).
-/

namespace PlanOrbits.Transcript

open Text (Spells SpellsAll isBlank wordLimit)

/-! ### What is written -/

/-- A generator on lines of its own. Its first line starts with a parenthesis, and its
further lines are indented. -/
structure WritesGenerator (cycles : List (List Nat)) (cs : List Char) : Prop where
  /-- Points fit a 64-bit word. -/
  bounded : ∀ cycle ∈ cycles, ∀ v ∈ cycle, v < wordLimit
  spells : Spells CycleToken.text (CycleToken.ofCycles cycles) cs
  opens : cs.head? = some '('
  indented : ∀ line ∈ (Text.pieces (· == '\n') cs).tail, line.head?.any isBlank = true

/-- The orbits on the lines behind the group order. Where there are no orbits there need not
be such lines. -/
inductive WritesOrbits : List (List Nat) → List Char → Prop
  | nothing : WritesOrbits [] []
  | lines {os cs} : Spells OrbitToken.text (OrbitNotation.listing os) cs →
      WritesOrbits (os.map OrbitNotation.vertices) ('\n' :: cs)

/-! ### Reading the generators -/

variable {cycles : List (List Nat)} {generators before : List (List (List Nat))}
  {cs tail : List Char} {texts : List (List Char)} {s : Stage}

/-- The lines of one generator: the first opens it, and the others continue it. The text is cut into
its lines here, each of which writes a part of the tokens. -/
theorem feedAll_generator (h : WritesGenerator cycles cs) (hs : s.Holds before) :
    ∃ s', s.feedAll ((Text.pieces (· == '\n') cs).map Text.dropReturn) = .ok s' ∧
      s'.Holds (before ++ [cycles]) := by
  obtain ⟨cs, rfl⟩ := List.head?_eq_some_iff.1 h.opens
  have hother : ∀ c ∈ ['('], (c == '\n') = false := List.forall_mem_singleton.2 (by decide)
  -- the text starts with a parenthesis, so its first line does
  obtain ⟨first, rest, -, hpieces⟩ := Text.exists_pieces_append hother cs
  have hindented := h.indented
  have hlines := (h.spells.pieces_newline CycleToken.isSolid_text).map
    fun hcs => hcs.dropReturn CycleToken.isSolid_text
  rw [← List.singleton_append, hpieces] at hindented hlines ⊢
  rw [List.map_cons, List.singleton_append, Text.dropReturn_cons (by decide)] at hlines ⊢
  obtain ⟨ts, us, hts, hfirst, hrest⟩ := hlines.of_cons
  have hcontinues : ∀ line ∈ rest.map Text.dropReturn, ∀ c ∈ line.head?, isBlank c = true := by
    intro line hline c hc
    obtain ⟨full, hfull, rfl⟩ := List.mem_map.1 hline
    have hblank := hindented full hfull
    rwa [Text.head?_of_dropReturn hc] at hblank
  obtain ⟨lines, hfeed, hopen⟩ := feedAll_indented hrest hcontinues
    (.opening (hfirst.trim CycleToken.isSolid_text))
  rw [← hts] at hopen
  refine ⟨_, (feedAll_cons (feed_opening hs hfirst)).trans hfeed, _, _, rfl, ?_⟩
  rw [hopen.closePending h.bounded, List.reverse_concat]

/-- The lines of all generators, one after the other. By induction on the generators, each closing
the one before it. -/
theorem feedAll_generators (h : List.Forall₂ WritesGenerator generators texts)
    (hs : s.Holds before) :
    ∃ s' : Stage, s'.Holds (before ++ generators) ∧
      s.feedAll (Text.lines (texts.flatMap (· ++ ['\n']) ++ tail)) =
        s'.feedAll (Text.lines tail) := by
  induction h generalizing s before with
  | nil => exact ⟨s, by rwa [List.append_nil], rfl⟩
  | @cons cycles cs generators texts hcs _ ih =>
      obtain ⟨s₁, hfeed, hs₁⟩ := feedAll_generator hcs hs
      obtain ⟨s', hs', hrest⟩ := ih hs₁
      rw [List.append_assoc, List.singleton_append] at hs'
      refine ⟨s', hs', ?_⟩
      rw [List.flatMap_cons, List.append_assoc, List.append_assoc, List.singleton_append,
        Text.lines_append, feedAll_append hfeed, hrest]

/-! ### Reading the rest -/

/-- The lines from the group order on: the first one, which may lose a carriage return, names the
order, and those behind it write the orbits. -/
theorem exists_lines_of_writesOrbits {line rest : List Char} {order : UInt64}
    {orbits : List (List Nat)} (hline : '\n' ∉ line)
    (horder : parseGroupOrder (String.ofList line) = .ok order) (h : WritesOrbits orbits rest) :
    ∃ line' css os, Text.lines (line ++ rest) = line' :: css ∧
      parseGroupOrder (String.ofList line') = .ok order ∧
      SpellsAll OrbitToken.text (OrbitNotation.listing os) css ∧
      os.map OrbitNotation.vertices = orbits := by
  cases h with
  | nothing =>
      refine ⟨line, [], [], ?_, horder, .nil, rfl⟩
      rw [List.append_nil, Text.lines_of_not_mem hline, List.filter_cons_of_pos]
      · rfl
      · have hcontains := contains_of_parseGroupOrder horder
        cases line with
        | nil => cases hcontains
        | cons c line => rfl
  | @lines os cs hcs =>
      refine ⟨Text.dropReturn line, Text.lines cs, os, ?_, parseGroupOrder_dropReturn horder,
        hcs.lines OrbitToken.isSolid_text, rfl⟩
      rw [Text.lines_append, Text.pieces_of_not_mem hline]
      rfl

theorem contains_timeMarker_of_spellsAll {ts : List OrbitToken} {css : List (List Char)}
    (h : SpellsAll OrbitToken.text ts css) :
    ∀ line ∈ css, Text.contains timeMarker line = false := by
  intro line hline
  refine Text.contains_eq_false_of_not_mem (c := 'c') (by decide) ?_
  refine h.not_mem (by decide) (fun t hc => ?_) line hline
  rcases OrbitToken.mem_text hc (by decide) (by decide) with ⟨-, h⟩ | ⟨-, h⟩ | ⟨-, h⟩
  all_goals exact absurd h (by decide)

/-- A written transcript is read as what was written: its generators, its order and its orbits. -/
theorem parse_of_writes {line rest : List Char} {order : UInt64} {orbits : List (List Nat)}
    (hgenerators : List.Forall₂ WritesGenerator generators texts) (hline : '\n' ∉ line)
    (horder : parseGroupOrder (String.ofList line) = .ok order)
    (hne : ∀ orbit ∈ orbits, orbit ≠ []) (horbits : WritesOrbits orbits rest) :
    parse (String.ofList (texts.flatMap (· ++ ['\n']) ++ (line ++ rest))) =
      .ok { generators, groupOrder := order, orbits } := by
  obtain ⟨s, hs, hfeed⟩ := feedAll_generators hgenerators holds_start
  obtain ⟨line', css, os, hlines, horder', hcss, rfl⟩ :=
    exists_lines_of_writesOrbits hline horder horbits
  have hlast : Stage.feedAll (line' :: css) s =
      .ok (.orbits generators.reverse order ((css.map Text.trim).reverse ++ [])) := by
    rw [feedAll_cons (feed_order hs horder'),
      feedAll_orbits (contains_timeMarker_of_spellsAll hcss)]
    rfl
  -- the kept lines, in their order again, write the listing
  have hlisting : parseOrbits (String.ofList (listingText
      ((css.map Text.trim).reverse ++ []).reverse)) = .ok (os.map OrbitNotation.vertices) := by
    rw [List.append_nil, List.reverse_reverse]
    exact parseOrbits_of_spells (spells_listingText hcss) (by simpa using hne)
  rw [parse, String.toList_ofList, ofLines_of_feedAll _ hlisting, List.reverse_reverse]
  rw [hfeed, hlines, hlast]

/-- Both generators go on in a second line, and the orbits are written with and without ranges and
notes. -/
theorem parse_of_writes_nineVertices :
    parse "(0 1)(2 3)\n  (4 5)\n(6 7\n  8)\n3 orbits; grpsize=12; 2 gens\n0 1; 2:5 (4);\n6:8;\n" =
      .ok { generators := [[[0, 1], [2, 3], [4, 5]], [[6, 7, 8]]], groupOrder := 12,
            orbits := [[0, 1], [2, 3, 4, 5], [6, 7, 8]] } := by
  have hfirst : WritesGenerator [[0, 1], [2, 3], [4, 5]] "(0 1)(2 3)\n  (4 5)".toList := by
    refine ⟨by decide, ?_, by decide, by decide⟩
    repeat first | exact .done | refine .blank (by decide) ?_ | refine .token (by decide) ?_
  have hsecond : WritesGenerator [[6, 7, 8]] "(6 7\n  8)".toList := by
    refine ⟨by decide, ?_, by decide, by decide⟩
    repeat first | exact .done | refine .blank (by decide) ?_ | refine .token (by decide) ?_
  let os : List OrbitNotation :=
    [⟨[.vertex 0 (by decide), .vertex 1 (by decide)], none⟩,
      ⟨[.range 2 5 (by decide) (by decide)], some 4⟩,
      ⟨[.range 6 8 (by decide) (by decide)], none⟩]
  have horbits : Spells OrbitToken.text (OrbitNotation.listing os)
      "0 1; 2:5 (4);\n6:8;\n".toList := by
    repeat first | exact .done | refine .blank (by decide) ?_ | refine .token (by decide) ?_
  have hline : '\n' ∉ "3 orbits; grpsize=12; 2 gens".toList := by decide
  have horder : parseGroupOrder (String.ofList "3 orbits; grpsize=12; 2 gens".toList) = .ok 12 := by
    decide
  have hparse := parse_of_writes (.cons hfirst (.cons hsecond .nil)) hline horder (by decide)
    (.lines horbits)
  refine (congrArg parse ?_).trans hparse
  rfl

end PlanOrbits.Transcript
