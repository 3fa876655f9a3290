import PlanOrbits.Proofs.Graph.Cells
import PlanOrbits.Proofs.Text.Decimal
import PlanOrbits.Proofs.Text.Pieces
import PlanOrbits.Graph.Codec

/-!
# What the commands say of a graph

The commands can be read back. Their lines are found again, since no line has an end of
line in it (`lines_commands_append`); a listing is cut into its numbers at the blanks, and
the line of the cells into the cells at the bars. So the text fixes the number of vertices,
the neighbours of every vertex, and the cells, and it fixes nothing else: two graphs have one
text exactly if they are equal but for the names of colours (`commands_eq_iff`).
-/

namespace PlanOrbits.ColoredGraph

open Text (decimal isBlank isDigit words)

variable {g h : ColoredGraph} {vs : List Nat} {line cs : List Char} {c : Char}

/-! ### Listings -/

theorem listing_cons (v : Nat) (vs : List Nat) :
    listing (v :: vs) = decimal v ++ ' ' :: listing vs := by
  rw [listing, List.flatMap_cons, List.append_assoc, List.singleton_append, ← listing]

/-- The numbers of a listing are its words, so that the listing tells the numbers. -/
theorem words_listing (vs : List Nat) : words (listing vs) = vs.map decimal := by
  induction vs with
  | nil => rfl
  | cons v vs ih =>
      have hdigits : ∀ c ∈ decimal v, isBlank c = false := fun c hc =>
        Text.isBlank_of_isDigit (Text.isDigit_of_mem_decimal hc)
      rw [listing_cons, Text.words_append Text.decimal_ne_nil hdigits (by simp; decide),
        Text.words_cons_of_isBlank (by decide), ih, List.map_cons]

theorem listing_injective : Function.Injective listing := by
  intro vs ws heq
  have hwords : vs.map decimal = ws.map decimal := by
    rw [← words_listing, heq, words_listing]
  exact List.map_injective_iff.2 Text.decimal_injective hwords

theorem mem_listing (hc : c ∈ listing vs) : isDigit c = true ∨ c = ' ' := by
  rw [listing, List.mem_flatMap] at hc
  obtain ⟨v, -, hc⟩ := hc
  rcases List.mem_append.1 hc with hc | hc
  · exact .inl (Text.isDigit_of_mem_decimal hc)
  · exact .inr (List.mem_singleton.1 hc)

theorem not_mem_listing (hdigit : isDigit c = false) (hblank : c ≠ ' ') : c ∉ listing vs := by
  intro hc
  rcases mem_listing hc with hc | hc
  · rw [hdigit] at hc
    cases hc
  · exact hblank hc

theorem neighbourLine_injective : Function.Injective neighbourLine := by
  intro vs ws heq
  exact listing_injective (List.append_cancel_right heq)

/-! ### The line of the cells -/

theorem listing_cell {vs : List Nat} (hvs : vs ∈ g.cells) :
    listing vs ≠ [] ∧ '|' ∉ listing vs := by
  refine ⟨fun hnil => ?_, not_mem_listing (by decide) (by decide)⟩
  exact isColorPartition_cells.ne_nil vs hvs (listing_injective hnil)

/-- The cells are found again in their line, between the bars: no listing has a bar in it, and none
is empty. -/
theorem cells_eq_of_cellLine (heq : g.cellLine = h.cellLine) : g.cells = h.cells := by
  have hjoined : List.intercalate ['|'] (g.cells.map listing) =
      List.intercalate ['|'] (h.cells.map listing) := by
    simpa [cellLine] using heq
  have hlistings : g.cells.map listing = h.cells.map listing := by
    rw [← Text.filter_splitOn_intercalate (List.forall_mem_map.2 fun vs => listing_cell), hjoined,
      Text.filter_splitOn_intercalate (List.forall_mem_map.2 fun vs => listing_cell)]
  exact List.map_injective_iff.2 listing_injective hlistings

/-! ### The characters of the lines -/

/-- The characters of the commands besides digits. -/
def commandChars : List Char := [' ', ';', '|', 'n', '=', 'g', 'f', '[', ']', 'x', 'o', 'q']

/-- The lines of the commands: a head, one line for each vertex, the line of the cells, and three
single letters. -/
theorem mem_commandLines : line ∈ g.commandLines ↔ line = g.headLine ∨
    (∃ vs ∈ g.neighbourTable, neighbourLine vs = line) ∨ line = g.cellLine ∨
      line = ['x'] ∨ line = ['o'] ∨ line = ['q'] := by
  simp [commandLines]

theorem not_mem_headLine (hdigit : isDigit c = false) (hother : c ∉ commandChars) :
    c ∉ g.headLine := by
  have hdecimal : c ∉ decimal g.vertexCount := by
    intro hc
    rw [Text.isDigit_of_mem_decimal hc] at hdigit
    cases hdigit
  simp only [commandChars, List.mem_cons, List.not_mem_nil, or_false, not_or] at hother
  simp only [headLine, List.mem_cons, List.mem_append, List.not_mem_nil, or_false, not_or]
  tauto

theorem not_mem_cellLine (hdigit : isDigit c = false) (hother : c ∉ commandChars) :
    c ∉ g.cellLine := by
  simp only [commandChars, List.mem_cons, List.not_mem_nil, or_false, not_or] at hother
  have hcells : c ∉ List.intercalate ['|'] (g.cells.map listing) := by
    intro hc
    rcases Text.mem_intercalate hc with hc | ⟨xs, hxs, hc⟩
    · exact hother.2.2.1 (List.mem_singleton.1 hc)
    · obtain ⟨vs, -, rfl⟩ := List.mem_map.1 hxs
      exact not_mem_listing hdigit hother.1 hc
  simp only [cellLine, List.mem_cons, List.mem_append, List.not_mem_nil, or_false, not_or]
  tauto

/-- No line of the commands has a character other than digits and those of `commandChars`. In
particular no line has an end of line in it. -/
theorem not_mem_of_mem_commandLines (hline : line ∈ g.commandLines)
    (hdigit : isDigit c = false) (hother : c ∉ commandChars) : c ∉ line := by
  rcases mem_commandLines.1 hline with rfl | ⟨vs, -, rfl⟩ | rfl | rfl | rfl | rfl
  · exact not_mem_headLine hdigit hother
  · rw [neighbourLine, List.mem_append, not_or]
    refine ⟨not_mem_listing hdigit fun hc => ?_, fun hc => ?_⟩
    · exact hother (hc ▸ by decide)
    · exact hother (List.mem_singleton.1 hc ▸ by decide)
  · exact not_mem_cellLine hdigit hother
  all_goals
    intro hc
    exact hother (List.mem_singleton.1 hc ▸ by decide)

/-- Every line starts with a character that is no blank, so that a reader of generators takes none
of them for a continuation. -/
theorem isBlank_head?_of_mem_commandLines (hline : line ∈ g.commandLines) :
    line.head?.any isBlank = false := by
  rcases mem_commandLines.1 hline with rfl | ⟨vs, -, rfl⟩ | rfl | rfl | rfl | rfl
  · rfl
  · cases vs with
    | nil => rfl
    | cons v vs =>
        obtain ⟨c, cs, hcs, hc⟩ := Text.exists_decimal_eq_cons v
        rw [neighbourLine, listing_cons, hcs]
        exact Text.isBlank_of_isDigit hc
  all_goals rfl

/-! ### Reading the commands back -/

/-- The lines of the commands are found again, with the lines of a text behind the commands. -/
theorem lines_commands_append (g : ColoredGraph) (cs : List Char) :
    Text.lines (g.commands.toList ++ cs) = g.commandLines ++ Text.lines cs := by
  rw [commands, String.toList_ofList]
  refine Text.lines_flatMap_append (fun line hline => ⟨?_, ?_⟩) cs
  · exact not_mem_of_mem_commandLines hline (by decide) (by decide)
  · exact not_mem_of_mem_commandLines hline (by decide) (by decide)

theorem commandLines_eq_of_commands (heq : g.commands = h.commands) :
    g.commandLines = h.commandLines := by
  have hlines : Text.lines (g.commands.toList ++ []) = Text.lines (h.commands.toList ++ []) := by
    rw [heq]
  rwa [lines_commands_append, lines_commands_append, List.append_cancel_right_eq] at hlines

/-- The number of vertices, the table of neighbours and the cells are read back from the lines, each
from its own. -/
theorem parts_eq_of_commandLines (heq : g.commandLines = h.commandLines) :
    g.vertexCount = h.vertexCount ∧ g.neighbourTable = h.neighbourTable ∧ g.cells = h.cells := by
  rw [commandLines, commandLines, List.cons_append, List.cons_append, List.cons.injEq] at heq
  obtain ⟨hhead, hrest⟩ := heq
  obtain ⟨htable, hlast⟩ := List.append_inj' hrest rfl
  refine ⟨?_, ?_, ?_⟩
  · have hdecimal : decimal g.vertexCount = decimal h.vertexCount := by
      simpa [headLine] using hhead
    exact Text.decimal_injective hdecimal
  · exact Array.toList_inj.1 (List.map_injective_iff.2 neighbourLine_injective htable)
  · exact cells_eq_of_cellLine (List.cons.inj hlast).1

/-- Graphs with the same table of neighbours join the same vertices. The table lists, for each
vertex, the neighbours that `mem_neighbourList` describes. -/
theorem hasEdge_eq_of_neighbourTable (hcount : g.vertexCount = h.vertexCount)
    (htable : g.neighbourTable = h.neighbourTable) (a b : Nat) :
    g.hasEdge a b = h.hasEdge a b := by
  by_cases ha : a < g.vertexCount
  · have hlists : g.neighbourList a = h.neighbourList a := by
      rw [← Option.some.injEq, ← getElem?_neighbourTable g a ha, htable,
        getElem?_neighbourTable h a (hcount ▸ ha)]
    rw [Bool.eq_iff_iff, ← mem_neighbourList, ← mem_neighbourList, hlists]
  · -- what is no vertex is joined to nothing
    have hnone : ∀ g' : ColoredGraph, g'.vertexCount = g.vertexCount → g'.hasEdge a b = false := by
      intro g' hcount'
      rw [Bool.eq_false_iff]
      intro hab
      exact ha (hcount' ▸ (lt_of_hasEdge hab).1)
    rw [hnone g rfl, hnone h hcount.symm]

/-- The text of the commands depends on these three parts only. -/
theorem commands_eq_of_parts (hcount : g.vertexCount = h.vertexCount)
    (hedges : ∀ a b, g.hasEdge a b = h.hasEdge a b) (hcells : g.cells = h.cells) :
    g.commands = h.commands := by
  have htable : g.neighbourTable = h.neighbourTable := by
    rw [neighbourTable, neighbourTable, hcount, edges_eq_of_hasEdge hedges]
  rw [commands, commands, commandLines, commandLines, headLine, headLine, cellLine, cellLine,
    hcount, htable, hcells]

/-- Two graphs have one text exactly if they have as many vertices, join the same vertices
and have the same cells, which are the classes of vertices of one colour in the order of the
colours. Graphs with one text have the same automorphisms. -/
theorem commands_eq_iff (g h : ColoredGraph) : g.IsColorPartition g.cells ∧
    (g.commands = h.commands ↔ g.vertexCount = h.vertexCount ∧
      (∀ a b, g.hasEdge a b = h.hasEdge a b) ∧ g.cells = h.cells) ∧
    (g.commands = h.commands → ∀ images, g.isAutomorphism images = h.isAutomorphism images) := by
  have hparts : g.commands = h.commands → g.vertexCount = h.vertexCount ∧
      (∀ a b, g.hasEdge a b = h.hasEdge a b) ∧ g.cells = h.cells := by
    intro heq
    obtain ⟨hcount, htable, hcells⟩ := parts_eq_of_commandLines (commandLines_eq_of_commands heq)
    exact ⟨hcount, hasEdge_eq_of_neighbourTable hcount htable, hcells⟩
  refine ⟨isColorPartition_cells, ⟨hparts, ?_⟩, fun heq => ?_⟩
  · rintro ⟨hcount, hedges, hcells⟩
    exact commands_eq_of_parts hcount hedges hcells
  · obtain ⟨hcount, hedges, hcells⟩ := hparts heq
    exact isAutomorphism_eq hcount hedges hcells

/-- Three vertices, the first two of which are joined; the outer ones have the first of two
colours, the middle one has the second. -/
def joinedPair (outer middle : Color) : ColoredGraph :=
  (ofColors #[outer, middle, outer]).insertEdge 0 1 (by decide) (by decide : 0 < 3)
    (by decide : 1 < 3)

/-- Two graphs of two joined vertices whose colours have other names in the same order: the text is
the same. -/
theorem commands_eq_iff_joinedPair :
    (joinedPair 7 2).colors ≠ (joinedPair 1 0).colors ∧
      (joinedPair 7 2).commands = (joinedPair 1 0).commands ∧
      ∀ images, (joinedPair 7 2).isAutomorphism images =
        (joinedPair 1 0).isAutomorphism images := by
  have hcommands : (joinedPair 7 2).commands = (joinedPair 1 0).commands := by decide +kernel
  exact ⟨by decide, hcommands, (commands_eq_iff _ _).2.2 hcommands⟩

example : (joinedPair 1 0).commands = "n=3 g\n1 ;\n0 ;\n;\nf=[1 |0 2 ]\nx\no\nq\n" := by
  decide +kernel

end PlanOrbits.ColoredGraph
