import PlanOrbits.Proofs.Permutation.Cycles
import PlanOrbits.Proofs.Permutation.Group
import PlanOrbits.Proofs.Transcript.Cycles

/-!
# Printed permutations

A permutation is printed in cycle notation, its points in decimal and apart by blanks, and the
identity as one empty cycle. The printed text spells the tokens of the cycles
(`spells_cyclesText`), so that the reader of cycles finds these cycles in it, which describe
the permutation (`ofCycles_textCycles`). Even where a point is too large for the reader, the
text belongs to one permutation of as many points only, since it can be cut into the cycles again
(`cyclesText_injective`).
-/

namespace PlanOrbits

open Text (Spells decimal isDigit wordLimit)
open Transcript (CycleToken parseCycles)

/-! ### The text of cycles -/

section Tokens

variable {cycles : List (List Nat)} {ts : List CycleToken} {cs : List Char} {c : Char}

/-- The points of a cycle, with blanks between them. -/
def pointsChars (cycle : List Nat) : List Char := [' '].intercalate (cycle.map decimal)

/-- The characters of a cycle. -/
def cycleChars (cycle : List Nat) : List Char := '(' :: (pointsChars cycle ++ [')'])

theorem toList_cyclesText (cycles : List (List Nat)) :
    (cyclesText cycles).toList = cycles.flatMap cycleChars := by
  have hdecimal (v : Nat) : (toString v).toList = decimal v := by
    rw [Nat.toString_eq_repr, Nat.toList_repr, decimal]
  simp only [cyclesText, String.toList_join, List.flatMap_map, String.toList_append,
    String.toList_intercalate, List.map_map, Function.comp_def, hdecimal]
  rfl

theorem pointsChars_cons_cons (v w : Nat) (rest : List Nat) :
    pointsChars (v :: w :: rest) = decimal v ++ ' ' :: pointsChars (w :: rest) := by
  rw [pointsChars, List.map_cons, List.map_cons, List.intercalate_cons_cons, List.append_assoc]
  rfl

/-- The text of cycles can be cut behind the first one. -/
theorem flatMap_cycleChars_cons (cycle : List Nat) (cycles : List (List Nat)) :
    (cycle :: cycles).flatMap cycleChars =
      '(' :: (pointsChars cycle ++ ')' :: cycles.flatMap cycleChars) := by
  rw [List.flatMap_cons, cycleChars, List.cons_append, List.append_assoc]
  rfl

/-! ### Cycles are found again in their text -/

theorem closing_not_mem_pointsChars (cycle : List Nat) : ')' ∉ pointsChars cycle := by
  intro hc
  rcases Text.mem_intercalate hc with hblank | ⟨xs, hxs, hc⟩
  · exact absurd hblank (by decide)
  · obtain ⟨v, -, rfl⟩ := List.mem_map.1 hxs
    exact absurd (Text.isDigit_of_mem_decimal hc) (by decide)

/-- The points are told from their text, as they are numerals without blanks, apart by single
blanks. -/
theorem pointsChars_injective : Function.Injective pointsChars := by
  intro cycle cycle' heq
  have hparts (cycle : List Nat) : ∀ xs ∈ cycle.map decimal, xs ≠ [] ∧ ' ' ∉ xs :=
    List.forall_mem_map.2 fun v _ => ⟨Text.decimal_ne_nil, fun hblank =>
      absurd (Text.isDigit_of_mem_decimal hblank) (by decide)⟩
  have hdecimals : cycle.map decimal = cycle'.map decimal := by
    rw [← Text.filter_splitOn_intercalate (hparts cycle), ← pointsChars, heq, pointsChars,
      Text.filter_splitOn_intercalate (hparts cycle')]
  exact List.map_injective_iff.2 Text.decimal_injective hdecimals

/-- The text of cycles tells the cycles. By induction on the first list: a cycle ends at the first
parenthesis that closes, since its points are written without one. -/
theorem cyclesText_injective : Function.Injective cyclesText := by
  intro cycles cycles' heq
  replace heq : cycles.flatMap cycleChars = cycles'.flatMap cycleChars := by
    rw [← toList_cyclesText, heq, toList_cyclesText]
  induction cycles generalizing cycles' with
  | nil =>
      cases cycles' with
      | nil => rfl
      | cons cycle' cycles' => cases heq
  | cons cycle cycles ih =>
      cases cycles' with
      | nil => cases heq
      | cons cycle' cycles' =>
          rw [flatMap_cycleChars_cons, flatMap_cycleChars_cons, List.cons.injEq] at heq
          -- cutting both texts gives the points of the first cycle and the other cycles
          have hcut := congrArg (Text.cutAt? ')') heq.2
          rw [Text.cutAt?_append_cons (closing_not_mem_pointsChars cycle),
            Text.cutAt?_append_cons (closing_not_mem_pointsChars cycle'), Option.some.injEq,
            Prod.mk.injEq] at hcut
          rw [pointsChars_injective hcut.1, ih hcut.2]

/-! ### Cycles are read from their text -/

/-- The points of a cycle spell their tokens in front of any text that starts with no digit: a blank
stands between two points, and behind the last one the text must not continue the numeral. -/
theorem spells_points (h : Spells CycleToken.text ts (c :: cs)) (hc : isDigit c = false)
    (cycle : List Nat) :
    Spells CycleToken.text (cycle.map .point ++ ts) (pointsChars cycle ++ c :: cs) := by
  induction cycle with
  | nil => exact h
  | cons v rest ih =>
      cases rest with
      | nil =>
          rw [pointsChars, List.map_singleton, List.map_singleton, List.intercalate_singleton]
          exact .token (t := .point v) (Text.not_meets_cons hc) h
      | cons w rest =>
          -- the blank keeps the two numerals apart
          have hblank : Text.isBlank ' ' = true := by decide
          rw [pointsChars_cons_cons, List.append_assoc]
          exact .token (t := .point v) (Text.not_meets_cons (Text.isDigit_of_isBlank hblank))
            (.blank hblank ih)

/-- The text of cycles spells their tokens: a parenthesis, the points, a parenthesis, for one cycle
after the other. -/
theorem spells_cyclesText (cycles : List (List Nat)) :
    Spells CycleToken.text (CycleToken.ofCycles cycles) (cyclesText cycles).toList := by
  rw [toList_cyclesText]
  induction cycles with
  | nil => exact .done
  | cons cycle cycles ih =>
      have hclosing : Spells CycleToken.text (.closing :: CycleToken.ofCycles cycles)
          (')' :: cycles.flatMap cycleChars) :=
        .token (fun h => absurd h.1 (by decide)) ih
      rw [CycleToken.ofCycles_cons, flatMap_cycleChars_cons]
      exact .token (t := .opening) (fun h => absurd h.1 (by decide))
        (spells_points hclosing (by decide) cycle)

/-- Printed cycles are read as they are, if their points fit a word. -/
theorem parseCycles_cyclesText (hbounded : ∀ v ∈ cycles.flatten, v < wordLimit) :
    parseCycles (cyclesText cycles) = .ok cycles := by
  rw [← String.ofList_toList (s := cyclesText cycles)]
  exact Transcript.parseCycles_of_spells (spells_cyclesText cycles)
    fun cycle hcycle v hv => hbounded v (List.mem_flatten.2 ⟨cycle, hcycle, hv⟩)

end Tokens

/-! ### The text of a permutation -/

namespace Permutation

variable {p q : Permutation}

/-- The cycles that are printed for a permutation: for the identity an empty one. -/
def textCycles (p : Permutation) : List (List Nat) :=
  match p.cycles with
  | [] => [[]]
  | cycles => cycles

/-- What is printed are the cycles, or one empty cycle if there are none. -/
theorem text_eq (p : Permutation) : p.text = cyclesText p.textCycles := by
  unfold text textCycles
  cases p.cycles with
  | nil => decide
  | cons cycle cycles => rfl

theorem flatten_textCycles (p : Permutation) : p.textCycles.flatten = p.cycles.flatten := by
  unfold textCycles
  split
  · rename_i h
    rw [h]
    rfl
  · rfl

/-- The printed cycles describe the permutation, the empty one adding nothing. -/
theorem ofCycles_textCycles (p : Permutation) : ofCycles p.size p.textCycles = .ok p := by
  have h := p.ofCycles_cycles
  unfold textCycles
  split
  · rename_i hnil
    rw [hnil] at h
    exact h
  · exact h

/-- The text of a permutation whose points fit a 64-bit word is read as its cycles. -/
theorem parseCycles_text (p : Permutation) (hsize : p.size ≤ wordLimit) :
    parseCycles p.text = .ok p.textCycles := by
  rw [text_eq]
  refine parseCycles_cyclesText fun v hv => ?_
  rw [flatten_textCycles] at hv
  exact Nat.lt_of_lt_of_le (lt_size_of_mem_flatten_cycles hv) hsize

/-- The text determines the cycles, and these determine a permutation of as many points. -/
theorem eq_of_text_eq (hsize : p.size = q.size) (htext : p.text = q.text) : p = q := by
  rw [text_eq, text_eq] at htext
  have h := p.ofCycles_textCycles
  rw [cyclesText_injective htext, hsize, q.ofCycles_textCycles] at h
  exact (Except.ok.inj h).symm

theorem text_identity (n : Nat) : (identity n).text = "()" := by
  have hcycles : (identity n).cycles = [] := by
    refine List.eq_nil_iff_forall_not_mem.2 fun cycle hcycle => ?_
    obtain ⟨s, hs, -⟩ := mem_cycles.1 hcycle
    exact hs (image_identity n s)
  rw [text, hcycles]

/-- A printed permutation is read back as the permutation, if its points fit a 64-bit word.
The identity is printed as one empty cycle, and permutations of as many points are equal if their
texts are. -/
theorem text_reads_back (p : Permutation) :
    (p.size ≤ wordLimit →
      ∃ cycles, parseCycles p.text = .ok cycles ∧ ofCycles p.size cycles = .ok p) ∧
    (p.text = "()" ↔ p = identity p.size) ∧
    ∀ q : Permutation, p.size = q.size → (p.text = q.text ↔ p = q) := by
  refine ⟨fun hsize => ⟨p.textCycles, p.parseCycles_text hsize, p.ofCycles_textCycles⟩, ?_,
    fun q hsize => ⟨eq_of_text_eq hsize, congrArg text⟩⟩
  rw [← text_identity p.size]
  exact ⟨eq_of_text_eq (size_identity _).symm, congrArg text⟩

/-- Twelve points, of which some are fixed and some have two digits. -/
def sevenOfTwelveMoved : Permutation :=
  ⟨#[0, 2, 1, 4, 5, 3, 6, 7, 8, 9, 11, 10], by decide, by decide⟩

/-- A permutation of twelve points with two-digit points, printed and read back. -/
theorem text_reads_back_twelvePoints :
    sevenOfTwelveMoved.text = "(1 2)(3 4 5)(10 11)" ∧
      (∃ cycles, parseCycles sevenOfTwelveMoved.text = .ok cycles ∧
        ofCycles 12 cycles = .ok sevenOfTwelveMoved) ∧
      sevenOfTwelveMoved.text ≠ (identity 12).text := by
  obtain ⟨hread, -, hunique⟩ := text_reads_back sevenOfTwelveMoved
  refine ⟨by decide +kernel, hread (by decide), fun htext => ?_⟩
  exact absurd ((hunique (identity 12) rfl).1 htext) (by decide +kernel)

end Permutation

end PlanOrbits
