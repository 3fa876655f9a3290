import PlanOrbits.Proofs.Text.Spelling
import PlanOrbits.Transcript.Parts

/-!
# Written cycles

Cycle notation is a list of tokens: for each cycle a parenthesis, its points, and a
parenthesis. `parseCycles` reads every writing of these tokens as the cycles
(`parseCycles_of_spells`), wherever blanks stand. The points must fit a 64-bit word; the
check after every digit does not refuse such a point, since the front of a number is never
greater than the number.
-/

namespace PlanOrbits.Transcript

open Text (Spells SpellsAll IsSolid Meets isBlank isDigit digit? decimal valueFrom wordLimit)

/-! ### The tokens of cycles -/

/-- A token of cycle notation. -/
inductive CycleToken where
  | opening
  | closing
  | point (v : Nat)

namespace CycleToken

/-- How a token is written. -/
def text : CycleToken → List Char
  | opening => ['(']
  | closing => [')']
  | point v => decimal v

/-- The tokens of a cycle. -/
def ofCycle (cycle : List Nat) : List CycleToken := opening :: (cycle.map point ++ [closing])

/-- The tokens of cycles, one behind the other. -/
def ofCycles (cycles : List (List Nat)) : List CycleToken := cycles.flatMap ofCycle

/-- The tokens of the first cycle, with those of the others behind them. -/
theorem ofCycles_cons (cycle : List Nat) (cycles : List (List Nat)) :
    ofCycles (cycle :: cycles) = opening :: (cycle.map point ++ closing :: ofCycles cycles) := by
  rw [ofCycles, List.flatMap_cons, ofCycle, List.cons_append, List.append_assoc, ofCycles]
  rfl

theorem point_mem_ofCycles {v : Nat} {cycles : List (List Nat)} :
    point v ∈ ofCycles cycles ↔ ∃ cycle ∈ cycles, v ∈ cycle := by
  simp [ofCycles, ofCycle]

theorem isSolid_text (t : CycleToken) : IsSolid t.text := by
  cases t with
  | opening => exact Text.isSolid_singleton (by decide)
  | closing => exact Text.isSolid_singleton (by decide)
  | point v => exact Text.isSolid_decimal v

/-- The texts of the tokens have digits and parentheses only. -/
theorem not_mem_text {c : Char} (hdigit : isDigit c = false) (hopen : c ≠ '(') (hclose : c ≠ ')')
    (t : CycleToken) : c ∉ t.text := by
  cases t with
  | opening => exact fun h => hopen (List.mem_singleton.1 h)
  | closing => exact fun h => hclose (List.mem_singleton.1 h)
  | point v =>
      intro h
      rw [Text.isDigit_of_mem_decimal h] at hdigit
      cases hdigit

end CycleToken

/-! ### Reading one token -/

variable {source : String} {points : List Nat} {c : Char} {cs : List Char}

theorem cyclesOutside_blank (h : isBlank c = true) :
    cyclesOutside source (c :: cs) = cyclesOutside source cs := by
  have hopen : c ≠ '(' := Text.ne_of_isBlank h (by decide)
  have hclose : c ≠ ')' := Text.ne_of_isBlank h (by decide)
  have hsep : isSeparator c = true := by rw [isSeparator, h, Bool.true_or]
  rw [cyclesOutside, Text.isDigit_of_isBlank h, if_neg (by decide), if_neg hopen, if_neg hclose,
    if_pos hsep]

theorem digit?_eq_none (h : isDigit c = false) : digit? c = none := by
  rwa [isDigit, Option.isSome_eq_false_iff, Option.isNone_iff_eq_none] at h

theorem cyclesInside_blank (h : isBlank c = true) :
    cyclesInside source points none (c :: cs) = cyclesInside source points none cs := by
  have hopen : c ≠ '(' := Text.ne_of_isBlank h (by decide)
  have hclose : c ≠ ')' := Text.ne_of_isBlank h (by decide)
  have hsep : isSeparator c = true := by rw [isSeparator, h, Bool.true_or]
  rw [cyclesInside, digit?_eq_none (Text.isDigit_of_isBlank h)]
  simp only [Option.toList_none, List.nil_append, if_neg hopen, if_neg hclose, if_pos hsep]

theorem cyclesOutside_opening :
    cyclesOutside source ('(' :: cs) = cyclesInside source [] none cs := by
  rw [cyclesOutside]
  rfl

theorem cyclesInside_closing : cyclesInside source points none (')' :: cs) =
    (cyclesOutside source cs).map (points.reverse :: ·) := by
  rw [cyclesInside]
  rfl

/-- Further digits of a number that fits are read one by one. No front of the number is too large,
by `le_valueFrom`. -/
theorem cyclesInside_digits {ds : List Char} (hds : ∀ d ∈ ds, isDigit d = true) (n : Nat)
    (hlt : valueFrom n ds < wordLimit) : cyclesInside source points (some n) (ds ++ cs) =
      cyclesInside source points (some (valueFrom n ds)) cs := by
  induction ds generalizing n with
  | nil => rfl
  | cons d ds ih =>
      obtain ⟨hd, hds⟩ := List.forall_mem_cons.1 hds
      rw [Text.valueFrom_cons] at hlt ⊢
      have hle := Text.le_valueFrom (10 * n + (d.toNat - '0'.toNat)) ds
      rw [List.cons_append, cyclesInside, Text.digit?_eq_some_of_isDigit hd]
      simp only [Option.getD_some]
      rw [if_neg (Nat.not_le.2 (Nat.lt_of_le_of_lt hle hlt)), ih hds _ hlt]

/-- A number ends before what is no digit, and is then a point of the cycle. -/
theorem cyclesInside_some (n : Nat) (hcs : ∀ c ∈ cs.head?, isDigit c = false) :
    cyclesInside source points (some n) cs = cyclesInside source (n :: points) none cs := by
  cases cs with
  | nil => rw [cyclesInside, cyclesInside]
  | cons c cs =>
      rw [cyclesInside, cyclesInside, digit?_eq_none (hcs c rfl)]
      rfl

/-- A whole point is read inside of a cycle, if no digit follows it. -/
theorem cyclesInside_point {v : Nat} (hv : v < wordLimit)
    (hcs : ∀ c ∈ cs.head?, isDigit c = false) : cyclesInside source points none (decimal v ++ cs) =
      cyclesInside source (v :: points) none cs := by
  obtain ⟨d, ds, hdecimal, hd⟩ := Text.exists_decimal_eq_cons v
  have hvalue := Text.valueFrom_decimal v
  have hds : ∀ d ∈ ds, isDigit d = true := fun d' hd' =>
    Text.isDigit_of_mem_decimal (hdecimal ▸ List.mem_cons_of_mem d hd')
  rw [hdecimal, Text.valueFrom_cons] at hvalue
  have hle := Text.le_valueFrom (10 * 0 + (d.toNat - '0'.toNat)) ds
  rw [hdecimal, List.cons_append, cyclesInside, Text.digit?_eq_some_of_isDigit hd]
  simp only [Option.getD_none]
  rw [if_neg (by omega), cyclesInside_digits hds _ (by omega), hvalue, cyclesInside_some v hcs]

/-! ### Reading all tokens -/

open CycleToken

/-- What the two readers make of a writing: outside of cycles the cycles that are written, and
inside of a cycle its remaining points and the cycles behind it. By induction on the writing, for
both at once. -/
theorem cycles_of_spells {ts : List CycleToken} (h : Spells text ts cs)
    (hbounded : ∀ v, point v ∈ ts → v < wordLimit) :
    (∀ cycles, ts = ofCycles cycles → cyclesOutside source cs = .ok cycles) ∧
      ∀ points cycle cycles, ts = cycle.map point ++ closing :: ofCycles cycles →
        cyclesInside source points none cs = .ok ((points.reverse ++ cycle) :: cycles) := by
  induction h with
  | done =>
      constructor
      · intro cycles hcycles
        cases cycles with
        | nil => rfl
        | cons cycle cycles => rw [ofCycles_cons] at hcycles; cases hcycles
      · intro points cycle cycles hcycle
        cases cycle <;> cases hcycle
  | blank hc _ ih =>
      obtain ⟨houtside, hinside⟩ := ih hbounded
      refine ⟨fun cycles hcycles => ?_, fun points cycle cycles hcycle => ?_⟩
      · rw [cyclesOutside_blank hc, houtside cycles hcycles]
      · rw [cyclesInside_blank hc, hinside points cycle cycles hcycle]
  | @token t ts cs hnot _ ih =>
      obtain ⟨houtside, hinside⟩ := ih fun v hv => hbounded v (List.mem_cons_of_mem _ hv)
      refine ⟨fun cycles hcycles => ?_, fun points cycle cycles hcycle => ?_⟩
      · cases cycles with
        | nil => cases hcycles
        | cons cycle cycles =>
            rw [ofCycles_cons, List.cons.injEq] at hcycles
            obtain ⟨rfl, hts⟩ := hcycles
            -- the parenthesis opens a cycle, and the rest is read inside
            exact cyclesOutside_opening.trans (hinside [] cycle cycles hts)
      · cases cycle with
        | nil =>
            rw [List.map_nil, List.nil_append, List.cons.injEq] at hcycle
            obtain ⟨rfl, hts⟩ := hcycle
            change cyclesInside source points none (')' :: cs) = _
            rw [cyclesInside_closing, houtside cycles hts, List.append_nil]
            rfl
        | cons v cycle =>
            rw [List.map_cons, List.cons_append, List.cons.injEq] at hcycle
            obtain ⟨rfl, hts⟩ := hcycle
            have hv := hbounded v List.mem_cons_self
            refine (cyclesInside_point hv (Text.isDigit_of_not_meets_decimal hnot)).trans ?_
            rw [hinside (v :: points) cycle cycles hts, List.reverse_cons, List.append_assoc]
            rfl

/-- Every writing of cycles whose points fit a word is read as these cycles. -/
theorem parseCycles_of_spells {cycles : List (List Nat)} (h : Spells text (ofCycles cycles) cs)
    (hbounded : ∀ cycle ∈ cycles, ∀ v ∈ cycle, v < wordLimit) :
    parseCycles (String.ofList cs) = .ok cycles := by
  rw [parseCycles, String.toList_ofList]
  refine (cycles_of_spells h fun v hv => ?_).1 cycles rfl
  obtain ⟨cycle, hcycle, hv⟩ := point_mem_ofCycles.1 hv
  exact hbounded cycle hcycle v hv

end PlanOrbits.Transcript
