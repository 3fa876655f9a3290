import Mathlib.Algebra.Group.Action.Defs
import Mathlib.Algebra.GroupWithZero.Nat
import Mathlib.Algebra.Order.BigOperators.Group.List
import PlanOrbits.Proofs.Automorphism.Consistency
import PlanOrbits.Proofs.Number.Places

/-!
# Measures of symmetry are defined

The measures of symmetry divide by the number of vertices, by the number of orbits and by the size
of the largest orbit, and take logarithms of sizes, of shares and of the group order. Each of them
guards against one kind of emptiness only: there are no vertices, or there are no orbits. That
nothing else can be zero rests on the orbits, which are a partition of the vertices if they have
been checked (`IsProduced.isPartition`); those read from a document are not.

A number does not show what it was divided by, so the measures are written down as formulas
(`Automorphisms.formula`), the values of which are the numbers that are computed (`value_formula`).
The machine computes with rounded numbers, and a positive quotient could be rounded to zero. With a
number of vertices that fits a word it cannot (`Places.Between.div`).
-/

namespace PlanOrbits

/-! ### Sizes of orbits -/

namespace IsPartition

variable {n : Nat} {orbits : List (List Nat)}

/-- The sizes of the orbits of a partition add up to the number of vertices. -/
theorem sum_sizes (h : IsPartition n orbits) : (orbits.map List.length).sum = n := by
  rw [← List.length_flatten, h.perm.length_eq, List.length_range]

/-- No orbit is empty, so that every size is positive and has a logarithm. -/
theorem one_le_of_mem_sizes (h : IsPartition n orbits) {size : Nat}
    (hsize : size ∈ orbits.map List.length) : 1 ≤ size := by
  obtain ⟨orbit, horbit, rfl⟩ := List.mem_map.1 hsize
  exact List.length_pos_of_ne_nil (h.nonempty orbit horbit)

theorem le_of_mem_sizes (h : IsPartition n orbits) {size : Nat}
    (hsize : size ∈ orbits.map List.length) : size ≤ n :=
  (List.le_sum_of_mem hsize).trans_eq h.sum_sizes

/-- If no orbit is smaller than `least`, there are at most `n / least` of them. -/
theorem length_mul_le (h : IsPartition n orbits) {least : Nat}
    (hleast : ∀ size ∈ orbits.map List.length, least ≤ size) : orbits.length * least ≤ n := by
  have hsum := List.card_nsmul_le_sum _ least hleast
  rwa [List.length_map, h.sum_sizes, smul_eq_mul] at hsum

/-- If no orbit is larger than `greatest`, there are at least `n / greatest` of them. -/
theorem le_length_mul (h : IsPartition n orbits) {greatest : Nat}
    (hgreatest : ∀ size ∈ orbits.map List.length, size ≤ greatest) :
    n ≤ orbits.length * greatest := by
  have hsum := List.sum_le_card_nsmul _ greatest hgreatest
  rwa [List.length_map, h.sum_sizes, smul_eq_mul] at hsum

/-- There are at most as many orbits as vertices. -/
theorem length_le (h : IsPartition n orbits) : orbits.length ≤ n := by
  have hmul := h.length_mul_le fun _ => h.one_le_of_mem_sizes
  rwa [Nat.mul_one] at hmul

/-- There are no orbits exactly if there are no vertices. So the two guards of the measures guard
against the same case. -/
theorem eq_nil_iff (h : IsPartition n orbits) : orbits = [] ↔ n = 0 := by
  constructor
  · rintro rfl
    exact h.sum_sizes.symm
  · rintro rfl
    exact List.length_eq_zero_iff.1 (Nat.le_zero.1 h.length_le)

end IsPartition

/-! ### Formulas -/

namespace Metrics

/-- What is computed, with the numbers that it is computed from. -/
inductive Formula where
  | number (x : Float)
  | neg (p : Formula)
  | add (p q : Formula)
  | mul (p q : Formula)
  | div (p q : Formula)
  | log2 (p : Formula)

namespace Formula

/-- The number that is computed. -/
def value : Formula → Float
  | number x => x
  | neg p => -p.value
  | add p q => p.value + q.value
  | mul p q => p.value * q.value
  | div p q => p.value / q.value
  | log2 p => p.value.log2

/-- Nothing is divided by zero, and no logarithm is taken of zero: whatever stands there is
positive. -/
def IsDefined : Formula → Prop
  | number _ => True
  | neg p => p.IsDefined
  | add p q => p.IsDefined ∧ q.IsDefined
  | mul p q => p.IsDefined ∧ q.IsDefined
  | div p q => p.IsDefined ∧ q.IsDefined ∧ 0 < q.value
  | log2 p => p.IsDefined ∧ 0 < p.value

/-- The sum of a list in order. -/
def sum (ps : List Formula) : Formula := ps.foldl add (number (-0.0))

/-- A number times its binary logarithm. -/
def timesLog (p : Formula) : Formula := mul p (log2 p)

/-- The value of a sum of formulas is computed in the order in which the terms are added, which
matters for rounded numbers. -/
theorem value_foldl (ps : List Formula) (p : Formula) :
    (ps.foldl add p).value = (ps.map value).foldl (· + ·) p.value := by
  induction ps generalizing p with
  | nil => rfl
  | cons q ps ih => exact ih (add p q)

/-- The value of `Formula.sum` is what `Metrics.sum` computes from the values of the terms. -/
theorem value_sum (ps : List Formula) : (sum ps).value = Metrics.sum (ps.map value) :=
  value_foldl ps _

theorem isDefined_number {x : Float} : (number x).IsDefined := trivial

/-- A sum is defined if its terms are. -/
theorem isDefined_foldl {ps : List Formula} {p : Formula} (hp : p.IsDefined)
    (hps : ∀ q ∈ ps, q.IsDefined) : (ps.foldl add p).IsDefined := by
  induction ps generalizing p with
  | nil => exact hp
  | cons q ps ih =>
      obtain ⟨hq, hps⟩ := List.forall_mem_cons.1 hps
      exact ih ⟨hp, hq⟩ hps

theorem isDefined_sum {ps : List Formula} (h : ∀ p ∈ ps, p.IsDefined) : (sum ps).IsDefined :=
  isDefined_foldl isDefined_number h

/-- A quotient of numbers is defined if the divisor is positive as a machine number. -/
theorem isDefined_div {x y : Float} (hy : 0 < y) : (div (number x) (number y)).IsDefined :=
  ⟨isDefined_number, isDefined_number, hy⟩

/-- `x * log2 x` is defined if `x` is defined and positive. -/
theorem isDefined_timesLog {p : Formula} (h : p.IsDefined) (hpos : 0 < p.value) :
    (timesLog p).IsDefined := ⟨h, h, hpos⟩

end Formula

/-- The measures by name. -/
inductive Measure where
  | graphEntropy
  | mowshowitzIndex
  | vertexIndex
  | homogeneityIndex
  | deviationIndex

/-- The value of a measure. -/
def get (m : Metrics) : Measure → Float
  | .graphEntropy => m.graphEntropy
  | .mowshowitzIndex => m.mowshowitzIndex
  | .vertexIndex => m.vertexIndex
  | .homogeneityIndex => m.homogeneityIndex
  | .deviationIndex => m.deviationIndex

end Metrics

namespace Automorphisms

open Metrics (Formula Measure)
open Metrics.Formula (number neg add div log2 timesLog isDefined_number isDefined_sum
  isDefined_div isDefined_timesLog)

variable {a : Automorphisms}

/-- The formula of a measure, with its guard. -/
def formula (a : Automorphisms) : Measure → Formula
  | .graphEntropy =>
      if a.vertexCount = 0 then number 0.0
      else neg (.sum (a.sizes.map fun s => timesLog (div (number s) (number a.vertices))))
  | .mowshowitzIndex =>
      if a.vertexCount = 0 then number 0.0
      else
        add (div (.sum (a.sizes.map fun s => timesLog (number s))) (number a.vertices))
          (log2 (number (max a.groupOrder 1).toFloat))
  | .vertexIndex =>
      if a.vertexCount = 0 then number 0.0 else div (number a.largest) (number a.vertices)
  | .homogeneityIndex =>
      if a.orbits.isEmpty then number 0.0 else div (number a.smallest) (number a.largest)
  | .deviationIndex =>
      if a.orbits.isEmpty then number 0.0
      else
        div (.sum (a.sizes.map fun s => div (number s) (number a.largest)))
          (number (Float.ofNat a.orbits.length))

/-- The value of every formula is the measure that `metrics` computes. This ties the statements
about formulas to the program: the divisors and arguments of logarithms in them are those of the
computation. -/
theorem value_formula (a : Automorphisms) (measure : Measure) :
    (a.formula measure).value = a.metrics.get measure := by
  cases measure <;>
    simp only [formula, apply_ite Formula.value, Formula.value, Formula.value_sum, List.map_map]
  all_goals rfl

/-! ### Checked orbits -/

/-- Automorphisms that come out of the checks of their parts, out of a transcript, or that are those
of a graph that has only the identity. -/
inductive IsProduced : Automorphisms → Prop
  | parts {group : Group} {orbits : List (List Nat)} {order : UInt64} {n : Nat}
      {a : Automorphisms} (h : ofParts group orbits order n = .ok a) : IsProduced a
  | transcript {t : Transcript} {n : Nat} {a : Automorphisms}
      (h : ofTranscript t n = .ok a) : IsProduced a
  | trivial (n : Nat) : IsProduced (trivial n)

/-- However automorphisms are produced, other than by reading a document, their orbits are a
partition of their vertices. -/
theorem IsProduced.isPartition (h : a.IsProduced) : IsPartition a.vertexCount a.orbits := by
  cases h with
  | @parts group orbits order n _ h =>
      -- with a group on other points nothing is produced; else the orbits were checked
      by_cases hdomain : group.domainSize = n
      · rw [ofParts_eq hdomain] at h
        obtain ⟨_, hcheck, rfl⟩ := map_eq_ok_iff.1 h
        exact checkOrbits_eq_ok_iff.1 hcheck
      · rw [ofParts, if_pos hdomain] at h
        cases h
  | @transcript t n _ h =>
      have hconsistent := (h ▸ outcome t n).isConsistent
      rw [hconsistent.vertexCount]
      exact hconsistent.orbits
  | trivial n => exact (isConsistent_trivial n).orbits

/-- The sizes of the orbits of a graph that has vertices. -/
structure SizesInRange (a : Automorphisms) : Prop where
  one_le_length : 1 ≤ a.orbits.length
  length_le : a.orbits.length ≤ a.vertexCount
  size : ∀ size ∈ a.orbitSizes, 1 ≤ size ∧ size ≤ a.vertexCount
  extremes : ∃ least greatest, a.orbitSizes.min? = some least ∧
    a.orbitSizes.max? = some greatest ∧ least ≤ greatest ∧
    a.orbits.length * least ≤ a.vertexCount ∧ a.vertexCount ≤ a.orbits.length * greatest

/-- All the numbers that a measure divides by or takes the logarithm of are between one and the
number of vertices. -/
theorem sizesInRange (h : IsPartition a.vertexCount a.orbits) (hpos : 0 < a.vertexCount) :
    a.SizesInRange := by
  have hne : a.orbits ≠ [] := mt h.eq_nil_iff.1 hpos.ne'
  have hsizes : a.orbitSizes ≠ [] := mt List.map_eq_nil_iff.1 hne
  refine ⟨List.length_pos_of_ne_nil hne, h.length_le,
    fun size hsize => ⟨h.one_le_of_mem_sizes hsize, h.le_of_mem_sizes hsize⟩, ?_⟩
  have hmin := List.min?_eq_some_min hsizes
  have hmax := List.max?_eq_some_max hsizes
  obtain ⟨hleast, hleast'⟩ := List.min?_eq_some_iff.1 hmin
  obtain ⟨-, hgreatest⟩ := List.max?_eq_some_iff.1 hmax
  exact ⟨_, _, hmin, hmax, hgreatest _ hleast, h.length_mul_le hleast', h.le_length_mul hgreatest⟩

/-! ### Machine numbers -/

section Word

variable (h : a.SizesInRange) (hword : a.vertexCount < 2 ^ 64)
include h hword

/-- The next four lemmas say where the highest digits of these numbers stand when they are converted
to machine numbers, if the number of vertices fits a word. From this follows that they are positive
and that none of their quotients is rounded to zero. -/
theorem SizesInRange.between_vertices : Places.Between 1 66 a.vertices :=
  Places.between_ofNat (Nat.ne_of_gt (h.one_le_length.trans h.length_le)) hword

theorem SizesInRange.between_sizes {s : Float} (hs : s ∈ a.sizes) : Places.Between 1 66 s := by
  obtain ⟨size, hsize, rfl⟩ := List.mem_map.1 hs
  obtain ⟨hpos, hle⟩ := h.size size hsize
  exact Places.between_ofNat (Nat.ne_of_gt hpos) (hle.trans_lt hword)

theorem SizesInRange.between_largest : Places.Between 1 66 a.largest := by
  obtain ⟨_, greatest, -, hmax, -⟩ := h.extremes
  rw [largest, hmax, Option.getD_some]
  exact h.between_sizes hword (List.mem_map_of_mem (List.max?_mem hmax))

theorem SizesInRange.between_length : Places.Between 1 66 (Float.ofNat a.orbits.length) :=
  Places.between_ofNat (Nat.ne_of_gt h.one_le_length) (h.length_le.trans_lt hword)

end Word

/-- The group order that is read may be zero; its logarithm is taken of at least one. -/
theorem max_one_ne_zero (w : UInt64) : max w 1 ≠ 0 := by
  change (if w ≤ 1 then 1 else w) ≠ 0
  split
  · decide
  · rename_i hlt
    rintro rfl
    exact hlt (by decide)

/-- Without vertices every measure takes its guard: the formula is the number zero, with no quotient
and no logarithm in it. -/
theorem formula_of_vertexCount_eq_zero (h : IsPartition a.vertexCount a.orbits)
    (hzero : a.vertexCount = 0) (measure : Measure) : a.formula measure = number 0.0 := by
  have hnil : a.orbits = [] := h.eq_nil_iff.2 hzero
  cases measure <;> simp [formula, hzero, hnil]

theorem isDefined_formula (h : IsPartition a.vertexCount a.orbits)
    (hword : a.vertexCount < 2 ^ 64) (measure : Measure) : (a.formula measure).IsDefined := by
  by_cases hzero : a.vertexCount = 0
  · rw [formula_of_vertexCount_eq_zero h hzero]
    exact isDefined_number
  · have hrange := sizesInRange h (Nat.pos_of_ne_zero hzero)
    have hvertices := (hrange.between_vertices hword).pos
    have hlargest := (hrange.between_largest hword).pos
    have hnonempty : a.orbits.isEmpty ≠ true :=
      mt List.isEmpty_iff.1 (List.ne_nil_of_length_pos hrange.one_le_length)
    -- from here on there is a vertex and an orbit, so that both guards are passed
    cases measure with
    | graphEntropy =>
        rw [formula, if_neg hzero]
        refine isDefined_sum fun p hp => ?_
        obtain ⟨s, hs, rfl⟩ := List.mem_map.1 hp
        -- the share of an orbit is a rounded quotient, which could be zero if the places were too
        -- far apart
        have hshare := (hrange.between_sizes hword hs).div (hrange.between_vertices hword)
          (by decide) (by decide)
        exact isDefined_timesLog (isDefined_div hvertices) hshare.pos
    | mowshowitzIndex =>
        rw [formula, if_neg hzero]
        refine ⟨⟨isDefined_sum fun p hp => ?_, isDefined_number, hvertices⟩, isDefined_number,
          (Places.between_toFloat (max_one_ne_zero a.groupOrder)).pos⟩
        obtain ⟨s, hs, rfl⟩ := List.mem_map.1 hp
        exact isDefined_timesLog isDefined_number (hrange.between_sizes hword hs).pos
    | vertexIndex =>
        rw [formula, if_neg hzero]
        exact isDefined_div hvertices
    | homogeneityIndex =>
        rw [formula, if_neg hnonempty]
        exact isDefined_div hlargest
    | deviationIndex =>
        rw [formula, if_neg hnonempty]
        refine ⟨isDefined_sum fun p hp => ?_, isDefined_number, (hrange.between_length hword).pos⟩
        obtain ⟨s, -, rfl⟩ := List.mem_map.1 hp
        exact isDefined_div hlargest

/-- Automorphisms that have been checked have sizes of orbits that sum up to the number of vertices.
If there are vertices, there is an orbit, the sizes are not zero, and the least and the greatest of
them bound the number of vertices from both sides; then no measure divides by zero or takes the
logarithm of zero. If there are none, there are no orbits, and each measure takes its guard. The
number of vertices is that of a machine word. -/
theorem measures_areDefined (h : a.IsProduced) :
    a.orbitSizes.sum = a.vertexCount ∧
    (0 < a.vertexCount → a.SizesInRange) ∧
    (a.vertexCount = 0 → a.orbits = [] ∧ ∀ measure, a.formula measure = number 0.0) ∧
    (∀ measure, (a.formula measure).value = a.metrics.get measure) ∧
    (a.vertexCount < 2 ^ 64 → ∀ measure, (a.formula measure).IsDefined) :=
  have hpartition := h.isPartition
  ⟨hpartition.sum_sizes, sizesInRange hpartition,
    fun hzero => ⟨hpartition.eq_nil_iff.2 hzero, formula_of_vertexCount_eq_zero hpartition hzero⟩,
    value_formula a, isDefined_formula hpartition⟩

/-- Three orbits of five vertices, for which every measure divides and takes logarithms, and no
vertices at all. -/
theorem measures_areDefined_fiveVertices :
    (∃ a, ofTranscript ⟨[[[0, 1], [2, 3]]], 2, [[1, 0], [2, 3], [4]]⟩ 5 = .ok a ∧
      a.orbitSizes = [2, 2, 1] ∧ a.SizesInRange ∧ ∀ measure, (a.formula measure).IsDefined) ∧
    ∀ measure, (Automorphisms.trivial 0).metrics.get measure = 0.0 := by
  constructor
  · have hok : ofTranscript ⟨[[[0, 1], [2, 3]]], 2, [[1, 0], [2, 3], [4]]⟩ 5 =
        .ok ⟨⟨5, [⟨#[1, 0, 3, 2, 4], by decide, by decide⟩]⟩, [[1, 0], [2, 3], [4]], 2, 5⟩ := by
      decide +kernel
    obtain ⟨-, hrange, -, -, hdefined⟩ := measures_areDefined (.transcript hok)
    exact ⟨_, hok, rfl, hrange (by decide), hdefined (by decide)⟩
  · -- without vertices every measure is the number that its guard returns
    obtain ⟨-, -, hzero, hvalue, -⟩ := measures_areDefined (.trivial 0)
    intro measure
    rw [← hvalue, (hzero rfl).2 measure]
    rfl

end Automorphisms

end PlanOrbits
