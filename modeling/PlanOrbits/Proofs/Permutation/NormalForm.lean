import Mathlib.Data.List.Rotate
import PlanOrbits.Proofs.Permutation.Threading
import PlanOrbits.Proofs.Permutation.Tour

/-!
# The normal form of cycles

The cycles of a permutation are disjoint, hold the points that are moved, begin with their least
points and stand in the order of these (`IsDecomposition`). No other cycles of the permutation are
like this: whatever disjoint cycles a permutation was made from, its own cycles are these without
the empty and the one-point cycles, each begun at its least point, and sorted (`normalForm`). For
a cycle that the permutation traverses is the orbit of any of its points, up to where it begins
(`Traverses.orbit_getElem`).
-/

namespace PlanOrbits

/-! ### Writing cycles in one way -/

/-- The first point of a cycle, which must not be empty. -/
def startOf (cycle : List Nat) : Nat := cycle.headD 0

/-- The least point of a cycle, which must not be empty. -/
def leastOf (cycle : List Nat) : Nat := cycle.min?.getD 0

/-- The same cycle, begun at its least point. -/
def fromLeast (cycle : List Nat) : List Nat := cycle.rotate (cycle.idxOf (leastOf cycle))

/-- Cycles without the empty ones and those of one point, each begun at its least point, in the
order of their first points. -/
def normalForm (cycles : List (List Nat)) : List (List Nat) :=
  ((cycles.filter (2 ≤ ·.length)).map fromLeast).mergeSort fun c d => startOf c ≤ startOf d

section

variable {cycle : List Nat} {v : Nat}

/-- The first point of a cycle is one of its points. -/
theorem startOf_mem (h : cycle ≠ []) : startOf cycle ∈ cycle := by
  cases cycle with
  | nil => exact absurd rfl h
  | cons v vs => exact List.mem_cons_self

theorem startOf_map (h : cycle ≠ []) (f : Nat → Nat) :
    startOf (cycle.map f) = f (startOf cycle) := by
  cases cycle with
  | nil => exact absurd rfl h
  | cons v vs => rfl

/-- The least point is one of the cycle that no other is below. -/
theorem leastOf_eq_iff (h : cycle ≠ []) :
    leastOf cycle = v ↔ v ∈ cycle ∧ ∀ w ∈ cycle, v ≤ w := by
  obtain ⟨m, hm⟩ := Option.ne_none_iff_exists'.1 (mt List.min?_eq_none_iff.1 h)
  rw [leastOf, hm, Option.getD_some, ← List.min?_eq_some_iff, hm, Option.some.injEq]

theorem mem_fromLeast : v ∈ fromLeast cycle ↔ v ∈ cycle := List.mem_rotate

theorem length_fromLeast (cycle : List Nat) : (fromLeast cycle).length = cycle.length :=
  List.length_rotate ..

/-- The normal form has the cycles of at least two points, each begun at its least point. -/
theorem mem_normalForm {cycles : List (List Nat)} :
    cycle ∈ normalForm cycles ↔ ∃ d ∈ cycles, 2 ≤ d.length ∧ fromLeast d = cycle := by
  simp only [normalForm, List.mem_mergeSort, List.mem_map, List.mem_filter, decide_eq_true_eq,
    and_assoc]

/-- They are sorted by their first points. -/
theorem pairwise_normalForm (cycles : List (List Nat)) :
    (normalForm cycles).Pairwise fun c d => startOf c ≤ startOf d := by
  refine (List.pairwise_mergeSort (fun a b c => ?_) (fun a b => ?_) _).imp of_decide_eq_true
  · simpa using Nat.le_trans
  · simpa using Nat.le_total _ _

/-- The normal form has no cycle twice: disjoint lists differ if they are not empty, also if each is
begun elsewhere. -/
theorem nodup_normalForm {cycles : List (List Nat)} (h : cycles.Pairwise List.Disjoint) :
    (normalForm cycles).Nodup := by
  rw [normalForm, (List.mergeSort_perm _ _).nodup_iff, List.Nodup, List.pairwise_map]
  refine (h.filter _).imp_of_mem fun {c d} hc _ hcd heq => ?_
  have hlong := of_decide_eq_true (List.mem_filter.1 hc).2
  obtain ⟨v, hv⟩ := List.exists_mem_of_length_pos (Nat.lt_of_lt_of_le Nat.two_pos hlong)
  exact hcd hv (mem_fromLeast.1 (heq ▸ mem_fromLeast.2 hv))

end

namespace Permutation

open Function (minimalPeriod)

variable {p : Permutation} {cycle : List Nat} {s v i j n : Nat}

/-! ### The cycles of a permutation -/

/-- The permutation traverses each of its orbits. -/
theorem traverses_orbit (p : Permutation) (s : Nat) : p.Traverses (p.orbit s) := by
  refine traverses_iff.2 fun a ha => ?_
  rw [rotation_orbit] at ha
  obtain ⟨v, -, rfl⟩ := List.mem_map.1 ha
  rfl

/-- The cycles stand in the order of their first points, as these are searched in order. -/
theorem pairwise_startOf_cycles (p : Permutation) :
    p.cycles.Pairwise fun c d => startOf c < startOf d := by
  rw [cycles, List.pairwise_filterMap]
  refine List.pairwise_lt_range.imp fun {s t} hlt c hc d hd => ?_
  obtain ⟨-, -, rfl⟩ := cycleFrom?_eq_some_iff.1 hc
  obtain ⟨-, -, rfl⟩ := cycleFrom?_eq_some_iff.1 hd
  exact hlt

/-- No cycle is listed twice. -/
theorem nodup_cycles (p : Permutation) : p.cycles.Nodup :=
  p.pairwise_startOf_cycles.imp fun hlt heq => Nat.ne_of_lt hlt (congrArg startOf heq)

/-- No two cycles have a common point. -/
theorem pairwise_disjoint_cycles (p : Permutation) : p.cycles.Pairwise List.Disjoint :=
  (List.nodup_flatten.1 p.nodup_flatten_cycles).2

/-- Together they have the moved points. -/
theorem flatten_cycles_perm (p : Permutation) : p.cycles.flatten.Perm p.movedPoints := by
  refine (List.perm_ext_iff_of_nodup p.nodup_flatten_cycles
    (List.nodup_range.filter _)).2 fun v => ?_
  rw [mem_flatten_cycles, List.mem_filter, List.mem_range, bne_iff_ne]
  exact ⟨fun h => ⟨lt_size_of_image_ne h, h⟩, And.right⟩

/-- Cycles that are written in one way only, and describe what a permutation moves. -/
structure IsDecomposition (p : Permutation) (cycles : List (List Nat)) : Prop where
  disjoint : cycles.Pairwise List.Disjoint
  long : ∀ cycle ∈ cycles, 2 ≤ cycle.length
  least : ∀ cycle ∈ cycles, ∀ v ∈ cycle, startOf cycle ≤ v
  ascending : cycles.Pairwise fun c d => startOf c < startOf d
  points : cycles.flatten.Perm p.movedPoints
  traverses : ∀ cycle ∈ cycles, p.Traverses cycle

/-- The cycles that `cycles` finds are a decomposition that is written in one way only. -/
theorem isDecomposition_cycles (p : Permutation) : p.IsDecomposition p.cycles where
  disjoint := p.pairwise_disjoint_cycles
  ascending := p.pairwise_startOf_cycles
  points := p.flatten_cycles_perm
  long := by
    intro cycle hcycle
    obtain ⟨s, hmoved, -, rfl⟩ := mem_cycles.1 hcycle
    exact one_lt_length_orbit_iff.2 hmoved
  least := by
    intro cycle hcycle
    obtain ⟨s, -, hleast, rfl⟩ := mem_cycles.1 hcycle
    exact hleast
  traverses := by
    intro cycle hcycle
    obtain ⟨s, -, -, rfl⟩ := mem_cycles.1 hcycle
    exact p.traverses_orbit s

/-! ### Cycles that are traversed -/

/-- To go `i` steps along the permutation is to go `i` places round the cycle. -/
theorem Traverses.iterate (h : p.Traverses cycle) (hj : j < cycle.length) (i : Nat) :
    p.image^[i] cycle[j] = cycle.get ⟨(j + i) % cycle.length, Nat.mod_lt _ (by omega)⟩ := by
  induction i with
  | zero =>
      simp only [Function.iterate_zero, id_eq, Nat.add_zero, Nat.mod_eq_of_lt hj,
        List.get_eq_getElem]
  | succ i ih =>
      have hnext := h ⟨(j + i) % cycle.length, Nat.mod_lt _ (by omega)⟩
      simp only [pointBehind, Nat.mod_add_mod, Nat.add_assoc] at hnext
      rw [Function.iterate_succ_apply', ih]
      exact hnext

/-- The permutation comes back to a point of a cycle when it has gone round the cycle, and not
before, since the points of the cycle are different. -/
theorem Traverses.minimalPeriod_eq (h : p.Traverses cycle) (hnodup : cycle.Nodup)
    (hj : j < cycle.length) : minimalPeriod p.image cycle[j] = cycle.length := by
  refine Nat.dvd_antisymm (Function.IsPeriodicPt.minimalPeriod_dvd ?_) ?_
  · rw [Function.IsPeriodicPt, Function.IsFixedPt, h.iterate hj]
    simp only [Nat.add_mod_right, Nat.mod_eq_of_lt hj, List.get_eq_getElem]
  · have hback : p.image^[minimalPeriod p.image cycle[j]] cycle[j] = cycle[j] :=
      Function.iterate_minimalPeriod
    rw [h.iterate hj, List.get_eq_getElem, hnodup.getElem_inj_iff] at hback
    have hmod := Nat.sub_mod_eq_zero_of_mod_eq (hback.trans (Nat.mod_eq_of_lt hj).symm)
    rw [Nat.add_sub_cancel_left] at hmod
    exact Nat.dvd_of_mod_eq_zero hmod

/-- The orbit of a point of a cycle is the cycle, begun at the point. -/
theorem Traverses.orbit_getElem (h : p.Traverses cycle) (hnodup : cycle.Nodup)
    (hj : j < cycle.length) : p.orbit cycle[j] = cycle.rotate j := by
  rw [orbit_eq, h.minimalPeriod_eq hnodup hj]
  refine List.ext_getElem (by simp) fun i hi hi' => ?_
  simp only [List.getElem_map, List.getElem_range, List.getElem_rotate, h.iterate hj,
    Nat.add_comm j, List.get_eq_getElem]

/-- In particular the orbit of its least point is the cycle in normal form. -/
theorem Traverses.orbit_eq_fromLeast (h : p.Traverses cycle) (hnodup : cycle.Nodup)
    (hne : cycle ≠ []) : p.orbit (leastOf cycle) = fromLeast cycle := by
  have hmem := ((leastOf_eq_iff hne).1 rfl).1
  have hindex := List.idxOf_lt_length_of_mem hmem
  rw [fromLeast, ← h.orbit_getElem hnodup hindex, List.getElem_idxOf hindex]

/-- A cycle of at least two points that is traversed, begun at its least point, is a cycle of the
permutation. -/
theorem Traverses.fromLeast_mem_cycles (h : p.Traverses cycle) (hnodup : cycle.Nodup)
    (hlong : 2 ≤ cycle.length) : fromLeast cycle ∈ p.cycles := by
  have hne : cycle ≠ [] := List.ne_nil_of_length_pos (by omega)
  have horbit := h.orbit_eq_fromLeast hnodup hne
  refine mem_cycles.2 ⟨leastOf cycle, ?_, fun v hv => ?_, horbit.symm⟩
  · rw [← one_lt_length_orbit_iff, horbit, length_fromLeast]
    exact hlong
  · rw [horbit, mem_fromLeast] at hv
    exact ((leastOf_eq_iff hne).1 rfl).2 v hv

/-- Conversely, a cycle of the permutation that shares a point with a traversed cycle is this cycle,
begun at its least point. -/
theorem Traverses.eq_fromLeast (h : p.Traverses cycle) (hnodup : cycle.Nodup) (hs : s ∈ cycle)
    (hmoved : p.image s ≠ s) (hleast : ∀ v ∈ p.orbit s, s ≤ v) :
    2 ≤ cycle.length ∧ p.orbit s = fromLeast cycle := by
  obtain ⟨j, hj, rfl⟩ := List.getElem_of_mem hs
  have horbit := h.orbit_getElem hnodup hj
  have hmem {v : Nat} : v ∈ p.orbit cycle[j] ↔ v ∈ cycle := by rw [horbit, List.mem_rotate]
  have hpoint : leastOf cycle = cycle[j] :=
    (leastOf_eq_iff (List.ne_nil_of_mem hs)).2 ⟨hs, fun v hv => hleast v (hmem.2 hv)⟩
  refine ⟨?_, by rw [← hpoint, h.orbit_eq_fromLeast hnodup (List.ne_nil_of_mem hs)]⟩
  rw [← one_lt_length_orbit_iff, horbit, List.length_rotate] at hmoved
  exact hmoved

/-! ### The way back -/

/-- The cycles of a permutation are, as a set, the normal form of any cycles that describe it. -/
theorem Describes.mem_cycles_iff {cycles : List (List Nat)} (h : Describes n cycles p)
    (hnodup : ∀ cycle ∈ cycles, cycle.Nodup) :
    cycle ∈ p.cycles ↔ cycle ∈ normalForm cycles := by
  rw [mem_normalForm]
  constructor
  · intro hcycle
    obtain ⟨s, hmoved, hleast, rfl⟩ := mem_cycles.1 hcycle
    obtain ⟨d, hd, hs⟩ := List.mem_flatten.1 (not_not.1 fun hnot => hmoved (h.fixes s hnot))
    obtain ⟨hlong, heq⟩ := (h.traverses d hd).eq_fromLeast (hnodup d hd) hs hmoved hleast
    exact ⟨d, hd, hlong, heq.symm⟩
  · rintro ⟨d, hd, hlong, rfl⟩
    exact (h.traverses d hd).fromLeast_mem_cycles (hnodup d hd) hlong

/-- Cycles that describe a permutation have its cycles as their normal form: both lists have the
same members, and both are sorted by least points. -/
theorem Describes.cycles_eq {cycles : List (List Nat)} (h : Describes n cycles p)
    (hnodup : cycles.flatten.Nodup) : p.cycles = normalForm cycles := by
  obtain ⟨heach, hdisjoint⟩ := List.nodup_flatten.1 hnodup
  have hperm : p.cycles.Perm (normalForm cycles) :=
    (List.perm_ext_iff_of_nodup p.nodup_cycles (nodup_normalForm hdisjoint)).2 fun _ =>
      h.mem_cycles_iff heach
  -- cycles of the permutation with the same first point are the same orbit
  refine hperm.eq_of_pairwise (fun c d hc hd hle hge => ?_)
    (p.pairwise_startOf_cycles.imp Nat.le_of_lt) (pairwise_normalForm cycles)
  obtain ⟨s, -, -, rfl⟩ := mem_cycles.1 hc
  obtain ⟨t, -, -, rfl⟩ := mem_cycles.1 (hperm.mem_iff.2 hd)
  exact congrArg p.orbit (Nat.le_antisymm hle hge)

/-- All walks that look for cycles come back. The cycles that are found are written in one way and
describe the permutation; those of a permutation that was made of cycles are these cycles in normal
form. -/
theorem cycles_canonical :
    (∀ p : Permutation, p.tour = Part.some p.cycles ∧ p.IsDecomposition p.cycles ∧
      ofCycles p.size p.cycles = .ok p) ∧
    ∀ n cycles p, ofCycles n cycles = .ok p → p.cycles = normalForm cycles := by
  refine ⟨fun p => ⟨p.tour_eq, p.isDecomposition_cycles, p.ofCycles_cycles⟩,
    fun n cycles p h => ?_⟩
  obtain ⟨hdistinct, hdescribes⟩ := ofCycles_eq_ok_iff_describes.1 h
  exact hdescribes.cycles_eq hdistinct.2

/-- Eight points, of which five are moved. -/
def fiveOfEightMoved : Permutation := ⟨#[0, 6, 7, 3, 4, 2, 1, 5], by decide, by decide⟩

/-- Cycles of eight points that begin anywhere, in any order, with an empty one and one of a single
point, and what becomes of them. -/
theorem cycles_canonical_eightPoints :
    ofCycles 8 [[5, 2, 7], [], [4], [6, 1]] = .ok fiveOfEightMoved ∧
    fiveOfEightMoved.cycles = normalForm [[5, 2, 7], [], [4], [6, 1]] ∧
    normalForm [[5, 2, 7], [], [4], [6, 1]] = [[1, 6], [2, 7, 5]] := by
  have hmade : ofCycles 8 [[5, 2, 7], [], [4], [6, 1]] = .ok fiveOfEightMoved := by
    decide +kernel
  have hcycles := cycles_canonical.2 8 _ fiveOfEightMoved hmade
  exact ⟨hmade, hcycles, hcycles.symm.trans (by decide +kernel)⟩

end Permutation

end PlanOrbits
