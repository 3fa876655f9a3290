import Mathlib.Dynamics.PeriodicPts.Lemmas
import PlanOrbits.Proofs.Permutation.Images

/-!
# The cycles of a permutation

A walk along a permutation comes back to its start, after no more steps than there are points
(`minimalPeriod_le_size`). What it visits until then is its `orbit`, a list without
repetitions in which each point is followed by its image (`rotation_orbit`). The orbits of two
points have the same members or none in common, and `cycles` lists the orbits of those points
that are moved and the least of their orbit (`mem_cycles`). So every point that is moved
stands in exactly one cycle, and the cycles describe the permutation (`ofCycles_cycles`).
-/

namespace PlanOrbits.Permutation

open Function (minimalPeriod periodicPts periodicOrbit)

variable (p : Permutation) {s v i steps : Nat}

/-! ### Walks come back -/

/-- The permutation of the points alone. -/
def onPoints (v : Fin p.size) : Fin p.size := ⟨p.image v, p.image_lt_size_iff.2 v.isLt⟩

/-- No two points have one image. -/
theorem onPoints_injective : Function.Injective p.onPoints := fun _ _ h =>
  Fin.ext (p.image_injective (congrArg Fin.val h))

/-- A walk among the points comes back to its start, since there are finitely many of them and none
is reached from two. -/
theorem isPeriodicPt_onPoints (hv : v < p.size) :
    Function.IsPeriodicPt p.image (minimalPeriod p.onPoints ⟨v, hv⟩) v :=
  (Function.isPeriodicPt_minimalPeriod p.onPoints ⟨v, hv⟩).map (g := Fin.val) fun _ => rfl

theorem minimalPeriod_onPoints_pos (hv : v < p.size) :
    0 < minimalPeriod p.onPoints ⟨v, hv⟩ :=
  Function.minimalPeriod_pos_of_mem_periodicPts (p.onPoints_injective.mem_periodicPts _)

/-- On all numbers every walk comes back: a number that is no point stays where it is. -/
theorem mem_periodicPts (v : Nat) : v ∈ periodicPts p.image := by
  by_cases hv : v < p.size
  · exact Function.mk_mem_periodicPts (p.minimalPeriod_onPoints_pos hv)
      (p.isPeriodicPt_onPoints hv)
  · exact Function.mk_mem_periodicPts Nat.one_pos (p.image_of_size_le (Nat.le_of_not_lt hv))

/-- The first return is after at least one step. -/
theorem minimalPeriod_pos (v : Nat) : 0 < minimalPeriod p.image v :=
  Function.minimalPeriod_pos_of_mem_periodicPts (p.mem_periodicPts v)

/-- A point comes back after no more steps than there are points, so that the bound of the walks in
`pathTo` and `staysAbove` is never reached. -/
theorem minimalPeriod_le_size (hv : v < p.size) : minimalPeriod p.image v ≤ p.size := by
  refine ((p.isPeriodicPt_onPoints hv).minimalPeriod_le (p.minimalPeriod_onPoints_pos hv)).trans ?_
  exact Function.minimalPeriod_le_card.trans_eq (Fintype.card_fin p.size)

/-! ### Orbits -/

/-- The points that a walk from `start` visits before it comes back. -/
def orbit (start : Nat) : List Nat := start :: p.pathTo start p.size (p.image start)

/-- Before the first return the walk is not at its start. -/
theorem iterate_ne (hi : 0 < i) (hlt : i < minimalPeriod p.image s) : p.image^[i] s ≠ s :=
  Function.not_isPeriodicPt_of_pos_of_lt_minimalPeriod (Nat.ne_of_gt hi) hlt

/-- The path from a place of the walk on lists the places up to the first return, if the steps
suffice. By induction on the steps: each adds one place. -/
theorem pathTo_iterate (hi : 0 < i) (hle : i ≤ minimalPeriod p.image s)
    (hsteps : minimalPeriod p.image s ≤ steps + i) : p.pathTo s steps (p.image^[i] s) =
      (List.range' i (minimalPeriod p.image s - i)).map (p.image^[·] s) := by
  induction steps generalizing i with
  | zero =>
      -- no steps are left, so the walk must have come back
      rw [Nat.sub_eq_zero_of_le (by omega)]
      rfl
  | succ steps ih =>
      rw [pathTo]
      rcases Nat.lt_or_eq_of_le hle with hlt | rfl
      · rw [if_neg (p.iterate_ne hi hlt), ← Function.iterate_succ_apply' p.image,
          ih (Nat.succ_pos i) hlt (by omega),
          show minimalPeriod p.image s - i = minimalPeriod p.image s - (i + 1) + 1 by omega,
          List.range'_succ, List.map_cons]
      · rw [if_pos Function.iterate_minimalPeriod, Nat.sub_self]
        rfl

/-- A walk that comes back stays above its start if and only if no point of its path is smaller;
`staysAbove` gives up at the first that is. -/
theorem staysAbove_iterate (hi : 0 < i) (hle : i ≤ minimalPeriod p.image s)
    (hsteps : minimalPeriod p.image s < steps + i) :
    p.staysAbove s steps (p.image^[i] s) = true ↔
      ∀ v ∈ p.pathTo s steps (p.image^[i] s), s ≤ v := by
  induction steps generalizing i with
  | zero => omega
  | succ steps ih =>
      rw [pathTo, staysAbove]
      rcases Nat.lt_or_eq_of_le hle with hlt | rfl
      · have hne := p.iterate_ne hi hlt
        rw [if_neg hne, if_neg hne, List.forall_mem_cons,
          ← Function.iterate_succ_apply' p.image, ← ih (Nat.succ_pos i) hlt (by omega)]
        split
        · rename_i hless
          exact iff_of_false Bool.false_ne_true fun h => Nat.not_le.2 hless h.1
        · rename_i hnot
          exact (and_iff_right (Nat.le_of_not_lt hnot)).symm
      · rw [if_pos Function.iterate_minimalPeriod, if_pos Function.iterate_minimalPeriod]
        exact iff_of_true rfl (List.forall_mem_nil _)

/-- The orbit lists the iterates of the start up to the first return. -/
theorem orbit_eq (s : Nat) :
    p.orbit s = (List.range (minimalPeriod p.image s)).map (p.image^[·] s) := by
  have hpos := p.minimalPeriod_pos s
  have hsteps : minimalPeriod p.image s ≤ p.size + 1 := by
    by_cases hs : s < p.size
    · exact (p.minimalPeriod_le_size hs).trans (Nat.le_succ _)
    · have hfixed : Function.IsPeriodicPt p.image 1 s := p.image_of_size_le (Nat.le_of_not_lt hs)
      exact (hfixed.minimalPeriod_le Nat.one_pos).trans (Nat.le_add_left 1 _)
  have hpath := p.pathTo_iterate Nat.one_pos hpos hsteps
  rw [Function.iterate_one] at hpath
  rw [orbit, hpath, List.range_eq_range',
    show minimalPeriod p.image s = minimalPeriod p.image s - 1 + 1 by omega, List.range'_succ]
  rfl

/-- Taken as a cycle, without a first point, the orbit is the periodic orbit of the function. -/
theorem coe_orbit (s : Nat) : (p.orbit s : Cycle Nat) = periodicOrbit p.image s := by
  rw [orbit_eq, Function.periodicOrbit_def]

/-- No point is met twice before the return. -/
theorem nodup_orbit (s : Nat) : (p.orbit s).Nodup := by
  rw [← Cycle.nodup_coe_iff, coe_orbit]
  exact Function.nodup_periodicOrbit

/-- The orbit has all iterates of the start, also those after the return. -/
theorem mem_orbit_iff : v ∈ p.orbit s ↔ ∃ i, p.image^[i] s = v := by
  rw [← Cycle.mem_coe_iff, coe_orbit, Function.mem_periodicOrbit_iff (p.mem_periodicPts s)]

variable {p}

/-- The points of an orbit have, up to where they start, the same orbit. -/
theorem coe_orbit_eq_of_mem (h : v ∈ p.orbit s) :
    (p.orbit v : Cycle Nat) = (p.orbit s : Cycle Nat) := by
  obtain ⟨i, rfl⟩ := p.mem_orbit_iff.1 h
  rw [coe_orbit, coe_orbit, Function.periodicOrbit_apply_iterate_eq (p.mem_periodicPts s)]

theorem mem_orbit_congr (h : v ∈ p.orbit s) {w : Nat} : w ∈ p.orbit v ↔ w ∈ p.orbit s := by
  rw [← Cycle.mem_coe_iff, coe_orbit_eq_of_mem h, Cycle.mem_coe_iff]

theorem self_mem_orbit (p : Permutation) (s : Nat) : s ∈ p.orbit s := List.mem_cons_self

/-- An orbit is moved as a whole: if its start is moved, so is each of its points. -/
theorem image_ne_of_mem_orbit (h : v ∈ p.orbit s) : p.image v ≠ v ↔ p.image s ≠ s := by
  obtain ⟨i, rfl⟩ := p.mem_orbit_iff.1 h
  rw [← Function.iterate_succ_apply' p.image, Function.iterate_succ_apply, ne_eq, ne_eq,
    (p.image_injective.iterate i).eq_iff]

/-- In an orbit every point is followed by its image, and the last by the first. This is how the
assignments of `ofCycles` are read off. -/
theorem rotation_orbit (p : Permutation) (s : Nat) :
    rotation (p.orbit s) = (p.orbit s).map fun v => (v, p.image v) := by
  obtain ⟨m, hm⟩ := Nat.exists_eq_add_one.2 (p.minimalPeriod_pos s)
  have hback : p.image^[m + 1] s = s := hm ▸ Function.iterate_minimalPeriod
  have hnext : (p.orbit s).tail ++ (p.orbit s).head?.toList = (p.orbit s).map p.image := by
    calc (p.orbit s).tail ++ (p.orbit s).head?.toList
        = (List.range m).map (p.image^[· + 1] s) ++ [s] := by
          rw [orbit_eq, hm, List.range_succ_eq_map, List.map_cons, List.map_map]
          rfl
      _ = (List.range (m + 1)).map (p.image^[· + 1] s) := by
          rw [List.range_succ, List.map_append, List.map_singleton, hback]
      _ = (p.orbit s).map p.image := by
          rw [orbit_eq, hm, List.map_map]
          exact List.map_congr_left fun i _ => Function.iterate_succ_apply' p.image i s
  rw [rotation, hnext, List.map_prod_left_eq_zip]

/-! ### Cycles -/

/-- A search for a cycle succeeds at the points that are moved and the least of their orbit, and
gives the orbit. -/
theorem cycleFrom?_eq_some_iff {cycle : List Nat} : p.cycleFrom? s = some cycle ↔
    p.image s ≠ s ∧ (∀ v ∈ p.orbit s, s ≤ v) ∧ cycle = p.orbit s := by
  have habove (hs : p.image s ≠ s) : p.staysAbove s p.size (p.image s) = true ↔
      ∀ v ∈ p.orbit s, s ≤ v := by
    have hle := p.minimalPeriod_le_size (lt_size_of_image_ne hs)
    rw [orbit, List.forall_mem_cons, and_iff_right le_rfl]
    exact p.staysAbove_iterate Nat.one_pos (p.minimalPeriod_pos s) (Nat.lt_succ_of_le hle)
  unfold cycleFrom?
  dsimp only
  split
  · rename_i h
    rw [Option.some.injEq, eq_comm, and_iff_right h.1, and_iff_right ((habove h.1).1 h.2)]
    rfl
  · rename_i h
    refine iff_of_false (fun h => nomatch h) fun hs => h ⟨hs.1, (habove hs.1).2 hs.2.1⟩

/-- The cycles are the orbits of these points. -/
theorem mem_cycles {cycle : List Nat} : cycle ∈ p.cycles ↔
    ∃ s, p.image s ≠ s ∧ (∀ v ∈ p.orbit s, s ≤ v) ∧ cycle = p.orbit s := by
  rw [cycles, List.mem_filterMap]
  constructor
  · rintro ⟨s, -, hs⟩
    exact ⟨s, cycleFrom?_eq_some_iff.1 hs⟩
  · rintro ⟨s, hs⟩
    exact ⟨s, List.mem_range.2 (lt_size_of_image_ne hs.1), cycleFrom?_eq_some_iff.2 hs⟩

/-- Every orbit has a least point. -/
theorem exists_least_mem_orbit (p : Permutation) (v : Nat) :
    ∃ s ∈ p.orbit v, ∀ w ∈ p.orbit s, s ≤ w := by
  have hex : ∃ s, s ∈ p.orbit v := ⟨v, p.self_mem_orbit v⟩
  have hleast := Nat.find_spec hex
  exact ⟨Nat.find hex, hleast, fun w hw => Nat.find_min' hex ((mem_orbit_congr hleast).1 hw)⟩

/-- The points of the cycles are those that are moved, each in the orbit that begins with its least
point. -/
theorem mem_flatten_cycles : v ∈ p.cycles.flatten ↔ p.image v ≠ v := by
  rw [List.mem_flatten]
  constructor
  · rintro ⟨cycle, hcycle, hv⟩
    obtain ⟨s, hs, -, rfl⟩ := mem_cycles.1 hcycle
    exact (image_ne_of_mem_orbit hv).2 hs
  · intro hv
    obtain ⟨s, hs, hleast⟩ := p.exists_least_mem_orbit v
    exact ⟨p.orbit s, mem_cycles.2 ⟨s, (image_ne_of_mem_orbit hs).2 hv, hleast, rfl⟩,
      (mem_orbit_congr hs).2 (p.self_mem_orbit v)⟩

/-- They are points of the domain. -/
theorem lt_size_of_mem_flatten_cycles (h : v ∈ p.cycles.flatten) : v < p.size :=
  lt_size_of_image_ne (mem_flatten_cycles.1 h)

/-- No point stands twice in the cycles: orbits with a common point have the same members, and one
least point. -/
theorem nodup_flatten_cycles (p : Permutation) : p.cycles.flatten.Nodup := by
  refine List.nodup_flatten.2 ⟨fun cycle hcycle => ?_, ?_⟩
  · obtain ⟨s, -, -, rfl⟩ := mem_cycles.1 hcycle
    exact p.nodup_orbit s
  · rw [cycles, List.pairwise_filterMap]
    refine List.pairwise_lt_range.imp fun {s t} hlt cycle hs cycle' ht v hv hv' => ?_
    obtain ⟨-, -, rfl⟩ := cycleFrom?_eq_some_iff.1 hs
    obtain ⟨-, hleast, rfl⟩ := cycleFrom?_eq_some_iff.1 ht
    -- the lesser start would lie in the orbit whose least point is the greater one
    have hmem : s ∈ p.orbit t :=
      (mem_orbit_congr hv').1 ((mem_orbit_congr hv).2 (p.self_mem_orbit s))
    exact Nat.not_le.2 hlt (hleast s hmem)

/-- The cycles of a permutation describe it: `ofCycles` gives the permutation back. -/
theorem ofCycles_cycles (p : Permutation) : ofCycles p.size p.cycles = .ok p := by
  refine ofCycles_eq_ok_iff.2 ⟨fun v hv => lt_size_of_image_ne (mem_flatten_cycles.1 hv),
    p.nodup_flatten_cycles, rfl, fun a ha => ?_, fun v hv => ?_⟩
  · obtain ⟨cycle, hcycle, ha⟩ := List.mem_flatMap.1 ha
    obtain ⟨s, -, -, rfl⟩ := mem_cycles.1 hcycle
    rw [rotation_orbit] at ha
    obtain ⟨v, -, rfl⟩ := List.mem_map.1 ha
    rfl
  · exact not_not.1 fun hmoved => hv (mem_flatten_cycles.2 hmoved)

end PlanOrbits.Permutation
