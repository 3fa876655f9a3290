import PlanOrbits.Permutation.Stepwise
import PlanOrbits.Proofs.Permutation.Cycles

/-!
# Tours find the cycles

Every walk of a tour comes back to its start, since the permutation does, and collects the orbit
of its start (`exists_walk_eq_some`). When the tour comes to a point, it has visited the orbits
of all lesser points (`HasComeTo`). So a point is passed over exactly if its orbit holds a lesser
one, and a point at which a walk starts is the least of its orbit. One point after the other, the
tour finds what `cycleFrom?` finds (`exists_visit_eq_some`); at the end it has the cycles of the
permutation (`tour_eq`).
-/

namespace PlanOrbits

/-- Marking a point marks this point and no other. -/
theorem Marks.has_mark {n point : Nat} (m : Marks n) (h : point < n) (v : Nat) :
    (m.mark point).has v = true ↔ m.has v = true ∨ v = point := by
  unfold mark has
  by_cases hv : v < n
  · rw [dif_pos hv, dif_pos hv, Vector.getElem_setIfInBounds]
    by_cases heq : point = v
    · simp [heq]
    · simp [heq, Ne.symm heq]
  · have hne : v ≠ point := fun heq => hv (heq ▸ h)
    simp [hv, hne]

namespace Permutation

open Function (minimalPeriod)

variable {p : Permutation} {s v i k : Nat}

/-! ### Orbits once more -/

theorem length_orbit (p : Permutation) (s : Nat) :
    (p.orbit s).length = minimalPeriod p.image s := by
  rw [orbit_eq, List.length_map, List.length_range]

/-- A point is moved if its orbit has another point. -/
theorem one_lt_length_orbit_iff : 1 < (p.orbit s).length ↔ p.image s ≠ s := by
  have hpos := p.minimalPeriod_pos s
  have hone : minimalPeriod p.image s = 1 ↔ p.image s = s :=
    Function.minimalPeriod_eq_one_iff_isFixedPt
  rw [length_orbit, ne_eq, ← hone]
  omega

theorem mem_orbit_comm : v ∈ p.orbit s ↔ s ∈ p.orbit v :=
  ⟨fun h => (mem_orbit_congr h).2 (p.self_mem_orbit s),
    fun h => (mem_orbit_congr h).2 (p.self_mem_orbit v)⟩

/-- A point starts a cycle if it is moved and no lesser point lies in its orbit. The tour asks the
same by way of its marks. -/
theorem cycleFrom?_eq (p : Permutation) (s : Nat) : p.cycleFrom? s =
    if 1 < (p.orbit s).length ∧ ∀ v ∈ p.orbit s, s ≤ v then some (p.orbit s) else none := by
  split
  · rename_i h
    exact cycleFrom?_eq_some_iff.2 ⟨one_lt_length_orbit_iff.1 h.1, h.2, rfl⟩
  · rename_i h
    refine Option.eq_none_iff_forall_ne_some.2 fun cycle hcycle => h ?_
    obtain ⟨hmoved, hleast, -⟩ := cycleFrom?_eq_some_iff.1 hcycle
    exact ⟨one_lt_length_orbit_iff.2 hmoved, hleast⟩

/-! ### Walks -/

theorem iterate_lt_size_iff (p : Permutation) : p.image^[i] v < p.size ↔ v < p.size := by
  induction i with
  | zero => rfl
  | succ i ih => rw [Function.iterate_succ_apply', p.image_lt_size_iff, ih]

/-- The rest of a walk: if the permutation comes back in `k` steps, so does the walk, and it has
marked and collected the points on the way. By induction on `k`, for every walk that is under way.
-/
theorem exists_reaches_start (hs : s < p.size) (hi : 0 < i) (hk : i + k = minimalPeriod p.image s)
    (visited : Marks p.size) (cycle : List Nat) :
    ∃ visited', StateTransition.Reaches (p.goOn? s) ⟨visited, cycle, p.image^[i] s⟩
        ⟨visited', cycle ++ (List.range' i k).map (p.image^[·] s), s⟩ ∧
      ∀ v, visited'.has v = true ↔
        visited.has v = true ∨ v ∈ (List.range' i k).map (p.image^[·] s) := by
  induction k generalizing i visited cycle with
  | zero =>
      obtain rfl : i = minimalPeriod p.image s := hk
      rw [Function.iterate_minimalPeriod, List.range'_zero, List.map_nil, List.append_nil]
      exact ⟨visited, .refl, fun v => by simp⟩
  | succ k ih =>
      -- the walk is not back yet, so it goes on
      have hne : p.image^[i] s ≠ s := p.iterate_ne hi (by omega)
      have hlt : p.image^[i] s < p.size := p.iterate_lt_size_iff.2 hs
      obtain ⟨visited', hreaches, hvisited⟩ := ih (Nat.succ_pos i) (by omega)
        (visited.mark (p.image^[i] s)) (cycle ++ [p.image^[i] s])
      rw [Function.iterate_succ_apply' p.image, List.append_assoc] at hreaches
      rw [List.range'_succ, List.map_cons]
      refine ⟨visited', hreaches.head (if_neg hne), fun v => ?_⟩
      rw [hvisited, Marks.has_mark _ hlt, List.mem_cons, or_assoc]

/-- A walk comes back to its start and has collected the orbit of it. -/
theorem exists_walk_eq_some (hs : s < p.size) (visited : Marks p.size) :
    ∃ visited', p.walk visited s = Part.some ⟨visited', p.orbit s, s⟩ ∧
      ∀ v, visited'.has v = true ↔ visited.has v = true ∨ v ∈ p.orbit s := by
  obtain ⟨k, hk⟩ := Nat.exists_eq_add_of_lt (p.minimalPeriod_pos s)
  have horbit : p.orbit s = s :: (List.range' 1 k).map (p.image^[·] s) := by
    rw [orbit_eq, hk, Nat.zero_add, List.range_eq_range', List.range'_succ]
    rfl
  obtain ⟨visited', hreaches, hvisited⟩ :=
    exists_reaches_start hs Nat.one_pos (by omega : 1 + k = _) (visited.mark s) [s]
  rw [horbit]
  refine ⟨visited', Part.eq_some_iff.2 (StateTransition.mem_eval.2 ⟨hreaches, if_pos rfl⟩),
    fun v => ?_⟩
  rw [hvisited, Marks.has_mark _ hs, List.mem_cons, or_assoc]

/-! ### From point to point -/

/-- A tour has come to the point `s`: the orbits of the lesser points have been visited, and of
these points the cycles have been found. -/
structure HasComeTo (p : Permutation) (t : Tour p.size) (s : Nat) : Prop where
  visited : ∀ v, t.visited.has v = true ↔ ∃ u < s, v ∈ p.orbit u
  cycles : t.cycles = (List.range s).filterMap p.cycleFrom?

variable {t : Tour p.size}

/-- When the tour comes to a point, the point has been visited if its orbit holds a lesser one. -/
theorem HasComeTo.visited_iff (h : p.HasComeTo t s) :
    t.visited.has s = true ↔ ¬ ∀ v ∈ p.orbit s, s ≤ v := by
  rw [h.visited]
  simp only [not_forall, Nat.not_le, exists_prop]
  exact exists_congr fun u => by rw [mem_orbit_comm, and_comm]

/-- What a visit adds to the cycles is what `cycleFrom?` finds at the point. -/
theorem HasComeTo.cycles_succ (h : p.HasComeTo t s) :
    t.cycles ++ (p.cycleFrom? s).toList = (List.range (s + 1)).filterMap p.cycleFrom? := by
  rw [h.cycles, List.range_succ, List.filterMap_append, List.filterMap_cons, List.filterMap_nil]
  cases p.cycleFrom? s <;> rfl

/-- The step lemma: every visit comes to an end and takes the tour one point further. A point that
was visited is passed over; otherwise the walk from it collects its orbit. -/
theorem exists_visit_eq_some (hs : s < p.size) (h : p.HasComeTo t s) :
    ∃ t', p.visit t s = Part.some t' ∧ p.HasComeTo t' (s + 1) := by
  rw [visit]
  by_cases hvisited : t.visited.has s = true
  · -- the orbit of the point is that of a lesser one, and no cycle starts here
    have hnot := h.visited_iff.1 hvisited
    refine ⟨t, if_pos hvisited, fun v => ?_, ?_⟩
    · rw [h.visited]
      obtain ⟨u, hu, hmem⟩ := (h.visited s).1 hvisited
      refine ⟨fun ⟨w, hw, hv⟩ => ⟨w, Nat.lt_succ_of_lt hw, hv⟩, fun ⟨w, hw, hv⟩ => ?_⟩
      rcases Nat.lt_succ_iff_lt_or_eq.1 hw with hw | rfl
      · exact ⟨w, hw, hv⟩
      · exact ⟨u, hu, (mem_orbit_congr hmem).1 hv⟩
    · rw [← h.cycles_succ, cycleFrom?_eq, if_neg fun hstart => hnot hstart.2]
      simp
  · -- the point is the least of its orbit, and a walk starts here
    have hleast := not_not.1 (mt h.visited_iff.2 hvisited)
    obtain ⟨visited', hwalk, hvisited'⟩ := exists_walk_eq_some hs t.visited
    refine ⟨_, by rw [if_neg hvisited, hwalk]; exact Part.bind_some _ _, fun v => ?_, ?_⟩
    · rw [hvisited', h.visited]
      simp only [Nat.lt_succ_iff_lt_or_eq, or_and_right, exists_or, exists_eq_left]
    · rw [← h.cycles_succ, cycleFrom?_eq]
      dsimp only
      by_cases hlong : 1 < (p.orbit s).length
      · rw [if_pos hlong, if_pos ⟨hlong, hleast⟩]
        rfl
      · rw [if_neg hlong, if_neg fun hstart => hlong hstart.1]
        simp

/-- The run lemma: all walks of a tour come back, and the tour finds the cycles of the permutation,
by induction on the points that it has come to. -/
theorem tour_eq (p : Permutation) : p.tour = Part.some p.cycles := by
  have hrun (k : Nat) (hk : k ≤ p.size) :
      ∃ t, (List.range k).foldlM p.visit ⟨Marks.empty p.size, []⟩ = Part.some t ∧
        p.HasComeTo t k := by
    induction k with
    | zero => exact ⟨_, rfl, by simp, rfl⟩
    | succ k ih =>
        obtain ⟨t, ht, hcome⟩ := ih (Nat.le_of_succ_le hk)
        obtain ⟨t', ht', hcome'⟩ := exists_visit_eq_some hk hcome
        refine ⟨t', ?_, hcome'⟩
        rw [List.range_succ, List.foldlM_append, ht]
        simpa using ht'
  obtain ⟨t, ht, hcome⟩ := hrun p.size le_rfl
  rw [tour, ht, cycles, ← hcome.cycles]
  exact Part.bind_some _ _

end Permutation

end PlanOrbits
