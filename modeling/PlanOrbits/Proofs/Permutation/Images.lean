import Mathlib.Data.Set.Finite.Basic
import PlanOrbits.Permutation.Cycles

/-!
# Images under a permutation

A permutation as a function on all numbers: what is no point of the domain is fixed. The
function is injective and sends points to points, so that it is a bijection of the domain
(`bijOn_image`); together with the number of points it determines the permutation
(`eq_of_image`).

A permutation made from assignments sends every named point to the image that is assigned to
it and fixes the others. For disjoint cycles the assignments lead from each point of a cycle to
the next one; `ofCycles_eq_ok_iff` says which cycles are accepted and determines the permutation
that they describe.
-/

namespace PlanOrbits.Permutation

variable (p : Permutation)

/-- A number that is no point stays. -/
theorem image_of_size_le {v : Nat} (h : p.size ≤ v) : p.image v = v := by
  rw [image, image?, Array.getElem?_eq_none h, Option.getD_none]

/-- Points go to points, and only points do. -/
theorem image_lt_size_iff {v : Nat} : p.image v < p.size ↔ v < p.size := by
  by_cases h : v < p.size
  · rw [image_eq_getElem (show v < p.images.size from h)]
    exact iff_of_true (p.bounded _ (Array.getElem_mem _)) h
  · rw [p.image_of_size_le (Nat.le_of_not_lt h)]

/-- No two numbers have one image; a point and a number that is no point have images on different
sides of the bound. -/
theorem image_injective : Function.Injective p.image := by
  intro v w h
  have hiff : v < p.size ↔ w < p.size := by
    rw [← p.image_lt_size_iff (v := v), h, p.image_lt_size_iff]
  by_cases hv : v < p.size
  · rw [image_eq_getElem hv, image_eq_getElem (hiff.1 hv)] at h
    exact eq_of_getElem_eq hv (hiff.1 hv) h
  · -- what is no point is fixed
    rwa [p.image_of_size_le (Nat.le_of_not_lt hv),
      p.image_of_size_le (Nat.le_of_not_lt fun hw => hv (hiff.2 hw))] at h

/-- The points are permuted: an injection of finitely many points is a bijection. -/
theorem bijOn_image : Set.BijOn p.image (Set.Iio p.size) (Set.Iio p.size) :=
  ((Set.finite_lt_nat p.size).injOn_iff_bijOn_of_mapsTo fun _ => p.image_lt_size_iff.2).1
    p.image_injective.injOn

variable {p} {q : Permutation} {v : Nat}

/-- What is moved is a point. -/
theorem lt_size_of_image_ne (h : p.image v ≠ v) : v < p.size := by
  by_contra hge
  exact h (p.image_of_size_le (Nat.le_of_not_lt hge))

/-- The query, which fails for numbers that are no points. -/
theorem image?_eq_none (h : p.size ≤ v) : p.image? v = none := Array.getElem?_eq_none h

/-- A permutation is its table. -/
theorem eq_of_images (h : p.images = q.images) : p = q := by
  cases p
  cases q
  cases h
  rfl

/-- Permutations of as many points are equal if they send every point to the same image. -/
theorem eq_of_image (hsize : p.size = q.size) (himage : ∀ v < p.size, p.image v = q.image v) :
    p = q := by
  refine eq_of_images (Array.ext hsize fun v hp hq => ?_)
  rw [← image_eq_getElem hp, ← image_eq_getElem hq]
  exact himage v hp

/-! ### Assignments -/

section Assignments

variable {n : Nat} {assignments : List (Nat × Nat)} (h : Exchanges n assignments)
include h

/-- The number of points is the one that was asked for. -/
theorem size_ofAssignments : (ofAssignments n assignments h).size = n :=
  (size_scatter ..).trans Array.size_range

/-- A named point goes to the image assigned to it: the points are different, so no assignment
overwrites another. -/
theorem image_ofAssignments_of_mem {a : Nat × Nat} (ha : a ∈ assignments) :
    (ofAssignments n assignments h).image a.1 = a.2 := by
  have hlt : a.1 < (Array.range n).size := Array.size_range ▸ h.bounded a ha
  rw [image_eq_getElem ((size_scatter ..).symm ▸ hlt)]
  exact getElem_scatter_of_mem hlt ha h.nodup

/-- All other points are fixed. -/
theorem image_ofAssignments_of_not_mem (hv : v ∉ assignments.map Prod.fst) :
    (ofAssignments n assignments h).image v = v := by
  by_cases hlt : v < (Array.range n).size
  · rw [image_eq_getElem ((size_scatter ..).symm ▸ hlt)]
    exact (getElem_scatter_of_not_mem hlt hv).trans (Array.getElem_range _)
  · refine image_of_size_le _ ?_
    rw [size_ofAssignments h, ← Array.size_range (n := n)]
    exact Nat.le_of_not_lt hlt

end Assignments

/-! ### Cycles -/

/-- `ofCycles` accepts cycles if and only if their points lie below the bound and none occurs twice.
The permutation of as many points that follows the cycles and fixes every other point is then the
one that they describe. -/
theorem ofCycles_eq_ok_iff {n : Nat} {cycles : List (List Nat)} : ofCycles n cycles = .ok p ↔
    (∀ v ∈ cycles.flatten, v < n) ∧ cycles.flatten.Nodup ∧ p.size = n ∧
      (∀ a ∈ cycles.flatMap rotation, p.image a.1 = a.2) ∧
        ∀ v, v ∉ cycles.flatten → p.image v = v := by
  constructor
  · intro h
    unfold ofCycles at h
    split at h
    · rename_i hmarks
      cases h
      obtain ⟨hall, hnodup, -⟩ := Marks.addAll_eq_ok hmarks
      refine ⟨fun v hv => (hall v hv).1, hnodup, size_ofAssignments _,
        fun a ha => image_ofAssignments_of_mem _ ha, fun v hv => ?_⟩
      exact image_ofAssignments_of_not_mem _ (by rwa [map_fst_rotations])
    · cases h
  · rintro ⟨hlt, hnodup, hsize, hmoved, hfixed⟩
    obtain ⟨marks, hmarks⟩ := @Marks.exists_addAll_eq_ok _ (Marks.empty n) 0 _
      (fun v hv => ⟨hlt v hv, Marks.has_empty v⟩) hnodup
    unfold ofCycles
    split
    · -- the assignments of the cycles and those of `p` agree on every point, named or not
      have hexchanges := exchanges_rotations hlt hnodup
      have hp : ofAssignments n (cycles.flatMap rotation) hexchanges = p := by
        refine eq_of_image ((size_ofAssignments _).trans hsize.symm) fun v _ => ?_
        by_cases hv : v ∈ cycles.flatten
        · rw [← map_fst_rotations] at hv
          obtain ⟨a, ha, rfl⟩ := List.mem_map.1 hv
          rw [image_ofAssignments_of_mem _ ha, hmoved a ha]
        · rw [image_ofAssignments_of_not_mem _ (by rwa [map_fst_rotations]), hfixed v hv]
      exact congrArg Except.ok hp
    · rename_i herror
      rw [hmarks] at herror
      cases herror

end PlanOrbits.Permutation
