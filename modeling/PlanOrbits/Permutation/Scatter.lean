import PlanOrbits.Permutation.Basic

/-!
# Filling tables

`scatter` writes a list of assignments `(point, image)` into a table. If the
points are distinct, the finished table has for each of them its image and is
unchanged elsewhere. Inverses and permutations given by cycles are made this way,
and `ofAssignments` is the one place where such a table is shown to be that of a
permutation.
-/

namespace PlanOrbits

/-- Write assignments of images to points into a table. -/
def scatter (table : Array Nat) (assignments : List (Nat × Nat)) : Array Nat :=
  assignments.foldl (fun table (point, image) => table.setIfInBounds point image) table

@[simp] theorem size_scatter (table : Array Nat) (assignments : List (Nat × Nat)) :
    (scatter table assignments).size = table.size := by
  induction assignments generalizing table with
  | nil => rfl
  | cons a rest ih => simpa [scatter] using ih (table.setIfInBounds a.1 a.2)

/-- Points without an assignment keep their image. -/
theorem getElem_scatter_of_not_mem {table : Array Nat} {assignments : List (Nat × Nat)}
    {point : Nat} (hp : point < table.size) (hnot : point ∉ assignments.map Prod.fst) :
    getElem (scatter table assignments) point (by simpa using hp) = table[point] := by
  induction assignments generalizing table with
  | nil => rfl
  | cons a rest ih =>
      simp only [List.map_cons, List.mem_cons, not_or] at hnot
      have h := @ih (table.setIfInBounds a.1 a.2) (by simpa using hp) hnot.2
      simp only [scatter, List.foldl_cons] at h ⊢
      rw [h, Array.getElem_setIfInBounds hp, if_neg (fun e => hnot.1 e.symm)]

/-- Points with one assignment get their image from it. -/
theorem getElem_scatter_of_mem {table : Array Nat} {assignments : List (Nat × Nat)}
    {point image : Nat} (hp : point < table.size) (hmem : (point, image) ∈ assignments)
    (hnodup : (assignments.map Prod.fst).Nodup) :
    getElem (scatter table assignments) point (by simpa using hp) = image := by
  induction assignments generalizing table with
  | nil => cases hmem
  | cons a rest ih =>
      obtain ⟨hnot, hrest⟩ := List.nodup_cons.1 hnodup
      have hp' : point < (table.setIfInBounds a.1 a.2).size := by simpa using hp
      cases hmem with
      | head =>
          have h := getElem_scatter_of_not_mem hp' hnot
          simp only [scatter, List.foldl_cons] at h ⊢
          rw [h, Array.getElem_setIfInBounds hp, if_pos rfl]
      | tail _ hmem => simpa [scatter] using ih hp' hmem hrest

/-- What a list of assignments must be to permute the points it names. -/
structure Exchanges (n : Nat) (assignments : List (Nat × Nat)) : Prop where
  bounded : ∀ a ∈ assignments, a.1 < n
  nodup : (assignments.map Prod.fst).Nodup
  perm : (assignments.map Prod.snd).Perm (assignments.map Prod.fst)

namespace Exchanges

variable {n : Nat} {assignments : List (Nat × Nat)}

/-- Images are assigned to one point only. -/
theorem fst_eq_of_snd_eq (h : Exchanges n assignments) {a b : Nat × Nat}
    (ha : a ∈ assignments) (hb : b ∈ assignments) (heq : a.2 = b.2) : a = b := by
  have hnodup : (assignments.map Prod.snd).Nodup := h.perm.nodup_iff.2 h.nodup
  obtain ⟨i, hi, rfl⟩ := List.getElem_of_mem ha
  obtain ⟨j, hj, rfl⟩ := List.getElem_of_mem hb
  have hne := List.pairwise_iff_getElem.1 hnodup
  simp only [List.length_map, List.getElem_map] at hne
  rcases Nat.lt_trichotomy i j with hlt | rfl | hlt
  · exact absurd heq (hne i j hi hj hlt)
  · rfl
  · exact absurd heq.symm (hne j i hj hi hlt)

/-- Images are points. -/
theorem snd_mem (h : Exchanges n assignments) {a : Nat × Nat} (ha : a ∈ assignments) :
    a.2 ∈ assignments.map Prod.fst :=
  h.perm.mem_iff.1 (List.mem_map_of_mem ha)

/-- The table of the identity, overwritten: what it says of a point. -/
theorem getElem_cases (h : Exchanges n assignments) {point : Nat} (hp : point < n) :
    (∃ a ∈ assignments, a.1 = point ∧
        getElem (scatter (Array.range n) assignments) point (by simpa using hp) = a.2) ∨
      (point ∉ assignments.map Prod.fst ∧
        getElem (scatter (Array.range n) assignments) point (by simpa using hp) = point) := by
  by_cases hmem : point ∈ assignments.map Prod.fst
  · obtain ⟨a, ha, rfl⟩ := List.mem_map.1 hmem
    exact .inl ⟨a, ha, rfl, getElem_scatter_of_mem (by simpa using hp) ha h.nodup⟩
  · refine .inr ⟨hmem, ?_⟩
    rw [getElem_scatter_of_not_mem (by simpa using hp) hmem]
    simp

end Exchanges

/-- The permutation that sends the named points to their images and fixes the
others. -/
def Permutation.ofAssignments (n : Nat) (assignments : List (Nat × Nat))
    (h : Exchanges n assignments) : Permutation where
  images := scatter (Array.range n) assignments
  bounded := by
    intro v hv
    obtain ⟨i, hi, rfl⟩ := Array.getElem_of_mem hv
    simp only [size_scatter, Array.size_range] at hi ⊢
    rcases h.getElem_cases hi with ⟨a, ha, -, heq⟩ | ⟨-, heq⟩
    · rw [heq]
      obtain ⟨b, hb, hba⟩ := List.mem_map.1 (h.snd_mem ha)
      rw [← hba]
      exact h.bounded b hb
    · rw [heq]
      exact hi
  nodup := by
    rw [List.Nodup, List.pairwise_iff_getElem]
    intro i j hi hj hlt heq
    simp only [Array.length_toList, size_scatter, Array.size_range] at hi hj
    simp only [Array.getElem_toList] at heq
    rcases h.getElem_cases hi with ⟨a, ha, hai, hi'⟩ | ⟨hnot, hi'⟩ <;>
      rcases h.getElem_cases hj with ⟨b, hb, hbj, hj'⟩ | ⟨hnot', hj'⟩ <;>
      rw [hi', hj'] at heq
    · have := h.fst_eq_of_snd_eq ha hb heq
      subst this
      omega
    · exact hnot' (heq ▸ h.snd_mem ha)
    · exact hnot (heq ▸ h.snd_mem hb)
    · omega

namespace Permutation

/-- The assignments that undo the permutation. -/
def inverseAssignments (p : Permutation) : List (Nat × Nat) := p.images.toList.zipIdx

theorem inverseAssignments_exchanges (p : Permutation) :
    Exchanges p.size p.inverseAssignments where
  bounded := by
    intro a ha
    exact p.bounded _ (by simpa using List.fst_mem_of_mem_zipIdx ha)
  nodup := by
    simpa [inverseAssignments, List.zipIdx_map_fst] using p.nodup
  perm := by
    simp only [inverseAssignments, List.zipIdx_map_fst, List.zipIdx_map_snd]
    refine (List.perm_ext_iff_of_nodup List.nodup_range' p.nodup).2 fun v => ?_
    simp only [List.mem_range'_1, Nat.zero_le, Nat.zero_add, true_and, Array.length_toList,
      Array.mem_toList_iff]
    exact ⟨fun h => p.mem_images h, fun h => p.bounded v h⟩

/-- The permutation that undoes `p`. -/
def inverse (p : Permutation) : Permutation :=
  ofAssignments p.size p.inverseAssignments p.inverseAssignments_exchanges

end Permutation

end PlanOrbits
