import Mathlib.Algebra.GCDMonoid.Multiset
import Mathlib.Algebra.GCDMonoid.Nat
import PlanOrbits.Proofs.Permutation.Group
import PlanOrbits.Proofs.Permutation.Tour

/-!
# The order of a permutation

The least common multiple of the lengths of the cycles divides exactly those numbers of repetitions
after which every point is back (`order_dvd_iff`): a point is back after the multiples of its
period, which is the length of its cycle.

In words the order is the same number, if it fits one (`orderWord?_eq`). Since every number that
comes up divides the order, none of them runs over; and no divisor is zero, since the lengths are
not.
-/

namespace PlanOrbits

/-! ### Least common multiples in words -/

section

variable {a b : UInt64}

/-- Euclid's algorithm on words gives the greatest common divisor of the numbers, since no remainder
is larger than a word. -/
theorem toNat_gcdWord (a b : UInt64) : (gcdWord a b).toNat = Nat.gcd a.toNat b.toNat := by
  fun_induction gcdWord a b with
  | case1 a => exact (Nat.gcd_zero_right _).symm
  | case2 a b hb ih =>
      rw [ih, UInt64.toNat_mod, Nat.gcd_comm, ← Nat.gcd_rec, Nat.gcd_comm]

/-- `lcmWord?` succeeds if the least common multiple fits a word and the first word is not zero:
then the greatest common divisor is not zero, so the division is allowed, and the product is the
multiple itself, so it does not run over. -/
theorem exists_lcmWord?_eq_some (ha : 0 < a.toNat)
    (hfits : Nat.lcm a.toNat b.toNat < UInt64.size) :
    ∃ c, lcmWord? a b = some c ∧ c.toNat = Nat.lcm a.toNat b.toNat := by
  have hdivisor : gcdWord a b ≠ 0 := by
    intro hzero
    have hgcd := toNat_gcdWord a b
    rw [hzero] at hgcd
    exact Nat.ne_of_gt (Nat.gcd_pos_of_pos_left _ ha) hgcd.symm
  -- the division comes first, so nothing larger than the result is computed
  have hproduct : (a / gcdWord a b).toNat * b.toNat = Nat.lcm a.toNat b.toNat := by
    rw [UInt64.toNat_div, toNat_gcdWord, Nat.lcm_eq_mul_div,
      Nat.div_mul_right_comm (Nat.gcd_dvd_left _ _)]
  refine ⟨a / gcdWord a b * b, ?_, ?_⟩
  · rw [lcmWord?, if_neg hdivisor]
    exact if_pos (hproduct.trans_lt hfits)
  · rw [UInt64.toNat_mul, hproduct, Nat.mod_eq_of_lt hfits]

/-- One step of the fold: the length of a cycle is converted to a word, which is exact as it divides
a number that fits. -/
theorem exists_lcmLength?_eq_some {cycle : List Nat} (ha : 0 < a.toNat) (hcycle : 0 < cycle.length)
    (hfits : Nat.lcm a.toNat cycle.length < UInt64.size) :
    ∃ c, lcmLength? a cycle = some c ∧ c.toNat = Nat.lcm a.toNat cycle.length := by
  have hlength : cycle.length < UInt64.size :=
    (Nat.le_of_dvd (Nat.lcm_pos ha hcycle) (Nat.dvd_lcm_right _ _)).trans_lt hfits
  have hword : cycle.length.toUInt64.toNat = cycle.length := UInt64.toNat_ofNat_of_lt hlength
  rw [← hword] at hfits ⊢
  obtain ⟨c, hc, hlcm⟩ := exists_lcmWord?_eq_some ha hfits
  refine ⟨c, ?_, hlcm⟩
  rw [lcmLength?, word?, if_pos hlength]
  exact hc

end

/-! ### Least common multiples of lengths -/

section

variable {cycles : List (List Nat)} {a m : Nat}

/-- The multiples of the folded least common multiple are the common multiples of the start and of
all lengths. -/
theorem foldl_lcm_dvd_iff :
    cycles.foldl (fun n cycle => Nat.lcm n cycle.length) a ∣ m ↔
      a ∣ m ∧ ∀ cycle ∈ cycles, cycle.length ∣ m := by
  induction cycles generalizing a with
  | nil => simp
  | cons cycle cycles ih =>
      rw [List.foldl_cons, ih, Nat.lcm_dvd_iff, List.forall_mem_cons, and_assoc]

theorem foldl_lcm_pos (ha : 0 < a) (hcycles : ∀ cycle ∈ cycles, 0 < cycle.length) :
    0 < cycles.foldl (fun n cycle => Nat.lcm n cycle.length) a := by
  induction cycles generalizing a with
  | nil => exact ha
  | cons cycle cycles ih =>
      obtain ⟨hcycle, hrest⟩ := List.forall_mem_cons.1 hcycles
      exact ih (Nat.lcm_pos ha hcycle) hrest

/-- The fold over the lengths succeeds in words if its result fits one. Every number on the way
divides the result, so it fits as well, and none of them is zero. -/
theorem exists_foldlM_lcmLength? {w : UInt64} (hw : 0 < w.toNat)
    (hcycles : ∀ cycle ∈ cycles, 0 < cycle.length)
    (hfits : cycles.foldl (fun n cycle => Nat.lcm n cycle.length) w.toNat < UInt64.size) :
    ∃ k, cycles.foldlM lcmLength? w = some k ∧
      k.toNat = cycles.foldl (fun n cycle => Nat.lcm n cycle.length) w.toNat := by
  induction cycles generalizing w with
  | nil => exact ⟨w, rfl, rfl⟩
  | cons cycle cycles ih =>
      rw [List.foldl_cons] at hfits ⊢
      obtain ⟨hcycle, hrest⟩ := List.forall_mem_cons.1 hcycles
      have hpos := Nat.lcm_pos hw hcycle
      -- the first step: its result divides the one at the end
      have hlcm : Nat.lcm w.toNat cycle.length < UInt64.size :=
        (Nat.le_of_dvd (foldl_lcm_pos hpos hrest) (foldl_lcm_dvd_iff.1 dvd_rfl).1).trans_lt hfits
      obtain ⟨c, hc, hcLcm⟩ := exists_lcmLength?_eq_some hw hcycle hlcm
      rw [← hcLcm] at hpos hfits ⊢
      obtain ⟨k, hk, hkLcm⟩ := ih hpos hrest hfits
      exact ⟨k, by rw [List.foldlM_cons, hc]; exact hk, hkLcm⟩

end

namespace Permutation

open Function (minimalPeriod)

variable {p : Permutation} {m v : Nat}

/-! ### Orders -/

theorem length_pos_of_mem_cycles {cycle : List Nat} (h : cycle ∈ p.cycles) :
    0 < cycle.length := by
  obtain ⟨s, -, -, rfl⟩ := mem_cycles.1 h
  exact Nat.succ_pos _

theorem order_pos (p : Permutation) : 0 < p.order :=
  foldl_lcm_pos Nat.one_pos fun _ => length_pos_of_mem_cycles

/-- The order is the least common multiple of the lengths of the cycles, as a multiset. -/
theorem order_eq_lcm (p : Permutation) :
    p.order = ((p.cycles.map List.length : List Nat) : Multiset Nat).lcm := by
  refine Nat.dvd_antisymm (foldl_lcm_dvd_iff.2 ⟨one_dvd _, fun cycle hcycle => ?_⟩)
    (Multiset.lcm_dvd.2 fun length hlength => ?_)
  · exact Multiset.dvd_lcm (Multiset.mem_coe.2 (List.mem_map_of_mem hcycle))
  · obtain ⟨cycle, hcycle, rfl⟩ := List.mem_map.1 (Multiset.mem_coe.1 hlength)
    exact (foldl_lcm_dvd_iff.1 (dvd_refl p.order)).2 cycle hcycle

/-- The lengths of the cycles divide `m` if and only if the periods of all points do. A point that
is moved stands in a cycle, whose length is its period; a point that is fixed has period one. -/
theorem forall_length_dvd_iff :
    (∀ cycle ∈ p.cycles, cycle.length ∣ m) ↔ ∀ v, minimalPeriod p.image v ∣ m := by
  constructor
  · intro h v
    by_cases hv : p.image v = v
    · rw [Function.minimalPeriod_eq_one_iff_isFixedPt.2 hv]
      exact one_dvd m
    · obtain ⟨cycle, hcycle, hmem⟩ := List.mem_flatten.1 (mem_flatten_cycles.2 hv)
      obtain ⟨s, -, -, rfl⟩ := mem_cycles.1 hcycle
      -- every point of an orbit has the period of its start
      have hperiod : minimalPeriod p.image v = (p.orbit s).length := by
        obtain ⟨i, rfl⟩ := p.mem_orbit_iff.1 hmem
        rw [length_orbit, Function.minimalPeriod_apply_iterate (p.mem_periodicPts s)]
      exact hperiod ▸ h _ hcycle
  · intro h cycle hcycle
    obtain ⟨s, -, -, rfl⟩ := mem_cycles.1 hcycle
    exact p.length_orbit s ▸ h s

/-- All points are back after `m` repetitions if and only if the order divides `m`. -/
theorem order_dvd_iff : p.order ∣ m ↔ ∀ v, p.image^[m] v = v := by
  rw [order, foldl_lcm_dvd_iff, and_iff_right (one_dvd m), forall_length_dvd_iff]
  exact forall_congr' fun v => Function.isPeriodicPt_iff_minimalPeriod_dvd.symm

/-- `orderWord?` gives the order, if it fits a word. The walks that find the cycles come back, by
`tour_eq`. -/
theorem orderWord?_eq (hfits : p.order < UInt64.size) :
    ∃ k, p.orderWord? = Part.some (some k) ∧ k.toNat = p.order := by
  obtain ⟨k, hk, horder⟩ := @exists_foldlM_lcmLength? p.cycles 1 Nat.one_pos
    (fun _ => length_pos_of_mem_cycles) hfits
  refine ⟨k, ?_, horder⟩
  rw [orderWord?, tour_eq, ← hk]
  exact Part.bind_some _ _

/-! ### Repetitions -/

/-- The permutation composed with itself so many times. -/
def power (p : Permutation) : Nat → Except DomainError Permutation
  | 0 => .ok (identity p.size)
  | m + 1 => do p.compose (← p.power m)

/-- Powers can be composed, as they have as many points, and the power applies the permutation `m`
times. -/
theorem exists_power_eq_ok (p : Permutation) (m : Nat) :
    ∃ q, p.power m = .ok q ∧ q.size = p.size ∧ ∀ v, q.image v = p.image^[m] v := by
  induction m with
  | zero => exact ⟨identity p.size, rfl, size_identity _, image_identity _⟩
  | succ m ih =>
      obtain ⟨q, hq, hsize, himage⟩ := ih
      obtain ⟨r, hr⟩ := exists_compose_iff.2 hsize.symm
      refine ⟨r, by rw [power, hq]; exact hr, (size_of_compose hr).trans hsize, fun v => ?_⟩
      rw [image_of_compose hr, himage, Function.iterate_succ_apply']

theorem isIdentity_iff : p.isIdentity = true ↔ p = identity p.size := by
  rw [isIdentity, beq_iff_eq]
  constructor
  · intro h
    exact eq_of_images (Array.toList_inj.1 (h.trans Array.toList_range.symm))
  · intro h
    rw [h, size_identity]
    exact Array.toList_range

/-- To compare a permutation with the identity it is enough to look at images. -/
theorem eq_identity_iff : p = identity p.size ↔ ∀ v, p.image v = v := by
  constructor
  · intro h v
    rw [h, image_identity]
  · exact fun h => eq_of_image (size_identity _).symm fun v _ => by rw [h, image_identity]

/-- If the least common multiple of the lengths of the cycles fits a word, the order is found in
words, without running over and without a division by zero. The permutation can be repeated any
number of times, and the order divides those numbers after which it is the identity. -/
theorem power_eq_identity_iff_order_dvd (p : Permutation)
    (hfits : ((p.cycles.map List.length : List Nat) : Multiset Nat).lcm < UInt64.size) :
    ∃ k : UInt64, p.orderWord? = Part.some (some k) ∧ k.toNat = p.order ∧ 1 ≤ k.toNat ∧
      ∀ m, ∃ q, p.power m = .ok q ∧ (q.isIdentity = true ↔ q = identity p.size) ∧
        (q = identity p.size ↔ k.toNat ∣ m) := by
  obtain ⟨k, hk, horder⟩ := orderWord?_eq (p.order_eq_lcm.trans_lt hfits)
  refine ⟨k, hk, horder, horder ▸ p.order_pos, fun m => ?_⟩
  obtain ⟨q, hq, hsize, himage⟩ := p.exists_power_eq_ok m
  refine ⟨q, hq, by rw [isIdentity_iff, hsize], ?_⟩
  rw [← hsize, eq_identity_iff, horder, order_dvd_iff]
  exact forall_congr' fun v => by rw [himage]

/-- Nine points with cycles of two, three and four points. -/
def twoThreeFour : Permutation := ⟨#[1, 0, 3, 4, 2, 6, 7, 8, 5], by decide, by decide⟩

/-- A permutation of nine points with cycles of two, three and four points has order twelve: the
identity comes after twelve repetitions, and not after six. -/
theorem power_eq_identity_iff_order_dvd_ninePoints :
    ((twoThreeFour.cycles.map List.length : List Nat) : Multiset Nat).lcm < UInt64.size ∧
    twoThreeFour.orderWord? = Part.some (some 12) ∧
    twoThreeFour.power 12 = .ok (identity 9) ∧ twoThreeFour.power 6 ≠ .ok (identity 9) := by
  have horder : twoThreeFour.order = 12 := by decide +kernel
  have hfits : ((twoThreeFour.cycles.map List.length : List Nat) : Multiset Nat).lcm <
      UInt64.size := by
    rw [← order_eq_lcm, horder]
    decide
  obtain ⟨k, hk, hkOrder, -, hpower⟩ := power_eq_identity_iff_order_dvd twoThreeFour hfits
  obtain rfl : k = 12 := UInt64.toNat_inj.1 (hkOrder.trans horder)
  obtain ⟨q, hq, -, hidentity⟩ := hpower 12
  obtain ⟨q', hq', -, hidentity'⟩ := hpower 6
  refine ⟨hfits, hk, hq.trans (congrArg Except.ok (hidentity.2 (by decide))), fun h => ?_⟩
  exact absurd (hidentity'.1 (Except.ok.inj (hq'.symm.trans h))) (by decide)

end Permutation

end PlanOrbits
