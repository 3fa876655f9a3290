import Mathlib.Algebra.Order.Field.Power
import Mathlib.Data.Rat.Cast.Order
import Mathlib.Tactic.Linarith
import Mathlib.Tactic.NormNum
import Mathlib.Tactic.Positivity
import Mathlib.Tactic.Ring
import PlanOrbits.Number.Binary64

/-!
# Rounding to the nearest number

The numbers of the binary format are the products of a significand below `2 ^ 53` and a power of
two not below `2 ^ -1074` (`IsRepresentable`; magnitudes only, and without the bound above). A
number is rounded to the nearest of them, and from the middle between two to the one with the
even significand (`IsNearest`). There is only one such number (`IsNearest.unique`).

A number is rounded by scaling it so that significands are whole numbers, and rounding there
(`isNearest_scaled`): among whole numbers nothing is nearer, and all numbers with lower exponents
lie below the least of these significands.
-/

namespace PlanOrbits.Binary64

/-! ### The numbers of the format -/

/-- A significand times a power of two. -/
def IsRepresentable (x : ℚ) : Prop := ∃ (m : ℕ) (e : ℤ), m < 2 ^ 53 ∧ -1074 ≤ e ∧ x = m * 2 ^ e

/-- The significand is even when it is as large as it can be. -/
def IsEven (x : ℚ) : Prop :=
  ∃ (m : ℕ) (e : ℤ), m < 2 ^ 53 ∧ -1074 ≤ e ∧ x = m * 2 ^ e ∧
    (2 ^ 52 ≤ m ∨ e = -1074) ∧ Even m

/-- No number of the format is nearer to `x` than `c`. If another one is as near, the
significand of `c` is even. -/
structure IsNearest (x c : ℚ) : Prop where
  representable : IsRepresentable c
  le : ∀ y, IsRepresentable y → |c - x| ≤ |y - x|
  even : ∀ y, IsRepresentable y → y ≠ c → |y - x| = |c - x| → IsEven c

/-- Whole numbers of 53 binary digits are numbers of the format. -/
theorem isRepresentable_natCast {n : ℕ} (h : n < 2 ^ 53) : IsRepresentable n :=
  ⟨n, 0, h, by norm_num, by rw [zpow_zero, mul_one]⟩

theorem isRepresentable_zero : IsRepresentable 0 := ⟨0, 0, by norm_num, by norm_num, by norm_num⟩

/-- Magnitudes are not negative. -/
theorem IsRepresentable.nonneg {x : ℚ} (h : IsRepresentable x) : 0 ≤ x := by
  obtain ⟨m, e, -, -, rfl⟩ := h
  positivity

/-- No number of the format lies between zero and `2 ^ -1074`. -/
theorem IsRepresentable.le_of_ne_zero {x : ℚ} (h : IsRepresentable x) (hne : x ≠ 0) :
    2 ^ (-1074 : ℤ) ≤ x := by
  obtain ⟨m, e, -, he, rfl⟩ := h
  have hm : (1 : ℚ) ≤ m := by
    rw [Nat.one_le_cast, Nat.one_le_iff_ne_zero]
    rintro rfl
    exact hne (by rw [Nat.cast_zero, zero_mul])
  calc (2 : ℚ) ^ (-1074 : ℤ) ≤ 2 ^ e := zpow_le_zpow_right₀ one_le_two he
    _ ≤ m * 2 ^ e := le_mul_of_one_le_left (by positivity) hm

/-- Up to half of the least number above it, zero is nearest. In the middle itself zero is the even
one of the two. -/
theorem isNearest_zero {x : ℚ} (hx : 0 ≤ x) (hle : x ≤ 2 ^ (-1075 : ℤ)) : IsNearest x 0 where
  representable := isRepresentable_zero
  le y hy := by
    rw [zero_sub, abs_neg, abs_of_nonneg hx]
    rcases eq_or_ne y 0 with rfl | hne
    · rw [zero_sub, abs_neg]
      exact le_abs_self x
    · have hy := hy.le_of_ne_zero hne
      rw [show (-1074 : ℤ) = -1075 + 1 by norm_num, zpow_add_one₀ two_ne_zero] at hy
      exact le_trans (by linarith) (le_abs_self _)
  even _ _ _ _ := ⟨0, -1074, by norm_num, le_rfl, by norm_num, .inr rfl, Even.zero⟩

/-- A number of the format is rounded to itself, as no other is at distance zero. -/
theorem IsNearest.eq_of_isRepresentable {x c : ℚ} (h : IsNearest x c) (hx : IsRepresentable x) :
    c = x := by
  have hle := h.le x hx
  rw [sub_self, abs_zero] at hle
  exact sub_eq_zero.1 (abs_eq_zero.1 (le_antisymm hle (abs_nonneg _)))

/-- Conversely, it is nearest to itself. -/
theorem IsRepresentable.isNearest {x : ℚ} (h : IsRepresentable x) : IsNearest x x where
  representable := h
  le y _ := by
    rw [sub_self, abs_zero]
    exact abs_nonneg _
  even y _ hne heq := by
    rw [sub_self, abs_zero, abs_eq_zero, sub_eq_zero] at heq
    exact absurd heq hne

/-- Rounding does not lead below a number `y` of the format that is not above the rounded number:
`y` would be nearer. -/
theorem IsNearest.le_of_le {x c y : ℚ} (h : IsNearest x c) (hy : IsRepresentable y)
    (hle : y ≤ x) : y ≤ c := by
  by_contra hlt
  have hnear := h.le y hy
  rw [abs_of_nonpos (by linarith), abs_of_nonpos (by linarith)] at hnear
  linarith

/-- Rounding does not lead above a number of the format that is not below the rounded one. -/
theorem IsNearest.le_of_ge {x c y : ℚ} (h : IsNearest x c) (hy : IsRepresentable y)
    (hle : x ≤ y) : c ≤ y := by
  by_contra hlt
  have hnear := h.le y hy
  rw [abs_of_nonneg (by linarith), abs_of_nonneg (by linarith)] at hnear
  linarith

/-- A power of two is a multiple of every lower one, with a natural power as the factor. -/
theorem zpow_toNat_mul {e f : ℤ} (h : e ≤ f) : (2 : ℚ) ^ (f - e).toNat * 2 ^ e = 2 ^ f := by
  rw [← zpow_natCast, ← zpow_add₀ two_ne_zero, Int.toNat_of_nonneg (by omega), sub_add_cancel]

/-- A number that is not below one with a full significand is a multiple of its power of two. A
lower exponent would need more than 53 digits. -/
theorem exists_eq_mul_of_le {m : ℕ} {e : ℤ} {y : ℚ} (hy : IsRepresentable y)
    (hnormal : 2 ^ 52 ≤ m ∨ e = -1074) (hle : (m : ℚ) * 2 ^ e ≤ y) :
    ∃ j : ℕ, y = j * 2 ^ e := by
  obtain ⟨n, f, hn, hf, rfl⟩ := hy
  have hef : e ≤ f := by
    by_contra hlt
    -- with a lower exponent the number would be below `2 ^ 52 * 2 ^ e`
    rcases hnormal with hm | rfl
    · have hlow : (n : ℚ) * 2 ^ f < 2 ^ 53 * 2 ^ (e - 1) := by
        have hpow : (2 : ℚ) ^ f ≤ 2 ^ (e - 1) := zpow_le_zpow_right₀ (by norm_num) (by omega)
        have hn' : (n : ℚ) < 2 ^ 53 := by exact_mod_cast hn
        exact mul_lt_mul hn' hpow (by positivity) (by positivity)
      have hhigh : (2 : ℚ) ^ 53 * 2 ^ (e - 1) ≤ m * 2 ^ e := by
        have hm' : (2 : ℚ) ^ 52 ≤ m := by exact_mod_cast hm
        rw [zpow_sub_one₀ (by norm_num)]
        have hpos : (0 : ℚ) < 2 ^ e := by positivity
        nlinarith
      linarith
    · omega
  refine ⟨n * 2 ^ (f - e).toNat, ?_⟩
  rw [← zpow_toNat_mul hef]
  push_cast
  ring

/-- If a number is even, its largest significand is even. A significand with a lower exponent is a
multiple of two of the larger one and would have a digit too many. -/
theorem IsEven.even {x : ℚ} {m : ℕ} {e : ℤ} (h : IsEven x) (hx : x = m * 2 ^ e)
    (hnormal : 2 ^ 52 ≤ m ∨ e = -1074) : Even m := by
  obtain ⟨n, f, hn, hf, rfl, -, heven⟩ := h
  rcases le_or_gt e f with hef | hfe
  · have hmn : m = n * 2 ^ (f - e).toNat := by
      rw [← zpow_toNat_mul hef, ← mul_assoc] at hx
      exact_mod_cast (mul_right_cancel₀ (zpow_ne_zero e two_ne_zero) hx).symm
    exact hmn ▸ heven.mul_right _
  · -- a lower exponent leaves no room for the digits of `m`
    have hnm : n = m * 2 ^ (e - f).toNat := by
      rw [← zpow_toNat_mul hfe.le, ← mul_assoc] at hx
      exact_mod_cast mul_right_cancel₀ (zpow_ne_zero f two_ne_zero) hx
    have htwo : 2 ^ 1 ≤ 2 ^ (e - f).toNat := Nat.pow_le_pow_right two_pos (by omega)
    rcases hnormal with hm | he
    · have := Nat.mul_le_mul hm htwo
      omega
    · omega

/-- Of two nearest numbers neither is the lower one. Both would be even, and between two even
numbers there is another number of the format, which would be nearer than one of them. -/
theorem IsNearest.not_lt {x c d : ℚ} (hc : IsNearest x c) (hd : IsNearest x d) : ¬c < d := by
  intro hlt
  have heq : |c - x| = |d - x| :=
    le_antisymm (hc.le d hd.representable) (hd.le c hc.representable)
  obtain ⟨m, e, hm, he, rfl, hnormal, hmeven⟩ :=
    hc.even d hd.representable hlt.ne' heq.symm
  have hdeven : IsEven d := hd.even _ hc.representable hlt.ne heq
  have hpos : (0 : ℚ) < 2 ^ e := by positivity
  obtain ⟨j, rfl⟩ := exists_eq_mul_of_le hd.representable hnormal hlt.le
  have hmj : m < j := by exact_mod_cast lt_of_mul_lt_mul_right hlt hpos.le
  -- the next number up is not odd, so that the upper neighbour lies beyond it
  have hnext : m + 1 < j := by
    refine lt_of_le_of_ne hmj fun hj => ?_
    have heven : Even (m + 1) :=
      hj ▸ hdeven.even rfl (hnormal.imp (fun h => by omega) id)
    rw [Nat.even_add_one] at heven
    exact heven hmeven
  have hrepr : IsRepresentable ((m + 1 : ℕ) * 2 ^ e) := by
    obtain ⟨k, rfl⟩ := hmeven
    exact ⟨k + k + 1, e, by omega, he, rfl⟩
  have hlow : (m : ℚ) * 2 ^ e < (m + 1 : ℕ) * 2 ^ e :=
    mul_lt_mul_of_pos_right (by exact_mod_cast Nat.lt_succ_self m) hpos
  have hhigh : ((m + 1 : ℕ) : ℚ) * 2 ^ e < j * 2 ^ e :=
    mul_lt_mul_of_pos_right (by exact_mod_cast hnext) hpos
  have hnear := hd.le _ hrepr
  rcases abs_eq_abs.1 heq with h | h
  · linarith
  · rw [abs_of_nonneg (by linarith)] at hnear
    rcases abs_cases ((m + 1 : ℕ) * 2 ^ e - x) with ⟨habs, -⟩ | ⟨habs, -⟩
    · rw [habs] at hnear
      linarith
    · rw [habs] at hnear
      linarith

/-- There is only one nearest number. -/
theorem IsNearest.unique {x c d : ℚ} (hc : IsNearest x c) (hd : IsNearest x d) : c = d :=
  le_antisymm (le_of_not_gt (hd.not_lt hc)) (le_of_not_gt (hc.not_lt hd))

/-- A statement about the nearest number may be checked on one that was found, as there is no
other. -/
theorem IsNearest.exists_iff {x c : ℚ} {P : ℚ → Prop} (h : IsNearest x c) :
    (∃ d, IsNearest x d ∧ P d) ↔ P c := by
  constructor
  · rintro ⟨d, hd, hP⟩
    exact h.unique hd ▸ hP
  · exact fun hP => ⟨c, h, hP⟩

/-! ### Rounding to whole significands -/

/-- A whole number is at least half a unit away from `t`, if another one is nearest to it. -/
theorem half_le_abs_sub {N j : ℕ} {t : ℚ} (hN : |(N : ℚ) - t| ≤ 1 / 2) (hne : j ≠ N) :
    1 / 2 ≤ |(j : ℚ) - t| := by
  have hone : (1 : ℚ) ≤ |(j : ℚ) - N| := by
    have h : (1 : ℤ) ≤ |(j : ℤ) - N| := Int.one_le_abs (by omega)
    exact_mod_cast h
  have htri : |(j : ℚ) - N| ≤ |(j : ℚ) - t| + |(N : ℚ) - t| := by
    rw [abs_sub_comm (N : ℚ) t]
    exact abs_sub_le _ _ _
  linarith

/-- Distances are scaled with the numbers. -/
theorem abs_mul_zpow_sub (s t : ℚ) (e : ℤ) : |s * 2 ^ e - t * 2 ^ e| = |s - t| * 2 ^ e := by
  rw [← sub_mul, abs_mul, abs_of_pos (show (0 : ℚ) < 2 ^ e by positivity)]

section Scaled

variable {t : ℚ} {e : ℤ} {N : ℕ}

/-- A number of the format that is not a multiple of the unit lies below all full significands, so
that the least of them is nearer. Only whole numbers have to be compared therefore. -/
theorem lt_abs_sub_of_ne_mul {y : ℚ} (hnormal : 2 ^ 52 ≤ t ∨ e = -1074)
    (hN : |(N : ℚ) - t| ≤ 1 / 2) (hy : IsRepresentable y) (hmul : ∀ j : ℕ, y ≠ j * 2 ^ e) :
    |(N : ℚ) * 2 ^ e - t * 2 ^ e| < |y - t * 2 ^ e| := by
  have hpos : (0 : ℚ) < 2 ^ e := by positivity
  have hlow : y < (2 ^ 52 : ℕ) * 2 ^ e := by
    by_contra hle
    obtain ⟨j, hj⟩ := exists_eq_mul_of_le hy (.inl le_rfl) (not_lt.1 hle)
    exact hmul j hj
  have hfull : 2 ^ 52 ≤ t := by
    refine hnormal.resolve_right ?_
    rintro rfl
    obtain ⟨j, hj⟩ := exists_eq_mul_of_le (m := 0) hy (.inr rfl) (by simpa using hy.nonneg)
    exact hmul j hj
  -- the least full significand is at least as far away as the nearest whole number
  have hle : |(N : ℚ) - t| ≤ |((2 ^ 52 : ℕ) : ℚ) - t| := by
    by_cases hne : 2 ^ 52 = N
    · rw [hne]
    · exact hN.trans (half_le_abs_sub hN hne)
  have hbound : ((2 ^ 52 : ℕ) : ℚ) * 2 ^ e ≤ t * 2 ^ e :=
    mul_le_mul_of_nonneg_right (by exact_mod_cast hfull) hpos.le
  calc |(N : ℚ) * 2 ^ e - t * 2 ^ e|
      ≤ |((2 ^ 52 : ℕ) : ℚ) * 2 ^ e - t * 2 ^ e| := by
        rw [abs_mul_zpow_sub, abs_mul_zpow_sub]
        exact mul_le_mul_of_nonneg_right hle hpos.le
    _ < |y - t * 2 ^ e| := by
        rw [abs_of_nonpos (by linarith), abs_of_nonpos (by linarith)]
        linarith

/-- The number behind the last significand is the first one of the next exponent. -/
theorem carry (e : ℤ) : ((2 ^ 53 : ℕ) : ℚ) * 2 ^ e = (2 ^ 52 : ℕ) * 2 ^ (e + 1) := by
  rw [zpow_add_one₀ two_ne_zero]
  push_cast
  ring

/-- Significands up to `2 ^ 53`, the bound included, give numbers of the format. -/
theorem isRepresentable_of_le (he : -1074 ≤ e) (hN : N ≤ 2 ^ 53) :
    IsRepresentable (N * 2 ^ e) := by
  rcases hN.lt_or_eq with hlt | rfl
  · exact ⟨N, e, hlt, he, rfl⟩
  · exact ⟨2 ^ 52, e + 1, by norm_num, by omega, carry e⟩

/-- Even significands, if they are full or the exponent is the least, give even numbers. -/
theorem isEven_of_le (he : -1074 ≤ e) (hN : N ≤ 2 ^ 53) (hnormal : 2 ^ 52 ≤ N ∨ e = -1074)
    (heven : Even N) : IsEven (N * 2 ^ e) := by
  rcases hN.lt_or_eq with hlt | rfl
  · exact ⟨N, e, hlt, he, rfl, hnormal, heven⟩
  · exact ⟨2 ^ 52, e + 1, by norm_num, by omega, carry e, .inl le_rfl, by decide⟩

/-- A whole number nearest to a significand is a significand or the one behind the last. -/
theorem le_of_abs_sub_le (hN : |(N : ℚ) - t| ≤ 1 / 2) (ht : t < 2 ^ 53) : N ≤ 2 ^ 53 := by
  have hlt : (N : ℚ) < (2 ^ 53 + 1 : ℕ) := by
    push_cast
    linarith [(abs_le.1 hN).2]
  exact Nat.lt_succ_iff.1 (by exact_mod_cast hlt)

/-- A whole number nearest to a full significand is a full one. -/
theorem ge_of_abs_sub_le (hN : |(N : ℚ) - t| ≤ 1 / 2) (ht : 2 ^ 52 ≤ t) : 2 ^ 52 ≤ N := by
  have hlt : ((2 ^ 52 : ℕ) : ℚ) < (N + 1 : ℕ) := by
    push_cast
    linarith [(abs_le.1 hN).1]
  exact Nat.lt_succ_iff.1 (by exact_mod_cast hlt)

/-- A scaled number is rounded by rounding its significand `t` to a whole number `N`. This is the
one place where rounding of the format is reduced to rounding of whole numbers. -/
theorem isNearest_scaled (he : -1074 ≤ e) (ht : t < 2 ^ 53) (hnormal : 2 ^ 52 ≤ t ∨ e = -1074)
    (hN : |(N : ℚ) - t| ≤ 1 / 2) (htie : |(N : ℚ) - t| = 1 / 2 → Even N) :
    IsNearest (t * 2 ^ e) (N * 2 ^ e) where
  representable := isRepresentable_of_le he (le_of_abs_sub_le hN ht)
  le y hy := by
    -- the other number is a multiple of the unit or lies below all full significands
    by_cases hmul : ∃ j : ℕ, y = j * 2 ^ e
    · obtain ⟨j, rfl⟩ := hmul
      rw [abs_mul_zpow_sub, abs_mul_zpow_sub]
      refine mul_le_mul_of_nonneg_right ?_ (by positivity)
      by_cases hne : j = N
      · rw [hne]
      · exact hN.trans (half_le_abs_sub hN hne)
    · exact (lt_abs_sub_of_ne_mul hnormal hN hy (not_exists.1 hmul)).le
  even y hy hne heq := by
    obtain ⟨j, rfl⟩ : ∃ j : ℕ, y = j * 2 ^ e := by
      by_contra hmul
      exact (lt_abs_sub_of_ne_mul hnormal hN hy (not_exists.1 hmul)).ne' heq
    have hjN : j ≠ N := fun h => hne (by rw [h])
    rw [abs_mul_zpow_sub, abs_mul_zpow_sub] at heq
    have heven : Even N := by
      refine htie (le_antisymm hN ?_)
      rw [← mul_right_cancel₀ (zpow_ne_zero e two_ne_zero) heq]
      exact half_le_abs_sub hN hjN
    exact isEven_of_le he (le_of_abs_sub_le hN ht)
      (hnormal.imp_left (ge_of_abs_sub_le hN)) heven

end Scaled

end PlanOrbits.Binary64
