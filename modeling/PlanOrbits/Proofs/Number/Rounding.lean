import Mathlib.Data.Rat.Floor
import PlanOrbits.Proofs.Number.Nearest
import PlanOrbits.Proofs.Text.Decimal

/-!
# The operations round once

A finite number of the format and its value are related by `Represents`; the infinite number
stands for everything from `2 ^ 1024` on. Each operation represents a number nearest to the exact
result: `round` for quotients (`exists_represents_round`), `ofDecimal` for decimals
(`exists_represents_ofDecimal`), and `mul` for products of finite numbers (`exists_represents_mul`).
`toWord` then cuts off what is behind the point, and what does not fit in a word
(`toWord_of_represents`).

A power of ten is computed from rounded squares and rounded products. What every such product
keeps, the power has (`powFrom_induction`), and there are two such properties:

* the numbers are not below one, so that a power is never zero and never less than a number
  (`isAtLeastOne_tenPow`);
* as long as the exact products are numbers of the format, the computed ones are exact. Up to
  exponent 22 they are, since `5 ^ 22` is a significand (`value?_tenPow`).
-/

namespace PlanOrbits.Binary64

/-- The number stands for `x`, which is not negative. -/
def Represents : Binary64 → ℚ → Prop
  | finite false m e, x => x = m * 2 ^ e
  | infinite false, x => 2 ^ 1024 ≤ x
  | _, _ => False

/-- The value of a finite number. -/
def value? : Binary64 → Option ℚ
  | finite negative m e => some (if negative then -(m * 2 ^ e) else m * 2 ^ e)
  | _ => none

/-- A number that stands for something is finite and not negative, or infinite; the other cases of
`Binary64` stand for nothing. -/
theorem Represents.cases {b : Binary64} {c : ℚ} (h : b.Represents c) :
    (∃ m e, b = finite false m e ∧ c = m * 2 ^ e) ∨ (b = infinite false ∧ 2 ^ 1024 ≤ c) := by
  match b, h with
  | finite false m e, h => exact .inl ⟨m, e, rfl, h⟩
  | infinite false, h => exact .inr ⟨rfl, h⟩

theorem represents_zero : (zero false).Represents 0 := by
  rw [zero, Represents, Nat.cast_zero, zero_mul]

theorem represents_one : one.Represents 1 := by
  rw [one, Represents, Nat.cast_one, one_mul, zpow_zero]

/-! ### Quotients -/

section Quotients

variable {num den : ℕ}

/-- The denominator of a shifted quotient is not zero. -/
theorem shifted_pos (num : ℕ) (hden : 0 < den) (shift : ℤ) : 0 < (shifted num den shift).2 := by
  rw [shifted]
  split
  · exact Nat.mul_pos hden (Nat.pow_pos two_pos)
  · exact hden

/-- A shifted quotient is the quotient divided by the power of two, whichever of its two parts was
multiplied. -/
theorem shifted_div (num den : ℕ) (shift : ℤ) :
    ((shifted num den shift).1 : ℚ) / (shifted num den shift).2 = num / den / 2 ^ shift := by
  rw [shifted]
  split
  · rename_i h
    obtain ⟨n, rfl⟩ := Int.eq_ofNat_of_zero_le h
    rw [div_div, zpow_natCast, Int.toNat_natCast, Nat.pow_eq]
    push_cast
    rfl
  · rename_i h
    obtain ⟨n, hn⟩ := Int.eq_ofNat_of_zero_le (show 0 ≤ -shift by omega)
    obtain rfl : shift = -n := by omega
    rw [zpow_neg, div_inv_eq_mul, div_mul_eq_mul_div, neg_neg, zpow_natCast, Int.toNat_natCast,
      Nat.pow_eq]
    push_cast
    rfl

/-- Between which powers of two a quotient lies is known up to one step from the logarithms of its
parts. -/
theorem log2_bounds (hnum : num ≠ 0) (hden : den ≠ 0) :
    (2 : ℚ) ^ ((num.log2 : ℤ) - den.log2 - 1) ≤ num / den ∧
      (num / den : ℚ) < 2 ^ ((num.log2 : ℤ) - den.log2 + 1) := by
  have hnum_le : (2 : ℚ) ^ num.log2 ≤ num := by exact_mod_cast Nat.log2_self_le hnum
  have hnum_lt : (num : ℚ) < 2 ^ (num.log2 + 1) := by exact_mod_cast Nat.lt_log2_self
  have hden_le : (2 : ℚ) ^ den.log2 ≤ den := by exact_mod_cast Nat.log2_self_le hden
  have hden_lt : (den : ℚ) < 2 ^ (den.log2 + 1) := by exact_mod_cast Nat.lt_log2_self
  have hpos : (0 : ℚ) < den := by exact_mod_cast Nat.pos_of_ne_zero hden
  constructor
  · rw [le_div_iff₀ hpos]
    -- the least numerator against the largest denominator
    calc (2 : ℚ) ^ ((num.log2 : ℤ) - den.log2 - 1) * den
        ≤ 2 ^ ((num.log2 : ℤ) - den.log2 - 1) * 2 ^ (den.log2 + 1) := by gcongr
      _ = 2 ^ num.log2 := by
          rw [← zpow_natCast, ← zpow_natCast, ← zpow_add₀ two_ne_zero]
          congr 1
          push_cast
          ring
      _ ≤ num := hnum_le
  · rw [div_lt_iff₀ hpos]
    -- the largest numerator against the least denominator
    calc (num : ℚ) < 2 ^ (num.log2 + 1) := hnum_lt
      _ = 2 ^ ((num.log2 : ℤ) - den.log2 + 1) * 2 ^ den.log2 := by
          rw [← zpow_natCast, ← zpow_natCast, ← zpow_add₀ two_ne_zero]
          congr 1
          push_cast
          ring
      _ ≤ 2 ^ ((num.log2 : ℤ) - den.log2 + 1) * den := by gcongr

/-- `floorLog2` is the logarithm without its fraction. It compares the shifted quotient with one and
so decides which of the two steps it is. -/
theorem floorLog2_bounds (hnum : num ≠ 0) (hden : den ≠ 0) :
    (2 : ℚ) ^ floorLog2 num den ≤ num / den ∧
      (num / den : ℚ) < 2 ^ (floorLog2 num den + 1) := by
  have hbounds := log2_bounds hnum hden
  have hpos : (0 : ℚ) < (shifted num den ((num.log2 : ℤ) - den.log2)).2 := by
    exact_mod_cast shifted_pos num (Nat.pos_of_ne_zero hden) _
  have hiff : (shifted num den ((num.log2 : ℤ) - den.log2)).2 ≤
      (shifted num den ((num.log2 : ℤ) - den.log2)).1 ↔
      (2 : ℚ) ^ ((num.log2 : ℤ) - den.log2) ≤ num / den := by
    rw [← Nat.cast_le (α := ℚ), ← one_le_div₀ hpos, shifted_div, one_le_div₀ (by positivity)]
  rw [floorLog2]
  dsimp only
  split
  · rename_i h
    exact ⟨hiff.1 h, hbounds.2⟩
  · rename_i h
    rw [sub_add_cancel]
    exact ⟨hbounds.1, not_le.1 (mt hiff.2 h)⟩

/-- The comparisons of `nearest` are those of the remainder with half of the divisor. -/
theorem div_le_half_iff {r : ℕ} (hden : 0 < den) : (r / den : ℚ) ≤ 1 / 2 ↔ 2 * r ≤ den := by
  rw [div_le_div_iff₀ (by exact_mod_cast hden) two_pos, one_mul, mul_comm]
  exact_mod_cast Iff.rfl

/-- As `div_le_half_iff`, from below. -/
theorem half_le_div_iff {r : ℕ} (hden : 0 < den) : 1 / 2 ≤ (r / den : ℚ) ↔ den ≤ 2 * r := by
  rw [div_le_div_iff₀ two_pos (by exact_mod_cast hden), one_mul, mul_comm]
  exact_mod_cast Iff.rfl

/-- `nearest` gives a natural number at distance of at most one half, and in the middle between two
the even one. -/
theorem nearest_spec (num : ℕ) (hden : 0 < den) :
    |(nearest num den : ℚ) - num / den| ≤ 1 / 2 ∧
      (|(nearest num den : ℚ) - num / den| = 1 / 2 → Even (nearest num den)) := by
  have hpos : (0 : ℚ) < den := by exact_mod_cast hden
  have hsum : (num : ℚ) / den = (num / den : ℕ) + (num % den : ℕ) / den := by
    rw [eq_comm, ← mul_div_cancel_left₀ ((num / den : ℕ) : ℚ) hpos.ne', ← add_div]
    congr 1
    exact_mod_cast Nat.div_add_mod num den
  have hfrac : (0 : ℚ) ≤ (num % den : ℕ) / den := by positivity
  have hone : ((num % den : ℕ) / den : ℚ) ≤ 1 := by
    rw [div_le_one hpos]
    exact_mod_cast (Nat.mod_lt num hden).le
  -- the distance is that of the remainder, to zero or to the divisor
  rw [nearest, hsum]
  split
  · rename_i h
    have hhalf := (half_le_div_iff (r := num % den) hden).2 (by omega)
    have habs : |((num / den + 1 : ℕ) : ℚ) - ((num / den : ℕ) + (num % den : ℕ) / den)| =
        1 - (num % den : ℕ) / den := by
      rw [abs_of_nonneg] <;> push_cast <;> linarith
    rw [habs]
    refine ⟨by linarith, fun htie => ?_⟩
    have := (div_le_half_iff hden).1 (show ((num % den : ℕ) / den : ℚ) ≤ 1 / 2 by linarith)
    exact Nat.even_add_one.2 (Nat.not_even_iff.2 (by omega))
  · rename_i h
    have hhalf := (div_le_half_iff (r := num % den) hden).2 (by omega)
    have habs : |((num / den : ℕ) : ℚ) - ((num / den : ℕ) + (num % den : ℕ) / den)| =
        (num % den : ℕ) / den := by
      rw [abs_of_nonpos] <;> linarith
    rw [habs]
    refine ⟨hhalf, fun htie => Nat.even_iff.2 ?_⟩
    have := (half_le_div_iff hden).1 htie.ge
    omega

/-- A rounded significand may be one too large for the format, and its exponent may be. -/
theorem represents_of_le {N : ℕ} {e : ℤ} (hN : N ≤ 2 ^ 53) (hnormal : 2 ^ 52 ≤ N ∨ e = -1074) :
    (if Nat.pow 2 53 ≤ N then
      if 971 ≤ e then infinite false else finite false (Nat.pow 2 52) (e + 1)
    else if 971 < e then infinite false
    else finite false N e).Represents (N * 2 ^ e) := by
  have hlarge : ∀ {m : ℕ} {k f : ℤ}, (2 ^ k : ℚ) ≤ m → 1024 - k ≤ f →
      (infinite false).Represents (m * 2 ^ f) := by
    intro m k f hm hf
    calc (2 : ℚ) ^ 1024 = 2 ^ k * 2 ^ (1024 - k) := by
          rw [← zpow_add₀ two_ne_zero, add_sub_cancel, ← zpow_natCast]
          rfl
      _ ≤ m * 2 ^ f := by
          gcongr
          exact one_le_two
  split
  · rename_i h
    -- only a significand that was rounded up is full; it is halved, and the exponent raised
    obtain rfl : N = 2 ^ 53 := le_antisymm hN h
    split
    · exact hlarge (k := 53) (by norm_num) (by omega)
    · exact carry e
  · split
    · exact hlarge (k := 52) (by exact_mod_cast hnormal.resolve_right (by omega)) (by omega)
    · rfl

/-- A scaled quotient has at most 53 digits in front of the point. -/
theorem significand_lt (hnum : num ≠ 0) (hden : den ≠ 0) {e : ℤ}
    (he : floorLog2 num den - 52 ≤ e) : (num / den / 2 ^ e : ℚ) < 2 ^ 53 := by
  rw [div_lt_iff₀ (by positivity)]
  calc (num / den : ℚ) < 2 ^ (floorLog2 num den + 1) := (floorLog2_bounds hnum hden).2
    _ ≤ 2 ^ (53 + e) := zpow_le_zpow_right₀ one_le_two (by omega)
    _ = 2 ^ 53 * 2 ^ e := zpow_add₀ two_ne_zero _ _

/-- It has all 53 of them if the exponent is the one that `floorLog2` gives. -/
theorem le_significand (hnum : num ≠ 0) (hden : den ≠ 0) :
    2 ^ 52 ≤ (num / den / 2 ^ (floorLog2 num den - 52) : ℚ) := by
  rw [le_div_iff₀ (by positivity)]
  calc (2 : ℚ) ^ 52 * 2 ^ (floorLog2 num den - 52) = 2 ^ floorLog2 num den := by
        rw [← zpow_natCast, ← zpow_add₀ two_ne_zero]
        congr 1
        push_cast
        ring
    _ ≤ num / den := (floorLog2_bounds hnum hden).1

/-- A quotient is rounded to the nearest number. `round` scales it so that it has 53 digits or the
least exponent, and takes the nearest whole number. -/
theorem exists_represents_round (num : ℕ) (hden : den ≠ 0) :
    ∃ c, IsNearest (num / den) c ∧ (round false num den).Represents c := by
  rw [round]
  split
  · rename_i hnum
    rw [hnum, Nat.cast_zero, zero_div]
    exact ⟨0, isNearest_zero le_rfl (by positivity), represents_zero⟩
  · rename_i hnum
    dsimp only
    -- from here on the exponent counts only as one that is not below `-1074`
    generalize hexp : max (floorLog2 num den - 52) (-1074) = e
    obtain ⟨hhalf, htie⟩ := nearest_spec (shifted num den e).1
      (shifted_pos num (Nat.pos_of_ne_zero hden) e)
    rw [shifted_div] at hhalf htie
    generalize nearest (shifted num den e).1 (shifted num den e).2 = N at hhalf htie
    have hlt := significand_lt hnum hden (show floorLog2 num den - 52 ≤ e by omega)
    have hnormal : 2 ^ 52 ≤ (num / den / 2 ^ e : ℚ) ∨ e = -1074 := by
      rcases eq_or_ne e (-1074) with he | he
      · exact .inr he
      · obtain rfl : e = floorLog2 num den - 52 := by omega
        exact .inl (le_significand hnum hden)
    refine ⟨N * 2 ^ e, ?_, ?_⟩
    · have hnear := isNearest_scaled (by omega) hlt hnormal hhalf htie
      rwa [div_mul_cancel₀ _ (by positivity)] at hnear
    · exact represents_of_le (le_of_abs_sub_le hhalf hlt)
        (hnormal.imp_left (ge_of_abs_sub_le hhalf))

end Quotients

/-! ### Decimals -/

/-- A number beyond the largest exponent is rounded to one that is infinite. -/
theorem IsNearest.represents_infinite {x c : ℚ} (h : IsNearest x c) (hle : 2 ^ 1024 ≤ x) :
    (infinite false).Represents c := by
  refine h.le_of_le ⟨1, 1024, by norm_num, by norm_num, ?_⟩ hle
  rw [Nat.cast_one, one_mul]
  rfl

/-- Ten to the 400th lies beyond the range of the format, and its inverse below the least number. -/
theorem two_pow_le_ten_pow : (2 : ℚ) ^ 1075 ≤ 10 ^ 400 :=
  calc (2 : ℚ) ^ 1075 = (2 ^ 43) ^ 25 := (pow_mul 2 43 25)
    _ ≤ (10 ^ 16) ^ 25 := by
        gcongr
        norm_num
    _ = 10 ^ 400 := (pow_mul 10 16 25).symm

/-- A decimal is less than the power of ten that its digits and its exponent give. -/
theorem mul_zpow_lt (n : ℕ) (e : ℤ) :
    (n : ℚ) * 10 ^ e < 10 ^ (((Text.decimal n).length : ℤ) + e) := by
  rw [zpow_add₀ (by norm_num), zpow_natCast]
  refine mul_lt_mul_of_pos_right ?_ (by positivity)
  exact_mod_cast Text.lt_pow_length_decimal n

theorem zpow_le_mul {n : ℕ} (hn : n ≠ 0) (e : ℤ) :
    (10 : ℚ) ^ (((Text.decimal n).length : ℤ) + e - 1) ≤ n * 10 ^ e := by
  have hlength : 0 < (Text.decimal n).length := List.length_pos_of_ne_nil Text.decimal_ne_nil
  have hsplit : ((Text.decimal n).length : ℤ) + e - 1 = ((Text.decimal n).length - 1 : ℕ) + e := by
    omega
  rw [hsplit, zpow_add₀ (by norm_num), zpow_natCast]
  refine mul_le_mul_of_nonneg_right ?_ (by positivity)
  exact_mod_cast Text.pow_length_decimal_le hn

/-- A decimal is a quotient with a power of ten above or below, according to the sign of the
exponent, and rounded as such. -/
theorem exists_represents_quotient (n : ℕ) (e : ℤ) : ∃ c, IsNearest (n * 10 ^ e) c ∧
    (if 0 ≤ e then round false (n * Nat.pow 10 e.toNat) 1
      else round false n (Nat.pow 10 (-e).toNat)).Represents c := by
  split
  · rename_i h
    obtain ⟨k, rfl⟩ := Int.eq_ofNat_of_zero_le h
    have hquotient := exists_represents_round (n * Nat.pow 10 k) one_ne_zero
    rw [Nat.cast_one, div_one, Nat.pow_eq] at hquotient
    rw [zpow_natCast]
    exact_mod_cast hquotient
  · rename_i h
    obtain ⟨k, hk⟩ := Int.eq_ofNat_of_zero_le (show 0 ≤ -e by omega)
    obtain rfl : e = -k := by omega
    have hquotient := exists_represents_round n
      (show Nat.pow 10 k ≠ 0 by rw [Nat.pow_eq]; positivity)
    rw [zpow_neg, ← div_eq_mul_inv, zpow_natCast, neg_neg]
    rw [Nat.pow_eq] at hquotient
    exact_mod_cast hquotient

/-- A decimal is rounded to the nearest number. Those with a very small or very large exponent are
decided without computing the power of ten. -/
theorem exists_represents_ofDecimal (n : ℕ) (e : ℤ) :
    ∃ c, IsNearest (n * 10 ^ e) c ∧ (ofDecimal false n e).Represents c := by
  rw [ofDecimal]
  split
  · rename_i h
    refine ⟨0, isNearest_zero (by positivity) ?_, represents_zero⟩
    -- it is zero, or so far behind the point that it is below half of the least positive number
    rcases h with rfl | hplaces
    · rw [Nat.cast_zero, zero_mul]
      positivity
    · calc (n : ℚ) * 10 ^ e ≤ 10 ^ (((Text.decimal n).length : ℤ) + e) := (mul_zpow_lt n e).le
        _ ≤ 10 ^ (-400 : ℤ) := zpow_le_zpow_right₀ (by norm_num) (by omega)
        _ ≤ 2 ^ (-1075 : ℤ) := by
            rw [zpow_neg, zpow_neg]
            exact inv_anti₀ (by positivity) two_pow_le_ten_pow
  · rename_i hsmall
    rw [not_or, not_lt] at hsmall
    split
    · rename_i hplaces
      obtain ⟨c, hc, -⟩ := exists_represents_quotient n e
      refine ⟨c, hc, hc.represents_infinite ?_⟩
      calc (2 : ℚ) ^ 1024 ≤ 2 ^ 1075 := pow_le_pow_right₀ one_le_two (by norm_num)
        _ ≤ 10 ^ (400 : ℤ) := two_pow_le_ten_pow
        _ ≤ 10 ^ (((Text.decimal n).length : ℤ) + e - 1) :=
            zpow_le_zpow_right₀ (by norm_num) (by omega)
        _ ≤ n * 10 ^ e := zpow_le_mul hsmall.1 e
    · exact exists_represents_quotient n e

/-! ### Products -/

/-- A product of finite numbers is rounded to the nearest number, since the product of two
significands is a whole number. -/
theorem exists_represents_mul (m n : ℕ) (e f : ℤ) :
    ∃ c, IsNearest (m * 2 ^ e * (n * 2 ^ f)) c ∧
      ((finite false m e).mul (finite false n f)).Represents c := by
  have hquotient := exists_represents_round (shifted (m * n) 1 (-(e + f))).1
    (shifted_pos (m * n) one_pos (-(e + f))).ne'
  rw [shifted_div, Nat.cast_one, div_one, zpow_neg, div_inv_eq_mul, zpow_add₀ two_ne_zero,
    Nat.cast_mul, mul_mul_mul_comm] at hquotient
  exact hquotient

/-! ### Words -/

/-- The conversion to a word gives the whole part of a number, or the largest word if this is
smaller. -/
theorem toWord_of_represents {b : Binary64} {c : ℚ} (h : b.Represents c) :
    b.toWord = (min ⌊c⌋₊ (2 ^ 64 - 1)).toUInt64 := by
  match b, h with
  | finite false m e, h =>
      rw [Represents] at h
      subst h
      rw [toWord, if_neg Bool.false_ne_true]
      split
      · -- without a negative exponent there is nothing behind the point
        rename_i he
        obtain ⟨k, rfl⟩ := Int.eq_ofNat_of_zero_le he
        have hfloor : ⌊(m : ℚ) * 2 ^ (k : ℤ)⌋₊ = m * Nat.pow 2 k := by
          rw [zpow_natCast, Nat.pow_eq]
          exact_mod_cast Nat.floor_natCast (m * 2 ^ k)
        rw [hfloor]
        rfl
      · rename_i he
        obtain ⟨k, hk⟩ := Int.eq_ofNat_of_zero_le (show 0 ≤ -e by omega)
        obtain rfl : e = -k := by omega
        have hfloor : ⌊(m : ℚ) * 2 ^ (-k : ℤ)⌋₊ = m / Nat.pow 2 k := by
          rw [zpow_neg, ← div_eq_mul_inv, zpow_natCast, Nat.pow_eq]
          exact_mod_cast Rat.natFloor_natCast_div_natCast m (2 ^ k)
        rw [hfloor, neg_neg]
        rfl
  | infinite false, h =>
      have hle : 2 ^ 64 - 1 ≤ ⌊c⌋₊ := by
        refine Nat.le_floor (le_trans ?_ h)
        calc ((2 ^ 64 - 1 : ℕ) : ℚ) ≤ 2 ^ 64 := by norm_num
          _ ≤ 2 ^ 1024 := pow_le_pow_right₀ one_le_two (by norm_num)
      rw [toWord, if_neg Bool.false_ne_true, min_eq_right hle]
      rfl

/-- A word comes out exactly if it is that number. -/
theorem toWord_eq_iff {b : Binary64} {c : ℚ} {v : UInt64} (h : b.Represents c) :
    b.toWord = v ↔ min ⌊c⌋₊ (2 ^ 64 - 1) = v.toNat := by
  have hlt : min ⌊c⌋₊ (2 ^ 64 - 1) < UInt64.size := by
    rw [UInt64.size]
    omega
  rw [toWord_of_represents h, ← UInt64.toNat_inj]
  change (UInt64.ofNat _).toNat = _ ↔ _
  rw [UInt64.toNat_ofNat', Nat.mod_eq_of_lt hlt]

/-- The largest word is rounded up to `2 ^ 64`, as it has more than 53 digits. -/
theorem isNearest_lastWord : IsNearest (2 ^ 64 - 1) (2 ^ 64) := by
  have hscaled :
      IsNearest ((2 ^ 64 - 1) / 2 ^ 11 * 2 ^ (11 : ℤ)) ((2 ^ 53 : ℕ) * 2 ^ (11 : ℤ)) := by
    refine isNearest_scaled (by norm_num) (by norm_num) (.inl (by norm_num)) ?_ ?_
    · rw [abs_of_nonneg] <;> norm_num
    · rw [abs_of_nonneg] <;> norm_num
  convert hscaled using 1 <;> norm_num

/-- A word is kept by rounding exactly if it is a number of the format, or the largest one, which is
cut off again after it was rounded up. -/
theorem IsNearest.floor_eq_iff {v : ℕ} {c : ℚ} (h : IsNearest v c) (hv : v < 2 ^ 64) :
    min ⌊c⌋₊ (2 ^ 64 - 1) = v ↔ IsRepresentable v ∨ v = 2 ^ 64 - 1 := by
  constructor
  · intro hmin
    by_cases hlast : v = 2 ^ 64 - 1
    · exact .inr hlast
    have hfloor : ⌊c⌋₊ = v := by omega
    rcases lt_or_ge v (2 ^ 53) with hsmall | hlarge
    · exact .inl (isRepresentable_natCast hsmall)
    · -- from here on all numbers of the format are whole
      have hle : ((2 ^ 52 : ℕ) : ℚ) * 2 ^ (1 : ℤ) ≤ c := by
        refine h.le_of_le ⟨2 ^ 52, 1, by norm_num, by norm_num, rfl⟩ ?_
        rw [zpow_one]
        exact_mod_cast hlarge
      obtain ⟨j, hj⟩ := exists_eq_mul_of_le h.representable (.inl le_rfl) hle
      have hc : c = (j * 2 : ℕ) := by
        rw [hj, zpow_one]
        push_cast
        rfl
      rw [hc, Nat.floor_natCast] at hfloor
      exact .inl (hfloor ▸ hc ▸ h.representable)
  · rintro (hrepr | rfl)
    · rw [h.eq_of_isRepresentable hrepr, Nat.floor_natCast]
      omega
    · have hc : c = (2 ^ 64 : ℕ) := h.unique (by exact_mod_cast isNearest_lastWord)
      rw [hc, Nat.floor_natCast]
      rfl

/-! ### Powers -/

/-- The induction for powers: what holds of the two factors at the start and passes on to products
holds of the power. The numbers come with the exponents of what they stand for, and no product goes
beyond the exponent of the power. -/
theorem powFrom_induction {P : Binary64 → ℕ → Prop} {bound : ℕ}
    (hmul : ∀ {a b i j}, P a i → P b j → i + j ≤ bound → P (a.mul b) (i + j)) {acc base : Binary64}
    {n bits i j : ℕ} (hacc : P acc i) (hbase : P base j) (hn : n < 2 ^ bits)
    (hbound : i + j * n ≤ bound) : P (powFrom acc base n bits) (i + j * n) := by
  induction bits generalizing acc base n i j with
  | zero =>
      obtain rfl : n = 0 := by omega
      exact hacc
  | succ bits ih =>
      -- the last binary digit of `n` says whether the accumulator takes part
      have hsplit : i + j * n = i + j * (n % 2) + (j + j) * (n / 2) := by
        conv_lhs => rw [← Nat.div_add_mod n 2]
        ring
      rw [hsplit] at hbound ⊢
      have hacc' : P (if n % 2 = 1 then acc.mul base else acc) (i + j * (n % 2)) := by
        split
        · rename_i hodd
          rw [hodd, Nat.mul_one] at hbound ⊢
          exact hmul hacc hbase (by omega)
        · rename_i heven
          rwa [Nat.mod_two_ne_one.1 heven]
      rw [powFrom]
      split
      · rename_i hlast
        rwa [hlast, Nat.mul_zero, Nat.add_zero]
      · rename_i hnot
        have hsquare : j + j ≤ bound :=
          le_trans (Nat.le_mul_of_pos_right _ (Nat.pos_of_ne_zero hnot)) (by omega)
        exact ih hacc' (hmul hbase hbase hsquare) (by omega) hbound

/-- `powFrom_induction` for `tenPow`, which starts from one and ten. -/
theorem tenPow_induction {P : Binary64 → ℕ → Prop} {E : ℕ} (hone : P one 0)
    (hten : P (finite false 10 0) 1)
    (hmul : ∀ {a b i j}, P a i → P b j → i + j ≤ E → P (a.mul b) (i + j)) (hE : E < 2 ^ 32) :
    P (tenPow E) E := by
  have hpower := powFrom_induction hmul hone hten hE (by omega)
  rw [tenPow, if_neg (by omega)]
  rwa [Nat.zero_add, Nat.one_mul] at hpower

/-- The number stands for something that is not below one. -/
def IsAtLeastOne (b : Binary64) : Prop := ∃ c, 1 ≤ c ∧ b.Represents c

theorem isRepresentable_one : IsRepresentable 1 := by
  exact_mod_cast isRepresentable_natCast (show 1 < 2 ^ 53 by norm_num)

theorem isAtLeastOne_infinite : (infinite false).IsAtLeastOne :=
  ⟨2 ^ 1024, one_le_pow₀ one_le_two, le_refl _⟩

/-- A product with an infinite number is infinite unless the other number is zero. -/
theorem mul_infinite_of_represents {b : Binary64} {c : ℚ} (h : b.Represents c) (hc : c ≠ 0) :
    b.mul (infinite false) = infinite false ∧ (infinite false).mul b = infinite false := by
  rcases h.cases with ⟨m, e, rfl, rfl⟩ | ⟨rfl, -⟩
  · have hm : m ≠ 0 := by
      rintro rfl
      exact hc (by rw [Nat.cast_zero, zero_mul])
    exact ⟨if_neg hm, if_neg hm⟩
  · exact ⟨rfl, rfl⟩

/-- Products of numbers that are not below one are not below one: rounding does not lead below one,
which is a number of the format. -/
theorem IsAtLeastOne.mul {a b : Binary64} (ha : a.IsAtLeastOne) (hb : b.IsAtLeastOne) :
    (a.mul b).IsAtLeastOne := by
  obtain ⟨x, hx, ha⟩ := ha
  obtain ⟨y, hy, hb⟩ := hb
  rcases ha.cases with ⟨m, e, rfl, rfl⟩ | ⟨rfl, -⟩
  · rcases hb.cases with ⟨n, f, rfl, rfl⟩ | ⟨rfl, -⟩
    · obtain ⟨c, hnear, hc⟩ := exists_represents_mul m n e f
      exact ⟨c, hnear.le_of_le isRepresentable_one (one_le_mul_of_one_le_of_one_le hx hy), hc⟩
    · rw [(mul_infinite_of_represents ha (by linarith)).1]
      exact isAtLeastOne_infinite
  · rw [(mul_infinite_of_represents hb (by linarith)).2]
    exact isAtLeastOne_infinite

/-- No computed power of ten is below one. -/
theorem isAtLeastOne_tenPow {E : ℕ} (hE : E < 2 ^ 32) : (tenPow E).IsAtLeastOne :=
  tenPow_induction (P := fun b _ => b.IsAtLeastOne) ⟨1, le_rfl, represents_one⟩
    ⟨10, by norm_num, by rw [Represents, zpow_zero, mul_one, Nat.cast_ofNat]⟩
    (fun ha hb _ => ha.mul hb) hE

/-- The powers of ten up to exponent 22 are numbers of the format, as `5 ^ 22` is a significand. -/
theorem isRepresentable_tenPow {k : ℕ} (hk : k ≤ 22) : IsRepresentable (10 ^ k) := by
  refine ⟨5 ^ k, k, lt_of_le_of_lt (Nat.pow_le_pow_right (by norm_num) hk) (by norm_num), by omega,
    ?_⟩
  rw [zpow_natCast, Nat.cast_pow, ← mul_pow]
  norm_num

/-- They are far from the largest exponent. -/
theorem tenPow_lt {k : ℕ} (hk : k ≤ 22) : (10 : ℚ) ^ k < 2 ^ 1024 :=
  calc (10 : ℚ) ^ k ≤ 10 ^ 22 := pow_le_pow_right₀ (by norm_num) hk
    _ < 2 ^ 74 := by norm_num
    _ ≤ 2 ^ 1024 := pow_le_pow_right₀ one_le_two (by norm_num)

/-- The product of two exact powers is exact, if it is one of these. -/
theorem represents_mul_tenPow {a b : Binary64} {i j : ℕ} (ha : a.Represents (10 ^ i))
    (hb : b.Represents (10 ^ j)) (hle : i + j ≤ 22) : (a.mul b).Represents (10 ^ (i + j)) := by
  rcases ha.cases with ⟨m, e, rfl, hm⟩ | ⟨-, hlarge⟩
  · rcases hb.cases with ⟨n, f, rfl, hn⟩ | ⟨-, hlarge⟩
    · obtain ⟨c, hnear, hc⟩ := exists_represents_mul m n e f
      rw [← hm, ← hn, ← pow_add] at hnear
      rwa [← hnear.eq_of_isRepresentable (isRepresentable_tenPow hle)]
    · exact absurd hlarge (tenPow_lt (by omega)).not_ge
  · exact absurd hlarge (tenPow_lt (by omega)).not_ge

/-- Up to exponent 22 the computed power is the exact one. -/
theorem value?_tenPow {E : ℕ} (hE : E ≤ 22) : (tenPow E).value? = some (10 ^ E) := by
  have hpower : (tenPow E).Represents (10 ^ E) :=
    tenPow_induction (P := fun b k => b.Represents (10 ^ k)) represents_one
      (by rw [Represents, zpow_zero, mul_one, Nat.cast_ofNat, pow_one])
      (fun ha hb hle => represents_mul_tenPow ha hb (hle.trans hE)) (by omega)
  rcases hpower.cases with ⟨m, e, heq, hm⟩ | ⟨-, hlarge⟩
  · rw [heq, hm]
    rfl
  · exact absurd hlarge (tenPow_lt hE).not_ge

end PlanOrbits.Binary64
