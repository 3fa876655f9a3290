import Mathlib.Algebra.Order.Group.Nat
import Mathlib.Tactic.Common

/-!
# Places of the highest digit

The size of a machine number, as far as it takes to know that the number is positive. A number spans
the places from `lo` to `hi` if its highest digit stands in one of them, that is, if it is at least
`2 ^ (lo - 1)` and less than `2 ^ hi` (`Spans`). An operation computes a mantissa and rounds it,
and rounding moves the highest digit by one place at most (`spans_roundWithAccuracy`). So the places
of a quotient are known from those of its parts (`Spans.div`), and no digit is lost as long as they
are far enough from the least place of the format.

A machine number is a packed one. Packing loses nothing if the highest digit is not beyond the
greatest place (`Spans.unpack_pack`).
-/

namespace PlanOrbits

open Float.Model (Format totalExponent UnpackedFloat)
open Float.Model.UnpackedFloat

namespace Places

variable {m n : Nat} {e lo hi lo' hi' : Int}

theorem targetExponent_eq (t : Int) : Format.binary64.targetExponent t = max (t - 53) (-1074) := rfl

/-- Shifting to the right drops binary digits from the end. -/
theorem log2_div_two_pow {k : Nat} (hm : m ≠ 0) (hk : k ≤ m.log2) :
    m / 2 ^ k ≠ 0 ∧ (m / 2 ^ k).log2 = m.log2 - k := by
  have hlow : 2 ^ (m.log2 - k) ≤ m / 2 ^ k := by
    rw [Nat.le_div_iff_mul_le (Nat.two_pow_pos k), ← Nat.pow_add, Nat.sub_add_cancel hk]
    exact Nat.log2_self_le hm
  have hhigh : m / 2 ^ k < 2 ^ (m.log2 - k + 1) := by
    rw [Nat.div_lt_iff_lt_mul (Nat.two_pow_pos k), ← Nat.pow_add,
      show m.log2 - k + 1 + k = m.log2 + 1 by omega]
    exact Nat.lt_log2_self
  have hne : m / 2 ^ k ≠ 0 := Nat.ne_of_gt (Nat.lt_of_lt_of_le (Nat.two_pow_pos _) hlow)
  exact ⟨hne, (Nat.log2_eq_iff hne).2 ⟨hlow, hhigh⟩⟩

/-- Shifting to the left adds binary digits at the end. -/
theorem log2_mul_two_pow (hm : m ≠ 0) (k : Nat) : (m * 2 ^ k).log2 = m.log2 + k := by
  have hpos := Nat.two_pow_pos k
  refine (Nat.log2_eq_iff (Nat.mul_ne_zero hm hpos.ne')).2 ⟨?_, ?_⟩
  · rw [Nat.pow_add]
    exact Nat.mul_le_mul_right _ (Nat.log2_self_le hm)
  · rw [Nat.add_right_comm, Nat.pow_add]
    exact Nat.mul_lt_mul_of_pos_right Nat.lt_log2_self hpos

/-- A quotient has as many binary digits as the difference of the numbers of digits, or one more. -/
theorem log2_div (hn : n ≠ 0) (h : n.log2 < m.log2) :
    m / n ≠ 0 ∧ m.log2 ≤ n.log2 + (m / n).log2 + 1 ∧ n.log2 + (m / n).log2 ≤ m.log2 := by
  have hm : m ≠ 0 := by
    rintro rfl
    exact Nat.not_lt_zero _ (h.trans_eq Nat.log2_zero)
  have hlow : 2 ^ (m.log2 - n.log2 - 1) ≤ m / n := by
    rw [Nat.le_div_iff_mul_le (Nat.pos_of_ne_zero hn)]
    calc 2 ^ (m.log2 - n.log2 - 1) * n
        ≤ 2 ^ (m.log2 - n.log2 - 1) * 2 ^ (n.log2 + 1) :=
          Nat.mul_le_mul_left _ Nat.lt_log2_self.le
      _ = 2 ^ m.log2 := by rw [← Nat.pow_add]; congr 1; omega
      _ ≤ m := Nat.log2_self_le hm
  have hhigh : m / n < 2 ^ (m.log2 - n.log2 + 1) := by
    rw [Nat.div_lt_iff_lt_mul (Nat.pos_of_ne_zero hn)]
    calc m < 2 ^ (m.log2 + 1) := Nat.lt_log2_self
      _ = 2 ^ (m.log2 - n.log2 + 1) * 2 ^ n.log2 := by rw [← Nat.pow_add]; congr 1; omega
      _ ≤ 2 ^ (m.log2 - n.log2 + 1) * n := Nat.mul_le_mul_left _ (Nat.log2_self_le hn)
  have hne : m / n ≠ 0 := Nat.ne_of_gt (Nat.lt_of_lt_of_le (Nat.two_pow_pos _) hlow)
  have h₁ := (Nat.le_log2 hne).2 hlow
  have h₂ := (Nat.log2_lt hne).2 hhigh
  omega

/-- The mantissa of a shifted number; the bits that tell what was lost are of no interest here. -/
theorem mantissa_shiftRight (em : ExtendedMantissa) (k : Nat) :
    (em >>> k).mantissa = em.mantissa / 2 ^ k := by
  induction k with
  | zero => simp [HShiftRight.hShiftRight, Nat.repeat]
  | succ k ih =>
      change (em >>> k).mantissa / 2 = _
      rw [ih, Nat.div_div_eq_div_mul, Nat.pow_succ]

theorem mantissa_ofMantissaAndAccuracy (m : Nat) (accuracy : Accuracy) :
    (ExtendedMantissa.ofMantissaAndAccuracy m accuracy).mantissa = m := by
  rcases accuracy with _ | (_ | _ | _) <;> rfl

/-- Shifting to the target exponent keeps the place of the highest digit. The condition says that
this place is above the least place of the format, so that not all digits are lost. -/
theorem shiftToTargetExponent_spec (hm : m ≠ 0) (ht : -1073 ≤ totalExponent m e)
    (accuracy : Accuracy) :
    let r := shiftToTargetExponent Format.binary64 m e accuracy
    r.1.mantissa ≠ 0 ∧ totalExponent r.1.mantissa r.2 = totalExponent m e ∧
      r.2 = max e (Format.binary64.targetExponent (totalExponent m e)) := by
  intro r
  have hmantissa : r.1.mantissa =
      m / 2 ^ (Format.binary64.targetExponent (totalExponent m e) - e).toNat := by
    refine (mantissa_shiftRight _ _).trans ?_
    rw [mantissa_ofMantissaAndAccuracy]
  have hexponent : r.2 = e + (Format.binary64.targetExponent (totalExponent m e) - e).toNat := rfl
  rw [targetExponent_eq] at hmantissa hexponent ⊢
  unfold totalExponent at *
  obtain ⟨hne, hlog⟩ := log2_div_two_pow (k := (max (m.log2 + 1 + e - 53) (-1074) - e).toNat) hm
    (by omega)
  refine ⟨hmantissa ▸ hne, ?_, ?_⟩
  · rw [hmantissa, hlog]
    omega
  · omega

/-- Rounding leaves a mantissa as it is or makes it the next one. -/
theorem roundedMantissa_bounds (em : ExtendedMantissa) :
    em.mantissa ≤ em.roundedMantissa ∧ em.roundedMantissa ≤ em.mantissa + 1 := by
  rcases em with ⟨m, roundBit, stickyBit⟩
  cases roundBit <;> cases stickyBit <;>
    simp [ExtendedMantissa.roundedMantissa, ExtendedMantissa.accuracy,
      Accuracy.roundToNearestEven]
  omega

/-- The next number has as many binary digits or one more. -/
theorem log2_bounds (hm : m ≠ 0) (hle : m ≤ n) (hlt : n ≤ m + 1) :
    n ≠ 0 ∧ m.log2 ≤ n.log2 ∧ n.log2 ≤ m.log2 + 1 := by
  have hn : n ≠ 0 := by omega
  have hlow := Nat.log2_self_le hm
  have hhigh := Nat.lt_log2_self (n := m)
  have hpos := Nat.two_pow_pos (m.log2 + 1)
  refine ⟨hn, (Nat.le_log2 hn).2 (hlow.trans hle), Nat.lt_succ_iff.1 ((Nat.log2_lt hn).2 ?_)⟩
  rw [Nat.pow_succ]
  omega

/-- A positive number in canonical form, the highest digit of which stands in one of the places from
`lo` to `hi`. -/
def Spans (lo hi : Int) (x : UnpackedFloat) : Prop :=
  ∃ m e h, x = .finite .positive m e h ∧
    e = Format.binary64.targetExponent (totalExponent m e) ∧
    lo ≤ totalExponent m e ∧ totalExponent m e ≤ hi

/-- A number spans more places as well. -/
theorem Spans.mono {x : UnpackedFloat} (h : Spans lo hi x) (hlo : lo' ≤ lo) (hhi : hi ≤ hi') :
    Spans lo' hi' x := by
  obtain ⟨m, e, hm, hx, he, hlow, hhigh⟩ := h
  exact ⟨m, e, hm, hx, he, hlo.trans hlow, hhigh.trans hhi⟩

/-- Rounding moves the highest digit by one place at most, and the result is in canonical form. If
rounding up adds a digit, the last one is dropped, which is a zero then. -/
theorem spans_roundWithAccuracy (hm : m ≠ 0) (ht : -1073 ≤ totalExponent m e)
    (he : e ≤ Format.binary64.targetExponent (totalExponent m e)) (accuracy : Accuracy) :
    Spans (totalExponent m e) (totalExponent m e + 1)
      (roundWithAccuracy Format.binary64 .positive m e accuracy) := by
  obtain ⟨hfirst, hplace, hexponent⟩ := shiftToTargetExponent_spec hm ht accuracy
  unfold roundWithAccuracy
  generalize shiftToTargetExponent Format.binary64 m e accuracy = first at *
  obtain ⟨em, e₁⟩ := first
  dsimp only at hfirst hplace hexponent ⊢
  obtain ⟨hle, hlt⟩ := roundedMantissa_bounds em
  obtain ⟨hrounded, hlow, hhigh⟩ := log2_bounds hfirst hle hlt
  have hbounds : totalExponent m e ≤ totalExponent em.roundedMantissa e₁ ∧
      totalExponent em.roundedMantissa e₁ ≤ totalExponent m e + 1 := by
    rw [← hplace]
    unfold totalExponent
    omega
  -- a carry can make the mantissa one digit longer, which is shifted out again
  obtain ⟨hsecond, hplace', hexponent'⟩ := shiftToTargetExponent_spec hrounded
    (ht.trans hbounds.1) .exact
  rw [dif_neg hsecond]
  refine ⟨_, _, _, rfl, ?_, ?_, ?_⟩
  · rw [hplace', hexponent', max_eq_right]
    rw [targetExponent_eq] at *
    omega
  · rw [hplace']
    exact hbounds.1
  · rw [hplace']
    exact hbounds.2

/-! ### Packing

A packed number has an exponent of 11 digits and a mantissa of 52. The exponents with the digits all
zero and all one tell small numbers and those that are not finite. -/

/-- A mantissa of 53 digits is the leading one and the 52 digits that are stored. -/
theorem toNat_append_mantissa (hlow : 2 ^ 52 ≤ m) (hhigh : m < 2 ^ 53) :
    (1#1 ++ BitVec.ofNat 52 m).toNat = m := by
  rw [BitVec.toNat_append, BitVec.toNat_ofNat, ← Nat.shiftLeft_add_eq_or_of_lt (by omega),
    Nat.shiftLeft_eq]
  simp
  omega

/-- The sign of a positive number is the digit in front of the exponent and the mantissa. -/
theorem sign_packComponents (exponent : BitVec 11) (mantissa : BitVec 52) :
    unpackSign (packComponents Format.binary64 .positive exponent mantissa) = 0#1 := by
  change ((0#1 ++ exponent) ++ mantissa).extractLsb' 63 1 = 0#1
  ext i hi
  have hlow : ¬63 + i < 52 := by omega
  have hhigh : ¬63 + i - 52 < 11 := by omega
  rw [BitVec.getElem_extractLsb', BitVec.getLsbD_append, BitVec.getLsbD_append, if_neg hlow,
    if_neg hhigh, BitVec.getLsbD_zero, BitVec.getElem_zero]

/-- Different numbers below the bound are different words. -/
theorem ofNat_ne {w k l : Nat} (hk : k < 2 ^ w) (hl : l < 2 ^ w) (hne : k ≠ l) :
    BitVec.ofNat w k ≠ BitVec.ofNat w l := by
  intro h
  have hnat := congrArg BitVec.toNat h
  rw [BitVec.toNat_ofNat, BitVec.toNat_ofNat, Nat.mod_eq_of_lt hk, Nat.mod_eq_of_lt hl] at hnat
  exact hne hnat

section

variable {b : BitVec Format.binary64.numBits}

/-- A positive number with a stored exponent that is neither all zeros nor all ones has one digit
more than are stored. -/
theorem unpack_normal (hsign : unpackSign b = 0#1) (hones : unpackExponent b ≠ -1#11)
    (hzeros : unpackExponent b ≠ 0#11) (hmantissa : (1#1 ++ unpackMantissa b).toNat = m)
    (hexponent : ((unpackExponent b).toNat : Int) - 1075 = e) (hm : 0 < m) :
    UnpackedFloat.unpack Format.binary64 b = .finite .positive m e hm := by
  subst hmantissa hexponent
  change (if unpackExponent b = -1#11 then _ else if unpackExponent b = 0#11 then _ else
    UnpackedFloat.finite (Sign.ofBitVec (unpackSign b)) _ _ _) = _
  rw [if_neg hones, if_neg hzeros, hsign]
  rfl

/-- A positive number with a stored exponent of zeros has the digits that are stored. -/
theorem unpack_subnormal (hsign : unpackSign b = 0#1) (hzeros : unpackExponent b = 0#11)
    (hmantissa : (unpackMantissa b).toNat = m) (hm : 0 < m) :
    UnpackedFloat.unpack Format.binary64 b = .finite .positive m (-1074) hm := by
  have hones : unpackExponent b ≠ -1#11 := by
    rw [hzeros]
    decide
  have hne : unpackMantissa b ≠ 0#52 := fun h => Nat.ne_of_gt hm (by rw [← hmantissa, h]; rfl)
  subst hmantissa
  change (if unpackExponent b = -1#11 then _ else if unpackExponent b = 0#11 then
    if h : unpackMantissa b = 0#52 then _ else
      UnpackedFloat.finite (Sign.ofBitVec (unpackSign b)) _ _ _ else _) = _
  rw [if_neg hones, if_pos hzeros, dif_neg hne, hsign, hzeros]
  rfl

end

/-- A number in canonical form is unpacked again from its packed form, if it is not too large. A
full mantissa is stored without its first digit and a smaller one with an exponent of zeros. -/
theorem Spans.unpack_pack {x : UnpackedFloat} (h : Spans lo hi x) (hhi : hi ≤ 1024) :
    (Float.Model.pack x).unpack = x := by
  obtain ⟨m, e, hm, rfl, he, -, hhigh⟩ := h
  rw [targetExponent_eq] at he
  unfold totalExponent at he hhigh
  have hlog : m.log2 < 53 := by omega
  have hm53 : m < 2 ^ 53 := (Nat.log2_lt (Nat.ne_of_gt hm)).1 hlog
  have hbiased : (e + 1023 + 52).toNat = e + 1075 := by omega
  have hfits : ¬2 ^ 11 ≤ (e + 1023 + 52).toNat + 1 := by omega
  change UnpackedFloat.unpack Format.binary64
    (if 2 ^ 11 ≤ (e + 1023 + 52).toNat + 1 then _ else if m.log2 + 1 = 53 then
      packComponents Format.binary64 .positive (BitVec.ofNat 11 (e + 1023 + 52).toNat)
        (BitVec.ofNat 52 m)
      else packComponents Format.binary64 .positive 0#11 (BitVec.ofNat 52 m)) = _
  rw [if_neg hfits]
  generalize (e + 1023 + 52).toNat = biased at hbiased hfits
  -- the first digit of a mantissa of full length is not stored
  by_cases hnormal : m.log2 + 1 = 53
  · rw [if_pos hnormal]
    have hm52 : 2 ^ 52 ≤ m := (Nat.le_log2 (Nat.ne_of_gt hm)).1 (by omega)
    have hexponent : (BitVec.ofNat 11 biased).toNat = biased := Nat.mod_eq_of_lt (by omega)
    apply unpack_normal
    case hsign => exact sign_packComponents _ _
    case hones =>
      rw [unpackExponent_packComponents]
      exact ofNat_ne (l := 2047) (by omega) (by omega) (by omega)
    case hzeros =>
      rw [unpackExponent_packComponents]
      exact ofNat_ne (l := 0) (by omega) (by omega) (by omega)
    case hmantissa =>
      rw [unpackMantissa_packComponents]
      exact toNat_append_mantissa hm52 hm53
    case hexponent =>
      rw [unpackExponent_packComponents, hexponent]
      omega
  · rw [if_neg hnormal]
    have hm52 : m < 2 ^ 52 := (Nat.log2_lt (Nat.ne_of_gt hm)).1 (by omega)
    obtain rfl : e = -1074 := by omega
    apply unpack_subnormal
    case hsign => exact sign_packComponents _ _
    case hzeros => exact unpackExponent_packComponents
    case hmantissa =>
      rw [unpackMantissa_packComponents]
      exact Nat.mod_eq_of_lt hm52

/-! ### Operations -/

/-- Rounding a mantissa with an exponent, as conversions of whole numbers do. -/
theorem spans_round (hm : m ≠ 0) (ht : -1073 ≤ totalExponent m e) :
    Spans (totalExponent m e) (totalExponent m e + 1)
      (UnpackedFloat.round Format.binary64 .positive m e) := by
  generalize htarget : Format.binary64.targetExponent (totalExponent m e) = target
  have hplace : totalExponent (m <<< (e - target).toNat) (e - (e - target).toNat) =
      totalExponent m e := by
    unfold totalExponent
    rw [Nat.shiftLeft_eq, log2_mul_two_pow hm]
    omega
  have hne : m <<< (e - target).toNat ≠ 0 := by
    rw [Nat.shiftLeft_eq]
    exact Nat.mul_ne_zero hm (Nat.two_pow_pos _).ne'
  -- before rounding the mantissa is shifted to the left, which adds places below
  unfold UnpackedFloat.round
  rw [htarget, ← hplace]
  refine spans_roundWithAccuracy hne (hplace ▸ ht) ?_ .exact
  rw [hplace, htarget]
  omega

/-- A product with one, whatever mantissa and exponent one is written with, moves the highest digit
by one place at most. -/
theorem spans_mul_one {k : Nat} (hm : 0 < m) (hk : 0 < 2 ^ k) (ht : -1073 ≤ totalExponent m e)
    (he : e - k ≤ Format.binary64.targetExponent (totalExponent m e)) :
    Spans (totalExponent m e) (totalExponent m e + 1) (UnpackedFloat.mul Format.binary64
      (.finite .positive m e hm) (.finite .positive (2 ^ k) (-k) hk)) := by
  have hplace : totalExponent (m * 2 ^ k) (e + -k) = totalExponent m e := by
    unfold totalExponent
    rw [log2_mul_two_pow hm.ne']
    omega
  change Spans _ _ (roundWithAccuracy Format.binary64 .positive (m * 2 ^ k) (e + -k) .exact)
  rw [← hplace] at ht he ⊢
  exact spans_roundWithAccuracy (Nat.mul_ne_zero hm.ne' hk.ne') ht he .exact

/-- The places of a quotient are known from those of its parts, with one place for the division and
one for rounding. -/
theorem Spans.div {x y : UnpackedFloat} (hx : Spans lo hi x) (hy : Spans lo' hi' y)
    (h : -1021 ≤ lo - hi') :
    Spans (lo - hi') (hi - lo' + 2) (UnpackedFloat.div Format.binary64 x y) := by
  obtain ⟨m, e, hm, rfl, -, hlow, hhigh⟩ := hx
  obtain ⟨n, f, hn, rfl, -, hlow', hhigh'⟩ := hy
  change Spans _ _ (roundWithAccuracy Format.binary64 .positive _ _ _)
  generalize htarget : min (e - f)
    (Format.binary64.targetExponent (totalExponent m e - totalExponent n f)) = target
  rw [targetExponent_eq] at htarget
  unfold totalExponent at hlow hhigh hlow' hhigh' htarget
  have hlog : (m <<< (e - f - target).toNat).log2 = m.log2 + (e - f - target).toNat := by
    rw [Nat.shiftLeft_eq, log2_mul_two_pow hm.ne']
  -- the dividend was shifted far enough for the quotient to have the digits that are needed
  obtain ⟨hquotient, hquotientLow, hquotientHigh⟩ :=
    log2_div (m := m <<< (e - f - target).toNat) hn.ne' (by omega)
  generalize m <<< (e - f - target).toNat = shifted at *
  refine (spans_roundWithAccuracy hquotient ?_ ?_ _).mono ?_ ?_
  · unfold totalExponent
    omega
  · rw [targetExponent_eq]
    unfold totalExponent
    omega
  · unfold totalExponent
    omega
  · unfold totalExponent
    omega

/-! ### Machine numbers -/

/-- A positive number, the highest digit of which stands in one of the places from `lo` to `hi`. -/
def Between (lo hi : Int) (x : Float) : Prop := Spans lo hi x.toModel.unpack

variable {x y : Float}

/-- A number that spans places of the format keeps them when it is packed. -/
theorem Spans.between {x : UnpackedFloat} (h : Spans lo hi x) (hhi : hi ≤ 1024) :
    Between lo hi (.ofModel (.pack x)) := by
  rw [Between, h.unpack_pack hhi]
  exact h

/-- A machine number with a highest digit is positive. -/
theorem Between.pos (h : Between lo hi x) : 0 < x := by
  obtain ⟨m, e, hm, hx, -⟩ := h
  have hzero : (0 : Float).toModel.unpack = .zero .positive := rfl
  change decide (UnpackedFloat.lt (0 : Float).toModel.unpack x.toModel.unpack = true) = true
  rw [hzero, hx]
  rfl

/-- The quotient of machine numbers, packed and unpacked on the way. -/
theorem Between.div (hx : Between lo hi x) (hy : Between lo' hi' y) (hlow : -1021 ≤ lo - hi')
    (hhigh : hi - lo' ≤ 1022) : Between (lo - hi') (hi - lo' + 2) (x / y) :=
  (Spans.div hx hy hlow).between (by omega)

/-- A word that is not zero is converted to a number of 1 to 64 digits, or one more by rounding. -/
theorem between_toFloat {w : UInt64} (hw : w ≠ 0) : Between 1 65 w.toFloat := by
  have hne : w.toNat ≠ 0 := fun h => hw (UInt64.toNat_inj.1 h)
  have hlog : w.toNat.log2 < 64 := (Nat.log2_lt hne).2 w.toNat_lt
  have hround : UnpackedFloat.ofUInt64 Format.binary64 w =
      UnpackedFloat.round Format.binary64 .positive w.toNat 0 := by
    change UnpackedFloat.normalize Format.binary64 (w.toNat : Int) 0 .positive = _
    unfold UnpackedFloat.normalize
    rw [compare_gt_iff_gt.2 (Int.natCast_pos.2 (Nat.pos_of_ne_zero hne))]
    rfl
  have hspans := spans_round (m := w.toNat) (e := 0) hne (by unfold totalExponent; omega)
  rw [← hround] at hspans
  refine (hspans.mono ?_ ?_).between (by omega)
  · unfold totalExponent
    omega
  · unfold totalExponent
    omega

/-- A natural number below `2 ^ 64` other than zero is converted to a positive number. Numbers that
a mantissa can hold are converted as words, the others with digits to spare; both ways end with a
product with one. -/
theorem between_ofNat (hn : n ≠ 0) (hlt : n < 2 ^ 64) : Between 1 66 (Float.ofNat n) := by
  change Between 1 66 (Float.ofScientific n false 0)
  unfold Float.ofScientific
  by_cases hsmall : n < 2 ^ 53
  -- as a word it is converted exactly, and then multiplied with the zeroth power of ten
  · have hword : n.toUInt64 ≠ 0 := fun h => by
      have hnat := congrArg UInt64.toNat h
      rw [Nat.toUInt64, UInt64.toNat_ofNat_of_lt' hlt] at hnat
      exact hn hnat
    obtain ⟨m, e, hm, hx, he, hlow, hhigh⟩ := between_toFloat hword
    rw [targetExponent_eq] at he
    have hone : Float.exactlyRepresentablePowersOfTen[0].toModel.unpack =
        .finite .positive (2 ^ 52) (-(52 : Nat)) (Nat.two_pow_pos 52) := rfl
    have hspans := spans_mul_one (e := e) (k := 52) hm (Nat.two_pow_pos 52) (by omega)
      (by rw [targetExponent_eq]; omega)
    rw [← hx, ← hone] at hspans
    rw [dif_pos ⟨hsmall, by omega⟩]
    exact (hspans.mono hlow (by omega)).between (by omega)
  -- the mantissa is shifted, so that its highest digit is 53 places further, and the exponent
  -- takes that back
  · have hpos : 0 < n <<< 53 := by
      rw [Nat.shiftLeft_eq]
      omega
    have hplace : totalExponent (n <<< 53) (-(53 : Nat)) = n.log2 + 1 := by
      unfold totalExponent
      rw [Nat.shiftLeft_eq, log2_mul_two_pow hn]
      omega
    have hlog : n.log2 < 64 := (Nat.log2_lt hn).2 hlt
    have hspans := spans_mul_one (e := -(53 : Nat)) (k := 0) hpos (Nat.two_pow_pos 0)
      (by omega) (by rw [targetExponent_eq]; omega)
    have hscientific : UnpackedFloat.ofScientific Format.binary64 n 0 =
        UnpackedFloat.mul Format.binary64 (.finite .positive (n <<< 53) (-(53 : Nat)) hpos)
          (.finite .positive (2 ^ 0) (-(0 : Nat)) (Nat.two_pow_pos 0)) := by
      unfold UnpackedFloat.ofScientific
      rw [dif_neg hn, if_neg (by decide), if_neg (show ¬(0 : Int) < -(2 ^ 11 + n.log2) by omega),
        if_pos le_rfl]
      rfl
    rw [← hscientific] at hspans
    rw [dif_neg fun h => hsmall h.1]
    exact (hspans.mono (by omega) (by omega)).between (by omega)

end Places

end PlanOrbits
