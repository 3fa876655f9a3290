import PlanOrbits.Proofs.Number.Reading
import PlanOrbits.Proofs.Number.Rounding
import PlanOrbits.Proofs.Text.NormalForm
import PlanOrbits.Proofs.Transcript.Reader

/-!
# When a group order is read exactly

A group order is written with digits, or as a decimal times a power of ten (`OrderNumeral.Writes`).
Either way it is computed in binary floating point and rounded, a plain number once and a product
twice, so that not every order comes out as it was written. Which ones do is decided by nearest
numbers and the computed power (`OrderNumeral.IsKept`, `parseGroupOrder_eq_ok_iff_isKept`). A
decimal that is rounded down may lose a unit to the truncation of the product
(`not_parseGroupOrder_eq_ok_twoHundredThirty`).
-/

namespace PlanOrbits.Transcript

open Binary64 (IsRepresentable IsNearest DecimalText tenPow)
open Text (IsNumeral isDigit valueFrom)

/-- How an order is written: as a number, or as a number moved by decimal places to the right and
then by those of a power of ten to the left. -/
inductive OrderNumeral where
  | whole (n : ℕ)
  | scaled (n places exponent : ℕ)

namespace OrderNumeral

/-- The order. -/
def value : OrderNumeral → ℕ
  | whole n => n
  | scaled n places exponent => n * 10 ^ (exponent - places)

/-- The texts of an order. The power of ten leaves no places behind the point. -/
inductive Writes : OrderNumeral → List Char → Prop
  | whole {ds : List Char} (hds : IsNumeral ds) : Writes (whole (valueFrom 0 ds)) ds
  | scaled {ms es : List Char} {n places : ℕ} (hms : DecimalText ms n places) (hes : IsNumeral es)
      (hplaces : places ≤ valueFrom 0 es) :
      Writes (scaled n places (valueFrom 0 es)) (ms ++ (timesTenTo ++ es))

/-- The order comes out as it is written. A plain number is a number of the format, or the last
one of a word. In a product, the decimal and its product with the computed power are rounded, and
what comes behind the point is cut off; the power may also be too large for the format. -/
def IsKept : OrderNumeral → Prop
  | whole n => IsRepresentable n ∨ n = 2 ^ 64 - 1
  | scaled n places exponent =>
      exponent < 2 ^ 31 ∧ ∃ a, IsNearest (n / 10 ^ places) a ∧
        match (tenPow exponent).value? with
        | some p => ∃ c, IsNearest (a * p) c ∧
            min ⌊c⌋₊ (2 ^ 64 - 1) = (scaled n places exponent).value
        | none => (if a = 0 then 0 else 2 ^ 64 - 1) = (scaled n places exponent).value

/-- A way to see that an order is kept: neither the decimal nor the order has to be rounded, and the
power of ten is exact. -/
theorem isKept_scaled {n places exponent : ℕ} (hplaces : places ≤ exponent)
    (hexponent : exponent ≤ 22) (hmantissa : IsRepresentable (n / 10 ^ places))
    (hvalue : IsRepresentable (scaled n places exponent).value)
    (hlt : (scaled n places exponent).value < 2 ^ 64) : (scaled n places exponent).IsKept := by
  refine ⟨by omega, n / 10 ^ places, hmantissa.isNearest, ?_⟩
  have hproduct : (n / 10 ^ places * 10 ^ exponent : ℚ) = (scaled n places exponent).value := by
    rw [value, Nat.cast_mul, Nat.cast_pow, Nat.cast_ofNat, pow_sub₀ _ (by norm_num) hplaces,
      div_mul_eq_mul_div, mul_div_assoc, div_eq_mul_inv]
  rw [Binary64.value?_tenPow hexponent]
  refine ⟨(scaled n places exponent).value, hproduct ▸ hvalue.isNearest, ?_⟩
  rw [Nat.floor_natCast]
  omega

/-! ### The text -/

/-- Only digits, points and the characters of `timesTenTo` occur in the text of a numeral, so
neither the semicolon nor a blank does. -/
theorem Writes.not_mem {q : OrderNumeral} {cs : List Char} {c : Char} (h : q.Writes cs)
    (hdigit : isDigit c = false) (hpoint : c ≠ '.') (htimes : c ∉ timesTenTo) : c ∉ cs := by
  cases h with
  | whole hds => exact hds.not_mem hdigit
  | scaled hms hes =>
      rw [List.mem_append, List.mem_append, not_or, not_or]
      exact ⟨hms.not_mem hdigit hpoint, htimes, hes.not_mem hdigit⟩

theorem Writes.trim {q : OrderNumeral} {cs : List Char} (h : q.Writes cs) : Text.trim cs = cs := by
  refine Text.trim_of_not_mem fun c hc => h.not_mem (Text.isDigit_of_isBlank hc)
    (Text.ne_of_isBlank hc (by decide)) fun hmem => ?_
  have hsolid : timesTenTo.any Text.isBlank = false := by decide
  exact List.any_eq_false.1 hsolid c hmem hc

end OrderNumeral

/-- A plain number is read as a decimal without places. -/
theorem magnitude?_of_isNumeral {ds : List Char} (hds : IsNumeral ds) :
    magnitude? ds = some (Binary64.ofDecimal false (valueFrom 0 ds) 0) := by
  have hcut : Text.cutAround? timesTenTo ds = none :=
    Text.contains_eq_false_iff.1
      (Text.contains_eq_false_of_not_mem (c := '*') (by decide) (hds.not_mem (by decide)))
  rw [magnitude?, hcut]
  exact Binary64.read?_of_decimalText (.whole hds)

/-- A scaled number is cut at its sign of the product; the decimal and the exponent are read
separately, and the product is rounded. -/
theorem magnitude?_of_decimalText {ms es : List Char} {n places : ℕ}
    (hms : DecimalText ms n places) (hes : IsNumeral es) :
    magnitude? (ms ++ (timesTenTo ++ es)) =
      if valueFrom 0 es < 2 ^ 31 then
        some ((Binary64.ofDecimal false n (-places)).mul (tenPow (valueFrom 0 es)))
      else none := by
  -- the asterisk is not in the decimal, so the cut is where the sign was written
  have hcut : Text.cutAround? timesTenTo (ms ++ (timesTenTo ++ es)) = some (ms, es) :=
    Text.cutAround?_append (by decide) (Text.contains_eq_false_of_not_mem (c := '*') (by decide)
      (hms.not_mem (by decide) (by decide)))
  have hms' : Text.trim ms = ms := Text.trim_of_not_mem fun c hc =>
    hms.not_mem (Text.isDigit_of_isBlank hc) (Text.ne_of_isBlank hc (by decide))
  have hes' : Text.trim es = es := Text.trim_of_not_mem fun c hc =>
    hes.not_mem (Text.isDigit_of_isBlank hc)
  rw [magnitude?, hcut]
  simp only [hms', hes', Binary64.read?_of_decimalText hms, Text.exponentOf?_of_isNumeral hes]
  split <;> rfl

/-- The order of a line is read from the numeral behind the first marker, up to the semicolon. -/
theorem parseGroupOrder_append {before numeral after : List Char} {q : OrderNumeral} {v : UInt64}
    (hbefore : Text.contains groupOrderMarker before = false) (hq : q.Writes numeral) :
    parseGroupOrder (String.ofList (before ++ (groupOrderMarker ++ (numeral ++ ';' :: after)))) =
      .ok v ↔ ∃ b, magnitude? numeral = some b ∧ b.toWord = v := by
  have hafter : Text.after? groupOrderMarker
      (before ++ (groupOrderMarker ++ (numeral ++ ';' :: after))) =
        some (numeral ++ ';' :: after) := by
    rw [Text.after?_eq_map, groupOrderMarker, Text.cutAround?_append (by decide) hbefore]
    rfl
  have hnumeral : Text.trim ((numeral ++ ';' :: after).takeWhile (· != ';')) = numeral := by
    rw [Text.takeWhile_append_cons (hq.not_mem (by decide) (by decide) (by decide)), hq.trim]
  rw [parseGroupOrder_eq_ok_iff, hafter]
  simp only [Option.some.injEq, exists_eq_left', hnumeral, exists_and_left]

/-! ### The number -/

/-- A plain number comes out as it was written exactly if `IsKept` says so: it is rounded once and
cut off to a word. -/
theorem toWord_ofDecimal_eq_iff {n : ℕ} {v : UInt64} (hv : n = v.toNat) :
    (Binary64.ofDecimal false n 0).toWord = v ↔ (OrderNumeral.whole n).IsKept := by
  obtain ⟨c, hc, hrepr⟩ := Binary64.exists_represents_ofDecimal n 0
  rw [zpow_zero, mul_one] at hc
  rw [Binary64.toWord_eq_iff hrepr, ← hv, hc.floor_eq_iff (hv ▸ v.toNat_lt)]
  exact Iff.rfl

/-- The decimal of an order that fits a word is a finite number, as it is at most the order. -/
theorem exists_ofDecimal_eq_finite {n places exponent : ℕ} {v : UInt64}
    (hv : (OrderNumeral.scaled n places exponent).value = v.toNat) :
    ∃ m e, Binary64.ofDecimal false n (-places) = .finite false m e ∧
      IsNearest (n / 10 ^ places) (m * 2 ^ e) := by
  obtain ⟨a, ha, hrepr⟩ := Binary64.exists_represents_ofDecimal n (-places)
  rw [zpow_neg, ← div_eq_mul_inv, zpow_natCast] at ha
  have hle : (n / 10 ^ places : ℚ) ≤ 2 ^ 64 := by
    have hn : n ≤ v.toNat := hv ▸ Nat.le_mul_of_pos_right n (by positivity)
    calc (n / 10 ^ places : ℚ) ≤ n := div_le_self (by positivity) (one_le_pow₀ (by norm_num))
      _ ≤ 2 ^ 64 := by exact_mod_cast hn.trans v.toNat_lt.le
  rcases hrepr.cases with ⟨m, e, heq, rfl⟩ | ⟨-, hlarge⟩
  · exact ⟨m, e, heq, ha⟩
  · have hword : a ≤ 2 ^ 64 :=
      ha.le_of_ge ⟨1, 64, by norm_num, by norm_num, by rw [Nat.cast_one, one_mul]; rfl⟩ hle
    have hlt : (2 : ℚ) ^ 64 < 2 ^ 1024 := pow_lt_pow_right₀ one_lt_two (by norm_num)
    exact absurd hlarge (hword.trans_lt hlt).not_ge

/-- A scaled number comes out as it was written exactly if `IsKept` says so. The power of ten may be
infinite, if the decimal is zero or the product is too large. -/
theorem toWord_mul_eq_iff {n places exponent : ℕ} {v : UInt64} (hexponent : exponent < 2 ^ 31)
    (hv : (OrderNumeral.scaled n places exponent).value = v.toNat) :
    ((Binary64.ofDecimal false n (-places)).mul (tenPow exponent)).toWord = v ↔
      (OrderNumeral.scaled n places exponent).IsKept := by
  obtain ⟨m, e, heq, ha⟩ := exists_ofDecimal_eq_finite hv
  rw [OrderNumeral.IsKept, heq, ha.exists_iff, and_iff_right hexponent, hv]
  obtain ⟨p, hp, hpower⟩ := Binary64.isAtLeastOne_tenPow (E := exponent) (by omega)
  rcases hpower.cases with ⟨l, f, hfinite, rfl⟩ | ⟨hinfinite, -⟩
  · rw [hfinite]
    obtain ⟨c, hc, hrepr⟩ := Binary64.exists_represents_mul m l e f
    rw [Binary64.toWord_eq_iff hrepr, Binary64.value?, if_neg Bool.false_ne_true]
    dsimp only
    rw [hc.exists_iff]
  · -- an infinite power keeps no order other than that of a zero decimal
    have hnone : (Binary64.infinite false).value? = none := rfl
    rw [hinfinite, hnone, Binary64.mul, ← UInt64.toNat_inj]
    by_cases hm : m = 0
    · rw [if_pos hm, if_pos (by rw [hm, Nat.cast_zero, zero_mul])]
      exact Iff.rfl
    · have hne : (m : ℚ) * 2 ^ e ≠ 0 := by positivity
      rw [if_neg hm, if_neg hne]
      exact Iff.rfl

/-- The group order of a line is read as it is written if and only if the numeral keeps it,
whichever of its two forms it has. -/
theorem parseGroupOrder_eq_ok_iff_isKept {before numeral after : List Char} {q : OrderNumeral}
    {v : UInt64} (hbefore : Text.contains groupOrderMarker before = false)
    (hq : q.Writes numeral) (hv : q.value = v.toNat) :
    parseGroupOrder (String.ofList (before ++ (groupOrderMarker ++ (numeral ++ ';' :: after)))) =
      .ok v ↔ q.IsKept := by
  rw [parseGroupOrder_append hbefore hq]
  cases hq with
  | whole hds =>
      rw [magnitude?_of_isNumeral hds]
      simp only [Option.some.injEq, exists_eq_left']
      exact toWord_ofDecimal_eq_iff hv
  | scaled hms hes _ =>
      rw [magnitude?_of_decimalText hms hes]
      split
      · rename_i hexponent
        simp only [Option.some.injEq, exists_eq_left']
        exact toWord_mul_eq_iff hexponent hv
      · rename_i hexponent
        refine iff_of_false ?_ fun h => hexponent h.1
        rintro ⟨b, ⟨⟩, -⟩

theorem parseGroupOrder_eq_ok_iff_isKept_fifteenHundred :
    parseGroupOrder "1 orbit; grpsize=1.5*10^3; 3 gens" = .ok 1500 := by
  have hwrites : (OrderNumeral.scaled 15 1 3).Writes "1.5*10^3".toList :=
    .scaled (@DecimalText.pointed ['1'] ['5'] ⟨by decide, List.all_eq_true.1 (by decide)⟩)
      (show IsNumeral ['3'] from ⟨by decide, List.all_eq_true.1 (by decide)⟩) (by decide)
  have hmantissa : IsRepresentable ((15 : ℕ) / 10 ^ 1) :=
    ⟨3, -1, by norm_num, by norm_num, by norm_num⟩
  have hkept : (OrderNumeral.scaled 15 1 3).IsKept :=
    OrderNumeral.isKept_scaled (by decide) (by decide) hmantissa
      (Binary64.isRepresentable_natCast (by decide)) (by decide)
  exact (@parseGroupOrder_eq_ok_iff_isKept "1 orbit; ".toList "1.5*10^3".toList " 3 gens".toList
    (.scaled 15 1 3) 1500 (by decide) hwrites (by decide)).2 hkept

/-- The decimal of `2.3*10^2` is rounded down, the product with the exact power of ten is below 230,
and 229 is what is left of it. -/
theorem not_parseGroupOrder_eq_ok_twoHundredThirty :
    ¬∀ (before numeral after : List Char) (q : OrderNumeral) (v : UInt64),
      Text.contains groupOrderMarker before = false → q.Writes numeral → q.value = v.toNat →
        parseGroupOrder
          (String.ofList (before ++ (groupOrderMarker ++ (numeral ++ ';' :: after)))) = .ok v := by
  intro hall
  have hwrites : (OrderNumeral.scaled 23 1 2).Writes "2.3*10^2".toList :=
    .scaled (@DecimalText.pointed ['2'] ['3'] ⟨by decide, List.all_eq_true.1 (by decide)⟩)
      (show IsNumeral ['2'] from ⟨by decide, List.all_eq_true.1 (by decide)⟩) (by decide)
  have horder := hall "1 orbit; ".toList "2.3*10^2".toList " 3 gens".toList (.scaled 23 1 2) 230
    (by decide) hwrites (by decide)
  have hless : parseGroupOrder (String.ofList ("1 orbit; ".toList ++ (groupOrderMarker ++
      ("2.3*10^2".toList ++ ';' :: " 3 gens".toList)))) = .ok 229 := by
    rfl
  rw [hless] at horder
  cases horder

end PlanOrbits.Transcript
