import Mathlib.Data.List.Basic
import Mathlib.Data.Nat.Digits.Defs
import PlanOrbits.Text.Blank
import PlanOrbits.Text.Digits

/-!
# Decimal numbers

The decimal text of a number consists of digits, at least one, and the digits denote the
number (`valueFrom_decimal`). So it is read back as the number it is the text of, if the number
fits a 64-bit word (`wordOf?_decimal`). No digit is a blank or a sign, which is what keeps
decimal texts apart from what stands between them.
-/

namespace PlanOrbits.Text

variable {c : Char} {n : Nat}

/-! ### Digits -/

theorem digit?_eq_some_of_isDigit (h : isDigit c = true) :
    digit? c = some (c.toNat - '0'.toNat) := by
  rw [isDigit, digit?] at h
  rw [digit?]
  split at h
  · rename_i hc
    rw [if_pos hc]
  · cases h

/-- The digits are those of the standard library, so that its lemmas on decimal texts can be used.
-/
theorem isDigit_eq : isDigit c = c.isDigit := by
  rw [Bool.eq_iff_iff, Char.isDigit_iff_toNat, isDigit, digit?]
  have hle : ('0' ≤ c ∧ c ≤ '9') ↔ '0'.toNat ≤ c.toNat ∧ c.toNat ≤ '9'.toNat := Iff.rfl
  rw [← hle]
  split <;> simp_all

theorem isBlank_of_isDigit (h : isDigit c = true) : isBlank c = false := by
  rw [isDigit_eq, Char.isDigit_iff_toNat] at h
  have h0 : '0'.toNat = 48 := rfl
  have h9 : '9'.toNat = 57 := rfl
  simp only [isBlank, Bool.or_eq_false_iff, Bool.and_eq_false_iff, beq_eq_false_iff_ne,
    decide_eq_false_iff_not]
  omega

/-- A blank is no digit, so it ends a number. -/
theorem isDigit_of_isBlank (h : isBlank c = true) : isDigit c = false := by
  rw [Bool.eq_false_iff]
  intro hdigit
  rw [isBlank_of_isDigit hdigit] at h
  cases h

theorem isDigit_of_mem_decimal (h : c ∈ decimal n) : isDigit c = true := by
  rw [isDigit_eq]
  exact Nat.isDigit_of_mem_toDigits (by omega) (by omega) h

theorem decimal_ne_nil : decimal n ≠ [] := Nat.toDigits_ne_nil

/-- The first character of a decimal text is a digit. -/
theorem exists_decimal_eq_cons (n : Nat) : ∃ c cs, decimal n = c :: cs ∧ isDigit c = true := by
  obtain ⟨c, cs, h⟩ := List.exists_cons_of_ne_nil (decimal_ne_nil (n := n))
  exact ⟨c, cs, h, isDigit_of_mem_decimal (h ▸ List.mem_cons_self)⟩

/-! ### Numbers -/

/-- The number that a text of digits denotes, behind the digits worth `start`. -/
def valueFrom (start : Nat) (cs : List Char) : Nat :=
  numberFrom start (cs.map fun c => c.toNat - '0'.toNat)

theorem valueFrom_cons (start : Nat) (c : Char) (cs : List Char) :
    valueFrom start (c :: cs) = valueFrom (10 * start + (c.toNat - '0'.toNat)) cs := by
  rw [valueFrom, List.map_cons, numberFrom, List.foldl_cons, ← numberFrom, ← valueFrom]

/-- Further digits make no number smaller. A reader that checks the bound after every digit refuses
no number for its front therefore. -/
theorem le_valueFrom (start : Nat) (cs : List Char) : start ≤ valueFrom start cs := by
  induction cs generalizing start with
  | nil => exact Nat.le_refl start
  | cons c cs ih =>
      rw [valueFrom_cons]
      exact Nat.le_trans (by omega) (ih _)

theorem valueFrom_decimal (n : Nat) : valueFrom 0 (decimal n) = n := by
  have h := Nat.ofDigitChars_toDigits (n := n) (show 1 < 10 by omega) (by omega)
  rw [Nat.ofDigitChars_eq_foldl] at h
  rwa [valueFrom, numberFrom, List.foldl_map]

/-- Digits behind a start denote less than the next number with as many zeros behind it. -/
theorem valueFrom_lt {cs : List Char} (h : ∀ c ∈ cs, isDigit c = true) (start : Nat) :
    valueFrom start cs < (start + 1) * 10 ^ cs.length := by
  induction cs generalizing start with
  | nil => exact lt_of_lt_of_eq (Nat.lt_succ_self start) (Nat.mul_one _).symm
  | cons c cs ih =>
      obtain ⟨hc, hcs⟩ := List.forall_mem_cons.1 h
      have hdigit := digit?_lt (digit?_eq_some_of_isDigit hc)
      rw [valueFrom_cons, List.length_cons, Nat.pow_succ']
      calc valueFrom (10 * start + (c.toNat - '0'.toNat)) cs
          < (10 * start + (c.toNat - '0'.toNat) + 1) * 10 ^ cs.length := ih hcs _
        _ ≤ (start + 1) * 10 * 10 ^ cs.length := Nat.mul_le_mul_right _ (by omega)
        _ = (start + 1) * (10 * 10 ^ cs.length) := Nat.mul_assoc _ _ _

/-- A number is below the power of ten that its number of digits gives. -/
theorem lt_pow_length_decimal (n : Nat) : n < 10 ^ (decimal n).length := by
  have h := valueFrom_lt (fun c (hc : c ∈ decimal n) => isDigit_of_mem_decimal hc) 0
  rwa [valueFrom_decimal, Nat.zero_add, Nat.one_mul] at h

/-- A number other than zero is not below the power of ten before. -/
theorem pow_length_decimal_le (h : n ≠ 0) : 10 ^ ((decimal n).length - 1) ≤ n := by
  by_contra hlt
  rcases Nat.eq_zero_or_pos ((decimal n).length - 1) with hzero | hpos
  · rw [hzero] at hlt
    omega
  · have := Nat.toDigits_length 10 n _ hpos (Nat.not_le.1 hlt)
    rw [decimal] at hpos this
    omega

/-- Different numbers have different texts, since the digits denote the number. -/
theorem decimal_injective : Function.Injective decimal :=
  Function.LeftInverse.injective valueFrom_decimal

theorem mapM_digit? {cs : List Char} (h : ∀ c ∈ cs, isDigit c = true) :
    cs.mapM digit? = some (cs.map fun c => c.toNat - '0'.toNat) := by
  induction cs with
  | nil => rfl
  | cons c cs ih =>
      obtain ⟨hc, hcs⟩ := List.forall_mem_cons.1 h
      rw [List.mapM_cons, digit?_eq_some_of_isDigit hc, ih hcs]
      rfl

/-- A number of the 64-bit range is read back from its decimal text: the text starts with no sign,
and all of its characters are digits. -/
theorem wordOf?_decimal (h : n < wordLimit) : wordOf? (decimal n) = some n := by
  obtain ⟨c, cs, hcons, hc⟩ := exists_decimal_eq_cons n
  have hdigits : digits? (decimal n) = some ((decimal n).map fun c => c.toNat - '0'.toNat) := by
    rw [← mapM_digit? fun _ => isDigit_of_mem_decimal, hcons]
    rfl
  -- `wordOf?` drops a plus sign in front, which is not there
  have hplus : c ≠ '+' := by
    rintro rfl
    exact absurd hc (by decide)
  have hvalue : number ((decimal n).map fun c => c.toNat - '0'.toNat) = n := valueFrom_decimal n
  unfold wordOf?
  split
  · rename_i rest heq
    rw [hcons, List.cons.injEq] at heq
    exact absurd heq.1 hplus
  · simp only [hdigits, hvalue, Option.bind_eq_bind, Option.bind_some, if_pos h]

end PlanOrbits.Text
