import Mathlib.Data.List.TakeDrop
import PlanOrbits.Number.Binary64
import PlanOrbits.Proofs.Text.Decimal

/-!
# Reading decimals

Digits with at most one point among them are no name, have no sign and no exponent. They are read
as the number that all the digits denote, moved by as many places as there are digits behind the
point (`read?_of_decimalText`).
-/

namespace PlanOrbits

namespace Text

variable {c : Char} {cs : List Char}

/-- Digits, and at least one. -/
structure IsNumeral (cs : List Char) : Prop where
  ne_nil : cs ≠ []
  isDigit : ∀ c ∈ cs, isDigit c = true

/-- A numeral has digits only. -/
theorem IsNumeral.not_mem (h : IsNumeral cs) (hc : Text.isDigit c = false) : c ∉ cs := by
  intro hmem
  rw [h.isDigit c hmem] at hc
  cases hc

/-- Digits have no upper case. -/
theorem toLower_of_isDigit (h : isDigit c = true) : c.toLower = c := by
  rw [isDigit_eq, Char.isDigit_iff_toNat] at h
  refine dif_neg fun hupper => ?_
  have hle : 'A'.toNat ≤ c.toNat := hupper.1
  have hA : 'A'.toNat = 65 := rfl
  have h9 : '9'.toNat = 57 := rfl
  omega

/-- The digits of a numeral, as numbers. -/
theorem digits?_of_isNumeral (h : IsNumeral cs) :
    digits? cs = some (cs.map fun c => c.toNat - '0'.toNat) := by
  rw [digits?, mapM_digit? h.isDigit]
  exact h.ne_nil

/-- Digits in front of something else are cut off by `span`. -/
theorem span_isDigit {rest : List Char} (h : ∀ c ∈ cs, isDigit c = true)
    (hrest : ∀ c ∈ rest.head?, isDigit c = false) : (cs ++ rest).span isDigit = (cs, rest) := by
  rw [List.span_eq_takeWhile_dropWhile, List.takeWhile_append_of_pos h,
    List.dropWhile_append_of_pos h]
  cases rest with
  | nil => rw [List.takeWhile_nil, List.dropWhile_nil, List.append_nil]
  | cons c rest =>
      have hc := Bool.eq_false_iff.1 (hrest c rfl)
      rw [List.takeWhile_cons_of_neg hc, List.dropWhile_cons_of_neg hc, List.append_nil]

/-- Where there are digits only, nothing is left behind them. -/
theorem span_isDigit_self (h : ∀ c ∈ cs, isDigit c = true) : cs.span isDigit = (cs, []) := by
  have hspan := span_isDigit h (show ∀ c ∈ [].head?, isDigit c = false by rintro _ ⟨⟩)
  rwa [List.append_nil] at hspan

/-- Each digit is the distance of its character from the character zero. -/
theorem filterMap_digit? (h : ∀ c ∈ cs, isDigit c = true) :
    cs.filterMap digit? = cs.map fun c => c.toNat - '0'.toNat := by
  induction cs with
  | nil => rfl
  | cons c cs ih =>
      obtain ⟨hc, hcs⟩ := List.forall_mem_cons.1 h
      rw [List.filterMap_cons_some (digit?_eq_some_of_isDigit hc), ih hcs, List.map_cons]

/-- A numeral is read as an exponent if its number is small enough. -/
theorem exponentOf?_of_isNumeral (h : IsNumeral cs) :
    exponentOf? cs = if valueFrom 0 cs < 2 ^ 31 then some (valueFrom 0 cs : Int) else none := by
  have hsign : ∀ sign, isDigit sign = false → ∀ rest, cs ≠ sign :: rest := by
    rintro sign hsign rest rfl
    exact h.not_mem hsign List.mem_cons_self
  rw [exponentOf?, digits?_of_isNumeral h]
  · rfl
  · exact hsign '+' (by decide)
  · exact hsign '-' (by decide)

end Text

namespace Binary64

open Text (IsNumeral isDigit valueFrom)

/-- Digits with at most one point. The number that all the digits denote and the number of digits
behind the point make up the value. -/
inductive DecimalText : List Char → Nat → Nat → Prop
  | whole {ds : List Char} (hds : IsNumeral ds) : DecimalText ds (valueFrom 0 ds) 0
  | pointed {ws fs : List Char} (hds : IsNumeral (ws ++ fs)) :
      DecimalText (ws ++ '.' :: fs) (valueFrom 0 (ws ++ fs)) fs.length

variable {cs : List Char} {n k : Nat}

/-- The text of a decimal has digits and points only. -/
theorem DecimalText.mem {c : Char} (h : DecimalText cs n k) (hc : c ∈ cs) :
    isDigit c = true ∨ c = '.' := by
  cases h with
  | whole hds => exact .inl (hds.isDigit c hc)
  | pointed hds =>
      obtain ⟨hws, hfs⟩ := List.forall_mem_append.1 hds.isDigit
      rcases List.mem_append.1 hc with hc | hc
      · exact .inl (hws c hc)
      · rcases List.mem_cons.1 hc with rfl | hc
        · exact .inr rfl
        · exact .inl (hfs c hc)

theorem DecimalText.exists_isDigit (h : DecimalText cs n k) : ∃ c ∈ cs, isDigit c = true := by
  cases h with
  | whole hds =>
      obtain ⟨c, hc⟩ := List.exists_mem_of_ne_nil cs hds.ne_nil
      exact ⟨c, hc, hds.isDigit c hc⟩
  | @pointed ws fs hds =>
      obtain ⟨c, hc⟩ := List.exists_mem_of_ne_nil (ws ++ fs) hds.ne_nil
      refine ⟨c, ?_, hds.isDigit c hc⟩
      rcases List.mem_append.1 hc with hc | hc
      · exact List.mem_append_left _ hc
      · exact List.mem_append_right _ (List.mem_cons_of_mem _ hc)

/-- No other character occurs in a decimal text, neither a sign nor an exponent's letter. -/
theorem DecimalText.not_mem {c : Char} (h : DecimalText cs n k) (hdigit : isDigit c = false)
    (hpoint : c ≠ '.') : c ∉ cs := by
  intro hc
  rcases h.mem hc with hc | hc
  · rw [hc] at hdigit
    cases hdigit
  · exact hpoint hc

/-- Where a digit is, there is no name of a number: no name has a digit in it. -/
theorem named?_eq_none {c : Char} (hc : c ∈ cs) (hdigit : isDigit c = true) (negative : Bool) :
    named? negative cs = none := by
  have hmem : c.toLower ∈ cs.map Char.toLower := List.mem_map_of_mem hc
  have hne : ∀ name : String, name.toList.any isDigit = false →
      String.ofList (cs.map Char.toLower) ≠ name := by
    rintro name hname rfl
    rw [String.toList_ofList] at hname
    rw [← Text.toLower_of_isDigit hdigit] at hdigit
    exact List.any_eq_false.1 hname _ hmem hdigit
  rw [named?, if_neg (hne "nan" (by decide)), if_neg]
  exact not_or.2 ⟨hne "inf" (by decide), hne "infinity" (by decide)⟩

/-- The two forms, with a point and without: digits are cut off at the point, and all of them
together make the number. -/
theorem unsigned?_of_decimalText (h : DecimalText cs n k) :
    unsigned? false cs = some (ofDecimal false n (-k)) := by
  have hempty : ∀ {ds : List Char}, IsNumeral ds →
      (ds.map fun c => c.toNat - '0'.toNat).isEmpty = false := by
    intro ds hds
    simpa using hds.ne_nil
  rw [unsigned?]
  cases h with
  | whole hds =>
      simp only [Text.span_isDigit_self hds.isDigit, List.append_nil,
        Text.filterMap_digit? hds.isDigit, hempty hds]
      rfl
  | @pointed ws fs hds =>
      obtain ⟨hws, hfs⟩ := List.forall_mem_append.1 hds.isDigit
      have hwhole : (ws ++ '.' :: fs).span isDigit = (ws, '.' :: fs) :=
        Text.span_isDigit hws (by rintro _ ⟨⟩; decide)
      simp only [hwhole, Text.span_isDigit_self hfs, Text.filterMap_digit? hds.isDigit, hempty hds]
      rw [readExponent?]
      simp only [Option.map_some, zero_sub]
      rfl

/-- The whole reader: no name, no sign, and then the digits. -/
theorem read?_of_decimalText (h : DecimalText cs n k) :
    read? cs = some (ofDecimal false n (-k)) := by
  have hsign : ∀ sign, isDigit sign = false → sign ≠ '.' → ∀ rest, cs ≠ sign :: rest := by
    rintro sign hdigit hpoint rest rfl
    exact h.not_mem hdigit hpoint List.mem_cons_self
  obtain ⟨c, hc, hdigit⟩ := h.exists_isDigit
  rw [read?, named?_eq_none hc hdigit, unsigned?_of_decimalText h]
  · rfl
  · exact hsign '-' (by decide) (by decide)
  · exact hsign '+' (by decide) (by decide)

end Binary64

end PlanOrbits
