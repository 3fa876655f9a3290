import Mathlib.Algebra.Group.Nat.Defs
import PlanOrbits.Text.LowerCase

/-!
# Normal forms of names

A name in normal form is its own normal form (`normalName_normalName`), so that a
type written to a document is the type read back.

Lower-casing is stable because a lower-case form has no lower-case form of its own,
and trimming is stable under lower-casing because no letter becomes a blank. Both are
one fact about the case table: its images meet neither its sources nor the blanks
(`images_disjoint`). The table is checked at once, with sets of code points held as
the bits of a number.
-/

namespace PlanOrbits.Text

/-! ### Sets of code points -/

/-- The set of the given code points, as the bits of a number. -/
def codeSet (codes : List Nat) : Nat := codes.foldr (fun n set => set ||| 2 ^ n) 0

/-- A code point is in the set exactly if its bit is set. -/
theorem testBit_codeSet {codes : List Nat} {n : Nat} :
    (codeSet codes).testBit n = true ↔ n ∈ codes := by
  induction codes with
  | nil => simp [codeSet]
  | cons c cs ih =>
      simp only [codeSet, List.foldr_cons] at ih ⊢
      rw [Nat.testBit_or, Bool.or_eq_true, ih, Nat.testBit_two_pow, decide_eq_true_eq,
        List.mem_cons, or_comm, eq_comm]

/-- Sets without a common bit have no common member. So one computation with two numbers compares
all members of two lists. -/
theorem not_mem_of_codeSet_disjoint {xs ys : List Nat} (h : codeSet xs &&& codeSet ys = 0)
    {n : Nat} (hx : n ∈ xs) : n ∉ ys := by
  intro hy
  have hbit : (codeSet xs &&& codeSet ys).testBit n = true := by
    rw [Nat.testBit_and, Bool.and_eq_true]
    exact ⟨testBit_codeSet.2 hx, testBit_codeSet.2 hy⟩
  rw [h, Nat.zero_testBit] at hbit
  exact absurd hbit (by decide)

/-! ### The case table -/

namespace LowerRun

/-- The distances of the characters of a run from its first one. -/
def offsets (run : LowerRun) : List Nat :=
  (List.range ((run.last - run.first) / run.step + 1)).map (· * run.step)

/-- The characters of a run. -/
def sources (run : LowerRun) : List Nat := run.offsets.map (run.first + ·)

/-- The lower-case forms of the characters of a run. -/
def images (run : LowerRun) : List Nat := run.offsets.map (run.target + ·)

/-- Do the lower-case forms of a run lie on one side of the gap in the code points? -/
def isValid (run : LowerRun) : Bool :=
  run.target + (run.last - run.first) < 0xD800 ||
    (0xDFFF < run.target && run.target + (run.last - run.first) < 0x110000)

/-- A run of the table maps its sources to its images. -/
theorem mem_of_image?_eq_some {run : LowerRun} {n m : Nat} (h : run.image? n = some m) :
    n ∈ run.sources ∧ m ∈ run.images := by
  unfold image? at h
  split at h
  · rename_i hn
    obtain ⟨hfirst, hlast, hstep⟩ := hn
    have hmul : (n - run.first) / run.step * run.step = n - run.first :=
      Nat.div_mul_cancel (Nat.dvd_of_mod_eq_zero hstep)
    have hle : (n - run.first) / run.step ≤ (run.last - run.first) / run.step :=
      Nat.div_le_div_right (by omega)
    have hoffset : n - run.first ∈ run.offsets :=
      List.mem_map.2 ⟨(n - run.first) / run.step, List.mem_range.2 (by omega), hmul⟩
    cases h
    exact ⟨List.mem_map.2 ⟨_, hoffset, by omega⟩, List.mem_map_of_mem hoffset⟩
  · simp at h

/-- The images of a run that is valid are code points of characters. -/
theorem isValidChar_of_image? {run : LowerRun} (hrun : run.isValid = true) {n m : Nat}
    (h : run.image? n = some m) : m.isValidChar := by
  simp only [isValid, Bool.or_eq_true, Bool.and_eq_true, decide_eq_true_eq] at hrun
  unfold image? at h
  split at h
  · cases h
    unfold Nat.isValidChar
    omega
  · simp at h

end LowerRun

/-- The code points of the blanks. -/
def blankCodes : List Nat :=
  List.range' 0x09 5 ++ [0x20, 0x85, 0xA0, 0x1680] ++ List.range' 0x2000 11 ++
    [0x2028, 0x2029, 0x202F, 0x205F, 0x3000]

theorem mem_blankCodes {c : Char} (h : isBlank c = true) : c.toNat ∈ blankCodes := by
  simp only [isBlank, Bool.or_eq_true, Bool.and_eq_true, decide_eq_true_eq, beq_iff_eq] at h
  simp only [blankCodes, List.mem_append, List.mem_range'_1, List.mem_cons, List.not_mem_nil,
    or_false]
  omega

/-- No lower-case form is a blank, the dotted capital I, or has a lower-case form. All three are
checked at once over the whole case table. -/
theorem images_disjoint :
    codeSet (lowerRuns.flatMap LowerRun.images) &&&
      codeSet (0x130 :: blankCodes ++ lowerRuns.flatMap LowerRun.sources) = 0 := by
  decide +kernel

theorem lowerRuns_valid : lowerRuns.all LowerRun.isValid = true := by
  decide +kernel

/-- The code point of a lower-case form is a character, and as such neither the dotted capital I nor
a blank, and it has no lower-case form. -/
theorem stable_of_image {n m : Nat} (h : lowerRuns.findSome? (·.image? n) = some m) :
    (Char.ofNat m).toNat = m ∧ m ≠ 0x130 ∧ m ∉ blankCodes ∧
      lowerRuns.findSome? (·.image? m) = none := by
  obtain ⟨run, hrun, himage⟩ := List.exists_of_findSome?_eq_some h
  have hvalid : m.isValidChar :=
    LowerRun.isValidChar_of_image? (List.all_eq_true.1 lowerRuns_valid run hrun) himage
  have hm : m ∈ lowerRuns.flatMap LowerRun.images :=
    List.mem_flatMap.2 ⟨run, hrun, (LowerRun.mem_of_image?_eq_some himage).2⟩
  -- what `images_disjoint` excludes, one set after the other
  have hnot := not_mem_of_codeSet_disjoint images_disjoint hm
  simp only [List.cons_append, List.mem_cons, List.mem_append, not_or] at hnot
  have htoNat : (Char.ofNat m).toNat = m := by
    rw [Char.ofNat, dif_pos hvalid]
    rfl
  refine ⟨htoNat, hnot.1, hnot.2.1, ?_⟩
  rw [List.findSome?_eq_none_iff]
  intro run' hrun'
  cases himage' : run'.image? m with
  | none => rfl
  | some k =>
      have hsource := (LowerRun.mem_of_image?_eq_some himage').1
      exact absurd (List.mem_flatMap.2 ⟨run', hrun', hsource⟩) hnot.2.2

/-! ### Lower-casing -/

/-- A character that lower-casing gives is left alone by it, and is a blank only if the character it
comes from is one. -/
theorem lowerChar_of_mem {c d : Char} (h : d ∈ lowerChar c) :
    lowerChar d = [d] ∧ (isBlank d = true → isBlank c = true) := by
  unfold lowerChar at h
  split at h
  · rename_i hc
    subst hc
    simp only [List.mem_cons, List.not_mem_nil, or_false] at h
    -- the dotted capital I becomes two characters, which are checked by themselves
    rcases h with rfl | rfl <;> decide +kernel
  · rename_i hc
    split at h
    · rename_i m hm
      obtain ⟨htoNat, hdotted, hblank, hnone⟩ := stable_of_image hm
      obtain rfl : d = Char.ofNat m := by simpa using h
      refine ⟨?_, fun hd => absurd (htoNat ▸ mem_blankCodes hd) hblank⟩
      have hne : Char.ofNat m ≠ 'İ' := fun heq => hdotted (by rw [← htoNat, heq]; rfl)
      rw [lowerChar, if_neg hne, htoNat, hnone]
    · rename_i hnone
      obtain rfl : d = c := by simpa using h
      exact ⟨by rw [lowerChar, if_neg hc, hnone], id⟩

/-- Lower-casing a text goes character by character. A character gives a piece that is not empty;
which piece, may depend on what stands before and behind it, as for the final sigma. -/
theorem lowerAfter_cons (before : List Char) (c : Char) (cs : List Char) :
    ∃ piece, lowerAfter before (c :: cs) = piece ++ lowerAfter (c :: before) cs ∧ piece ≠ [] ∧
      ∀ d ∈ piece, lowerChar d = [d] ∧ (isBlank d = true → isBlank c = true) := by
  refine ⟨_, rfl, ?_, ?_⟩
  · split
    · simp
    · unfold lowerChar
      split
      · simp
      · split <;> simp
  · intro d hd
    split at hd
    · rename_i hc
      subst hc
      rw [List.mem_singleton] at hd
      subst hd
      split <;> decide +kernel
    · exact lowerChar_of_mem hd

/-- Every character of a lower-case text is left alone by lower-casing. -/
theorem lowerChar_of_mem_lowerAfter {before cs : List Char} {d : Char}
    (h : d ∈ lowerAfter before cs) : lowerChar d = [d] := by
  induction cs generalizing before with
  | nil => simp [lowerAfter] at h
  | cons c cs ih =>
      obtain ⟨piece, hpiece, -, hall⟩ := lowerAfter_cons before c cs
      rw [hpiece, List.mem_append] at h
      rcases h with h | h
      · exact (hall d h).1
      · exact ih h

/-- Lower-casing leaves a text alone if it leaves its characters alone; no capital sigma is among
them. -/
theorem lowerAfter_eq_self {before cs : List Char} (h : ∀ c ∈ cs, lowerChar c = [c]) :
    lowerAfter before cs = cs := by
  induction cs generalizing before with
  | nil => rfl
  | cons c cs ih =>
      have hc : lowerChar c = [c] := h c (by simp)
      have hne : c ≠ 'Σ' := by
        rintro rfl
        revert hc
        decide +kernel
      rw [lowerAfter, ih fun d hd => h d (by simp [hd])]
      simp [hne, hc]

/-- A text in lower case is its own lower-case form. -/
theorem lower_lower (cs : List Char) : lower (lower cs) = lower cs :=
  lowerAfter_eq_self fun _ hc => lowerChar_of_mem_lowerAfter hc

/-! ### Trimming -/

/-- Does the text neither begin nor end with a blank? -/
def IsTrimmed (cs : List Char) : Prop :=
  (∀ c ∈ cs.head?, isBlank c = false) ∧ ∀ c ∈ cs.getLast?, isBlank c = false

theorem dropWhile_isBlank_eq_self {cs : List Char} (h : ∀ c ∈ cs.head?, isBlank c = false) :
    cs.dropWhile isBlank = cs := by
  cases cs with
  | nil => rfl
  | cons c cs => rw [List.dropWhile_cons_of_neg (by simp [h c rfl])]

/-- A text that neither begins nor ends with a blank loses nothing when it is trimmed. -/
theorem trim_eq_self {cs : List Char} (h : IsTrimmed cs) : trim cs = cs := by
  have hlast : ∀ c ∈ cs.reverse.head?, isBlank c = false := by
    rw [List.head?_reverse]
    exact h.2
  rw [trim, trimStart, dropWhile_isBlank_eq_self h.1, trimEnd, dropWhile_isBlank_eq_self hlast,
    List.reverse_reverse]

theorem trim_of_not_mem {cs : List Char} (h : ∀ c, isBlank c = true → c ∉ cs) : trim cs = cs := by
  have hblank : ∀ c ∈ cs, isBlank c = false := by
    intro c hc
    rw [Bool.eq_false_iff]
    exact fun hc' => h c hc' hc
  exact trim_eq_self
    ⟨fun c hc => hblank c (List.mem_of_mem_head? hc),
      fun c hc => hblank c (List.mem_of_getLast? hc)⟩

theorem isBlank_of_mem_head?_dropWhile {cs : List Char} :
    ∀ c ∈ (cs.dropWhile isBlank).head?, isBlank c = false := by
  intro c hc
  have h := List.head?_dropWhile_not isBlank cs
  rw [Option.mem_def] at hc
  rw [hc] at h
  simpa using h

/-- A trimmed text neither begins nor ends with a blank. -/
theorem isTrimmed_trim (cs : List Char) : IsTrimmed (trim cs) := by
  constructor
  · intro c hc
    -- what is left after the blanks at the end are dropped is a front of the text
    obtain ⟨back, hback⟩ : ∃ back, trim cs ++ back = trimStart cs := by
      have h := List.takeWhile_append_dropWhile (p := isBlank) (l := (trimStart cs).reverse)
      refine ⟨((trimStart cs).reverse.takeWhile isBlank).reverse, ?_⟩
      rw [trim, trimEnd, ← List.reverse_append, h, List.reverse_reverse]
    have hfront : c ∈ (trimStart cs).head? := by
      rw [Option.mem_def] at hc
      rw [← hback, Option.mem_def, List.head?_append, hc]
      rfl
    exact isBlank_of_mem_head?_dropWhile c hfront
  · rw [trim, trimEnd, List.getLast?_reverse]
    exact isBlank_of_mem_head?_dropWhile

/-- A trimmed text stays trimmed in lower case: its first and last characters are no blanks, and
neither are the pieces made of them. -/
theorem isTrimmed_lowerAfter {before cs : List Char} (h : IsTrimmed cs) :
    IsTrimmed (lowerAfter before cs) := by
  constructor
  · cases cs with
    | nil => simp [lowerAfter]
    | cons c cs =>
        obtain ⟨piece, hpiece, hne, hall⟩ := lowerAfter_cons before c cs
        obtain ⟨e, rest, rfl⟩ := List.exists_cons_of_ne_nil hne
        intro d hd
        obtain rfl : e = d := by simpa [hpiece] using hd
        have hblank := (hall e (by simp)).2
        rw [h.1 c rfl] at hblank
        simpa using hblank
  · -- the last piece is found by induction, as the pieces come from the front
    have hlast := h.2
    clear h
    induction cs generalizing before with
    | nil => simp [lowerAfter]
    | cons c cs ih =>
        obtain ⟨piece, hpiece, hne, hall⟩ := lowerAfter_cons before c cs
        rw [hpiece]
        cases cs with
        | nil =>
            intro d hd
            rw [lowerAfter, List.append_nil] at hd
            have hblank := (hall d (List.mem_of_mem_getLast? hd)).2
            rw [hlast c rfl] at hblank
            simpa using hblank
        | cons c' cs =>
            have hne' : lowerAfter (c :: before) (c' :: cs) ≠ [] := by
              obtain ⟨piece', hpiece', hne', -⟩ := lowerAfter_cons (c :: before) c' cs
              rw [hpiece']
              simp [hne']
            rw [List.getLast?_append, List.getLast?_eq_some_getLast hne', Option.some_or,
              ← List.getLast?_eq_some_getLast]
            exact ih fun d hd => hlast d (by rwa [List.getLast?_cons_cons])

/-- The normal form of a name, which is trimmed and then put in lower case, is its own normal form.
-/
theorem normalName_normalName (name : String) :
    normalName (normalName name) = normalName name := by
  have htrim : trim (lower (trim name.toList)) = lower (trim name.toList) :=
    trim_eq_self (isTrimmed_lowerAfter (isTrimmed_trim _))
  simp only [normalName, String.toList_ofList, htrim, lower_lower]

end PlanOrbits.Text
