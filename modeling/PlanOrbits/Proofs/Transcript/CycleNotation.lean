import PlanOrbits.Proofs.Checked
import PlanOrbits.Proofs.Permutation.Text

/-!
# Cycle notation

Which texts are read as cycles is said here without the reader (`IsCycleNotation`): by the
characters, by counting parentheses in the fronts of the text, and by the runs of digits. The
cycles are the numbers between the parentheses (`cyclesIn`).

The reader goes through the text once. At each place it knows the points of the cycle that is
open, and the digits that it has read of a number which may go on. So the statement about the
reader is made for any rest of a text, with the number of open parentheses (`Remains`) and with
the digits that stand before the rest (`ReadsInside`); it is proved along the
characters, for outside and inside of cycles together.
-/

namespace PlanOrbits.Transcript

open Text (isDigit isBlank digit? pieces valueFrom wordLimit)

/-! ### What cycle notation is -/

/-- The maximal runs of digits. -/
def digitRuns (cs : List Char) : List (List Char) :=
  (pieces (!isDigit ·) cs).filter (!·.isEmpty)

/-- The numbers that the runs of digits denote. -/
def numbersIn (cs : List Char) : List Nat := (digitRuns cs).map (valueFrom 0)

/-- What stands behind the first opening parenthesis. -/
def behindOpening (cs : List Char) : List Char := (cs.dropWhile (· != '(')).tail

/-- What stands before each closing parenthesis, from the opening one on. -/
def enclosed (cs : List Char) : List (List Char) :=
  (pieces (· == ')') cs).dropLast.map behindOpening

/-- The numbers between each pair of parentheses. -/
def cyclesIn (cs : List Char) : List (List Nat) := (enclosed cs).map numbersIn

/-- The characters of cycle notation. -/
def IsCycleChar (c : Char) : Prop :=
  c = '(' ∨ c = ')' ∨ isDigit c = true ∨ isBlank c = true ∨ c = ','

/-- No number of the text is too large for a word. -/
def NumbersFit (cs : List Char) : Prop := ∀ run ∈ digitRuns cs, valueFrom 0 run < wordLimit

/-- Parentheses, digits, blanks and commas. In no front of the text are more parentheses closed
than opened, or more than one open, and in the whole text all are closed. Digits stand where a
parenthesis is open, and their runs denote numbers that fit a word. -/
structure IsCycleNotation (cs : List Char) : Prop where
  chars : ∀ c ∈ cs, IsCycleChar c
  opened : ∀ front rest, cs = front ++ rest → front.count ')' ≤ front.count '('
  notNested : ∀ front rest, cs = front ++ rest → front.count '(' ≤ front.count ')' + 1
  closed : cs.count '(' = cs.count ')'
  covered : ∀ front d rest, cs = front ++ d :: rest → isDigit d = true →
    front.count ')' < front.count '('
  numbersFit : NumbersFit cs

/-- What remains of cycle notation behind a front in which so many parentheses are open. -/
structure Remains (depth : Nat) (cs : List Char) : Prop where
  chars : ∀ c ∈ cs, IsCycleChar c
  opened : ∀ front rest, cs = front ++ rest → front.count ')' ≤ depth + front.count '('
  notNested : ∀ front rest, cs = front ++ rest → depth + front.count '(' ≤ front.count ')' + 1
  closed : depth + cs.count '(' = cs.count ')'
  covered : ∀ front d rest, cs = front ++ d :: rest → isDigit d = true →
    front.count ')' < depth + front.count '('

variable {depth depth' : Nat} {c : Char} {cs run : List Char}

/-- At the start of a text no parenthesis is open, and what remains is the whole text. -/
theorem isCycleNotation_iff : IsCycleNotation cs ↔ Remains 0 cs ∧ NumbersFit cs := by
  constructor
  · intro h
    exact ⟨⟨h.chars, by simpa using h.opened, by simpa using h.notNested, by simpa using h.closed,
      by simpa using h.covered⟩, h.numbersFit⟩
  · rintro ⟨h, hfit⟩
    exact ⟨h.chars, by simpa using h.opened, by simpa using h.notNested, by simpa using h.closed,
      by simpa using h.covered, hfit⟩

/-! ### What may remain -/

theorem remains_zero_nil : Remains 0 [] := by
  refine ⟨by simp, ?_, ?_, rfl, by simp⟩ <;> simp +contextual [eq_comm]

theorem not_remains_one_nil : ¬Remains 1 [] := fun h => absurd h.closed (by simp)

theorem not_remains_of_le (h : 2 ≤ depth) : ¬Remains depth cs := by
  intro hremains
  have hle := hremains.notNested [] cs rfl
  simp only [List.count_nil] at hle
  omega

theorem not_remains_zero_closing : ¬Remains 0 (')' :: cs) := by
  intro h
  have hle := h.opened [')'] cs rfl
  simp at hle

theorem count_cons_eq (x : Char) : (c :: cs).count x = [c].count x + cs.count x := by
  rw [← List.singleton_append, List.count_append]

/-- How `Remains` goes on behind a character: the character has to be allowed at this depth, and it
may change the depth for the rest. -/
theorem remains_cons_iff (hdepth : depth ≤ 1)
    (hshift : depth + [c].count '(' = depth' + [c].count ')') :
    Remains depth (c :: cs) ↔
      IsCycleChar c ∧ (isDigit c = true → 0 < depth) ∧ Remains depth' cs := by
  constructor
  · intro h
    refine ⟨h.chars c List.mem_cons_self, fun hdigit => ?_, ?_⟩
    · simpa using h.covered [] c cs rfl hdigit
    refine ⟨fun d hd => h.chars d (List.mem_cons_of_mem c hd), ?_, ?_, ?_, ?_⟩
    · rintro front rest rfl
      have hle := h.opened (c :: front) rest rfl
      rw [count_cons_eq '(', count_cons_eq ')'] at hle
      omega
    · rintro front rest rfl
      have hle := h.notNested (c :: front) rest rfl
      rw [count_cons_eq '(', count_cons_eq ')'] at hle
      omega
    · have heq := h.closed
      rw [count_cons_eq '(', count_cons_eq ')'] at heq
      omega
    · rintro front d rest rfl hd
      have hlt := h.covered (c :: front) d rest rfl hd
      rw [count_cons_eq '(', count_cons_eq ')'] at hlt
      omega
  · rintro ⟨hchar, hdigit, h⟩
    -- a front is empty, or it begins with the character and goes on with a front of the rest
    refine ⟨List.forall_mem_cons.2 ⟨hchar, h.chars⟩, ?_, ?_, ?_, ?_⟩
    · intro front rest heq
      cases front with
      | nil => simp
      | cons d front =>
          obtain ⟨rfl, hcs⟩ := List.cons.inj heq
          have hle := h.opened front rest hcs
          rw [count_cons_eq '(', count_cons_eq ')']
          omega
    · intro front rest heq
      cases front with
      | nil => simpa using hdepth
      | cons d front =>
          obtain ⟨rfl, hcs⟩ := List.cons.inj heq
          have hle := h.notNested front rest hcs
          rw [count_cons_eq '(', count_cons_eq ')']
          omega
    · have heq := h.closed
      rw [count_cons_eq '(', count_cons_eq ')']
      omega
    · intro front d rest heq hd
      cases front with
      | nil =>
          obtain ⟨rfl, -⟩ := List.cons.inj heq
          simpa using hdigit hd
      | cons d' front =>
          obtain ⟨rfl, hcs⟩ := List.cons.inj heq
          have hlt := h.covered front d rest hcs hd
          rw [count_cons_eq '(', count_cons_eq ')']
          omega

theorem remains_zero_opening : Remains 0 ('(' :: cs) ↔ Remains 1 cs := by
  rw [remains_cons_iff (Nat.zero_le 1) (show 0 + _ = 1 + _ by rfl)]
  exact ⟨fun h => h.2.2, fun h => ⟨.inl rfl, fun h => absurd h (by decide), h⟩⟩

theorem not_remains_one_opening : ¬Remains 1 ('(' :: cs) := by
  rw [remains_cons_iff (Nat.le_refl 1) (show 1 + _ = 2 + _ by rfl)]
  exact fun h => not_remains_of_le (Nat.le_refl 2) h.2.2

theorem remains_one_closing : Remains 1 (')' :: cs) ↔ Remains 0 cs := by
  rw [remains_cons_iff (Nat.le_refl 1) (show 1 + _ = 0 + _ by rfl)]
  exact ⟨fun h => h.2.2, fun h => ⟨.inr (.inl rfl), fun h => absurd h (by decide), h⟩⟩

theorem count_singleton_eq (h : c ≠ '(') (h' : c ≠ ')') :
    [c].count '(' = [c].count ')' := by
  rw [List.count_singleton, List.count_singleton, if_neg (by simpa using h),
    if_neg (by simpa using h')]

/-- A digit is allowed inside of a cycle only, and keeps the depth. -/
theorem remains_digit (hdepth : depth ≤ 1) (hc : isDigit c = true) :
    Remains depth (c :: cs) ↔ 0 < depth ∧ Remains depth cs := by
  have hne : ∀ d, isDigit d = false → c ≠ d := by
    rintro d hd rfl
    rw [hc] at hd
    cases hd
  rw [remains_cons_iff hdepth
    (congrArg (depth + ·) (count_singleton_eq (hne '(' (by decide)) (hne ')' (by decide))))]
  exact ⟨fun h => ⟨h.2.1 hc, h.2.2⟩, fun h => ⟨.inr (.inr (.inl hc)), fun _ => h.1, h.2⟩⟩

theorem isDigit_of_isSeparator (hc : isSeparator c = true) : isDigit c = false := by
  rw [isSeparator, Bool.or_eq_true, beq_iff_eq] at hc
  rcases hc with hc | rfl
  · exact Text.isDigit_of_isBlank hc
  · decide

theorem ne_of_isSeparator {d : Char} (hc : isSeparator c = true) (hd : isSeparator d = false) :
    c ≠ d := by
  rintro rfl
  rw [hc] at hd
  cases hd

/-- A separator is allowed everywhere and keeps the depth. -/
theorem remains_separator (hdepth : depth ≤ 1) (hc : isSeparator c = true) :
    Remains depth (c :: cs) ↔ Remains depth cs := by
  have hcount := count_singleton_eq (ne_of_isSeparator hc (by decide))
    (ne_of_isSeparator hc (by decide))
  rw [remains_cons_iff hdepth (congrArg (depth + ·) hcount), isDigit_of_isSeparator hc]
  refine ⟨fun h => h.2.2, fun h => ⟨.inr (.inr (.inr ?_)), by simp, h⟩⟩
  simpa [isSeparator] using hc

/-! ### Runs of digits -/

/-- A character that is no digit ends a run, and the runs before and behind it are taken separately.
-/
theorem digitRuns_append_cons (hc : isDigit c = false) :
    digitRuns (run ++ c :: cs) = digitRuns run ++ digitRuns cs := by
  have hpieces : pieces (!isDigit ·) (run ++ c :: cs) =
      pieces (!isDigit ·) run ++ pieces (!isDigit ·) cs :=
    Text.pieces_append_cons (by rw [hc]; rfl)
  rw [digitRuns, hpieces, List.filter_append]
  rfl

/-- Digits, and at least one, are the front of the first run of a text that they stand before. -/
theorem exists_digitRuns_append (hrun : ∀ d ∈ run, isDigit d = true) (hne : run ≠ [])
    (cs : List Char) : ∃ first rest, pieces (!isDigit ·) cs = first :: rest ∧
      digitRuns (run ++ cs) = (run ++ first) :: rest.filter (!·.isEmpty) := by
  obtain ⟨first, rest, hcs, h⟩ :=
    Text.exists_pieces_append (fun d hd => congrArg (!·) (hrun d hd)) cs
  refine ⟨first, rest, hcs, ?_⟩
  rw [digitRuns, h, List.filter_cons_of_pos]
  simp [hne]

theorem digitRuns_eq (hrun : ∀ d ∈ run, isDigit d = true) (hne : run ≠ []) :
    digitRuns run = [run] := by
  obtain ⟨first, rest, hnil, h⟩ := exists_digitRuns_append hrun hne []
  rw [pieces, List.cons.injEq] at hnil
  rwa [← hnil.1, ← hnil.2, List.append_nil] at h

theorem valueFrom_append (start : Nat) (xs ys : List Char) :
    valueFrom start (xs ++ ys) = valueFrom (valueFrom start xs) ys := by
  simp only [valueFrom, Text.numberFrom, List.map_append, List.foldl_append]

/-- The number of the digits that were read last, if the last character was one. -/
def pending (run : List Char) : Option Nat := if run = [] then none else some (valueFrom 0 run)

/-- Digits that were read denote one number, if there are any. -/
theorem numbersIn_eq_pending (hrun : ∀ d ∈ run, isDigit d = true) :
    numbersIn run = (pending run).toList := by
  rw [numbersIn, pending]
  by_cases hne : run = []
  · rw [if_pos hne, hne]
    rfl
  · rw [if_neg hne, digitRuns_eq hrun hne]
    rfl

theorem reverse_toList_pending : (pending run).toList.reverse = (pending run).toList := by
  cases pending run <;> rfl

/-- One more digit: what the reader computes is what the longer run denotes. -/
theorem getD_pending_concat (run : List Char) (c : Char) :
    10 * (pending run).getD 0 + (c.toNat - '0'.toNat) = valueFrom 0 (run ++ [c]) := by
  have hvalue : (pending run).getD 0 = valueFrom 0 run := by
    rw [pending]
    split
    · rename_i hnil
      rw [hnil]
      rfl
    · rfl
  rw [hvalue, valueFrom_append]
  rfl

theorem numbersFit_append_cons (hc : isDigit c = false) :
    NumbersFit (run ++ c :: cs) ↔ NumbersFit run ∧ NumbersFit cs := by
  rw [NumbersFit, digitRuns_append_cons hc, List.forall_mem_append]
  rfl

theorem numbersFit_cons (hc : isDigit c = false) : NumbersFit (c :: cs) ↔ NumbersFit cs := by
  have hnil : NumbersFit [] := fun run hrun => by cases hrun
  rw [← List.nil_append (c :: cs), numbersFit_append_cons hc, and_iff_right hnil]

theorem numbersFit_of_lt (hrun : ∀ d ∈ run, isDigit d = true) (hlt : valueFrom 0 run < wordLimit) :
    NumbersFit run := by
  intro digits hdigits
  by_cases hne : run = []
  · rw [hne] at hdigits
    cases hdigits
  · rw [digitRuns_eq hrun hne, List.mem_singleton] at hdigits
    rwa [hdigits]

/-- If a number fits a word, so does the number of its first digits. The reader, which checks after
each digit, refuses too large numbers and no others. -/
theorem lt_of_numbersFit (hrun : ∀ d ∈ run, isDigit d = true) (hne : run ≠ [])
    (h : NumbersFit (run ++ cs)) : valueFrom 0 run < wordLimit := by
  obtain ⟨first, rest, -, hruns⟩ := exists_digitRuns_append hrun hne cs
  have hlt := h (run ++ first) (hruns ▸ List.mem_cons_self)
  rw [valueFrom_append] at hlt
  exact Nat.lt_of_le_of_lt (Text.le_valueFrom (valueFrom 0 run) first) hlt

/-! ### Reading -/

variable {source : String} {points : List Nat} {cycles : List (List Nat)}

/-- The cycles behind some points and digits of a cycle that is open. -/
def cyclesFrom (points : List Nat) (run cs : List Char) : List (List Nat) :=
  match pieces (· == ')') cs with
  | [] => []
  | first :: rest =>
      (points.reverse ++ numbersIn (run ++ first)) ::
        (rest.dropLast.map behindOpening).map numbersIn

/-- A character other than the closing parenthesis belongs to the first piece. -/
theorem exists_pieces_cons (hclose : c ≠ ')') (cs : List Char) :
    ∃ first rest, pieces (· == ')') cs = first :: rest ∧
      pieces (· == ')') (c :: cs) = (c :: first) :: rest :=
  Text.exists_pieces_append (show ∀ d ∈ [c], (d == ')') = false by simpa using hclose) cs

/-- Behind an opening parenthesis the first cycle is read from the empty list of points. -/
theorem cyclesIn_opening (h : ')' ∈ cs) : cyclesIn ('(' :: cs) = cyclesFrom [] [] cs := by
  obtain ⟨first, rest, hcs, heq⟩ := exists_pieces_cons (show '(' ≠ ')' by decide) cs
  have hrest : rest ≠ [] := by
    rintro rfl
    have hlength := Text.length_pieces (· == ')') cs
    have hpos : 0 < cs.countP (· == ')') := List.countP_pos_iff.2 ⟨')', h, rfl⟩
    rw [hcs, List.length_singleton] at hlength
    omega
  rw [cyclesIn, enclosed, heq, List.dropLast_cons_of_ne_nil hrest, cyclesFrom, hcs]
  rfl

/-- A character between two cycles is in none of them. -/
theorem cyclesIn_cons (hopen : c ≠ '(') (hclose : c ≠ ')') : cyclesIn (c :: cs) = cyclesIn cs := by
  obtain ⟨first, rest, hcs, heq⟩ := exists_pieces_cons hclose cs
  rw [cyclesIn, enclosed, heq, cyclesIn, enclosed, hcs]
  cases rest with
  | nil => rfl
  | cons second rest =>
      have hfirst : behindOpening (c :: first) = behindOpening first := by
        rw [behindOpening, List.dropWhile_cons_of_pos (by simpa using hopen), behindOpening]
      simp only [List.dropLast_cons_cons, List.map_cons, hfirst]

/-- A closing parenthesis ends the number and the cycle. -/
theorem cyclesFrom_closing :
    cyclesFrom points run (')' :: cs) = (points.reverse ++ numbersIn run) :: cyclesIn cs := by
  rw [cyclesFrom, Text.pieces_cons_of_sep (by rfl)]
  dsimp only
  rw [List.append_nil]
  rfl

theorem cyclesFrom_digit (hclose : c ≠ ')') :
    cyclesFrom points run (c :: cs) = cyclesFrom points (run ++ [c]) cs := by
  obtain ⟨first, rest, hcs, heq⟩ := exists_pieces_cons hclose cs
  rw [cyclesFrom, heq, cyclesFrom, hcs]
  dsimp only
  rw [List.append_assoc, List.singleton_append]

/-- A separator ends the number, which becomes a point of the cycle. -/
theorem cyclesFrom_separator (hclose : c ≠ ')') (hc : isDigit c = false)
    (hrun : ∀ d ∈ run, isDigit d = true) : cyclesFrom points run (c :: cs) =
      cyclesFrom ((pending run).toList ++ points) [] cs := by
  obtain ⟨first, rest, hcs, heq⟩ := exists_pieces_cons hclose cs
  have hnumbers : numbersIn (run ++ c :: first) = (pending run).toList ++ numbersIn first := by
    rw [numbersIn, digitRuns_append_cons hc, List.map_append, ← numbersIn, ← numbersIn,
      numbersIn_eq_pending hrun]
  rw [cyclesFrom, heq, cyclesFrom, hcs]
  dsimp only
  rw [hnumbers, List.reverse_append, reverse_toList_pending, List.nil_append, List.append_assoc]

/-- Outside of cycles the remaining cycles are read, if cycle notation remains and its numbers
fit. -/
def ReadsOutside (source : String) (cs : List Char) : Prop :=
  ∀ cycles, cyclesOutside source cs = .ok cycles ↔
    (Remains 0 cs ∧ NumbersFit cs) ∧ cycles = cyclesIn cs

/-- Inside of a cycle this is so with what was read of the cycle put in front. -/
def ReadsInside (source : String) (cs : List Char) : Prop :=
  ∀ points run cycles, (∀ d ∈ run, isDigit d = true) → valueFrom 0 run < wordLimit →
    (cyclesInside source points (pending run) cs = .ok cycles ↔
      (Remains 1 cs ∧ NumbersFit (run ++ cs)) ∧ cycles = cyclesFrom points run cs)

theorem readsOutside_nil : ReadsOutside source [] := by
  intro cycles
  have hfit : NumbersFit [] := fun run hrun => by cases hrun
  rw [cyclesOutside, Except.ok.injEq, eq_comm]
  exact (and_iff_right ⟨remains_zero_nil, hfit⟩).symm

theorem readsInside_nil : ReadsInside source [] := by
  intro points run cycles _ _
  rw [cyclesInside]
  exact iff_of_false (by simp) fun h => not_remains_one_nil h.1.1

theorem readsOutside_digit (hc : isDigit c = true) : ReadsOutside source (c :: cs) := by
  intro cycles
  rw [cyclesOutside, if_pos hc, remains_digit (Nat.zero_le 1) hc]
  exact iff_of_false (by simp) fun h => absurd h.1.1.1 (Nat.lt_irrefl 0)

/-- A digit goes on with the number that is being read. If this becomes too large, the text is
refused, and rightly so, since it stays too large. -/
theorem readsInside_digit (hc : isDigit c = true) (h : ReadsInside source cs) :
    ReadsInside source (c :: cs) := by
  intro points run cycles hrun hlt
  have hrun' : ∀ d ∈ run ++ [c], isDigit d = true :=
    List.forall_mem_append.2 ⟨hrun, List.forall_mem_singleton.2 hc⟩
  have hclose : c ≠ ')' := by
    rintro rfl
    cases hc
  rw [cyclesInside, Text.digit?_eq_some_of_isDigit hc, remains_digit (Nat.le_refl 1) hc,
    cyclesFrom_digit hclose, List.append_cons]
  dsimp only
  rw [getD_pending_concat]
  -- what the reader checks is the number of the longer run
  by_cases hfit : valueFrom 0 (run ++ [c]) < wordLimit
  · have hpending : pending (run ++ [c]) = some (valueFrom 0 (run ++ [c])) := if_neg (by simp)
    rw [if_neg (Nat.not_le.2 hfit), ← hpending, h points (run ++ [c]) cycles hrun' hfit]
    exact and_congr_left' (and_congr_left' (and_iff_right Nat.one_pos).symm)
  · rw [if_pos (Nat.le_of_not_lt hfit)]
    exact iff_of_false (by simp) fun h => hfit (lt_of_numbersFit hrun' (by simp) h.1.2)

/-- A cycle is opened: the reader goes on inside, at depth one. -/
theorem readsOutside_opening (h : ReadsInside source cs) : ReadsOutside source ('(' :: cs) := by
  intro cycles
  have hinside := h [] [] cycles (by simp) (by decide)
  rw [cyclesOutside_opening, remains_zero_opening, numbersFit_cons (by decide)]
  refine hinside.trans (and_congr_right fun hremains => ?_)
  -- a parenthesis is still to be closed
  have hpos : 0 < cs.count ')' := hremains.1.closed ▸ by omega
  rw [cyclesIn_opening (List.count_pos_iff.1 hpos)]

theorem readsInside_opening : ReadsInside source ('(' :: cs) := by
  intro points run cycles _ _
  rw [cyclesInside]
  exact iff_of_false (by simp [Text.digit?]) fun h => not_remains_one_opening h.1.1

theorem readsOutside_closing : ReadsOutside source (')' :: cs) := by
  intro cycles
  rw [cyclesOutside, show isDigit ')' = false by decide]
  exact iff_of_false (by simp) fun h => not_remains_zero_closing h.1.1

/-- A number ends before the closing parenthesis, and the cycle with it; the reader goes on outside.
-/
theorem readsInside_closing (h : ReadsOutside source cs) : ReadsInside source (')' :: cs) := by
  intro points run cycles hrun hlt
  have hread : cyclesInside source points (pending run) (')' :: cs) =
      (cyclesOutside source cs).map (((pending run).toList ++ points).reverse :: ·) := by
    rw [cyclesInside]
    rfl
  have hreverse : ((pending run).toList ++ points).reverse = points.reverse ++ numbersIn run := by
    rw [List.reverse_append, reverse_toList_pending, numbersIn_eq_pending hrun]
  rw [hread, hreverse, map_eq_ok_iff, remains_one_closing, numbersFit_append_cons (by decide),
    and_iff_right (numbersFit_of_lt hrun hlt), cyclesFrom_closing]
  simp only [h _]
  constructor
  · rintro ⟨rest, ⟨hremains, rfl⟩, rfl⟩
    exact ⟨hremains, rfl⟩
  · rintro ⟨hremains, rfl⟩
    exact ⟨_, ⟨hremains, rfl⟩, rfl⟩

theorem readsOutside_separator (hc : isSeparator c = true) (h : ReadsOutside source cs) :
    ReadsOutside source (c :: cs) := by
  intro cycles
  have hopen : c ≠ '(' := ne_of_isSeparator hc (by decide)
  have hclose : c ≠ ')' := ne_of_isSeparator hc (by decide)
  rw [cyclesOutside, isDigit_of_isSeparator hc, if_neg Bool.false_ne_true, if_neg hopen,
    if_neg hclose, if_pos hc, h cycles, remains_separator (Nat.zero_le 1) hc,
    numbersFit_cons (isDigit_of_isSeparator hc), cyclesIn_cons hopen hclose]

/-- A number ends before a separator and becomes a point. -/
theorem readsInside_separator (hc : isSeparator c = true) (h : ReadsInside source cs) :
    ReadsInside source (c :: cs) := by
  intro points run cycles hrun hlt
  have hdigit := isDigit_of_isSeparator hc
  have hopen : c ≠ '(' := ne_of_isSeparator hc (by decide)
  have hclose : c ≠ ')' := ne_of_isSeparator hc (by decide)
  rw [cyclesInside, digit?_eq_none hdigit]
  dsimp only
  rw [if_neg hopen, if_neg hclose, if_pos hc, remains_separator (Nat.le_refl 1) hc,
    numbersFit_append_cons hdigit, and_iff_right (numbersFit_of_lt hrun hlt),
    cyclesFrom_separator hclose hdigit hrun]
  exact h _ [] cycles (by simp) (by decide)

/-- Any other character is refused, outside and inside of cycles, and `Remains` allows it at no
depth. -/
theorem reads_other (hopen : c ≠ '(') (hclose : c ≠ ')') (hdigit : isDigit c = false)
    (hsep : isSeparator c = false) :
    ReadsOutside source (c :: cs) ∧ ReadsInside source (c :: cs) := by
  have hnot : ∀ depth, ¬Remains depth (c :: cs) := by
    intro depth h
    rw [isSeparator, Bool.or_eq_false_iff, beq_eq_false_iff_ne] at hsep
    rcases h.chars c List.mem_cons_self with hc | hc | hc | hc | hc
    · exact hopen hc
    · exact hclose hc
    · rw [hdigit] at hc
      cases hc
    · rw [hsep.1] at hc
      cases hc
    · exact hsep.2 hc
  constructor
  · intro cycles
    rw [cyclesOutside, hdigit, hsep]
    exact iff_of_false (by simp [hopen, hclose]) fun h => hnot 0 h.1.1
  · intro points run cycles _ _
    rw [cyclesInside, digit?_eq_none hdigit, hsep]
    exact iff_of_false (by simp [hopen, hclose]) fun h => hnot 1 h.1.1

/-- Both readers read exactly what remains, at every place of a text. The induction is on the rest
of the text, for both at once, since parentheses lead from one to the other. -/
theorem readsOutside_and_readsInside (cs : List Char) :
    ReadsOutside source cs ∧ ReadsInside source cs := by
  induction cs with
  | nil => exact ⟨readsOutside_nil, readsInside_nil⟩
  | cons c cs ih =>
      obtain ⟨houtside, hinside⟩ := ih
      by_cases hopen : c = '('
      · exact hopen ▸ ⟨readsOutside_opening hinside, readsInside_opening⟩
      by_cases hclose : c = ')'
      · exact hclose ▸ ⟨readsOutside_closing, readsInside_closing houtside⟩
      cases hdigit : isDigit c with
      | true => exact ⟨readsOutside_digit hdigit, readsInside_digit hdigit hinside⟩
      | false =>
          cases hsep : isSeparator c with
          | true => exact ⟨readsOutside_separator hsep houtside, readsInside_separator hsep hinside⟩
          | false => exact reads_other hopen hclose hdigit hsep

/-- The statement for a whole text, which starts outside of cycles. -/
theorem parseCycles_eq_ok_iff {text : String} :
    parseCycles text = .ok cycles ↔
      IsCycleNotation text.toList ∧ cycles = cyclesIn text.toList := by
  rw [isCycleNotation_iff]
  exact (readsOutside_and_readsInside text.toList).1 cycles

/-- Exactly cycle notation is read, as the numbers between the parentheses, and any other text
violates the protocol. Every list of cycles is read from its text, if its points fit a word. -/
theorem parseCycles_reads_cycleNotation (text : String) :
    (∀ cycles, parseCycles text = .ok cycles ↔
      IsCycleNotation text.toList ∧ cycles = cyclesIn text.toList) ∧
    (¬IsCycleNotation text.toList → ∃ cause, parseCycles text = .error cause ∧
      cause.diagnostic.family = .protocolViolation) ∧
    ∀ cycles, (∀ v ∈ cycles.flatten, v < wordLimit) →
      parseCycles (cyclesText cycles) = .ok cycles := by
  refine ⟨fun cycles => parseCycles_eq_ok_iff, fun hnot => ?_, fun cycles hbounded =>
    parseCycles_cyclesText hbounded⟩
  cases hread : parseCycles text with
  | ok cycles => exact absurd (parseCycles_eq_ok_iff.1 hread).1 hnot
  | error cause => exact ⟨cause, rfl, cause.family_diagnostic⟩

/-- Commas and blanks are alike, a pair of parentheses may be empty, and the largest word is a
point. A cycle within a cycle is refused. -/
theorem parseCycles_reads_cycleNotation_nested :
    IsCycleNotation "(3,1 4)() (18446744073709551615)".toList ∧
      cyclesIn "(3,1 4)() (18446744073709551615)".toList = [[3, 1, 4], [], [wordLimit - 1]] ∧
      ¬IsCycleNotation "(1 (2))".toList ∧
      (∃ cause, parseCycles "(1 (2))" = .error cause ∧
        cause.diagnostic.family = .protocolViolation) ∧
      parseCycles (cyclesText [[], [0, 1]]) = .ok [[], [0, 1]] := by
  obtain ⟨hread, -, -⟩ := parseCycles_reads_cycleNotation "(3,1 4)() (18446744073709551615)"
  obtain ⟨-, hrefuse, hprinted⟩ := parseCycles_reads_cycleNotation "(1 (2))"
  obtain ⟨hwritten, hcycles⟩ := (hread [[3, 1, 4], [], [wordLimit - 1]]).1 (by decide +kernel)
  have hnot : ¬IsCycleNotation "(1 (2))".toList := fun h =>
    absurd (h.notNested ['(', '1', ' ', '('] ['2', ')', ')'] (by decide +kernel)) (by decide)
  exact ⟨hwritten, hcycles.symm, hnot, hrefuse hnot, hprinted [[], [0, 1]] (by decide)⟩

end PlanOrbits.Transcript
