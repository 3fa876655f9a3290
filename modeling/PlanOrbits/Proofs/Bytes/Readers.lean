import PlanOrbits.Bytes.LittleEndian

/-!
# Readers that undo writers

A reader undoes a writer if it takes from the front of a byte string a value that fits
exactly when the writing of this value stands there, and leaves the rest (`Reads`). Words are
read so, and it passes on to pairs and to lists with their count.

One statement gives both directions: what was written is read, whatever follows it, and what
was read was written there. So nothing is read from a writing that is cut off
(`Reads.eq_none_of_cut`): the value found in the front would be found in the whole writing,
too, and would end before its end.
-/

namespace PlanOrbits.Bytes

variable {α β : Type}

/-- The reader takes a value from the front of a byte string exactly if the value fits and
its writing stands there. -/
def Reads (read : Reader α) (write : α → List UInt8) (fits : α → Prop) : Prop :=
  ∀ bytes a rest, read bytes = some (a, rest) ↔ fits a ∧ bytes = write a ++ rest

/-! ### Words -/

/-- A byte string denotes a number that fits its width. -/
theorem value_lt (bytes : List UInt8) : value bytes < Nat.pow 256 bytes.length := by
  induction bytes with
  | nil => exact Nat.one_pos
  | cons b bytes ih =>
      have hb := b.toNat_lt
      have hpow : Nat.pow 256 (b :: bytes).length = Nat.pow 256 bytes.length * 256 := rfl
      rw [value, hpow]
      omega

/-- A byte string is the word of the number that it denotes. -/
theorem word_value (bytes : List UInt8) : word bytes.length (value bytes) = bytes := by
  induction bytes with
  | nil => rfl
  | cons b bytes ih =>
      have hb := b.toNat_lt
      have hlow : (b.toNat + 256 * value bytes) % 256 = b.toNat := by omega
      have hhigh : (b.toNat + 256 * value bytes) / 256 = value bytes := by omega
      rw [List.length_cons, word, value, hlow, hhigh, ih, UInt8.ofNat_toNat]

/-- `readWord` undoes `word` for the numbers below `256 ^ width`. A larger number is written modulo
this bound, so it cannot be read back, and the bound is what `fits` stands for here. -/
theorem reads_word (width : Nat) :
    Reads (readWord width) (word width) (· < Nat.pow 256 width) := by
  intro bytes n rest
  simp only [readWord]
  constructor
  · intro h
    split at h
    · cases h
    · rename_i hlength
      rw [Option.some.injEq, Prod.mk.injEq] at h
      obtain ⟨rfl, rfl⟩ := h
      -- `value_lt` and `word_value` speak of the whole string, here of the front that was taken
      have hwidth : (bytes.take width).length = width := by
        rw [List.length_take] at hlength ⊢
        omega
      have hlt := value_lt (bytes.take width)
      have hword := word_value (bytes.take width)
      rw [hwidth] at hlt hword
      exact ⟨hlt, by rw [hword, List.take_append_drop]⟩
  · rintro ⟨hlt, rfl⟩
    rw [List.take_left' (length_word width n), List.drop_left' (length_word width n),
      length_word, if_neg (Nat.lt_irrefl width), value_word hlt]

namespace Reads

variable {read : Reader α} {write : α → List UInt8} {fits : α → Prop}

/-! ### Pairs and lists -/

/-- A value behind a value: the second reader starts where the first one stopped. The front is split
by associativity only, since `Reads` holds for every rest. -/
theorem pair {read' : Reader β} {write' : β → List UInt8} {fits' : β → Prop}
    (h : Reads read write fits) (h' : Reads read' write' fits') :
    Reads (readPair read read') (fun ab => write ab.1 ++ write' ab.2)
      (fun ab => fits ab.1 ∧ fits' ab.2) := by
  intro bytes ab rest
  obtain ⟨a, b⟩ := ab
  simp only [readPair, Option.bind_eq_bind, Option.pure_def, Option.bind_eq_some_iff, Prod.exists,
    Option.some.injEq, Prod.mk.injEq]
  constructor
  · rintro ⟨a', middle, ha, b', rest', hb, ⟨rfl, rfl⟩, rfl⟩
    obtain ⟨hfits, rfl⟩ := (h _ _ _).1 ha
    obtain ⟨hfits', rfl⟩ := (h' _ _ _).1 hb
    exact ⟨⟨hfits, hfits'⟩, (List.append_assoc _ _ _).symm⟩
  · rintro ⟨⟨hfits, hfits'⟩, rfl⟩
    rw [List.append_assoc]
    exact ⟨a, _, (h _ _ _).2 ⟨hfits, rfl⟩, b, rest, (h' _ _ _).2 ⟨hfits', rfl⟩, ⟨rfl, rfl⟩, rfl⟩

/-- `n` values in a row, by induction on `n`. The number is not written, so it is part of what fits:
the reader of `n` values finds exactly the lists of this length. -/
theorem many (h : Reads read write fits) (n : Nat) :
    Reads (readMany read n) (List.flatMap write) (fun as => as.length = n ∧ ∀ a ∈ as, fits a) := by
  induction n with
  | zero =>
      intro bytes as rest
      simp only [readMany, Option.some.injEq, Prod.mk.injEq, List.length_eq_zero_iff]
      constructor
      · rintro ⟨rfl, rfl⟩
        exact ⟨⟨rfl, fun a ha => nomatch ha⟩, rfl⟩
      · rintro ⟨⟨rfl, -⟩, rfl⟩
        exact ⟨rfl, rfl⟩
  | succ n ih =>
      intro bytes as rest
      simp only [readMany, Option.bind_eq_bind, Option.pure_def, Option.bind_eq_some_iff,
        Prod.exists, Option.some.injEq, Prod.mk.injEq]
      constructor
      · rintro ⟨a, middle, ha, as', rest', has, rfl, rfl⟩
        obtain ⟨hfits, rfl⟩ := (h _ _ _).1 ha
        obtain ⟨⟨hlength, hall⟩, rfl⟩ := (ih _ _ _).1 has
        refine ⟨⟨?_, List.forall_mem_cons.2 ⟨hfits, hall⟩⟩, ?_⟩
        · rw [List.length_cons, hlength]
        · rw [List.flatMap_cons, List.append_assoc]
      · rintro ⟨⟨hlength, hall⟩, rfl⟩
        obtain ⟨a, as, rfl⟩ := List.exists_cons_of_length_eq_add_one hlength
        obtain ⟨hfits, hall⟩ := List.forall_mem_cons.1 hall
        rw [List.length_cons, Nat.add_right_cancel_iff] at hlength
        rw [List.flatMap_cons, List.append_assoc]
        -- the tail as the induction hypothesis reads it, with what follows the list as its rest
        have hread := (ih _ as rest).2 ⟨⟨hlength, hall⟩, rfl⟩
        exact ⟨a, _, (h _ _ _).2 ⟨hfits, rfl⟩, as, rest, hread, rfl, rfl⟩

/-- A list with its count in front, as the binary format stores it. The count read first is the `n`
of `many`, and it has to fit its word of eight bytes. -/
theorem list (h : Reads read write fits) :
    Reads (readList read) (writeList write)
      (fun as => as.length < Nat.pow 256 8 ∧ ∀ a ∈ as, fits a) := by
  intro bytes as rest
  simp only [readList, Option.bind_eq_bind, Option.bind_eq_some_iff, Prod.exists, writeList]
  constructor
  · rintro ⟨count, middle, hcount, has⟩
    obtain ⟨hlt, rfl⟩ := (reads_word 8 _ _ _).1 hcount
    obtain ⟨⟨rfl, hall⟩, rfl⟩ := (h.many _ _ _ _).1 has
    exact ⟨⟨hlt, hall⟩, (List.append_assoc _ _ _).symm⟩
  · rintro ⟨⟨hlt, hall⟩, rfl⟩
    rw [List.append_assoc]
    exact ⟨as.length, _, (reads_word 8 _ _ _).2 ⟨hlt, rfl⟩, (h.many _ _ _ _).2 ⟨⟨rfl, hall⟩, rfl⟩⟩

/-! ### Cut writings -/

/-- No strict prefix of the writing of a value is read. A value read from the prefix would also be
read from the whole writing, with the missing end added to its rest; but the whole writing holds one
value and nothing behind it. -/
theorem eq_none_of_cut (h : Reads read write fits) {a : α} {front back : List UInt8}
    (hfits : fits a) (hcut : write a = front ++ back) (hback : back ≠ []) :
    read front = none := by
  rw [Option.eq_none_iff_forall_ne_some]
  rintro ⟨a', rest⟩ hfront
  obtain ⟨hfits', rfl⟩ := (h _ _ _).1 hfront
  -- `Reads` taken from right to left, with the missing end put back
  have hwhole : read (write a) = some (a', rest ++ back) :=
    (h _ _ _).2 ⟨hfits', by rw [hcut, List.append_assoc]⟩
  rw [(h _ _ _).2 ⟨hfits, (List.append_nil _).symm⟩, Option.some.injEq, Prod.mk.injEq] at hwhole
  exact hback (List.append_eq_nil_iff.1 hwhole.2.symm).2

end Reads

end PlanOrbits.Bytes
