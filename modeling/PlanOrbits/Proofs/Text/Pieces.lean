import Mathlib.Data.List.Basic
import Mathlib.Data.List.TakeWhile
import PlanOrbits.Text.Blank

/-!
# Texts that are cut where they were joined

How the cuts of `PlanOrbits.Text` act on a text that is put together from parts: a
separator between two parts ends the pieces of the first (`pieces_append_cons`), joined texts
are found again (`pieces_intercalate`, `filter_splitOn_intercalate`), a line feed ends its lines
(`lines_append`), a blank behind a word ends the word (`words_append`), and a marker is found
where it stands first (`cutAround?_append`), but not where one of its characters is missing
(`contains_eq_false_of_not_mem`). A carriage return at the end of a line is nothing but one
more blank there (`dropReturn_cases`), which the reader of a marked number does not see.
-/

namespace PlanOrbits.Text

variable {isSep : Char → Bool} {c : Char} {cs xs ys : List Char}

theorem ne_of_isBlank {d : Char} (h : isBlank c = true) (h' : isBlank d = false) : c ≠ d := by
  rintro rfl
  rw [h] at h'
  cases h'

/-! ### Pieces -/

/-- The pieces are those of `List.splitOnP`, so that its lemmas apply. -/
theorem pieces_eq_splitOnP (isSep : Char → Bool) (cs : List Char) :
    pieces isSep cs = cs.splitOnP isSep := by
  induction cs with
  | nil => rfl
  | cons c cs ih =>
      obtain ⟨first, rest, h⟩ := List.exists_cons_of_ne_nil (pieces_ne_nil isSep cs)
      rw [List.splitOnP_cons_eq_if_modifyHead, ← ih, pieces, h]
      rfl

theorem pieces_eq_splitOn (c : Char) (cs : List Char) : pieces (· == c) cs = cs.splitOn c := by
  rw [pieces_eq_splitOnP, List.splitOn_eq_splitOnP]

theorem pieces_cons_of_sep (h : isSep c = true) :
    pieces isSep (c :: cs) = [] :: pieces isSep cs := by
  rw [pieces, if_pos h]

/-- Text without separators in front of a text becomes the front of its first piece, and the other
pieces stay. -/
theorem exists_pieces_append (hxs : ∀ c ∈ xs, isSep c = false) (ys : List Char) :
    ∃ first rest, pieces isSep ys = first :: rest ∧
      pieces isSep (xs ++ ys) = (xs ++ first) :: rest := by
  induction xs with
  | nil =>
      obtain ⟨first, rest, h⟩ := List.exists_cons_of_ne_nil (pieces_ne_nil isSep ys)
      exact ⟨first, rest, h, h⟩
  | cons x xs ih =>
      obtain ⟨hx, hxs⟩ := List.forall_mem_cons.1 hxs
      obtain ⟨first, rest, hys, h⟩ := ih hxs
      refine ⟨first, rest, hys, ?_⟩
      rw [List.cons_append, pieces, if_neg (by rw [hx]; decide), h]
      rfl

/-- A text without separators is one piece. -/
theorem pieces_of_not_mem (h : c ∉ cs) : pieces (· == c) cs = [cs] := by
  rw [pieces_eq_splitOn, List.splitOn_eq_singleton h]

/-- The pieces of a text with a separator in it are those before the separator and those behind it.
-/
theorem pieces_append_cons (h : isSep c = true) :
    pieces isSep (xs ++ c :: ys) = pieces isSep xs ++ pieces isSep ys := by
  simp only [pieces_eq_splitOnP]
  exact List.splitOnP_append_cons xs ys h

/-- Pieces that are joined again make up the text. -/
theorem intercalate_pieces (c : Char) (cs : List Char) :
    [c].intercalate (pieces (· == c) cs) = cs := by
  rw [pieces_eq_splitOn, List.intercalate_splitOn]

/-- Texts that are joined by a separator which none of them has are the pieces of the whole. -/
theorem pieces_intercalate {xss : List (List Char)} (hne : xss ≠ []) (h : ∀ xs ∈ xss, c ∉ xs) :
    pieces (· == c) ([c].intercalate xss) = xss := by
  rw [pieces_eq_splitOn, List.splitOn_intercalate c h hne]

/-- No piece has the separator in it. -/
theorem not_mem_of_mem_pieces (h : xs ∈ pieces (· == c) cs) : c ∉ xs := by
  induction cs generalizing xs with
  | nil =>
      rw [pieces, List.mem_singleton] at h
      rw [h]
      exact List.not_mem_nil
  | cons d cs ih =>
      obtain ⟨first, rest, hcs⟩ := List.exists_cons_of_ne_nil (pieces_ne_nil (· == c) cs)
      rw [pieces, hcs] at h
      rw [hcs] at ih
      by_cases hd : d = c
      · rw [if_pos (beq_iff_eq.2 hd), List.mem_cons] at h
        rcases h with rfl | h
        · exact List.not_mem_nil
        · exact ih h
      · rw [if_neg (by simpa using hd), List.mem_cons] at h
        rcases h with rfl | h
        · rw [List.mem_cons, not_or]
          exact ⟨Ne.symm hd, ih List.mem_cons_self⟩
        · exact ih (List.mem_cons_of_mem first h)

/-- A text starts as its first piece does, unless this is empty. -/
theorem head?_of_pieces {first : List Char} {rest : List (List Char)}
    (h : pieces isSep cs = first :: rest) {d : Char} (hd : first.head? = some d) :
    cs.head? = some d := by
  cases cs with
  | nil =>
      rw [pieces, List.cons.injEq] at h
      rw [← h.1] at hd
      cases hd
  | cons c cs =>
      rw [pieces] at h
      split at h
      · rw [List.cons.injEq] at h
        rw [← h.1] at hd
        cases hd
      · split at h
        · rw [List.cons.injEq] at h
          rwa [← h.1] at hd
        · rw [List.cons.injEq] at h
          rwa [← h.1] at hd

/-! ### Words -/

theorem words_cons_of_isBlank (h : isBlank c = true) : words (c :: cs) = words cs := by
  rw [words, pieces_cons_of_sep h]
  rfl

/-- A word in front of a blank, or at the end of the text, is the first word. -/
theorem words_append (hne : xs ≠ []) (hxs : ∀ c ∈ xs, isBlank c = false)
    (hys : ∀ c ∈ ys.head?, isBlank c = true) : words (xs ++ ys) = xs :: words ys := by
  obtain ⟨first, rest, hpieces, h⟩ := exists_pieces_append hxs ys
  -- the rest begins with a blank, so nothing of it belongs to the word
  have hfirst : first = [] := by
    cases ys with
    | nil =>
        rw [pieces, List.cons.injEq] at hpieces
        exact hpieces.1.symm
    | cons y ys =>
        rw [pieces_cons_of_sep (hys y rfl), List.cons.injEq] at hpieces
        exact hpieces.1.symm
  rw [words, words, h, hpieces, hfirst, List.append_nil,
    List.filter_cons_of_pos (by simpa using hne)]
  rfl

/-! ### Lines -/

/-- The lines of a text with a line feed in it are those before the line feed, each without its
carriage return, and those behind it. -/
theorem lines_append (xs ys : List Char) :
    lines (xs ++ '\n' :: ys) = (pieces (· == '\n') xs).map dropReturn ++ lines ys := by
  obtain ⟨first, rest, h⟩ := List.exists_cons_of_ne_nil (pieces_ne_nil (· == '\n') ys)
  rw [lines, lines, pieces_append_cons (by rfl), h, List.dropLast_append_of_ne_nil (by simp),
    List.map_append, List.append_assoc, List.getLast?_append_of_ne_nil _ (by simp)]

/-- A text without line feeds is one line, unless it is empty. -/
theorem lines_of_not_mem (h : '\n' ∉ cs) : lines cs = [cs].filter (!·.isEmpty) := by
  rw [lines, pieces_of_not_mem h]
  rfl

/-- A line loses a carriage return at its end, or nothing. -/
theorem dropReturn_cases (cs : List Char) :
    dropReturn cs = cs ∨ cs = dropReturn cs ++ ['\r'] := by
  rw [dropReturn]
  split
  · rename_i h
    rw [beq_iff_eq] at h
    exact .inr (List.dropLast_append_getLast? _ h).symm
  · exact .inl rfl

theorem dropReturn_of_not_mem (h : '\r' ∉ cs) : dropReturn cs = cs := by
  rcases dropReturn_cases cs with heq | heq
  · exact heq
  · exact absurd (heq ▸ List.mem_concat_self) h

/-- Lines that are joined by line feeds are found again, with the lines of what stands behind them.
-/
theorem lines_flatMap_append {css : List (List Char)}
    (h : ∀ line ∈ css, '\n' ∉ line ∧ '\r' ∉ line) (ys : List Char) :
    lines (css.flatMap (· ++ ['\n']) ++ ys) = css ++ lines ys := by
  induction css with
  | nil => rfl
  | cons line css ih =>
      obtain ⟨⟨hfeed, hreturn⟩, hrest⟩ := List.forall_mem_cons.1 h
      rw [List.flatMap_cons, List.append_assoc, List.append_assoc, List.singleton_append,
        lines_append, pieces_of_not_mem hfeed, ih hrest, List.map_singleton,
        dropReturn_of_not_mem hreturn]
      rfl

/-- Dropping a carriage return keeps the start of a line, unless the carriage return is the whole
line. -/
theorem dropReturn_cons (h : c ≠ '\r') : dropReturn (c :: cs) = c :: dropReturn cs := by
  cases cs with
  | nil =>
      rw [dropReturn, if_neg (by simpa using h)]
      rfl
  | cons d ds =>
      rw [dropReturn, dropReturn, List.getLast?_cons_cons, List.dropLast_cons_cons]
      split <;> rfl

theorem head?_of_dropReturn (h : (dropReturn cs).head? = some c) : cs.head? = some c := by
  rcases dropReturn_cases cs with heq | heq
  · rwa [heq] at h
  · rw [heq, List.head?_append, h]
    rfl

/-! ### The first separator -/

theorem bne_of_not_mem (h : c ∉ xs) : ∀ x ∈ xs, (x != c) = true := by
  intro x hx
  rw [bne_iff_ne]
  rintro rfl
  exact h hx

/-- A text without a separator stands before it as a whole. -/
theorem takeWhile_of_not_mem (h : c ∉ xs) : xs.takeWhile (· != c) = xs :=
  List.takeWhile_eq_self_iff.2 (bne_of_not_mem h)

theorem takeWhile_append_cons (h : c ∉ xs) : (xs ++ c :: ys).takeWhile (· != c) = xs := by
  rw [List.takeWhile_append_of_pos (bne_of_not_mem h), List.takeWhile_cons_of_neg (by simp),
    List.append_nil]

theorem cutAt?_of_not_mem (h : c ∉ xs) : cutAt? c xs = none := by
  rw [cutAt?, List.dropWhile_eq_nil_iff.2 (bne_of_not_mem h)]

theorem cutAt?_append_cons (h : c ∉ xs) : cutAt? c (xs ++ c :: ys) = some (xs, ys) := by
  rw [cutAt?, List.dropWhile_append_of_pos (bne_of_not_mem h), takeWhile_append_cons h,
    List.dropWhile_cons_of_neg (by simp)]

/-! ### Joined texts -/

/-- Texts that are joined by a separator are found again, if the separator is in none of them and
none is empty; empty pieces are dropped. -/
theorem filter_splitOn_intercalate {sep : Char} {xss : List (List Char)}
    (h : ∀ xs ∈ xss, xs ≠ [] ∧ sep ∉ xs) :
    ((List.intercalate [sep] xss).splitOn sep).filter (!·.isEmpty) = xss := by
  cases xss with
  | nil => simp
  | cons xs xss =>
      rw [List.splitOn_intercalate sep (fun ys hys => (h ys hys).2) (List.cons_ne_nil xs xss)]
      refine List.filter_eq_self.2 fun ys hys => ?_
      simpa using (h ys hys).1

/-- A character of joined texts is one of the separator or of a text. -/
theorem mem_intercalate {sep : List Char} {xss : List (List Char)}
    (hc : c ∈ List.intercalate sep xss) : c ∈ sep ∨ ∃ xs ∈ xss, c ∈ xs := by
  induction xss with
  | nil => cases hc
  | cons xs xss ih =>
      cases xss with
      | nil => exact .inr ⟨xs, by simp, by simpa using hc⟩
      | cons ys xss =>
          rw [List.intercalate_cons_cons, List.append_assoc, List.mem_append,
            List.mem_append] at hc
          rcases hc with hc | hc | hc
          · exact .inr ⟨xs, by simp, hc⟩
          · exact .inl hc
          · rcases ih hc with hc | ⟨zs, hzs, hc⟩
            · exact .inl hc
            · exact .inr ⟨zs, List.mem_cons_of_mem xs hzs, hc⟩

/-! ### Markers -/

/-- A marker is not found in a text in which one of its characters does not occur. -/
theorem contains_eq_false_of_not_mem {marker : List Char} (hc : c ∈ marker) (h : c ∉ cs) :
    contains marker cs = false := by
  rw [contains, Option.isSome_eq_false_iff, Option.isNone_iff_eq_none]
  induction cs with
  | nil =>
      rw [after?, if_neg]
      rw [List.isEmpty_iff]
      rintro rfl
      cases hc
  | cons x xs ih =>
      rw [after?, if_neg, ih fun hmem => h (List.mem_cons_of_mem _ hmem)]
      intro hprefix
      exact h ((List.isPrefixOf_iff_prefix.1 hprefix).subset hc)

/-- `after?` finds the marker where `cutAround?` does. -/
theorem after?_eq_map (marker cs : List Char) :
    after? marker cs = (cutAround? marker cs).map Prod.snd := by
  induction cs with
  | nil =>
      rw [after?, cutAround?]
      split <;> rfl
  | cons c cs ih =>
      rw [after?, cutAround?]
      split
      · rfl
      · rw [ih, Option.map_map]
        rfl

theorem contains_eq_false_iff {marker : List Char} :
    contains marker cs = false ↔ cutAround? marker cs = none := by
  rw [contains, after?_eq_map, Option.isSome_map, Option.isSome_eq_false_iff,
    Option.isNone_iff_eq_none]

/-- A marker whose first character does not return in it is not found earlier because of the text in
front of it: it would have to begin in that text and go on into the marker, where its first
character would return. -/
theorem not_prefix_append {rest : List Char} (hc : c ∉ cs) (hne : xs ≠ [])
    (h : ¬(c :: cs) <+: xs) : ¬(c :: cs) <+: xs ++ (c :: cs ++ rest) := by
  intro hprefix
  rcases List.prefix_or_prefix_of_prefix hprefix (List.prefix_append xs _) with h' | ⟨ys, hys⟩
  · exact h h'
  · rw [← hys, List.prefix_append_right_inj, hys] at hprefix
    obtain ⟨x, xs, rfl⟩ := List.exists_cons_of_ne_nil hne
    obtain ⟨-, rfl⟩ := List.cons.inj hys
    cases ys with
    | nil => exact h ⟨[], by rw [← hys, List.append_nil, List.append_nil]⟩
    | cons y ys =>
        obtain ⟨rfl, -⟩ := List.cons_prefix_cons.1 hprefix
        exact hc (by simp)

/-- A text without the marker, the marker and any rest are cut around this occurrence. -/
theorem cutAround?_append {rest : List Char} (hc : c ∉ cs) (h : contains (c :: cs) xs = false) :
    cutAround? (c :: cs) (xs ++ (c :: cs ++ rest)) = some (xs, rest) := by
  rw [contains_eq_false_iff] at h
  induction xs with
  | nil =>
      rw [List.nil_append, List.cons_append, cutAround?, ← List.cons_append,
        if_pos (List.isPrefixOf_iff_prefix.2 (List.prefix_append _ _)), List.drop_left]
  | cons x xs ih =>
      rw [cutAround?] at h
      split at h
      · cases h
      · rename_i hnot
        rw [Option.map_eq_none_iff] at h
        rw [List.isPrefixOf_iff_prefix] at hnot
        rw [List.cons_append, cutAround?, ← List.cons_append, if_neg, ih h]
        · rfl
        · rw [List.isPrefixOf_iff_prefix]
          exact not_prefix_append hc (List.cons_ne_nil x xs) hnot

/-- A character that the marker does not have changes nothing behind the text: it is not part of any
occurrence. -/
theorem after?_append_singleton {marker : List Char} (hc : c ∉ marker) (hne : marker ≠ []) :
    after? marker (cs ++ [c]) = (after? marker cs).map (· ++ [c]) := by
  have hprefix : ∀ xs, marker.isPrefixOf (xs ++ [c]) = marker.isPrefixOf xs := by
    intro xs
    rw [Bool.eq_iff_iff, List.isPrefixOf_iff_prefix, List.isPrefixOf_iff_prefix,
      List.prefix_concat_iff]
    refine or_iff_right ?_
    rintro rfl
    exact hc (by simp)
  induction cs with
  | nil =>
      -- at the end of the text an empty marker would be found, but this one is not empty
      have hempty : marker.isEmpty = false := by simpa using hne
      have hnil : marker.isPrefixOf [c] = false := by
        rw [← List.nil_append [c], hprefix, ← hempty]
        cases marker <;> rfl
      rw [List.nil_append, after?, after?, after?, hnil, hempty]
      rfl
  | cons x xs ih =>
      rw [List.cons_append, after?, ← List.cons_append, hprefix, after?]
      split
      · rename_i h
        have hle := (List.isPrefixOf_iff_prefix.1 h).length_le
        rw [List.drop_append_of_le_length hle, Option.map_some]
      · exact ih

/-! ### Blanks at the end -/

theorem trim_append_of_isBlank (h : isBlank c = true) : trim (cs ++ [c]) = trim cs := by
  rw [trim, trim, trimStart, trimStart, List.dropWhile_append]
  split
  · rename_i hempty
    rw [List.isEmpty_iff] at hempty
    rw [hempty, List.dropWhile_cons_of_pos h]
    rfl
  · rw [trimEnd, trimEnd, List.reverse_append, List.reverse_singleton, List.singleton_append,
      List.dropWhile_cons_of_pos h]

/-- A blank at the end of a text is not seen in what stands before the first separator, after this
has been trimmed. -/
theorem trim_takeWhile_append {p : Char → Bool} (h : isBlank c = true) :
    trim ((cs ++ [c]).takeWhile p) = trim (cs.takeWhile p) := by
  rw [List.takeWhile_append]
  split
  · rename_i hlength
    rw [(List.takeWhile_prefix p).eq_of_length hlength, List.takeWhile_cons, List.takeWhile_nil]
    split
    · exact trim_append_of_isBlank h
    · rw [List.append_nil]
  · rfl

end PlanOrbits.Text
