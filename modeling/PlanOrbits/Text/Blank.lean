/-!
# Blanks, pieces and words

Texts are handled as lists of characters. This module holds the class of blank
characters and the cuts that every reader of this library is built from:

* `trim` drops the blanks at both ends;
* `pieces` cuts at every character of a class, so that a text with `n`
  separators has `n + 1` pieces;
* `words` are the pieces between blanks, without the empty ones;
* `cutAt?` and `after?` look for the first separator or marker.
-/

namespace PlanOrbits.Text

/-- The characters with the Unicode property `White_Space`. -/
def isBlank (c : Char) : Bool :=
  let n := c.toNat
  (0x09 ≤ n && n ≤ 0x0D) || n == 0x20 || n == 0x85 || n == 0xA0 || n == 0x1680 ||
    (0x2000 ≤ n && n ≤ 0x200A) || n == 0x2028 || n == 0x2029 || n == 0x202F ||
    n == 0x205F || n == 0x3000

/-- Drop the leading blanks. -/
def trimStart (cs : List Char) : List Char := cs.dropWhile isBlank

/-- Drop the trailing blanks. -/
def trimEnd (cs : List Char) : List Char := (cs.reverse.dropWhile isBlank).reverse

/-- Drop the blanks at both ends. -/
def trim (cs : List Char) : List Char := trimEnd (trimStart cs)

/-! ## Cuts -/

/-- Cut at every character of the class `isSep`; the separators are dropped. -/
def pieces (isSep : Char → Bool) : List Char → List (List Char)
  | [] => [[]]
  | c :: cs =>
      if isSep c then [] :: pieces isSep cs
      else
        match pieces isSep cs with
        | [] => [[c]]
        | first :: rest => (c :: first) :: rest

/-- There is always a first piece. -/
theorem pieces_ne_nil (isSep : Char → Bool) (cs : List Char) : pieces isSep cs ≠ [] := by
  cases cs with
  | nil => simp [pieces]
  | cons c cs =>
      rw [pieces]
      split
      · simp
      · split <;> simp

/-- A text of separators and `n` of them has `n + 1` pieces. -/
theorem length_pieces (isSep : Char → Bool) (cs : List Char) :
    (pieces isSep cs).length = cs.countP isSep + 1 := by
  induction cs with
  | nil => rfl
  | cons c cs ih =>
      by_cases hc : isSep c = true
      · simp [pieces, hc, ih]
      · cases hp : pieces isSep cs with
        | nil => exact absurd hp (pieces_ne_nil isSep cs)
        | cons first rest =>
            rw [hp] at ih
            simp only [pieces, hc, hp, List.length_cons, List.countP_cons, Bool.false_eq_true,
              if_false] at ih ⊢
            omega

/-- The maximal runs of characters that are not blank. -/
def words (cs : List Char) : List (List Char) :=
  (pieces isBlank cs).filter (!·.isEmpty)

/-- The text before and after the first `sep`, if there is one. -/
def cutAt? (sep : Char) (cs : List Char) : Option (List Char × List Char) :=
  match cs.dropWhile (· != sep) with
  | [] => none
  | _ :: after => some (cs.takeWhile (· != sep), after)

/-- The separator stands between the two parts. -/
theorem eq_append_of_cutAt? {sep : Char} {cs before after : List Char}
    (h : cutAt? sep cs = some (before, after)) : cs = before ++ sep :: after := by
  have hcs := List.takeWhile_append_dropWhile (p := (· != sep)) (l := cs)
  have hc := List.head?_dropWhile_not (· != sep) cs
  unfold cutAt? at h
  split at h
  · simp at h
  · rename_i c rest hd
    simp only [Option.some.injEq, Prod.mk.injEq] at h
    simp only [hd, List.head?_cons] at hc
    have hc : c = sep := by simpa using hc
    rw [← hcs, h.1, hd, hc, h.2]

/-- The text after the first occurrence of `marker`, if there is one. -/
def after? (marker : List Char) : List Char → Option (List Char)
  | [] => if marker.isEmpty then some [] else none
  | c :: cs =>
      if marker.isPrefixOf (c :: cs) then some ((c :: cs).drop marker.length)
      else after? marker cs

/-- The text before and after the first occurrence of `marker`, if there is one. -/
def cutAround? (marker : List Char) : List Char → Option (List Char × List Char)
  | [] => if marker.isEmpty then some ([], []) else none
  | c :: cs =>
      if marker.isPrefixOf (c :: cs) then some ([], (c :: cs).drop marker.length)
      else (cutAround? marker cs).map fun (before, after) => (c :: before, after)

/-- Does `marker` occur in the text? -/
def contains (marker cs : List Char) : Bool := (after? marker cs).isSome

/-! ## Lines -/

/-- Drop one final carriage return. -/
def dropReturn (cs : List Char) : List Char :=
  if cs.getLast? == some '\r' then cs.dropLast else cs

/-- The lines of a text. Each line ends before a line feed, and one carriage
return right before the line feed belongs to the ending. An unfinished last line
counts if it is not empty, and keeps its carriage return. -/
def lines (cs : List Char) : List (List Char) :=
  let all := pieces (· == '\n') cs
  all.dropLast.map dropReturn ++ (all.getLast?.toList.filter (!·.isEmpty))

end PlanOrbits.Text
