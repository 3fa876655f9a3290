import PlanOrbits.Shell.Flags
import PlanOrbits.Shell.Line

/-!
# Merging sorted texts

Two texts whose lines are in order, gone through at the same time. `Overlap` tells
the lines that are in one of them from those that are in both; `Joining` joins the
lines that have the same key.

Whether the lines are in order is looked at where it begins to matter: once a line
without a partner was seen.
-/

namespace PlanOrbits.Shell

/-- Is the first of some lines larger than the second? -/
def startsWithFall (order : List Char → List Char → Ordering) : List (List Char) → Bool
  | a :: b :: _ => order a b == .gt
  | _ => false

/-- How the heads of two lists compare. The end of a list is larger than all lines. -/
def compareHeads (order : List Char → List Char → Ordering) :
    List (List Char) → List (List Char) → Ordering
  | a :: _, b :: _ => order a b
  | _ :: _, [] => .lt
  | [], _ => .gt

/-! ## Lines in common -/

namespace Overlap

/-- In which texts a line is. -/
inductive Origin where
  | first
  | second
  | both
  deriving DecidableEq, Repr

/-- When lines that are not in order are a fault. -/
inductive Strictness where
  | never
  | afterUnpaired
  /-- Always, and the work ends at once. -/
  | always
  deriving DecidableEq, Repr

/-- The lines of two sorted lists with their origins, and whether a fault was found.
`isSeen` tells whether a line without a partner was seen. -/
def merge (strictness : Strictness) : Nat → (isSeen : Bool) → List (List Char) →
    List (List Char) → List (Origin × List Char) × Bool
  | 0, _, _, _ | _, _, [], [] => ([], false)
  | fuel + 1, isSeen, as, bs =>
      let order := compareHeads Ord.compare as bs
      let isSeen := isSeen || order != .eq
      let isFall := order != .gt && startsWithFall Ord.compare as ||
        order != .lt && startsWithFall Ord.compare bs
      let (origin, line, as, bs) : Origin × List Char × _ × _ :=
        match order with
        | .lt => (.first, as.headD [], as.tail, bs)
        | .gt => (.second, bs.headD [], as, bs.tail)
        | .eq => (.both, as.headD [], as.tail, bs.tail)
      match strictness, isFall with
      | .always, true => ([(origin, line)], true)
      | _, _ =>
          let (rest, isFaulty) := merge strictness fuel isSeen as bs
          ((origin, line) :: rest, isFaulty || strictness = .afterUnpaired && isSeen && isFall)

/-- The flags of the program that compares sorted files. -/
def table : FlagTable where
  plain := "123z"
  valued := "D"
  long := [("output-delimiter", 'D'), ("check-order", 'c'), ("nocheck-order", 'n'), ("total", 't')]
  isMixed := true

/-- The column of an origin, counted from one. -/
def Origin.column : Origin → Nat
  | first => 1
  | second => 2
  | both => 3

/-- The comparison of two texts, in three columns; and whether no fault was found. -/
def run (f : Flags) (first second : List Char) : Filtered :=
  let isShown := fun (column : Nat) => !f.has (Nat.digitChar column)
  let delimiter :=
    match f.value? 'D' with
    | none => ['\t']
    | some [] => ['\x00']
    | some cs => cs
  let strictness :=
    if f.has 'c' then .always else if f.has 'n' then .never else Strictness.afterUnpaired
  let as := Line.all first
  let bs := Line.all second
  let (merged, isFaulty) := merge strictness (as.length + bs.length + 1) false as bs
  let lines := merged.filterMap fun (origin, line) =>
    let before := (List.range origin.column).filter fun n => 1 ≤ n && isShown n
    if isShown origin.column then some ((before.map fun _ => delimiter).flatten ++ line) else none
  let total := fun (origin : Origin) => Text.decimal (merged.countP (·.1 = origin))
  let summary :=
    List.intercalate delimiter [total .first, total .second, total .both, "total".toList]
  (Line.join (lines ++ if f.has 't' then [summary] else []), !isFaulty)

end Overlap

/-! ## Joining by keys -/

/-- A field of the output. -/
inductive Joining.Column where
  | key
  /-- A field of the first or of the second line, counted from zero. -/
  | field (isFirst : Bool) (index : Nat)
  deriving DecidableEq, Repr

/-- What a joining looks at, and what it shows. -/
structure Joining where
  /-- The fields that are keys, counted from zero. -/
  firstKey : Nat
  secondKey : Nat
  separator : Option Char
  ignoresCase : Bool
  /-- Are lines without a partner shown, of the first and of the second text? -/
  showsFirst : Bool
  showsSecond : Bool
  showsPairs : Bool
  /-- The columns, if they are chosen. -/
  columns : Option (List Joining.Column)
  /-- How many fields lines have, if they are filled up. -/
  counts : Option (Nat × Nat)
  /-- What stands for a missing field. -/
  filler : List Char
  isStrict : Bool
  isChecked : Bool

namespace Joining

variable (j : Joining)

/-- Does the character separate fields where no separator is given? -/
def isGap (c : Char) : Bool := c == ' ' || c == '\t'

/-- The fields of a line. -/
def fields (separator : Option Char) (line : List Char) : List (List Char) :=
  match separator with
  | some c => Text.pieces (· == c) line
  | none =>
      -- Blanks in front belong to no field; blanks at the end leave no empty one.
      (Text.pieces isGap line).filter (!·.isEmpty)

/-- A key as it is compared. -/
def normal (key : List Char) : List Char := if j.ignoresCase then key.map Char.toLower else key

/-- The key of a line of one of the texts. -/
def keyOf (isFirst : Bool) (line : List Char) : List Char :=
  j.normal ((fields j.separator line).getD (if isFirst then j.firstKey else j.secondKey) [])

/-- Compare lines by their keys. -/
def compareKeys (isFirst isSecond : Bool) (a b : List Char) : Ordering :=
  Ord.compare (j.keyOf isFirst a) (j.keyOf isSecond b)

/-- The line of output for a pair of lines, one of which may be missing. -/
def pairText (first second : Option (List Char)) : List Char :=
  let joint := [j.separator.getD ' ']
  let firstFields := first.elim [] (fields j.separator)
  let secondFields := second.elim [] (fields j.separator)
  let filled := fun (field : List Char) => if field.isEmpty then j.filler else field
  let key :=
    if first.isSome then firstFields.getD j.firstKey [] else secondFields.getD j.secondKey []
  let others := fun (fields : List (List Char)) (key : Nat) (count? : Option Nat) =>
    (List.range (count?.getD fields.length)).filterMap fun n =>
      if n = key then none else some (filled (fields.getD n []))
  let shown :=
    match j.columns with
    | some columns => columns.map fun
        | .key => filled key
        | .field isFirst n => filled ((if isFirst then firstFields else secondFields).getD n [])
    | none =>
        filled key :: others firstFields j.firstKey (j.counts.map Prod.fst) ++
          others secondFields j.secondKey (j.counts.map Prod.snd)
  Line.ended (List.intercalate joint shown)

/-- Do neighbours among lines of one text fall? -/
def hasFall (isFirst : Bool) : List (List Char) → Bool
  | a :: b :: rest => j.compareKeys isFirst isFirst a b == .gt || hasFall isFirst (b :: rest)
  | _ => false

/-- Join sorted lines. Tells what is written, and whether a fault was found. -/
def merge : Nat → (isSeen : Bool) → List (List Char) → List (List Char) → List Char × Bool
  | 0, _, _, _ => ([], false)
  | fuel + 1, isSeen, as, bs =>
      let falls := fun (isFirst : Bool) (lines : List (List Char)) =>
        j.isChecked && (isSeen || j.isStrict) && j.hasFall isFirst lines
      match as, bs with
      | a :: as', b :: bs' =>
          match j.compareKeys true false a b with
          | .lt =>
              let (text, isFaulty) := merge fuel true as' bs
              ((if j.showsFirst then j.pairText (some a) none else []) ++ text,
                isFaulty || falls true (as.take 2))
          | .gt =>
              let (text, isFaulty) := merge fuel true as bs'
              ((if j.showsSecond then j.pairText none (some b) else []) ++ text,
                isFaulty || falls false (bs.take 2))
          | .eq =>
              let same := as.takeWhile fun x => j.compareKeys true false x b == .eq
              let partners := bs.takeWhile fun x => j.compareKeys true false a x == .eq
              let pairs := same.flatMap fun x => partners.flatMap fun y =>
                j.pairText (some x) (some y)
              let (text, isFaulty) :=
                merge fuel isSeen (as.drop same.length) (bs.drop partners.length)
              ((if j.showsPairs then pairs else []) ++ text,
                isFaulty || falls true (as.take (same.length + 1)) ||
                  falls false (bs.take (partners.length + 1)))
      | as, [] =>
          (if j.showsFirst then as.flatMap fun a => j.pairText (some a) none else [],
            falls true as)
      | [], bs =>
          (if j.showsSecond then bs.flatMap fun b => j.pairText none (some b) else [],
            falls false bs)

/-- The flags of the program that joins. -/
def table : FlagTable where
  plain := "iz"
  valued := "avejo12t"
  long := [("ignore-case", 'i'), ("check-order", 'c'), ("nocheck-order", 'n'), ("header", 'h'),
    ("zero-terminated", 'z')]
  isMixed := true

/-- A column as it is written: zero for the key, or the number of a text and the
number of a field. -/
def readColumn? (cs : List Char) : Option Column :=
  match cs with
  | ['0'] => some .key
  | n :: '.' :: digits =>
      match Text.digits? digits with
      | some ds =>
          if Text.number ds = 0 then none
          else if n == '1' then some (.field true (Text.number ds - 1))
          else if n == '2' then some (.field false (Text.number ds - 1))
          else none
      | none => none
  | _ => none

/-- The number of a field, counted from zero. -/
def readField? (cs : List Char) : Option Nat :=
  (Text.digits? cs).bind fun ds => if Text.number ds = 0 then none else some (Text.number ds - 1)

/-- Arguments in which the list of columns, which may go on in further arguments, is
one argument. -/
def gatherColumns : List (List Char) → List (List Char)
  | ['-', 'o'] :: list :: args =>
      let more := args.takeWhile fun arg => (readColumn? arg).isSome
      ['-', 'o'] :: List.intercalate [','] (list :: more) :: args.drop more.length
  | arg :: args => arg :: gatherColumns args
  | [] => []

/-- The joining that arguments ask for, before the texts are known; the flags, and the
files. -/
def ofArgs? (args : List (List Char)) : Option (Joining × Flags × List (List Char)) := do
  let f ← Flags.ofArgs? table (gatherColumns args)
  let both ← (f.value? 'j').elim (some 0) readField?
  let firstKey ← (f.value? '1').elim (some both) readField?
  let secondKey ← (f.value? '2').elim (some both) readField?
  let separator ←
    match f.value? 't' with
    | none => some none
    | some [c] => some (some c)
    | some ['\\', '0'] => some (some '\x00')
    | some [] => some (some '\n')
    | some _ => none
  let columns ←
    match f.value? 'o' with
    | none => some none
    | some cs =>
        if cs == "auto".toList then some none
        else
          let parts := (Text.pieces (fun c => c == ',' || isGap c) cs).filter (!·.isEmpty)
          (parts.mapM readColumn?).map some
  let isNamed := fun (c : Char) (text : String) => (f.values c).contains text.toList
  let j : Joining :=
    { firstKey, secondKey, separator, ignoresCase := f.has 'i'
      showsFirst := isNamed 'a' "1" || isNamed 'v' "1"
      showsSecond := isNamed 'a' "2" || isNamed 'v' "2"
      showsPairs := !f.has 'v', columns, counts := none
      filler := (f.value? 'e').getD [], isStrict := f.has 'c', isChecked := !f.has 'n' }
  return (j, f, f.operands)

/-- Join two texts. -/
def run (f : Flags) (first second : List Char) : Filtered :=
  let as := Line.all first
  let bs := Line.all second
  let count := fun (lines : List (List Char)) => (fields j.separator (lines.headD [])).length
  let j :=
    if f.value? 'o' == some "auto".toList then { j with counts := some (count as, count bs) } else j
  let fuel := as.length + bs.length + 1
  if f.has 'h' then
    let (text, isFaulty) := j.merge fuel false as.tail bs.tail
    let header :=
      if as.isEmpty && bs.isEmpty then [] else j.pairText as.head? bs.head?
    (header ++ text, !isFaulty)
  else
    let (text, isFaulty) := j.merge fuel false as bs
    (text, !isFaulty)

end Joining

end PlanOrbits.Shell
