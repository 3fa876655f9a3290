import PlanOrbits.Shell.Line

/-!
# Changes between two texts

The fewest lines that have to be removed from one text and added to it so that
another one results. Which of several such choices is taken matters to those who read
it: the search goes from both ends at the same time, and a run of changed lines is
then moved down as far as that makes no difference, or to the place where it stands
beside a run of the other text.
-/

namespace PlanOrbits.Shell.Difference

/-- Lines that are removed in one place and lines that are added in their stead. Lines
are counted from zero. -/
structure Change where
  first : Nat
  removed : Nat
  second : Nat
  added : Nat
  deriving DecidableEq, Repr

/-! ## The search -/

/-- A part of two texts: the lines of the first from `left` to `right`, those of the
second from `top` to `bottom`. -/
structure Box where
  left : Int
  right : Int
  top : Int
  bottom : Int

/-- How far a search has come on each diagonal, from `low` to `high`. The difference
between the lines of the first and the second text is the same along a diagonal. -/
structure Frontier where
  low : Int
  high : Int
  /-- The lines of the first text that were reached. -/
  reach : Array Int
  /-- Where diagonals begin in the array. -/
  offset : Int

namespace Frontier

variable (f : Frontier)

/-- A search that stands at one place of a diagonal and nowhere else. -/
def start (b : Box) (diagonal place unreached : Int) : Frontier :=
  let offset := b.bottom + 1 - b.left
  { low := diagonal, high := diagonal, offset
    reach := (Array.replicate (b.right - b.left + b.bottom - b.top + 3).toNat unreached).set!
      (diagonal + offset).toNat place }

/-- How far the search has come on a diagonal. -/
def reached (d : Int) : Int := f.reach.getD (d + f.offset).toNat 0

/-- The diagonals of the next step, the highest first. -/
def next (b : Box) : Frontier :=
  { f with
    low := if b.left - b.bottom < f.low then f.low - 1 else f.low + 1
    high := if f.high < b.right - b.top then f.high + 1 else f.high - 1 }

/-- The diagonals that a step looks at, the highest first. -/
def diagonals : List Int :=
  (List.range ((f.high - f.low) / 2 + 1).toNat).map fun (k : Nat) => f.high - 2 * (k : Int)

/-- Is a diagonal one of those that were looked at? -/
def covers (d : Int) : Bool := f.low ≤ d && d ≤ f.high

/-- Take a step: on each diagonal go on from the better of its neighbours, and then as
far as `follow` leads. -/
def step (b : Box) (choose : Int → Int → Int) (follow : Int → Int → Int) : Frontier :=
  let f := f.next b
  { f with
    reach := f.diagonals.foldl (fun reach d =>
      let near := choose (reach.getD (d - 1 + f.offset).toNat 0)
        (reach.getD (d + 1 + f.offset).toNat 0)
      reach.set! (d + f.offset).toNat (follow near (near - d))) f.reach }

end Frontier

/-- How many lines agree from two places on. -/
def agreeing (isSame : Int → Int → Bool) (b : Box) : Nat → Int → Int → Int
  | 0, x, _ => x
  | fuel + 1, x, y =>
      if x < b.right && y < b.bottom && isSame x y then agreeing isSame b fuel (x + 1) (y + 1)
      else x

/-- How many lines agree in front of two places. -/
def agreeingBefore (isSame : Int → Int → Bool) (b : Box) : Nat → Int → Int → Int
  | 0, x, _ => x
  | fuel + 1, x, y =>
      if b.left < x && b.top < y && isSame (x - 1) (y - 1) then
        agreeingBefore isSame b fuel (x - 1) (y - 1)
      else x

/-- A place in the middle of a shortest way through a box, where the searches from both
ends meet. -/
def middle (isSame : Int → Int → Bool) (b : Box) : Nat → (down up : Frontier) → Int × Int
  | 0, _, _ => (b.right, b.bottom)
  | fuel + 1, down, up =>
      let size := (b.right - b.left).toNat
      let isOdd := (b.left - b.top - (b.right - b.bottom)) % 2 != 0
      let down := down.step b (fun low high => if low < high then high else low + 1)
        (agreeing isSame b (size + 1))
      let isMet := fun (d : Int) => up.covers d && up.reached d ≤ down.reached d
      match if isOdd then down.diagonals.find? isMet else none with
      | some d => (down.reached d, down.reached d - d)
      | none =>
          let up := up.step b (fun low high => if low < high then low else high - 1)
            (agreeingBefore isSame b (size + 1))
          let isMet := fun (d : Int) => down.covers d && up.reached d ≤ down.reached d
          match if isOdd then none else up.diagonals.find? isMet with
          | some d => (up.reached d, up.reached d - d)
          | none => middle isSame b fuel down up

/-- Which lines of a text are changed. -/
abbrev Marks := Array Bool

/-- Is a line marked? There are no lines outside of the text. -/
def isMarked (marks : Marks) (n : Int) : Bool := 0 ≤ n && marks.getD n.toNat false

/-- Mark lines. -/
def markRange (marks : Marks) (low high : Int) : Marks :=
  (List.range (high - low).toNat).foldl
    (fun (marks : Marks) (k : Nat) => marks.set! (low + k).toNat true) marks

/-- Mark the lines of a box that are removed, and those that are added. -/
def markChanges (isSame : Int → Int → Bool) : Nat → Box → Marks × Marks → Marks × Marks
  | 0, _, marks => marks
  | fuel + 1, b, (removed, added) =>
      let size := (b.right - b.left).toNat
      let front := agreeing isSame b (size + 1) b.left b.top - b.left
      let b := { b with left := b.left + front, top := b.top + front }
      let back := b.right - agreeingBefore isSame b (size + 1) b.right b.bottom
      let b := { b with right := b.right - back, bottom := b.bottom - back }
      if b.left == b.right then (removed, markRange added b.top b.bottom)
      else if b.top == b.bottom then (markRange removed b.left b.right, added)
      else
        let steps := (b.right - b.left + b.bottom - b.top).toNat
        let (x, y) := middle isSame b (steps + 1)
          (Frontier.start b (b.left - b.top) b.left (-1))
          (Frontier.start b (b.right - b.bottom) b.right (b.right + b.bottom + 2))
        let marks := markChanges isSame fuel { b with right := x, bottom := y } (removed, added)
        markChanges isSame fuel { b with left := x, top := y } marks

/-! ## Moving runs -/

/-- The first place from `n` on that is not marked. -/
def skipMarked (marks : Marks) : Nat → Int → Int
  | 0, n => n
  | fuel + 1, n => if isMarked marks n then skipMarked marks fuel (n + 1) else n

/-- The last place before `n` that is not marked. -/
def skipMarkedBefore (marks : Marks) : Nat → Int → Int
  | 0, n => n - 1
  | fuel + 1, n => if isMarked marks (n - 1) then skipMarkedBefore marks fuel (n - 1) else n - 1

/-- A run of marked lines that is being moved, and where the other text stands beside
its end. -/
structure Run where
  marks : Marks
  start : Int
  finish : Int
  other : Int
  /-- The last end at which the run stands beside a run of the other text. -/
  beside : Int

namespace Run

variable (lines : Array (List Char)) (others : Marks) (r : Run)

/-- Are two lines the same? -/
def isSame (i j : Int) : Bool := lines.getD i.toNat [] == lines.getD j.toNat []

/-- The run one line further up. -/
def raised : Run :=
  let marks := (r.marks.set! (r.start - 1).toNat true).set! (r.finish - 1).toNat false
  { r with
    marks
    start := skipMarkedBefore marks lines.size (r.start - 1) + 1
    finish := r.finish - 1
    other := skipMarkedBefore others others.size r.other }

/-- The run one line further down. -/
def lowered : Run :=
  let marks := (r.marks.set! r.start.toNat false).set! r.finish.toNat true
  let finish := skipMarked marks lines.size (r.finish + 1)
  let other := skipMarked others others.size (r.other + 1)
  { marks, start := r.start + 1, finish, other
    beside := if r.other + 1 < other then finish else r.beside }

/-- Move the run up as far as that makes no difference. -/
def raise : Nat → Run → Run
  | 0, r => r
  | fuel + 1, r =>
      if 0 < r.start && isSame lines (r.start - 1) (r.finish - 1) then
        raise fuel (raised lines others r)
      else r

/-- Move the run down as far as that makes no difference. -/
def lower : Nat → Run → Run
  | 0, r => r
  | fuel + 1, r =>
      if r.finish != lines.size && isSame lines r.start r.finish then
        lower fuel (lowered lines others r)
      else r

/-- Move the run up and down, until it meets no other runs any more. -/
def settle : Nat → Run → Run
  | 0, r => r
  | fuel + 1, r =>
      let high := raise lines others (lines.size + 1) r
      let high :=
        { high with
          beside := if isMarked others (high.other - 1) then high.finish else lines.size }
      let low := lower lines others (lines.size + 1) high
      if low.finish - low.start == r.finish - r.start then low else settle fuel low

/-- Move the run up again to where it stands beside a run of the other text. -/
def align : Nat → Run → Run
  | 0, r => r
  | fuel + 1, r => if r.beside < r.finish then align fuel (raised lines others r) else r

end Run

/-- Move all runs of a text, from the given places of both texts on. -/
def moveRuns (lines : Array (List Char)) (others : Marks) : Nat → Marks → (here there : Int) → Marks
  | 0, marks, _, _ => marks
  | fuel + 1, marks, here, there =>
      if lines.size ≤ here then marks
      else if isMarked marks here then
        let r : Run :=
          { marks, start := here, finish := skipMarked marks lines.size here
            other := skipMarked others others.size there, beside := 0 }
        let r := Run.settle lines others (lines.size + 1) r
        let r := Run.align lines others (lines.size + 1) r
        moveRuns lines others fuel r.marks r.finish r.other
      else moveRuns lines others fuel marks (here + 1) (skipMarked others others.size there + 1)

/-! ## Changes -/

/-- The changes that marks describe, from the given lines on. -/
def changesOf (removed added : Marks) : Nat → (i j : Nat) → List Change
  | 0, _, _ => []
  | fuel + 1, i, j =>
      if removed.size ≤ i && added.size ≤ j then []
      else
        let i' := (skipMarked removed removed.size i).toNat
        let j' := (skipMarked added added.size j).toNat
        let rest := changesOf removed added fuel (i' + 1) (j' + 1)
        if i' == i && j' == j then rest
        else { first := i, removed := i' - i, second := j, added := j' - j } :: rest

/-- The lines of a text that are in another one as well, with their places. -/
def matched (lines others : List (List Char)) : List (Nat × List Char) :=
  ((List.range lines.length).zip lines).filter fun (_, line) => others.contains line

/-- The changes that lead from some lines to others. Lines that the other side does not
have are changed in any case, and take no part in the search. -/
def changesBetween (firsts seconds : List (List Char)) : List Change :=
  let as := (matched firsts seconds).toArray
  let bs := (matched seconds firsts).toArray
  let isSame := fun (x y : Int) =>
    (as[x.toNat]?).map Prod.snd == (bs[y.toNat]?).map Prod.snd
  let box : Box := { left := 0, right := as.size, top := 0, bottom := bs.size }
  let (removed, added) := markChanges isSame (as.size + bs.size + 1) box
    (Array.replicate as.size false, Array.replicate bs.size false)
  let marksOf := fun (lines : List (List Char)) (kept : Array (Nat × List Char)) (marks : Marks) =>
    (kept.zip marks).foldl (fun (all : Marks) ((n, _), isMarked) => all.set! n isMarked)
      (Array.replicate lines.length true)
  let removed := marksOf firsts as removed
  let added := marksOf seconds bs added
  let removed := moveRuns firsts.toArray added (firsts.length + 1) removed 0 0
  let added := moveRuns seconds.toArray removed (seconds.length + 1) added 0 0
  changesOf removed added (firsts.length + seconds.length + 2) 0 0

/-- How many lines two lists have in common at their fronts. -/
def commonFront : List (List Char) → List (List Char) → Nat
  | a :: as, b :: bs => if a == b then commonFront as bs + 1 else 0
  | _, _ => 0

/-- The changes that lead from one text to another, whose lines are compared by their
keys. What the texts have in common at both ends is left out of the search, apart from
`margin` lines. -/
def changes (key : List Char → List Char) (margin : Nat) (firsts seconds : List (List Char)) :
    List Change :=
  let front := commonFront firsts seconds - margin
  let as := firsts.drop front
  let bs := seconds.drop front
  let least := commonFront firsts seconds - front
  let back := commonFront (as.drop least).reverse (bs.drop least).reverse - margin
  let as := (as.take (as.length - back)).map key
  let bs := (bs.take (bs.length - back)).map key
  (changesBetween as bs).map fun c =>
    { c with first := c.first + front, second := c.second + front }

end PlanOrbits.Shell.Difference
