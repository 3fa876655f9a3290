import Mathlib.Computability.StateTransition
import PlanOrbits.Permutation.Cycles

/-!
# Permutations step by step

Another form of the operations on cycles, in which each of them is a loop.

* **Threading.** Disjoint cycles are written into a table, point by point. A point is checked when
  its own turn comes. Before that it may have been written already, as the image of the point that
  it follows in its cycle.
* **Tours.** The cycles of a permutation are found by walks: from every point that was not visited
  yet the permutation is followed until it comes back to this point. Nothing but the permutation
  bounds such a walk; one that did not come back would have no result (`Part`).
* **Orders.** The order of a permutation is computed in 64-bit words. There is no word where a
  number does not fit one or a divisor is zero.
-/

namespace PlanOrbits

/-! ## Threading -/

/-- What is reported of a point of cycles. -/
def BijectionError.ofPoint (point n : Nat) (cycles : List (List Nat)) :
    PointFault → BijectionError
  | .outOfRange => .pointOutOfRange point n cycles
  | .repeated => .repeatedPoint point cycles

/-- The point behind the `i`-th one of a cycle. Behind the last one comes the first. -/
def pointBehind (cycle : List Nat) (i : Fin cycle.length) : Nat :=
  cycle.get ⟨(i.val + 1) % cycle.length, Nat.mod_lt _ i.pos⟩

/-- A table into which cycles are written, and the points that have been found in them. -/
structure Threading (n : Nat) where
  images : Array Nat
  found : Marks n

namespace Threading

variable {n : Nat}

/-- Every point is fixed. -/
def start (n : Nat) : Threading n := ⟨Array.range n, Marks.empty n⟩

/-- Write the image of a point, which must be below the bound and new. -/
def assign (cycles : List (List Nat)) (t : Threading n) (point image : Nat) :
    Except BijectionError (Threading n) :=
  match t.found.add point with
  | .ok found => .ok { images := t.images.setIfInBounds point image, found }
  | .error fault => .error (.ofPoint point n cycles fault)

/-- Write the points of a cycle, each with the one behind it as its image. -/
def assignCycle (cycles : List (List Nat)) (t : Threading n) (cycle : List Nat) :
    Except BijectionError (Threading n) :=
  (List.finRange cycle.length).foldlM
    (fun t i => t.assign cycles (cycle.get i) (pointBehind cycle i)) t

end Threading

namespace Permutation

/-- The table of the permutation of the points below `n` with the given cycles. -/
def tableOfCycles (n : Nat) (cycles : List (List Nat)) : Except BijectionError (Array Nat) := do
  let t ← cycles.foldlM (Threading.assignCycle cycles) (Threading.start n)
  return t.images

end Permutation

/-! ## Tours -/

/-- Mark a point. It may be marked already. -/
def Marks.mark {n : Nat} (m : Marks n) (point : Nat) : Marks n :=
  ⟨m.marked.setIfInBounds point true⟩

/-- A walk on its way: the points that have been visited, the cycle as far as it was collected, and
the point to which the walk has come. -/
structure Walk (n : Nat) where
  visited : Marks n
  cycle : List Nat
  point : Nat

/-- The points that have been visited, and the cycles that have been found. -/
structure Tour (n : Nat) where
  visited : Marks n
  cycles : List (List Nat)

namespace Permutation

/-- Mark and collect the point to which a walk has come, and go on to its image. The walk ends when
it is back at `start`. -/
def goOn? (p : Permutation) (start : Nat) (w : Walk p.size) : Option (Walk p.size) :=
  if w.point = start then none
  else some
    { visited := w.visited.mark w.point
      cycle := w.cycle ++ [w.point]
      point := p.image w.point }

/-- Walk from a point until the walk ends. -/
def walk (p : Permutation) (visited : Marks p.size) (start : Nat) : Part (Walk p.size) :=
  StateTransition.eval (p.goOn? start) ⟨visited.mark start, [start], p.image start⟩

/-- Find the cycle of a point, unless the point has been visited. -/
def visit (p : Permutation) (t : Tour p.size) (start : Nat) : Part (Tour p.size) :=
  if t.visited.has start then pure t
  else do
    let w ← p.walk t.visited start
    return {
      visited := w.visited
      cycles := if 1 < w.cycle.length then t.cycles ++ [w.cycle] else t.cycles }

/-- The cycles of at least two points, in the order in which they are found. -/
def tour (p : Permutation) : Part (List (List Nat)) := do
  let t ← (List.range p.size).foldlM p.visit ⟨Marks.empty p.size, []⟩
  return t.cycles

end Permutation

/-! ## Orders -/

/-- The greatest common divisor of two words, by division with remainder. -/
def gcdWord (a b : UInt64) : UInt64 :=
  if b = 0 then a else gcdWord b (a % b)
termination_by b.toNat
decreasing_by
  rename_i hb
  rw [UInt64.toNat_mod]
  exact Nat.mod_lt _ (Nat.pos_of_ne_zero fun h => hb (UInt64.toNat_inj.1 h))

/-- The least common multiple of two words, unless the divisor is zero or the product does not
fit a word. -/
def lcmWord? (a b : UInt64) : Option UInt64 :=
  let divisor := gcdWord a b
  if divisor = 0 then none
  else
    let factor := a / divisor
    if factor.toNat * b.toNat < UInt64.size then some (factor * b) else none

/-- A number as a word, if it fits one. -/
def word? (n : Nat) : Option UInt64 := if n < UInt64.size then some n.toUInt64 else none

/-- The least common multiple of a word and the length of a cycle. -/
def lcmLength? (w : UInt64) (cycle : List Nat) : Option UInt64 := do
  lcmWord? w (← word? cycle.length)

/-- The order of a permutation as a word. -/
def Permutation.orderWord? (p : Permutation) : Part (Option UInt64) := do
  let cycles ← p.tour
  return cycles.foldlM lcmLength? 1

end PlanOrbits
