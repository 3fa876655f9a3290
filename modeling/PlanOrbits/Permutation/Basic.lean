import PlanOrbits.Diagnostic
import PlanOrbits.Permutation.Marks

/-!
# Permutations

A permutation of `{0, …, n - 1}` as the table of its images. The type carries the
proof that the table is one: its entries lie below its size and are distinct, so
that every point is hit (`Permutation.mem_images`).

A permutation is made from a table (`ofImages`), from disjoint cycles
(`Permutation.Cycles`), or from other permutations (`compose`, `inverse`).
-/

namespace PlanOrbits

/-! ## Errors -/

/-- Cycles written one behind the other: `(0 1)(2 3 4)`. -/
def cyclesText (cycles : List (List Nat)) : String :=
  String.join (cycles.map fun cycle => "(" ++ " ".intercalate (cycle.map toString) ++ ")")

/-- Why something describes no bijection. -/
inductive BijectionError where
  /-- A table sends a point out of its domain. -/
  | imageOutOfRange (point image size : Nat)
  /-- A table has one image twice. -/
  | repeatedImage (image : Nat)
  /-- A cycle has a point outside of the domain. -/
  | pointOutOfRange (point size : Nat) (cycles : List (List Nat))
  /-- A point occurs twice in the cycles. -/
  | repeatedPoint (point : Nat) (cycles : List (List Nat))
  deriving DecidableEq, Repr

/-- How a failed bijection is reported. -/
def BijectionError.diagnostic : BijectionError → Diagnostic
  | imageOutOfRange point image size =>
      Diagnostic.of .invalidBijection "out-of-range" "image outside the domain"
        [("point", toString point), ("image", toString image), ("domain_size", toString size)]
  | repeatedImage image =>
      Diagnostic.of .invalidBijection "not-injective" "image is hit more than once"
        [("image", toString image)]
  | pointOutOfRange point size cycles =>
      Diagnostic.of .invalidBijection "out-of-range" "cycle point outside the domain"
        [("point", toString point), ("domain_size", toString size),
          ("cycles", cyclesText cycles)]
  | repeatedPoint point cycles =>
      Diagnostic.of .invalidBijection "duplicate-point" "point repeats across cycles"
        [("point", toString point), ("cycles", cyclesText cycles)]

/-- Why permutations do not fit together. -/
inductive DomainError where
  /-- Two permutations of different domains were to be composed. -/
  | composition (left right : Nat)
  /-- A generator of a group acts on another domain than the group. -/
  | generator (index expected actual : Nat)
  deriving DecidableEq, Repr

/-- How a mismatch of domains is reported. -/
def DomainError.diagnostic : DomainError → Diagnostic
  | composition left right =>
      Diagnostic.of .domainMismatch "compose" "permutations act on different domains"
        [("left", toString left), ("right", toString right)]
  | generator index expected actual =>
      Diagnostic.of .domainMismatch "group-generator" "generator acts on a different domain"
        [("generator", toString index), ("expected", toString expected),
          ("actual", toString actual)]

/-! ## Permutations -/

/-- A permutation of the points below the size of its table. -/
structure Permutation where
  images : Array Nat
  bounded : ∀ v ∈ images, v < images.size
  nodup : images.toList.Nodup
  deriving DecidableEq

namespace Permutation

/-- The number of points. -/
def size (p : Permutation) : Nat := p.images.size

/-- The image of a point of the domain. -/
@[inline] def image? (p : Permutation) (point : Nat) : Option Nat := p.images[point]?

/-- The image of any number; what is no point is fixed. -/
@[inline] def image (p : Permutation) (point : Nat) : Nat := (p.image? point).getD point

theorem image?_eq_some {p : Permutation} {point : Nat} (h : point < p.size) :
    p.image? point = some (p.image point) := by
  simp [image, image?, Array.getElem?_eq_getElem (show point < p.images.size from h)]

theorem image_eq_getElem {p : Permutation} {point : Nat} (h : point < p.images.size) :
    p.image point = p.images[point] := by
  simp [image, image?, h]

/-- Every point is an image. -/
theorem mem_images {p : Permutation} {point : Nat} (h : point < p.size) :
    point ∈ p.images := by
  refine Classical.byContradiction fun hnot => ?_
  have hnot : point ∉ p.images.toList := by simpa using hnot
  have hsub : point :: p.images.toList ⊆ List.range p.size := by
    intro v hv
    rw [List.mem_range]
    cases hv with
    | head => exact h
    | tail _ hv => exact p.bounded v (Array.mem_toList_iff.1 hv)
  have := (List.nodup_cons.2 ⟨hnot, p.nodup⟩).length_le_of_subset hsub
  simp only [size, List.length_cons, Array.length_toList, List.length_range] at this
  omega

/-- Two points with one image are equal. -/
theorem eq_of_getElem_eq {p : Permutation} {i j : Nat} (hi : i < p.images.size)
    (hj : j < p.images.size) (h : p.images[i] = p.images[j]) : i = j := by
  have hne : ∀ (i j : Nat) (hi : i < p.images.size) (hj : j < p.images.size), i < j →
      p.images[i] ≠ p.images[j] := by
    simpa using List.pairwise_iff_getElem.1 p.nodup
  rcases Nat.lt_trichotomy i j with hlt | heq | hlt
  · exact absurd h (hne i j hi hj hlt)
  · exact heq
  · exact absurd h.symm (hne j i hj hi hlt)

/-! ## Tables -/

/-- The permutation that fixes every point below `n`. -/
def identity (n : Nat) : Permutation where
  images := Array.range n
  bounded := by simp
  nodup := by simpa using List.nodup_range

/-- The permutation with the given table. The first entry that is too large or
not new is reported. -/
def ofImages (images : Array Nat) : Except BijectionError Permutation :=
  match h : (Marks.empty images.size).addAll 0 images.toList with
  | .ok _ => .ok {
      images
      bounded := fun v hv => ((Marks.addAll_eq_ok h).1 v (by simpa using hv)).1
      nodup := (Marks.addAll_eq_ok h).2.1 }
  | .error offence =>
      .error <| match offence.fault with
        | .outOfRange => .imageOutOfRange offence.index offence.point images.size
        | .repeated => .repeatedImage offence.point

/-! ## The group operations -/

/-- The permutation that applies `q` first and then `p`. -/
def compose (p q : Permutation) : Except DomainError Permutation :=
  if h : p.size = q.size then .ok {
    images := q.images.map p.image
    bounded := by
      intro v hv
      obtain ⟨w, hw, rfl⟩ := Array.mem_map.1 hv
      have hlt : w < p.images.size := by
        have := q.bounded w hw
        simp only [size] at h
        omega
      have := p.bounded _ (Array.getElem_mem hlt)
      rw [image_eq_getElem hlt, Array.size_map]
      simp only [size] at h
      omega
    nodup := by
      rw [Array.toList_map, List.Nodup, List.pairwise_map]
      refine q.nodup.imp_of_mem fun {v w} hv hw hne heq => hne ?_
      have hv' : v < p.images.size := by
        have := q.bounded v (by simpa using hv)
        simp only [size] at h
        omega
      have hw' : w < p.images.size := by
        have := q.bounded w (by simpa using hw)
        simp only [size] at h
        omega
      rw [image_eq_getElem hv', image_eq_getElem hw'] at heq
      exact eq_of_getElem_eq hv' hw' heq }
  else .error (.composition p.size q.size)

/-- Is every point fixed? -/
def isIdentity (p : Permutation) : Bool := p.images.toList == List.range p.size

/-- The points that are not fixed, in ascending order. -/
def movedPoints (p : Permutation) : List Nat :=
  (List.range p.size).filter fun v => p.image v != v

end Permutation

end PlanOrbits
