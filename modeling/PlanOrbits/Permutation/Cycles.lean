import PlanOrbits.Permutation.Scatter

/-!
# Cycle notation and groups

A cycle `(a b c)` sends each of its points to the next one and the last to the
first. `Permutation.ofCycles` makes a permutation of disjoint cycles;
`Permutation.cycles` finds the cycles of a permutation, each from its least point
on, in the order of these points, without the fixed points.

A group of permutations is a list of generators. Nothing is computed from them; the list is
kept in its order. A group made by `Group.ofGenerators` has generators of its own domain, one
read from a document is taken as it stands.
-/

namespace PlanOrbits

/-! ## Cycles -/

/-- The assignments of a cycle: each point and the next one. -/
def rotation (cycle : List Nat) : List (Nat × Nat) :=
  cycle.zip (cycle.tail ++ cycle.head?.toList)

theorem length_rotated (cycle : List Nat) :
    (cycle.tail ++ cycle.head?.toList).length = cycle.length := by
  cases cycle <;> simp

@[simp] theorem map_fst_rotation (cycle : List Nat) : (rotation cycle).map Prod.fst = cycle :=
  List.map_fst_zip (Nat.le_of_eq (length_rotated cycle).symm)

theorem map_snd_rotation_perm (cycle : List Nat) : ((rotation cycle).map Prod.snd).Perm cycle := by
  rw [rotation, List.map_snd_zip (Nat.le_of_eq (length_rotated cycle))]
  cases cycle with
  | nil => simp
  | cons point rest => simp

/-- The assignments of cycles are made to their points, in the order of the cycles. -/
theorem map_fst_rotations (cycles : List (List Nat)) :
    (cycles.flatMap rotation).map Prod.fst = cycles.flatten := by
  rw [List.map_flatMap, List.flatMap_def, List.map_congr_left (fun c _ => map_fst_rotation c),
    List.map_id']

/-- Disjoint cycles permute their points. -/
theorem exchanges_rotations {n : Nat} {cycles : List (List Nat)}
    (hlt : ∀ v ∈ cycles.flatten, v < n) (hnodup : cycles.flatten.Nodup) :
    Exchanges n (cycles.flatMap rotation) := by
  refine ⟨fun a ha => hlt _ (map_fst_rotations cycles ▸ List.mem_map_of_mem ha),
    by rwa [map_fst_rotations], ?_⟩
  rw [map_fst_rotations, List.map_flatMap, List.flatMap_def]
  clear hlt hnodup
  induction cycles with
  | nil => simp
  | cons cycle rest ih => simpa using (map_snd_rotation_perm cycle).append ih

namespace Permutation

/-- The permutation of the points below `n` with the given cycles; other points
are fixed. The first point that is too large or not new is reported. -/
def ofCycles (n : Nat) (cycles : List (List Nat)) : Except BijectionError Permutation :=
  match h : (Marks.empty n).addAll 0 cycles.flatten with
  | .ok _ =>
      .ok (ofAssignments n (cycles.flatMap rotation)
        (exchanges_rotations (fun v hv => ((Marks.addAll_eq_ok h).1 v hv).1)
          (Marks.addAll_eq_ok h).2.1))
  | .error offence =>
      .error <| match offence.fault with
        | .outOfRange => .pointOutOfRange offence.point n cycles
        | .repeated => .repeatedPoint offence.point cycles

/-- Does `p` visit no point below `start`, from `point` on, before it comes to `start`? -/
def staysAbove (p : Permutation) (start : Nat) : (steps : Nat) → Nat → Bool
  | 0, _ => false
  | steps + 1, point =>
      if point = start then true
      else if point < start then false
      else p.staysAbove start steps (p.image point)

/-- The points from `point` on that `p` visits before it comes to `start`. -/
def pathTo (p : Permutation) (start : Nat) : (steps : Nat) → Nat → List Nat
  | 0, _ => []
  | steps + 1, point =>
      if point = start then [] else point :: p.pathTo start steps (p.image point)

/-- The cycle of which `start` is the least point, unless `start` is fixed. -/
def cycleFrom? (p : Permutation) (start : Nat) : Option (List Nat) :=
  let next := p.image start
  if next ≠ start ∧ p.staysAbove start p.size next then some (start :: p.pathTo start p.size next)
  else none

/-- The cycles of at least two points, each from its least point on. -/
def cycles (p : Permutation) : List (List Nat) := (List.range p.size).filterMap p.cycleFrom?

/-- The permutation in cycle notation; `()` if every point is fixed. -/
def text (p : Permutation) : String :=
  match p.cycles with
  | [] => "()"
  | cycles => cyclesText cycles

/-- The least positive number of repetitions that fix every point. -/
def order (p : Permutation) : Nat := p.cycles.foldl (fun n cycle => Nat.lcm n cycle.length) 1

/-! ## Documents -/

instance : ToJson Permutation := ⟨fun p => toJson p.images.toList⟩

instance : OfJson Permutation where
  ofJson? j := do
    let images ← (ofJson? j : Option (List Nat))
    (ofImages images.toArray).toOption

end Permutation

/-! ## Groups -/

/-- Generators of a group that acts on the points below `domainSize`. -/
structure Group where
  domainSize : Nat
  generators : List Permutation
  deriving DecidableEq

namespace Group

/-- The group with the given generators. The first one that acts on another
domain is reported. -/
def ofGenerators (domainSize : Nat) (generators : List Permutation) : Except DomainError Group :=
  match generators.zipIdx.find? fun (p, _) => p.size != domainSize with
  | some (p, index) => .error (.generator index domainSize p.size)
  | none => .ok { domainSize, generators }

/-- The group that consists of the identity. -/
def trivial (domainSize : Nat) : Group := { domainSize, generators := [] }

/-- The generators in cycle notation, separated by commas. -/
def text (g : Group) : String := ",".intercalate (g.generators.map Permutation.text)

instance : ToJson Group where
  toJson g :=
    Json.record [("domain_size", toJson g.domainSize), ("generators", toJson g.generators)]

instance : OfJson Group where
  ofJson? j := do
    let r ← Record.ofJson? ["domain_size", "generators"] j
    return {
      domainSize := ← r.required "domain_size"
      generators := ← r.required "generators" }

end Group

end PlanOrbits
