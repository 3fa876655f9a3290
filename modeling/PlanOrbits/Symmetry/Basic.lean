import PlanOrbits.Automorphism.Result
import PlanOrbits.Causal.Structure
import PlanOrbits.Encoding.Basic
import PlanOrbits.Plan.Basic
import Std.Data.ExtTreeMap

/-!
# Causal symmetries

A causal symmetry exchanges producers with producers and consumers with
consumers. It is given by two finite maps, one for each role; what is not in a map
is left where it is. Both maps must be *involutions*: applied twice, they give back
what they were applied to. The type carries the proof.

Two consecutive steps of one schema can be exchanged by exchanging their
post-conditions and their pre-conditions, each with the one at the same place. The
schemas are taken in the order of their names, the steps of a schema in plan
order.
-/

namespace PlanOrbits

open Std (ExtTreeMap TransOrd)

/-- Is the map its own inverse? An image that is no key must be its own origin. -/
def isInvolution {α : Type} [Ord α] [TransOrd α] [DecidableEq α] (m : ExtTreeMap α α) : Bool :=
  m.toList.all fun (key, image) =>
    match m[image]? with
    | some back => back == key
    | none => image == key

/-- A finite map on occurrences of one role. -/
abbrev Relabelling (role : Role) := ExtTreeMap (Occurrence role) (Occurrence role)

namespace Relabelling

variable {role : Role}

/-- The relabelling of a list of pairs; of two pairs with one origin the later
counts. -/
def ofPairs (pairs : List (Occurrence role × Occurrence role)) : Relabelling role :=
  pairs.foldl (fun m (key, image) => m.insert key image) ∅

/-- The relabelling with two occurrences exchanged. -/
def exchange (m : Relabelling role) (a b : Occurrence role) : Relabelling role :=
  (m.insert a b).insert b a

/-- The image of an occurrence. -/
def image (m : Relabelling role) (o : Occurrence role) : Occurrence role := m.getD o o

end Relabelling

/-- A pair of self-inverse relabellings. -/
structure CausalSymmetry where
  producers : Relabelling .producer
  consumers : Relabelling .consumer
  involutive : (isInvolution producers && isInvolution consumers) = true

namespace CausalSymmetry

/-- The symmetry with the given maps, if both are involutions. -/
def ofMaps? (producers : Relabelling .producer) (consumers : Relabelling .consumer) :
    Option CausalSymmetry :=
  if h : (isInvolution producers && isInvolution consumers) = true then
    some { producers, consumers, involutive := h }
  else none

/-- The image of a producer. -/
def producer (s : CausalSymmetry) (p : Producer) : Producer := s.producers.image p

/-- The image of a consumer. -/
def consumer (s : CausalSymmetry) (c : Consumer) : Consumer := s.consumers.image c

/-- The link between the images of a link's ends. -/
def link (s : CausalSymmetry) (l : CausalLink) : CausalLink :=
  { producer := s.producer l.producer, consumer := s.consumer l.consumer }

/-- The structure of the images of all links. -/
def relabel (s : CausalSymmetry) (cs : CausalStructure) : CausalStructure :=
  cs.links.toList.foldl (fun t l => t.add (s.link l)) (.empty cs.ground)

/-! ## Documents -/

instance : ToJson CausalSymmetry where
  toJson s :=
    Json.record [
      ("producers", toJson s.producers.toList),
      ("consumers", toJson s.consumers.toList)]

instance : OfJson CausalSymmetry where
  ofJson? j := do
    let r ← Record.ofJson? ["producers", "consumers"] j
    ofMaps? (.ofPairs (← r.required "producers")) (.ofPairs (← r.required "consumers"))

end CausalSymmetry

/-! ## Symmetries from like steps -/

/-- Exchange the members of two lists, place by place. -/
def Relabelling.pairing {role : Role} (as bs : List (Occurrence role)) : Relabelling role :=
  (as.zip bs).foldl (fun m (a, b) => m.exchange a b) ∅

/-- The symmetry that exchanges two operators, unless a repeated condition would
have to go to two places. -/
def Operator.swap? (first second : Operator) : Option CausalSymmetry :=
  CausalSymmetry.ofMaps? (.pairing first.producers second.producers)
    (.pairing first.consumers second.consumers)

/-- The steps of one schema in plan order. -/
def PartialPlan.stepsOf (p : PartialPlan) (schema : String) : List Operator :=
  p.steps.filter (·.schema == schema)

/-- The symmetries that exchange consecutive steps of one schema. -/
def PartialPlan.schemaSwaps (p : PartialPlan) : List CausalSymmetry :=
  (sortDistinct (p.steps.map (·.schema))).flatMap fun schema =>
    let steps := p.stepsOf schema
    (steps.zip steps.tail).filterMap fun (first, second) => first.swap? second

/-!
## Symmetries from automorphisms

An automorphism of the graph of a plan permutes the heads of literals. Where it
exchanges them in pairs, it is a symmetry of the plan's producers and consumers.
`ofAutomorphism?` goes through the moved points and asks for each whether it is the head of a
producer or else of a consumer; `harvest` tries all generators of a group.
-/

namespace CausalSymmetry

/-- Write down where a moved point goes, if it is a head: it is exchanged with the head to which
it goes. It is `none` if that is no head of the same role. -/
def exchangeHead (p : Permutation) (e : PlanEncoding) :
    Relabelling .producer × Relabelling .consumer → Nat →
      Option (Relabelling .producer × Relabelling .consumer)
  | (producers, consumers), v =>
      match e.producers[v]? with
      | some origin => do
          let target ← e.producers[p.image v]?
          return (producers.exchange origin target, consumers)
      | none =>
          match e.consumers[v]? with
          | some origin => do
              let target ← e.consumers[p.image v]?
              return (producers, consumers.exchange origin target)
          | none => return (producers, consumers)

/-- The symmetry that a permutation of the vertices is on the heads of literals.
It is `none` if no head is moved, if a head is moved to what is no head of its role, or if what
was written down is not its own inverse. The moved points are gone through once, for both roles;
a pass for each role gives the same, since no vertex is a head of both. -/
def ofAutomorphism? (p : Permutation) (e : PlanEncoding) : Option CausalSymmetry := do
  let (producers, consumers) ← p.movedPoints.foldlM (exchangeHead p e) (∅, ∅)
  if producers.isEmpty && consumers.isEmpty then none
  else ofMaps? producers consumers

end CausalSymmetry

/-- The symmetries found among generators. -/
structure Harvest where
  /-- The accepted symmetries, in the order of the generators. -/
  symmetries : List CausalSymmetry
  /-- The number of generators that move heads but are no symmetries. -/
  rejected : Nat
  /-- The number of generators that move vertices but no heads. -/
  inert : Nat

namespace PlanEncoding

/-- Does the vertex carry a producer or a consumer? -/
def isHead (e : PlanEncoding) (v : Nat) : Bool := e.producers.contains v || e.consumers.contains v

/-- Try one more generator. -/
def tryGenerator (e : PlanEncoding) (h : Harvest) (p : Permutation) : Harvest :=
  if p.isIdentity then h
  else if !p.movedPoints.any e.isHead then { h with inert := h.inert + 1 }
  else
    match CausalSymmetry.ofAutomorphism? p e with
    | some s => { h with symmetries := h.symmetries ++ [s] }
    | none => { h with rejected := h.rejected + 1 }

/-- Try all generators of a group. -/
def harvest (e : PlanEncoding) (a : Automorphisms) : Harvest :=
  a.group.generators.foldl e.tryGenerator { symmetries := [], rejected := 0, inert := 0 }

end PlanEncoding

end PlanOrbits
