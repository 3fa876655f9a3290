import PlanOrbits.Proofs.Json.RoundTrip
import PlanOrbits.Proofs.Tables
import PlanOrbits.Symmetry.Basic

/-!
# Relabellings that are their own inverses

`isInvolution` looks at the keys of a finite map only. Outside of the keys a
relabelling changes nothing, so that the check decides a property of the whole,
infinite type of occurrences: applied twice, the relabelling gives back what it was
applied to (`Relabelling.isInvolution_iff`). In particular an image that is no key
would have to be its own origin, which is a key; so images of keys are keys.

Every way to make a symmetry passes this check: from maps, from an automorphism,
from two like steps, and from a document, where of two pairs with one origin the
later counts (`Relabelling.getElem?_ofPairs`).
-/

namespace PlanOrbits

open Std (ExtTreeMap)

namespace Relabelling

variable {role : Role} {m : Relabelling role} {o o' : Occurrence role}

theorem image_of_getElem? (h : m[o]? = some o') : m.image o = o' := by
  rw [image, ExtTreeMap.getD_eq_getD_getElem?, h, Option.getD_some]

theorem image_of_getElem?_none (h : m[o]? = none) : m.image o = o := by
  rw [image, ExtTreeMap.getD_eq_getD_getElem?, h, Option.getD_none]

/-- Of two occurrences that are exchanged each is the image of the other; if they are one, the
second entry overwrites the first, which is the same. -/
theorem getElem?_exchange (m : Relabelling role) (a b o : Occurrence role) :
    (m.exchange a b)[o]? = if b = o then some a else if a = o then some b else m[o]? := by
  rw [exchange, ExtTreeMap.getElem?_insert, ExtTreeMap.getElem?_insert]
  simp only [Std.LawfulEqOrd.compare_eq_iff_eq]

/-- The check, entry by entry: the image of a key leads back, as an entry or because it is the key
itself and no entry. -/
theorem isInvolution_iff_getElem? : isInvolution m = true ↔
    ∀ o o' : Occurrence role, m[o]? = some o' → m[o']? = some o ∨ (m[o']? = none ∧ o' = o) := by
  simp only [isInvolution, List.all_eq_true, Prod.forall,
    ExtTreeMap.mem_toList_iff_getElem?_eq_some]
  refine forall_congr' fun o => forall_congr' fun o' => imp_congr_right fun _ => ?_
  cases m[o']? with
  | none => simp
  | some back => simp

/-- The check of the keys decides whether the relabelling undoes itself everywhere, on keys and on
all other occurrences. -/
theorem isInvolution_iff : isInvolution m = true ↔ ∀ o, m.image (m.image o) = o := by
  rw [isInvolution_iff_getElem?]
  constructor
  · intro h o
    cases ho : m[o]? with
    | none => rw [image_of_getElem?_none ho, image_of_getElem?_none ho]
    | some o' =>
        rw [image_of_getElem? ho]
        -- an image that is no key has to be its own origin
        rcases h o o' ho with hback | ⟨hnone, rfl⟩
        · exact image_of_getElem? hback
        · exact image_of_getElem?_none hnone
  · intro h o o' ho
    have hback := h o
    rw [image_of_getElem? ho] at hback
    cases ho' : m[o']? with
    | none => exact .inr ⟨rfl, by rwa [image_of_getElem?_none ho'] at hback⟩
    | some back => exact .inl (by rw [image_of_getElem? ho'] at hback; rw [hback])

/-- An involution sends keys to keys. -/
theorem image_mem (h : isInvolution m = true) (ho : o ∈ m) : m.image o ∈ m := by
  obtain ⟨o', ho'⟩ := Option.isSome_iff_exists.1 (ExtTreeMap.mem_iff_isSome_getElem?.1 ho)
  rw [image_of_getElem? ho', ExtTreeMap.mem_iff_isSome_getElem?]
  rcases isInvolution_iff_getElem?.1 h o o' ho' with hback | ⟨hnone, rfl⟩
  · rw [hback]
    rfl
  · rw [ho'] at hnone
    cases hnone

/-- Of the pairs with one origin the last one counts, as each insertion overwrites the one before.
-/
theorem getElem?_ofPairs (pairs : List (Occurrence role × Occurrence role))
    (o : Occurrence role) : (ofPairs pairs)[o]? = pairs.reverse.lookup o := by
  unfold ofPairs
  induction pairs using List.reverseRecOn with
  | nil => simp
  | append_singleton pairs pair ih =>
      rw [List.foldl_append, List.foldl_cons, List.foldl_nil, ExtTreeMap.getElem?_insert, ih,
        List.reverse_append, List.reverse_singleton, List.singleton_append, List.lookup_cons]
      by_cases h : o = pair.1
      · simp [h]
      · rw [beq_eq_false_iff_ne.2 h]
        simp [Ne.symm h]

/-- A map is the map of its entries. -/
theorem ofPairs_toList (m : Relabelling role) : ofPairs m.toList = m := foldl_insert_toList m

end Relabelling

namespace CausalSymmetry

/-! ### Symmetries from maps -/

/-- The symmetry undoes itself on all producers and consumers, and exchanges only keys
with keys. -/
structure SelfInverse (s : CausalSymmetry) : Prop where
  producer_producer : ∀ p, s.producer (s.producer p) = p
  consumer_consumer : ∀ c, s.consumer (s.consumer c) = c
  producer_mem : ∀ p ∈ s.producers, s.producer p ∈ s.producers
  consumer_mem : ∀ c ∈ s.consumers, s.consumer c ∈ s.consumers

/-- `ofMaps?` makes a symmetry of two maps exactly if both undo themselves, and the symmetry has
these maps. -/
theorem ofMaps?_eq_some_iff {producers : Relabelling .producer}
    {consumers : Relabelling .consumer} {s : CausalSymmetry} :
    ofMaps? producers consumers = some s ↔
      s.producers = producers ∧ s.consumers = consumers ∧
        (∀ p, producers.image (producers.image p) = p) ∧
          ∀ c, consumers.image (consumers.image c) = c := by
  rw [← Relabelling.isInvolution_iff, ← Relabelling.isInvolution_iff, ofMaps?]
  cases s with
  | mk producers' consumers' involutive =>
      split
      · rename_i h
        rw [Bool.and_eq_true] at h
        simp [h, eq_comm]
      · rename_i h
        rw [Bool.and_eq_true] at h
        simp [h]

theorem exists_ofMaps?_eq_some {producers : Relabelling .producer}
    {consumers : Relabelling .consumer}
    (hproducers : ∀ p, producers.image (producers.image p) = p)
    (hconsumers : ∀ c, consumers.image (consumers.image c) = c) :
    ∃ s : CausalSymmetry, s.producers = producers ∧ s.consumers = consumers ∧
      ofMaps? producers consumers = some s := by
  have hvalid : (isInvolution producers && isInvolution consumers) = true := by
    rw [Bool.and_eq_true, Relabelling.isInvolution_iff, Relabelling.isInvolution_iff]
    exact ⟨hproducers, hconsumers⟩
  exact ⟨⟨producers, consumers, hvalid⟩, rfl, rfl,
    ofMaps?_eq_some_iff.2 ⟨rfl, rfl, hproducers, hconsumers⟩⟩

/-- Everything that is made by `ofMaps?` undoes itself. The other ways to make a symmetry all end
with `ofMaps?`. -/
theorem selfInverse_of_ofMaps? {producers : Relabelling .producer}
    {consumers : Relabelling .consumer} {s : CausalSymmetry}
    (h : ofMaps? producers consumers = some s) : s.SelfInverse := by
  obtain ⟨rfl, rfl, hproducers, hconsumers⟩ := ofMaps?_eq_some_iff.1 h
  exact {
    producer_producer := hproducers
    consumer_consumer := hconsumers
    producer_mem := fun _ => Relabelling.image_mem (Relabelling.isInvolution_iff.2 hproducers)
    consumer_mem := fun _ => Relabelling.image_mem (Relabelling.isInvolution_iff.2 hconsumers) }

/-! ### Symmetries from automorphisms, from like steps, and from documents -/

theorem selfInverse_of_ofAutomorphism? {p : Permutation} {e : PlanEncoding} {s : CausalSymmetry}
    (h : ofAutomorphism? p e = some s) : s.SelfInverse := by
  simp only [ofAutomorphism?, Option.bind_eq_bind, Option.bind_eq_some_iff] at h
  obtain ⟨⟨producers, consumers⟩, -, h⟩ := h
  split at h
  · cases h
  · exact selfInverse_of_ofMaps? h

theorem selfInverse_of_mem_schemaSwaps {p : PartialPlan} {s : CausalSymmetry}
    (h : s ∈ p.schemaSwaps) : s.SelfInverse := by
  simp only [PartialPlan.schemaSwaps, List.mem_flatMap, List.mem_filterMap] at h
  obtain ⟨schema, -, ⟨first, second⟩, -, h⟩ := h
  exact selfInverse_of_ofMaps? h

/-- The lists of pairs in the document of a symmetry. -/
def pairsOfJson? (j : Json) :
    Option (List (Producer × Producer) × List (Consumer × Consumer)) := do
  let r ← Record.ofJson? ["producers", "consumers"] j
  return (← r.required "producers", ← r.required "consumers")

/-- The document of two lists of pairs. -/
def document (producers : List (Producer × Producer)) (consumers : List (Consumer × Consumer)) :
    Json :=
  Json.record [("producers", toJson producers), ("consumers", toJson consumers)]

/-- A symmetry is read from a document by collecting the pairs in maps. -/
theorem ofJson?_eq (j : Json) : (ofJson? j : Option CausalSymmetry) =
    (pairsOfJson? j).bind fun (producers, consumers) =>
      ofMaps? (.ofPairs producers) (.ofPairs consumers) := by
  simp only [pairsOfJson?, Option.bind_eq_bind, Option.pure_def, Option.bind_assoc,
    Option.bind_some]
  rfl

theorem pairsOfJson?_document (producers : List (Producer × Producer))
    (consumers : List (Consumer × Consumer)) :
    pairsOfJson? (document producers consumers) = some (producers, consumers) := by
  rw [pairsOfJson?, document, Record.ofJson?_record]
  · simp [Record.required, List.lookup_cons]
  · rfl
  · decide

theorem ofJson?_document (producers : List (Producer × Producer))
    (consumers : List (Consumer × Consumer)) :
    ofJson? (document producers consumers) =
      ofMaps? (.ofPairs producers) (.ofPairs consumers) := by
  rw [ofJson?_eq, pairsOfJson?_document]
  rfl

/-- However a symmetry is made, it undoes itself on all producers and consumers and
exchanges keys with keys. Conversely every pair of maps that undo themselves is a
symmetry, and so is every document of pairs that make such maps. -/
theorem selfInverse_of_constructed :
    (∀ producers consumers s, ofMaps? producers consumers = some s →
      s.producers = producers ∧ s.consumers = consumers ∧ s.SelfInverse) ∧
    (∀ p e s, ofAutomorphism? p e = some s → s.SelfInverse) ∧
    (∀ p : PartialPlan, ∀ s ∈ p.schemaSwaps, s.SelfInverse) ∧
    (∀ (j : Json) (s : CausalSymmetry), ofJson? j = some s →
      ∃ producers consumers, pairsOfJson? j = some (producers, consumers) ∧
        (∀ p, s.producers[p]? = producers.reverse.lookup p) ∧
        (∀ c, s.consumers[c]? = consumers.reverse.lookup c) ∧ s.SelfInverse) ∧
    (∀ (producers : Relabelling .producer) (consumers : Relabelling .consumer),
      (∀ p, producers.image (producers.image p) = p) →
      (∀ c, consumers.image (consumers.image c) = c) →
      ∃ s, s.producers = producers ∧ s.consumers = consumers ∧
        ofMaps? producers consumers = some s ∧
        ofJson? (document producers.toList consumers.toList) = some s) ∧
    (∀ (producers : List (Producer × Producer)) (consumers : List (Consumer × Consumer)),
      (∀ p, (Relabelling.ofPairs producers).image ((Relabelling.ofPairs producers).image p) = p) →
      (∀ c, (Relabelling.ofPairs consumers).image ((Relabelling.ofPairs consumers).image c) = c) →
      ∃ s : CausalSymmetry, s.producers = .ofPairs producers ∧ s.consumers = .ofPairs consumers ∧
        ofJson? (document producers consumers) = some s) := by
  refine ⟨?_, fun _ _ _ => selfInverse_of_ofAutomorphism?,
    fun _ _ => selfInverse_of_mem_schemaSwaps, ?_, ?_, ?_⟩
  · intro producers consumers s h
    obtain ⟨hproducers, hconsumers, -, -⟩ := ofMaps?_eq_some_iff.1 h
    exact ⟨hproducers, hconsumers, selfInverse_of_ofMaps? h⟩
  · -- the maps are made of the pairs of the document, of which the last ones count
    intro j s h
    rw [ofJson?_eq, Option.bind_eq_some_iff] at h
    obtain ⟨⟨producers, consumers⟩, hpairs, h⟩ := h
    obtain ⟨hproducers, hconsumers, -, -⟩ := ofMaps?_eq_some_iff.1 h
    refine ⟨producers, consumers, hpairs, fun p => ?_, fun c => ?_, selfInverse_of_ofMaps? h⟩
    · rw [hproducers, Relabelling.getElem?_ofPairs]
    · rw [hconsumers, Relabelling.getElem?_ofPairs]
  · intro producers consumers hproducers hconsumers
    obtain ⟨s, hs, hs', hmaps⟩ := exists_ofMaps?_eq_some hproducers hconsumers
    refine ⟨s, hs, hs', hmaps, ?_⟩
    rw [ofJson?_document, Relabelling.ofPairs_toList, Relabelling.ofPairs_toList, hmaps]
  · intro producers consumers hproducers hconsumers
    obtain ⟨s, hs, hs', hmaps⟩ := exists_ofMaps?_eq_some hproducers hconsumers
    exact ⟨s, hs, hs', by rw [ofJson?_document, hmaps]⟩

end CausalSymmetry

end PlanOrbits
