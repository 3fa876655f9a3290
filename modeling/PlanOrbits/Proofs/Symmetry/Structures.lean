import Mathlib.Data.List.Nodup
import PlanOrbits.Proofs.Symmetry.Involution

/-!
# Relabelled causal structures

`CausalSymmetry.relabel` adds the images of the links one by one to a structure without
links, where two links with one image would become one link. This does not happen: a
symmetry undoes itself on producers and consumers, whether they are keys of its maps or
not, so it undoes itself on links (`link_link`). A link is then in the relabelled
structure exactly if its image is in the structure (`contains_relabel`), and from this
all else about the relabelled structure follows.
-/

namespace PlanOrbits

open Std (ExtTreeSet)

namespace CausalStructure

variable {cs cs' : CausalStructure}

/-! ### The links of a structure -/

theorem mem_toList_links {l : CausalLink} : l ∈ cs.links.toList ↔ cs.contains l = true := by
  rw [contains, ExtTreeSet.mem_toList, ExtTreeSet.mem_iff_contains]

theorem contains_empty (ground : Bool) (l : CausalLink) : (empty ground).contains l = false :=
  ExtTreeSet.contains_empty

theorem contains_add {l l' : CausalLink} :
    (cs.add l).contains l' = true ↔ l' = l ∨ cs.contains l' = true := by
  rw [add, contains, ExtTreeSet.contains_insert, Bool.or_eq_true, beq_iff_eq,
    Std.LawfulEqOrd.compare_eq_iff_eq, contains, eq_comm]

/-- Structures of one kind with the same links are equal, as they are kept as ordered sets. -/
theorem eq_of_contains (hground : cs.ground = cs'.ground)
    (h : ∀ l, cs.contains l = cs'.contains l) : cs = cs' := by
  cases cs with
  | mk ground links =>
      cases cs' with
      | mk ground' links' =>
          have hlinks : links = links' := ExtTreeSet.ext_contains h
          rw [show ground = ground' from hground, hlinks]

theorem nodup_toList_links : cs.links.toList.Nodup := by
  refine ExtTreeSet.distinct_toList.imp fun {l l'} hne heq => hne ?_
  rw [heq]
  exact Std.ReflCmp.compare_self

/-- `producersOf` lists the producers that have a link to the consumer. -/
theorem mem_producersOf {p : Producer} {c : Consumer} :
    p ∈ cs.producersOf c ↔ cs.contains ⟨p, c⟩ = true := by
  rw [producersOf, ExtTreeSet.mem_ofList, List.contains_iff_mem, List.mem_map]
  simp only [List.mem_filter, mem_toList_links, beq_iff_eq]
  constructor
  · rintro ⟨l, ⟨hl, rfl⟩, rfl⟩
    exact hl
  · intro h
    exact ⟨_, ⟨h, rfl⟩, rfl⟩

/-- `consumersOf` lists the consumers that have a link from the producer. -/
theorem mem_consumersOf {p : Producer} {c : Consumer} :
    c ∈ cs.consumersOf p ↔ cs.contains ⟨p, c⟩ = true := by
  rw [consumersOf, ExtTreeSet.mem_ofList, List.contains_iff_mem, List.mem_map]
  simp only [List.mem_filter, mem_toList_links, beq_iff_eq]
  constructor
  · rintro ⟨l, ⟨hl, rfl⟩, rfl⟩
    exact hl
  · intro h
    exact ⟨_, ⟨h, rfl⟩, rfl⟩

end CausalStructure

namespace CausalSymmetry

variable (s : CausalSymmetry) (cs : CausalStructure)

/-! ### Images of links -/

/-- The record of a symmetry carries that its maps undo themselves, so this holds of every symmetry,
however it was made. -/
theorem selfInverse : s.SelfInverse := by
  have hmaps : ofMaps? s.producers s.consumers = some s := dif_pos s.involutive
  exact selfInverse_of_ofMaps? hmaps

@[simp] theorem producer_producer (p : Producer) : s.producer (s.producer p) = p :=
  s.selfInverse.producer_producer p

@[simp] theorem consumer_consumer (c : Consumer) : s.consumer (s.consumer c) = c :=
  s.selfInverse.consumer_consumer c

/-- Both ends of a link are mapped by functions that undo themselves. -/
@[simp] theorem link_link (l : CausalLink) : s.link (s.link l) = l := by
  rw [link, link, producer_producer, consumer_consumer]

theorem link_injective : Function.Injective s.link :=
  Function.LeftInverse.injective s.link_link

/-! ### Images of structures -/

/-- `relabel` adds the images of the links in a list; what is there afterwards was there before or
is one of the images. -/
theorem foldl_add (ls : List CausalLink) :
    (ls.foldl (fun t l => t.add (s.link l)) cs).ground = cs.ground ∧
      ∀ l, (ls.foldl (fun t l => t.add (s.link l)) cs).contains l = true ↔
        s.link l ∈ ls ∨ cs.contains l = true := by
  induction ls generalizing cs with
  | nil => simp
  | cons l' ls ih =>
      obtain ⟨hground, hcontains⟩ := ih (cs.add (s.link l'))
      refine ⟨hground, fun l => ?_⟩
      have heq : l = s.link l' ↔ s.link l = l' :=
        ⟨fun h => by rw [h, link_link], fun h => by rw [← h, link_link]⟩
      rw [List.foldl_cons, hcontains, CausalStructure.contains_add, heq, List.mem_cons]
      tauto

theorem ground_relabel : (s.relabel cs).ground = cs.ground :=
  (s.foldl_add (.empty cs.ground) cs.links.toList).1

/-- A link is in the relabelled structure if and only if its image is in the structure: it is the
image of a link, and this can only be its own image. -/
theorem contains_relabel (l : CausalLink) :
    (s.relabel cs).contains l = cs.contains (s.link l) := by
  have h := (s.foldl_add (.empty cs.ground) cs.links.toList).2 l
  rw [CausalStructure.mem_toList_links, CausalStructure.contains_empty] at h
  rw [Bool.eq_iff_iff, relabel, h]
  simp

/-- The relabelled structure has as many links. The lists of links are permutations of each other
under `link`, which merges no two. -/
theorem size_relabel : (s.relabel cs).size = cs.size := by
  have hperm : (s.relabel cs).links.toList.Perm (cs.links.toList.map s.link) := by
    rw [List.perm_ext_iff_of_nodup CausalStructure.nodup_toList_links
      (List.Nodup.map s.link_injective CausalStructure.nodup_toList_links)]
    intro l
    rw [CausalStructure.mem_toList_links, contains_relabel, List.mem_map]
    constructor
    · intro h
      exact ⟨s.link l, CausalStructure.mem_toList_links.2 h, s.link_link l⟩
    · -- a link of the structure is found again as the image of its image
      rintro ⟨l', hl', rfl⟩
      rw [link_link]
      exact CausalStructure.mem_toList_links.1 hl'
  rw [CausalStructure.size, ← ExtTreeSet.length_toList, hperm.length_eq, List.length_map,
    ExtTreeSet.length_toList, CausalStructure.size]

/-- Relabelling a structure twice gives it back; it changes neither the kind of its
operators nor the number of its links. A link is in the structure exactly if its image is
in the relabelled one, so that the producers of the image of a consumer are the images of
its producers, and the consumers of the image of a producer the images of its consumers. -/
theorem relabel_equivariant :
    s.relabel (s.relabel cs) = cs ∧ (s.relabel cs).ground = cs.ground ∧
      (s.relabel cs).size = cs.size ∧
      (∀ l, (s.relabel cs).contains (s.link l) = cs.contains l) ∧
      (∀ c p, p ∈ (s.relabel cs).producersOf (s.consumer c) ↔
        ∃ q ∈ cs.producersOf c, s.producer q = p) ∧
      ∀ p c, c ∈ (s.relabel cs).consumersOf (s.producer p) ↔
        ∃ d ∈ cs.consumersOf p, s.consumer d = c := by
  -- all comes from `contains_relabel`: a link is there if the one it is taken from was
  refine ⟨?_, s.ground_relabel cs, s.size_relabel cs, fun l => ?_, fun c p => ?_, fun p c => ?_⟩
  · refine CausalStructure.eq_of_contains ?_ fun l => ?_
    · rw [ground_relabel, ground_relabel]
    · rw [contains_relabel, contains_relabel, link_link]
  · rw [contains_relabel, link_link]
  · rw [CausalStructure.mem_producersOf, contains_relabel, link, consumer_consumer]
    simp only [CausalStructure.mem_producersOf]
    constructor
    · intro h
      exact ⟨_, h, s.producer_producer p⟩
    · rintro ⟨q, hq, rfl⟩
      rwa [producer_producer]
  · rw [CausalStructure.mem_consumersOf, contains_relabel, link, producer_producer]
    simp only [CausalStructure.mem_consumersOf]
    constructor
    · intro h
      exact ⟨_, h, s.consumer_consumer c⟩
    · rintro ⟨d, hd, rfl⟩
      rwa [consumer_consumer]

end CausalSymmetry

end PlanOrbits
