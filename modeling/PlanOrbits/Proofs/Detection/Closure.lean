import PlanOrbits.Detection.Report
import PlanOrbits.Proofs.Symmetry.Exchanges
import PlanOrbits.Proofs.Symmetry.Structures

/-!
# Detected symmetries stay within the plan

Symmetries come from two sources: from generators, whatever an engine makes them up to
be, through the table of heads, and from pairs of like steps through their conditions. On
both ways a relabelling is filled by exchanges of two occurrences of the plan, so that it
never leads out of the plan (`Relabelling.Within`). Since it undoes itself, it then maps
the producers of the plan onto themselves, and the consumers likewise; a structure with
links of the plan only is relabelled to such a structure.
-/

namespace PlanOrbits

open Std (ExtTreeMap)

namespace Relabelling

variable {role : Role} {m : Relabelling role} {within : Set (Occurrence role)}

/-! ### Relabellings of a set of occurrences -/

/-- All images written in the relabelling belong to a set. -/
def Within (m : Relabelling role) (within : Set (Occurrence role)) : Prop :=
  ∀ o o' : Occurrence role, m[o]? = some o' → o' ∈ within

/-- The relabelling with which both sources start. It moves nothing. -/
theorem within_empty : (∅ : Relabelling role).Within within := by
  intro o o' h
  rw [ExtTreeMap.getElem?_empty] at h
  cases h

/-- The step lemma for both sources: an exchange of two members of the set adds two entries, each of
them leading to a member. -/
theorem Within.exchange (h : m.Within within) {a b : Occurrence role} (ha : a ∈ within)
    (hb : b ∈ within) : (m.exchange a b).Within within := by
  intro o o' ho
  rw [getElem?_exchange] at ho
  split at ho
  · cases ho
    exact ha
  · split at ho
    · cases ho
      exact hb
    · exact h o o' ho

/-- A member of the set has its image in the set. The image is either an entry, which `Within`
bounds, or the member itself. -/
theorem Within.mapsTo (h : m.Within within) : Set.MapsTo m.image within within := by
  intro o ho
  cases hget : m[o]? with
  | none => rwa [image_of_getElem?_none hget]
  | some o' =>
      rw [image_of_getElem? hget]
      exact h o o' hget

/-- A relabelling within a set that undoes itself is a bijection of the set. It is onto since every
member is the image of its own image. -/
theorem Within.bijOn (h : m.Within within) (hinv : isInvolution m = true) :
    Set.BijOn m.image within within := by
  have hback := isInvolution_iff.1 hinv
  exact Set.InvOn.bijOn ⟨fun o _ => hback o, fun o _ => hback o⟩ h.mapsTo h.mapsTo

/-- The relabelling that exchanges two lists place by place stays within any set that holds the
members of both. `schemaSwaps` uses it for the effects and for the conditions of two like steps. -/
theorem within_pairing {as bs : List (Occurrence role)} (has : ∀ a ∈ as, a ∈ within)
    (hbs : ∀ b ∈ bs, b ∈ within) : (pairing as bs).Within within := by
  refine List.foldlRecOn (motive := (Within · within)) (as.zip bs) _ within_empty
    fun m hm pair hmem => ?_
  obtain ⟨ha, hb⟩ := List.of_mem_zip hmem
  exact hm.exchange (has pair.1 ha) (hbs pair.2 hb)

end Relabelling

namespace Permutation

variable {role : Role} {s : Permutation} {heads : ExtTreeMap Nat (Occurrence role)}
  {m m' : Relabelling role} {within : Set (Occurrence role)}

/-- One moved point writes at most one exchange, and both of its occurrences are found in the table
of heads. -/
theorem within_restrictStep (hheads : ∀ (v : Nat) o, heads[v]? = some o → o ∈ within)
    (hm : m.Within within) {v : Nat} (h : s.restrictStep heads m v = some m') :
    m'.Within within := by
  rw [restrictStep] at h
  split at h
  · cases h
    exact hm
  · rename_i origin horigin
    obtain ⟨target, htarget, rfl⟩ := Option.map_eq_some_iff.1 h
    exact hm.exchange (hheads v origin horigin) (hheads _ target htarget)

/-- The restriction of a permutation to a table of heads stays within any set that holds the
occurrences at the heads, even if the heads are not exchanged in pairs. The induction is on the
moved points that are left, for every relabelling written so far. -/
theorem within_restrict? (hheads : ∀ (v : Nat) o, heads[v]? = some o → o ∈ within)
    (h : s.restrict? heads = some m) : m.Within within := by
  have hfold : ∀ (vs : List Nat) (m m' : Relabelling role), m.Within within →
      vs.foldlM (s.restrictStep heads) m = some m' → m'.Within within := by
    intro vs
    induction vs with
    | nil =>
        intro m m' hm h
        cases h
        exact hm
    | cons v vs ih =>
        intro m m' hm h
        rw [List.foldlM_cons, Option.bind_eq_bind, Option.bind_eq_some_iff] at h
        obtain ⟨next, hnext, h⟩ := h
        exact ih next m' (within_restrictStep hheads hm hnext) h
  exact hfold s.movedPoints ∅ m Relabelling.within_empty h

end Permutation

/-! ### Producers and consumers of a plan -/

namespace PartialPlan

variable (p : PartialPlan)

/-- All post-conditions of the operators. -/
def producers : Set Producer := {o | ∃ op ∈ p.operators, o ∈ op.producers}

/-- All pre-conditions of the operators. -/
def consumers : Set Consumer := {o | ∃ op ∈ p.operators, o ∈ op.consumers}

/-- All links of the structure go from a producer of the plan to a consumer of the plan. -/
def Holds (cs : CausalStructure) : Prop :=
  ∀ l, cs.contains l = true → l.producer ∈ p.producers ∧ l.consumer ∈ p.consumers

variable {p} {e : PlanEncoding}

/-- The tables of heads of an encoding hold producers and consumers of the plan. Every literal block
of the layout belongs to a step of the plan or to one of the two pseudo steps, and its head carries
that step with an effect or a condition of it. -/
theorem mem_of_heads (henc : p.Encodes e) :
    (∀ (v : Nat) o, e.producers[v]? = some o → o ∈ p.producers) ∧
      ∀ (v : Nat) o, e.consumers[v]? = some o → o ∈ p.consumers := by
  constructor
  · intro v o ho
    obtain ⟨i, l, hl, -, rfl⟩ := (henc.occurrence .producer v o).1 ho
    exact ⟨p.init, List.mem_append_left _ List.mem_cons_self,
      List.mem_map_of_mem (List.mem_of_getElem? hl)⟩
  · intro v o ho
    obtain ⟨i, l, hl, -, rfl⟩ := (henc.occurrence .consumer v o).1 ho
    exact ⟨p.goal, List.mem_append_right _ List.mem_cons_self,
      List.mem_map_of_mem (List.mem_of_getElem? hl)⟩

end PartialPlan

namespace CausalSymmetry

variable {p : PartialPlan} {e : PlanEncoding} {s : CausalSymmetry}

/-- Both maps stay within the plan. -/
structure Within (s : CausalSymmetry) (p : PartialPlan) : Prop where
  producers : s.producers.Within p.producers
  consumers : s.consumers.Within p.consumers

/-- The first source: what a generator becomes. The encoding enters through its tables of heads
only, by `mem_of_heads`. -/
theorem within_of_ofAutomorphism? (henc : p.Encodes e) {q : Permutation}
    (h : ofAutomorphism? q e = some s) : s.Within p := by
  obtain ⟨hproducers, hconsumers, -⟩ := ofAutomorphism?_eq_some_iff.1 h
  obtain ⟨hheads, hheads'⟩ := PartialPlan.mem_of_heads henc
  exact ⟨Permutation.within_restrict? hheads hproducers,
    Permutation.within_restrict? hheads' hconsumers⟩

/-- The second source: the exchange of two consecutive steps of one schema. -/
theorem within_of_mem_schemaSwaps (h : s ∈ p.schemaSwaps) : s.Within p := by
  simp only [PartialPlan.schemaSwaps, List.mem_flatMap, List.mem_filterMap] at h
  obtain ⟨schema, -, ⟨first, second⟩, hpair, hswap⟩ := h
  obtain ⟨hfirst, hsecond⟩ := List.of_mem_zip hpair
  -- both steps are operators of the plan, the second one since the list is zipped with its tail
  have hoperators : ∀ op ∈ p.stepsOf schema, op ∈ p.operators := fun op hop =>
    List.mem_append_left _ (List.mem_cons_of_mem _ (List.mem_of_mem_filter hop))
  have hfirst' := hoperators first hfirst
  have hsecond' := hoperators second (List.mem_of_mem_tail hsecond)
  obtain ⟨hproducers, hconsumers, -, -⟩ := ofMaps?_eq_some_iff.1 hswap
  constructor
  · rw [hproducers]
    exact Relabelling.within_pairing (fun o ho => ⟨first, hfirst', ho⟩)
      fun o ho => ⟨second, hsecond', ho⟩
  · rw [hconsumers]
    exact Relabelling.within_pairing (fun o ho => ⟨first, hfirst', ho⟩)
      fun o ho => ⟨second, hsecond', ho⟩

namespace Within

/-- The relabelling of the producers undoes itself, as the record says, so it is a bijection. -/
theorem bijOn_producer (h : s.Within p) : Set.BijOn s.producer p.producers p.producers :=
  h.producers.bijOn (Bool.and_eq_true_iff.1 s.involutive).1

/-- As `bijOn_producer`, for the consumers. -/
theorem bijOn_consumer (h : s.Within p) : Set.BijOn s.consumer p.consumers p.consumers :=
  h.consumers.bijOn (Bool.and_eq_true_iff.1 s.involutive).2

/-- A structure whose links lie in the plan is relabelled to such a structure. A link of the result
is the image of a link, whose two ends are mapped within the plan. -/
theorem holds_relabel (h : s.Within p) {cs : CausalStructure} (hcs : p.Holds cs) :
    p.Holds (s.relabel cs) := by
  intro l hl
  rw [contains_relabel] at hl
  obtain ⟨hproducer, hconsumer⟩ := hcs _ hl
  have hback := h.bijOn_producer.mapsTo hproducer
  have hback' := h.bijOn_consumer.mapsTo hconsumer
  rw [link, producer_producer] at hback
  rw [link, consumer_consumer] at hback'
  exact ⟨hback, hback'⟩

end Within

end CausalSymmetry

/-! ### What detection finds -/

namespace PlanEncoding

variable {e : PlanEncoding} {s : CausalSymmetry}

/-- One more generator adds its symmetry to the harvest or nothing. This is all that the closure
needs of the counting in `tryGenerator`. -/
theorem mem_tryGenerator {h : Harvest} {q : Permutation}
    (hs : s ∈ (e.tryGenerator h q).symmetries) :
    s ∈ h.symmetries ∨ CausalSymmetry.ofAutomorphism? q e = some s := by
  rw [tryGenerator] at hs
  split at hs
  · exact .inl hs
  · split at hs
    · exact .inl hs
    · split at hs
      · rename_i s' hs'
        rcases List.mem_append.1 hs with hs | hs
        · exact .inl hs
        · rw [List.mem_singleton.1 hs]
          exact .inr hs'
      · exact .inl hs

/-- Every harvested symmetry is what `ofAutomorphism?` made of one of the generators, by induction
from the end of the list with `mem_tryGenerator`. -/
theorem mem_harvest {a : Automorphisms} (hs : s ∈ (e.harvest a).symmetries) :
    ∃ q ∈ a.group.generators, CausalSymmetry.ofAutomorphism? q e = some s := by
  refine List.foldlRecOn (motive := fun h => s ∈ h.symmetries →
    ∃ q ∈ a.group.generators, CausalSymmetry.ofAutomorphism? q e = some s) _ e.tryGenerator
    (fun hs => by cases hs) (fun h ih q hq hs => ?_) hs
  rcases mem_tryGenerator hs with hs | hs
  · exact ih hs
  · exact ⟨q, hq, hs⟩

end PlanEncoding

namespace PartialPlan

variable {p : PartialPlan} {e : PlanEncoding} {a : Automorphisms} {engine : Engine}

/-- If the plan can be encoded and the engine answers, `detect` has no way left to fail, and its
value is `detection`. -/
theorem detect_eq_ok (hencode : p.encode = .ok e) (hengine : engine e.graph = .ok a)
    (options : DetectionOptions) :
    p.detect engine options = .ok (p.detection e a options) := by
  rw [detect, hencode]
  simp only [bind, Except.bind, hengine]
  rfl

/-- Every symmetry of a detection comes from one of the two sources, whichever the options ask for.
-/
theorem within_of_mem_detection (henc : p.Encodes e) {options : DetectionOptions}
    {s : CausalSymmetry} (hs : s ∈ (p.detection e a options).symmetries) : s.Within p := by
  rcases List.mem_append.1 hs with hs | hs
  · obtain ⟨q, -, hq⟩ := PlanEncoding.mem_harvest hs
    exact CausalSymmetry.within_of_ofAutomorphism? henc hq
  · cases hswaps : options.includeSchemaSwaps with
    | false =>
        rw [hswaps] at hs
        cases hs
    | true =>
        rw [hswaps] at hs
        exact CausalSymmetry.within_of_mem_schemaSwaps hs

/-- Whatever an engine answers for the graph of a validated plan, detection succeeds, and
each of its symmetries maps the producers of the plan onto themselves, one to one, and the
consumers likewise. It relabels every causal structure of the plan to a causal structure
of the plan with as many links. -/
theorem bijOn_of_detect (hvalid : p.validate = .ok ()) (hencode : p.encode = .ok e)
    (hengine : engine e.graph = .ok a) (options : DetectionOptions) :
    ∃ d, p.detect engine options = .ok d ∧ ∀ s ∈ d.symmetries,
      Set.BijOn s.producer p.producers p.producers ∧
      Set.BijOn s.consumer p.consumers p.consumers ∧
      ∀ cs, p.Holds cs → p.Holds (s.relabel cs) ∧ (s.relabel cs).size = cs.size := by
  refine ⟨_, detect_eq_ok hencode hengine options, fun s hs => ?_⟩
  have hwithin := within_of_mem_detection (encodes_of_encode hvalid hencode) hs
  exact ⟨hwithin.bijOn_producer, hwithin.bijOn_consumer, fun cs hcs =>
    ⟨hwithin.holds_relabel hcs, s.size_relabel cs⟩⟩

/-! ### Balls and an answer that does not fit -/

namespace TwoBalls

/-- The heads of the two free balls exchanged, without their arguments. This is no
automorphism, and it does not know the last vertices of the graph. -/
def freeHeads : Permutation where
  images := #[0, 1, 2, 3, 4, 5, 6, 7, 10, 9, 8]
  bounded := by decide
  nodup := by decide

/-- An engine with one answer, which describes no graph. -/
def oneAnswer : Engine := fun _ =>
  .ok { group := ⟨11, [freeHeads]⟩, orbits := [], groupOrder := 0, vertexCount := 0 }

/-- The first ball is free at the start, and the first step picks it up. -/
def firstPick : CausalStructure :=
  (CausalStructure.empty true).add
    ⟨⟨"init", literal "free" "?a"⟩, ⟨"1_pick", literal "free" "?x"⟩⟩

/-- The structure of the witness lies in the plan. -/
theorem holds_firstPick : plan.Holds firstPick := by
  intro l hl
  rw [firstPick, CausalStructure.contains_add, CausalStructure.contains_empty] at hl
  obtain rfl | hl := hl
  · exact ⟨⟨plan.init, by decide, by decide⟩, ⟨pick "1_pick" "?x", by decide, by decide⟩⟩
  · cases hl

end TwoBalls

/-- Both symmetries of the plan with two balls, the exchange of the heads and the exchange of the
steps, are found, and both keep the structure of the first pick within the plan. -/
theorem bijOn_of_detect_twoBalls : ∃ e d, TwoBalls.plan.validate = .ok () ∧
    TwoBalls.plan.encode = .ok e ∧
    TwoBalls.plan.detect TwoBalls.oneAnswer .standard = .ok d ∧
    d.symmetries.length = 2 ∧ ∀ s ∈ d.symmetries,
      Set.BijOn s.producer TwoBalls.plan.producers TwoBalls.plan.producers ∧
      Set.BijOn s.consumer TwoBalls.plan.consumers TwoBalls.plan.consumers ∧
      TwoBalls.plan.Holds TwoBalls.firstPick ∧
      TwoBalls.plan.Holds (s.relabel TwoBalls.firstPick) ∧
      (s.relabel TwoBalls.firstPick).size = TwoBalls.firstPick.size := by
  obtain ⟨e, hencode, -⟩ := exists_ok_of_any
    (show TwoBalls.plan.encode.toOption.any (fun _ => true) = true by decide +kernel)
  have hengine : TwoBalls.oneAnswer e.graph = .ok _ := rfl
  obtain ⟨d, hd, hs⟩ := bijOn_of_detect TwoBalls.validate_plan hencode hengine .standard
  obtain ⟨d', hd', hlength⟩ := exists_ok_of_any
    (show (TwoBalls.plan.detect TwoBalls.oneAnswer .standard).toOption.any
      (·.symmetries.length == 2) = true by decide +kernel)
  rw [hd, Except.ok.injEq] at hd'
  subst hd'
  refine ⟨e, d, TwoBalls.validate_plan, hencode, hd, beq_iff_eq.1 hlength, fun s hmem => ?_⟩
  obtain ⟨hproducer, hconsumer, hrelabel⟩ := hs s hmem
  obtain ⟨hholds, hsize⟩ := hrelabel _ TwoBalls.holds_firstPick
  exact ⟨hproducer, hconsumer, TwoBalls.holds_firstPick, hholds, hsize⟩

end PartialPlan

end PlanOrbits
