import PlanOrbits.Proofs.Plan.Validation
import PlanOrbits.Proofs.Symmetry.LikeSteps
import PlanOrbits.Proofs.Symmetry.Pairing

/-!
# Exchanges of like steps

In a validated plan steps have different names, so that no condition of one step is one of
another. Where no step repeats a condition, every two consecutive steps of one schema give a
symmetry that exchanges their conditions place by place and does nothing else
(`schemaSwaps_exchange`).

A step may repeat a condition. Then a pair is dropped only if the last place of some condition
is not the last one of the condition opposite of it. That is less than that conditions are
matched one to one: pairs that are neither matched nor dropped give symmetries which forget some
of the places (`keepsPlaces_iff`, `not_keepsPlaces_twoMixtures`).
-/

namespace PlanOrbits

section

variable {role : Role} {as bs : List (Occurrence role)}

/-- The members at each place of two lists are the images of each other. -/
def Relabelling.KeepsPlaces (m : Relabelling role) (as bs : List (Occurrence role)) : Prop :=
  ∀ (i : Nat) a b, as[i]? = some a → bs[i]? = some b → m.image a = b ∧ m.image b = a

/-- Two lists are exchanged place by place. There are no other keys, and what is no key stays
where it is. -/
structure Relabelling.Exchanges (m : Relabelling role) (as bs : List (Occurrence role)) :
    Prop where
  keepsPlaces : m.KeepsPlaces as bs
  mem_iff : ∀ o, o ∈ m ↔ ∃ (i : Nat) (a b : Occurrence role),
    as[i]? = some a ∧ bs[i]? = some b ∧ (o = a ∨ o = b)
  fixed : ∀ o, o ∉ m → m.image o = o

theorem mem_zip_iff {α β : Type} {as : List α} {bs : List β} {q : α × β} :
    q ∈ as.zip bs ↔ ∃ i : Nat, as[i]? = some q.1 ∧ bs[i]? = some q.2 := by
  rw [List.mem_iff_getElem?]
  simp only [List.getElem?_zip_eq_some]

/-- `pairing` keeps all places of two lists exactly if they are matched one to one. -/
theorem Relabelling.keepsPlaces_pairing_iff (hapart : Apart (as.zip bs)) :
    (pairing as bs).KeepsPlaces as bs ↔ IsOneToOne (as.zip bs) := by
  rw [← image_exchanges_iff_isOneToOne hapart, ← pairing_eq, KeepsPlaces]
  constructor
  · intro h q hq
    obtain ⟨i, ha, hb⟩ := mem_zip_iff.1 hq
    exact h i q.1 q.2 ha hb
  · intro h i a b ha hb
    exact h (a, b) (mem_zip_iff.2 ⟨i, ha, hb⟩)

/-- Lists that are matched are exchanged: the places are kept, the keys are the members of the
lists, and nothing else is moved. -/
theorem Relabelling.exchanges_pairing (hapart : Apart (as.zip bs))
    (hmatched : IsOneToOne (as.zip bs)) : (pairing as bs).Exchanges as bs where
  keepsPlaces := (keepsPlaces_pairing_iff hapart).2 hmatched
  mem_iff o := by
    rw [pairing_eq, mem_exchanges, List.mem_map, List.mem_map]
    constructor
    · rintro (⟨q, hq, rfl⟩ | ⟨q, hq, rfl⟩)
      · obtain ⟨i, ha, hb⟩ := mem_zip_iff.1 hq
        exact ⟨i, q.1, q.2, ha, hb, .inl rfl⟩
      · obtain ⟨i, ha, hb⟩ := mem_zip_iff.1 hq
        exact ⟨i, q.1, q.2, ha, hb, .inr rfl⟩
    · rintro ⟨i, a, b, ha, hb, rfl | rfl⟩
      · exact .inl ⟨(o, b), mem_zip_iff.2 ⟨i, ha, hb⟩, rfl⟩
      · exact .inr ⟨(a, o), mem_zip_iff.2 ⟨i, ha, hb⟩, rfl⟩
  fixed _ := image_exchanges_of_not_mem

/-- If something is found for every member of a list, `filterMap` leaves nothing out, and the
results stand in the order of the members. -/
theorem forall₂_filterMap {α β : Type} {r : α → β → Prop} {f : α → Option β} {xs : List α}
    (h : ∀ x ∈ xs, ∃ y, f x = some y ∧ r x y) : List.Forall₂ r xs (xs.filterMap f) := by
  induction xs with
  | nil => exact .nil
  | cons x xs ih =>
      rw [List.forall_mem_cons] at h
      obtain ⟨⟨y, hy, hxy⟩, hxs⟩ := h
      rw [List.filterMap_cons_some hy]
      exact .cons hxy (ih hxs)

/-- The occurrences of one operator are none of another, since an occurrence carries the name of its
operator. -/
theorem apart_zip {n n' : String} (has : ∀ a ∈ as, a.operator = n)
    (hbs : ∀ b ∈ bs, b.operator = n') (hne : n ≠ n') : Apart (as.zip bs) := by
  intro q hq r hr heq
  have hq := has q.1 (List.of_mem_zip hq).1
  have hr := hbs r.2 (List.of_mem_zip hr).2
  exact hne (hq.symm.trans ((congrArg Occurrence.operator heq).trans hr))

end

/-! ### Two operators -/

namespace Operator

variable {first second : Operator} {s : CausalSymmetry}

/-- Equal conditions of one operator stand opposite of equal conditions of the other, as far as
both have conditions. -/
structure Matches (first second : Operator) : Prop where
  producers : IsOneToOne (first.producers.zip second.producers)
  consumers : IsOneToOne (first.consumers.zip second.consumers)

/-- Each condition is repeated further down exactly if the one opposite of it is. -/
structure RepeatsLike (first second : Operator) : Prop where
  producers : RepeatsAlike (first.producers.zip second.producers)
  consumers : RepeatsAlike (first.consumers.zip second.consumers)

theorem Matches.repeatsLike (h : first.Matches second) : first.RepeatsLike second :=
  ⟨h.producers.repeatsAlike, h.consumers.repeatsAlike⟩

/-- Operators that repeat no condition are matched, whatever their conditions are. -/
theorem matches_of_nodup
    (hfirst : first.preconditions.Nodup ∧ first.postconditions.Nodup)
    (hsecond : second.preconditions.Nodup ∧ second.postconditions.Nodup) :
    first.Matches second := by
  have hinj : ∀ (role : Role) (op : Operator),
      Function.Injective (⟨op.name, ·⟩ : Literal → Occurrence role) := by
    intro role op l l' heq
    exact (Occurrence.mk.inj heq).2
  exact {
    producers := isOneToOne_zip (hfirst.2.map (hinj .producer first))
      (hsecond.2.map (hinj .producer second))
    consumers := isOneToOne_zip (hfirst.1.map (hinj .consumer first))
      (hsecond.1.map (hinj .consumer second)) }

theorem operator_of_mem_producers {o : Producer} (h : o ∈ first.producers) :
    o.operator = first.name := by
  obtain ⟨l, -, rfl⟩ := List.mem_map.1 h
  rfl

theorem operator_of_mem_consumers {o : Consumer} (h : o ∈ first.consumers) :
    o.operator = first.name := by
  obtain ⟨l, -, rfl⟩ := List.mem_map.1 h
  rfl

section

variable (hne : first.name ≠ second.name)

include hne

theorem apart_producers : Apart (first.producers.zip second.producers) :=
  apart_zip (fun _ => operator_of_mem_producers) (fun _ => operator_of_mem_producers) hne

theorem apart_consumers : Apart (first.consumers.zip second.consumers) :=
  apart_zip (fun _ => operator_of_mem_consumers) (fun _ => operator_of_mem_consumers) hne

/-- All that `swap?` says of two operators: the relabelling of a role pairs their occurrences, and
both relabellings undo themselves. -/
theorem swap?_eq_some_iff : first.swap? second = some s ↔
    s.producers = .pairing first.producers second.producers ∧
      s.consumers = .pairing first.consumers second.consumers ∧ first.RepeatsLike second := by
  have hlike : first.RepeatsLike second ↔
      isInvolution (Relabelling.pairing first.producers second.producers) = true ∧
        isInvolution (Relabelling.pairing first.consumers second.consumers) = true := by
    rw [Relabelling.pairing_eq, Relabelling.pairing_eq,
      Relabelling.isInvolution_exchanges_iff (apart_producers hne),
      Relabelling.isInvolution_exchanges_iff (apart_consumers hne)]
    exact ⟨fun h => ⟨h.producers, h.consumers⟩, fun h => ⟨h.1, h.2⟩⟩
  rw [swap?, CausalSymmetry.ofMaps?_eq_some_iff, hlike, Relabelling.isInvolution_iff,
    Relabelling.isInvolution_iff]

/-- Something is found for two operators of different names if and only if their last places agree,
by `isInvolution_exchanges_iff` for each role. -/
theorem exists_swap?_iff : (∃ s, first.swap? second = some s) ↔ first.RepeatsLike second := by
  constructor
  · rintro ⟨s, hs⟩
    exact ((swap?_eq_some_iff hne).1 hs).2.2
  · intro h
    rw [← Option.isSome_iff_exists, swap?, CausalSymmetry.ofMaps?, dif_pos, Option.isSome_some]
    rw [Bool.and_eq_true, Relabelling.pairing_eq, Relabelling.pairing_eq,
      Relabelling.isInvolution_exchanges_iff (apart_producers hne),
      Relabelling.isInvolution_exchanges_iff (apart_consumers hne)]
    exact ⟨h.producers, h.consumers⟩

end

end Operator

namespace CausalSymmetry

variable {s : CausalSymmetry} {first second : Operator}

/-- The conditions of two operators are exchanged place by place, and nothing else is. -/
structure Exchanges (s : CausalSymmetry) (first second : Operator) : Prop where
  producers : s.producers.Exchanges first.producers second.producers
  consumers : s.consumers.Exchanges first.consumers second.consumers

/-- At each place the conditions of two operators are the images of each other. -/
structure KeepsPlaces (s : CausalSymmetry) (first second : Operator) : Prop where
  producer : ∀ (i : Nat) a b, first.producers[i]? = some a →
    second.producers[i]? = some b → s.producer a = b ∧ s.producer b = a
  consumer : ∀ (i : Nat) a b, first.consumers[i]? = some a →
    second.consumers[i]? = some b → s.consumer a = b ∧ s.consumer b = a

section

variable (hne : first.name ≠ second.name) (h : first.swap? second = some s)

include hne h

/-- If the operators are matched, what is found exchanges their occurrences and nothing else. -/
theorem exchanges_of_matches (hmatches : first.Matches second) : s.Exchanges first second := by
  obtain ⟨hproducers, hconsumers, -⟩ := (Operator.swap?_eq_some_iff hne).1 h
  refine ⟨?_, ?_⟩
  · rw [hproducers]
    exact Relabelling.exchanges_pairing (Operator.apart_producers hne) hmatches.producers
  · rw [hconsumers]
    exact Relabelling.exchanges_pairing (Operator.apart_consumers hne) hmatches.consumers

/-- The symmetry found for two operators keeps all of their places if and only if they are matched.
-/
theorem keepsPlaces_iff_matches : s.KeepsPlaces first second ↔ first.Matches second := by
  obtain ⟨hproducers, hconsumers, -⟩ := (Operator.swap?_eq_some_iff hne).1 h
  have hpost := Relabelling.keepsPlaces_pairing_iff (Operator.apart_producers hne)
  have hpre := Relabelling.keepsPlaces_pairing_iff (Operator.apart_consumers hne)
  rw [← hproducers] at hpost
  rw [← hconsumers] at hpre
  exact ⟨fun hkeeps => ⟨hpost.1 hkeeps.producer, hpre.1 hkeeps.consumer⟩,
    fun hmatches => ⟨hpost.2 hmatches.producers, hpre.2 hmatches.consumers⟩⟩

end

end CausalSymmetry

/-! ### The steps of a plan -/

namespace PartialPlan

variable {p : PartialPlan} {a b : PlacedStep}

/-- Two consecutive steps of a validated plan have different names, as they stand at different
places. -/
theorem AreConsecutive.name_ne (h : p.AreConsecutive a b) (hvalid : p.validate = .ok ()) :
    a.1.name ≠ b.1.name := by
  have hnodup := (validate_eq_ok_iff.1 hvalid).names_nodup
  rw [operators, List.cons_append, List.map_cons, List.map_append] at hnodup
  have hsteps := ((List.nodup_append.1 (List.nodup_cons.1 hnodup).2)).1
  intro heq
  have ha : (p.steps.map (·.name))[a.2]? = some a.1.name := by
    rw [List.getElem?_map, h.first, Option.map_some]
  have hb : (p.steps.map (·.name))[b.2]? = some b.1.name := by
    rw [List.getElem?_map, h.second, Option.map_some]
  have hlt := (List.getElem?_eq_some_iff.1 ha).1
  have hplace : a.2 = b.2 := (List.getElem?_inj hlt hsteps).1 (by rw [ha, hb, heq])
  exact Nat.ne_of_lt h.lt hplace

/-- If no step repeats a condition, there is one symmetry for each two consecutive steps of one
schema, in the order of the schemas' names and within a schema in plan order. It exchanges the
conditions of the two steps place by place and leaves all others where they are. -/
theorem schemaSwaps_exchange (hvalid : p.validate = .ok ())
    (hnodup : ∀ op ∈ p.steps, op.preconditions.Nodup ∧ op.postconditions.Nodup) :
    ∃ pairs, p.ListsConsecutive pairs ∧
      pairs.length = ∑ schema ∈ (p.steps.map (·.schema)).toFinset,
        ((p.stepsOf schema).length - 1) ∧
      List.Forall₂ (fun pair s => s.Exchanges pair.1.1 pair.2.1) pairs p.schemaSwaps := by
  refine ⟨p.consecutive, p.listsConsecutive_consecutive, p.length_consecutive, ?_⟩
  -- no pair is dropped
  have hall : ∀ pair ∈ p.consecutive, ∃ s, pair.1.1.swap? pair.2.1 = some s ∧
      s.Exchanges pair.1.1 pair.2.1 := by
    intro pair hpair
    have hpair := (p.listsConsecutive_consecutive.mem_iff pair.1 pair.2).1 hpair
    have hne := hpair.name_ne hvalid
    have hmatches := Operator.matches_of_nodup
      (hnodup _ (List.mem_of_getElem? hpair.first)) (hnodup _ (List.mem_of_getElem? hpair.second))
    obtain ⟨s, hs⟩ := (Operator.exists_swap?_iff hne).2 hmatches.repeatsLike
    exact ⟨s, hs, CausalSymmetry.exchanges_of_matches hne hs hmatches⟩
  rw [schemaSwaps_eq]
  exact forall₂_filterMap hall

/-! ### Three steps of one schema -/

namespace ThreePicks

def item : TypeName := .ofSpelling "item"

/-- An item is at a place or held. -/
def literal (predicate : String) (holds : Bool) : Literal := ⟨⟨predicate, [⟨"?x", item⟩]⟩, holds⟩

def pick (name : String) : Operator where
  name
  vars := [⟨"?x", item⟩]
  preconditions := [literal "there" true, literal "held" false]
  postconditions := [literal "there" false, literal "held" true]

def drop (name : String) : Operator where
  name
  vars := [⟨"?x", item⟩]
  preconditions := [literal "held" true]
  postconditions := [literal "held" false]

/-- Three times something is picked, and dropped once in between. -/
def plan : PartialPlan where
  domain := ⟨"items", [item], [⟨"there", [item]⟩, ⟨"held", [item]⟩], []⟩
  problem := ⟨"three-picks", []⟩
  init := ⟨"init", [], [], []⟩
  goal := ⟨"goal", [], [], []⟩
  steps := [pick "1_pick", drop "2_drop", pick "3_pick", pick "4_pick"]
  substitution := .ofBindings []

end ThreePicks

/-- Three steps of one schema with a step of another between them: the first pick is exchanged with
the second, the second with the third. -/
theorem schemaSwaps_exchange_threePicks : ThreePicks.plan.validate = .ok () ∧
    (∀ op ∈ ThreePicks.plan.steps, op.preconditions.Nodup ∧ op.postconditions.Nodup) ∧
      ThreePicks.plan.schemaSwaps.length = 2 ∧
        ∃ pairs, ThreePicks.plan.ListsConsecutive pairs ∧
          List.Forall₂ (fun pair s => s.Exchanges pair.1.1 pair.2.1) pairs
            ThreePicks.plan.schemaSwaps := by
  have hvalid : ThreePicks.plan.validate = .ok () := by decide +kernel
  have hnodup : ∀ op ∈ ThreePicks.plan.steps,
      op.preconditions.Nodup ∧ op.postconditions.Nodup := by decide +kernel
  have hlength : ThreePicks.plan.schemaSwaps.length = 2 := by decide +kernel
  obtain ⟨pairs, hpairs, -, hall⟩ := schemaSwaps_exchange hvalid hnodup
  exact ⟨hvalid, hnodup, hlength, pairs, hpairs, hall⟩

/-! ### Steps that repeat conditions -/

/-- Two consecutive steps of one schema whose conditions are matched give a symmetry. For any
two, what is found keeps all places, and nothing is found for steps that are not matched,
exactly if the steps are matched or if the last place of some condition is not the last one of
the condition opposite of it. -/
theorem keepsPlaces_iff (hvalid : p.validate = .ok ()) :
    ∃ pairs, p.ListsConsecutive pairs ∧
      p.schemaSwaps = pairs.filterMap (fun pair => pair.1.1.swap? pair.2.1) ∧
      ∀ a b, p.AreConsecutive a b →
        (a.1.Matches b.1 → ∃ s, a.1.swap? b.1 = some s) ∧
        ((∀ s, a.1.swap? b.1 = some s → s.KeepsPlaces a.1 b.1) ∧
            (¬a.1.Matches b.1 → a.1.swap? b.1 = none) ↔
          a.1.Matches b.1 ∨ ¬a.1.RepeatsLike b.1) := by
  refine ⟨p.consecutive, p.listsConsecutive_consecutive, p.schemaSwaps_eq, fun a b hab => ?_⟩
  have hne := hab.name_ne hvalid
  refine ⟨fun h => (Operator.exists_swap?_iff hne).2 h.repeatsLike, ?_⟩
  constructor
  · rintro ⟨-, hdropped⟩
    -- if they are not matched, nothing may be found, so their last places must differ
    by_cases hmatches : a.1.Matches b.1
    · exact .inl hmatches
    · refine .inr fun hlike => ?_
      obtain ⟨s, hs⟩ := (Operator.exists_swap?_iff hne).2 hlike
      rw [hdropped hmatches] at hs
      cases hs
  · intro h
    constructor
    · intro s hs
      rw [CausalSymmetry.keepsPlaces_iff_matches hne hs]
      exact h.resolve_right fun hnot => hnot ((Operator.exists_swap?_iff hne).1 ⟨s, hs⟩)
    · intro hnot
      rw [Option.eq_none_iff_forall_ne_some]
      intro s hs
      exact h.resolve_left hnot ((Operator.exists_swap?_iff hne).1 ⟨s, hs⟩)

namespace TwoMixtures

/-- A state without arguments. -/
def state (predicate : String) : Literal := ⟨⟨predicate, []⟩, true⟩

def first : Operator := ⟨"1_mix", [], [], [state "red", state "red", state "blue"]⟩

def second : Operator := ⟨"2_mix", [], [], [state "dry", state "wet", state "dry"]⟩

/-- Both steps repeat an effect, but not at the same places. -/
def plan : PartialPlan where
  domain := ⟨"mixtures", [], ["red", "blue", "dry", "wet"].map (⟨·, []⟩), []⟩
  problem := ⟨"two-mixtures", []⟩
  init := ⟨"init", [], [], []⟩
  goal := ⟨"goal", [], [], []⟩
  steps := [first, second]
  substitution := .ofBindings []

theorem validate_plan : plan.validate = .ok () := by decide +kernel

theorem areConsecutive : plan.AreConsecutive (first, 0) (second, 1) where
  first := rfl
  second := rfl
  schema := by decide +kernel
  lt := by decide
  none_between := by
    intro i op _ hlt hlt'
    omega

end TwoMixtures

theorem keepsPlaces_iff_twoMixtures : TwoMixtures.plan.validate = .ok () ∧
    TwoMixtures.plan.AreConsecutive (TwoMixtures.first, 0) (TwoMixtures.second, 1) ∧
      ((∀ s, TwoMixtures.first.swap? TwoMixtures.second = some s →
            s.KeepsPlaces TwoMixtures.first TwoMixtures.second) ∧
          (¬TwoMixtures.first.Matches TwoMixtures.second →
            TwoMixtures.first.swap? TwoMixtures.second = none) ↔
        TwoMixtures.first.Matches TwoMixtures.second ∨
          ¬TwoMixtures.first.RepeatsLike TwoMixtures.second) := by
  obtain ⟨-, -, -, hiff⟩ := keepsPlaces_iff TwoMixtures.validate_plan
  exact ⟨TwoMixtures.validate_plan, TwoMixtures.areConsecutive,
    (hiff _ _ TwoMixtures.areConsecutive).2⟩

/-- The steps are not matched, since red stands opposite of both dry and wet. A symmetry is
found for them nevertheless. It exchanges red with wet and blue with dry, so that the first
effects of the two steps are not the images of each other. -/
theorem not_keepsPlaces_twoMixtures : TwoMixtures.plan.validate = .ok () ∧
    TwoMixtures.plan.AreConsecutive (TwoMixtures.first, 0) (TwoMixtures.second, 1) ∧
      ¬TwoMixtures.first.Matches TwoMixtures.second ∧
        ∃ s, TwoMixtures.first.swap? TwoMixtures.second = some s ∧
          s ∈ TwoMixtures.plan.schemaSwaps ∧
            ¬s.KeepsPlaces TwoMixtures.first TwoMixtures.second := by
  have hmatches : ¬TwoMixtures.first.Matches TwoMixtures.second := by
    intro h
    exact absurd h.producers (by decide +kernel)
  have hlike : TwoMixtures.first.RepeatsLike TwoMixtures.second :=
    ⟨by decide +kernel, by decide +kernel⟩
  have hne := TwoMixtures.areConsecutive.name_ne TwoMixtures.validate_plan
  obtain ⟨s, hs⟩ := (Operator.exists_swap?_iff hne).2 hlike
  have hpair := ((listsConsecutive_consecutive _).mem_iff _ _).2 TwoMixtures.areConsecutive
  have hmem : s ∈ TwoMixtures.plan.schemaSwaps := by
    rw [schemaSwaps_eq]
    exact List.mem_filterMap.2 ⟨_, hpair, hs⟩
  exact ⟨TwoMixtures.validate_plan, TwoMixtures.areConsecutive, hmatches, s, hs, hmem,
    fun hkeeps => hmatches ((CausalSymmetry.keepsPlaces_iff_matches hne hs).1 hkeeps)⟩

end PartialPlan

end PlanOrbits
