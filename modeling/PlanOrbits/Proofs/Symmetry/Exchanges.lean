import PlanOrbits.Proofs.Symmetry.Restriction

/-!
# Permutations that exchange heads in pairs

A permutation that sends heads to heads of the same role and undoes itself on them is
accepted as a symmetry, unless it moves no head at all. The symmetry is then the
restriction of the permutation to the heads and nothing else: its keys are the occurrences
at the moved heads, it does with them what the permutation does with the heads, and it
leaves every other occurrence where it is (`IsRestriction`).
-/

namespace PlanOrbits

open Std (ExtTreeMap)

namespace Permutation

variable {role : Role} {s : Permutation} {heads : ExtTreeMap Nat (Occurrence role)}
  {m : Relabelling role}

/-- `Closed` asks every head to go to a head of its role. It is enough to look at the heads that are
moved, since a fixed head goes to itself. -/
theorem closed_of_moved (h : ∀ v ∈ heads, s.image v ≠ v → s.image v ∈ heads) :
    s.Closed heads := by
  intro v hv
  by_cases hfix : s.image v = v
  · rwa [hfix]
  · exact h v hv hfix

/-- `Exchanges` asks the permutation to undo itself on every head. It is enough to look at points of
the domain, since all other numbers are fixed. -/
theorem exchanges_of_lt_size (h : ∀ v ∈ heads, v < s.size → s.image (s.image v) = v) :
    s.Exchanges heads := by
  intro v hv
  by_cases hlt : v < s.size
  · exact h v hv hlt
  · have hfix := s.image_of_size_le (Nat.le_of_not_lt hlt)
    rw [hfix, hfix]

/-- A permutation that exchanges heads in pairs goes up and back down, or down and back up, so it
satisfies the condition `Alternates` under which `ofAutomorphism?` accepts it. -/
theorem Exchanges.alternates (h : s.Exchanges heads) : s.Alternates heads := by
  intro v hv _
  rw [h v hv]

/-- Whichever point writes last for the occurrence at the image of a moved head, it writes an
occurrence, since heads go to heads. -/
theorem Closed.exists_lastWrite (h : s.Closed heads) {w : Nat} (hw : w ∈ heads)
    (hmoved : s.image w ≠ w) : ∃ o, s.lastWrite heads s.size w = some o := by
  have hlt := s.image_lt_size_iff.2 (lt_size_of_image_ne hmoved)
  rw [lastWrite, if_pos hlt]
  split
  · exact exists_getElem?_of_mem hw
  · exact exists_getElem?_of_mem (h _ (h w hw))

/-- The keys of the relabelling that `restrict?` writes are the occurrences at moved heads. An
occurrence is written when its head or the origin of its head has its turn. -/
theorem mem_restrict?_iff (hdistinct : Distinct heads) (h : s.restrict? heads = some m)
    {o : Occurrence role} : o ∈ m ↔ ∃ v, heads[v]? = some o ∧ s.image v ≠ v := by
  have hwritten := written_of_restrict? hdistinct h
  have hclosed := closed_of_restrict? h
  rw [ExtTreeMap.mem_iff_isSome_getElem?]
  constructor
  · intro hsome
    by_contra hnot
    push Not at hnot
    rw [hwritten.other o hnot] at hsome
    cases hsome
  · rintro ⟨v, hv, hmoved⟩
    -- the entry is written for the head that goes to `v`, and that one is moved, too
    obtain ⟨w, hw, rfl⟩ := hclosed.exists_image_eq (mem_of_getElem? hv)
    have hmoved' : s.image w ≠ w := fun heq => hmoved (by rw [heq, heq])
    obtain ⟨o', ho'⟩ := hclosed.exists_lastWrite hw hmoved'
    rw [hwritten.moved w hw hmoved' o hv, ho']
    rfl

end Permutation

open Permutation

namespace CausalSymmetry

variable {e : PlanEncoding} {s : Permutation} {c : CausalSymmetry}

/-- The symmetry is what the permutation does with the heads, and nothing else. -/
structure IsRestriction (c : CausalSymmetry) (s : Permutation) (e : PlanEncoding) : Prop
    extends c.Agrees s e where
  producer_mem : ∀ o, o ∈ c.producers ↔ ∃ v, e.producers[v]? = some o ∧ s.image v ≠ v
  consumer_mem : ∀ o, o ∈ c.consumers ↔ ∃ v, e.consumers[v]? = some o ∧ s.image v ≠ v
  producer_fixed : ∀ o, (∀ v, e.producers[v]? = some o → s.image v = v) → c.producer o = o
  consumer_fixed : ∀ o, (∀ v, e.consumers[v]? = some o → s.image v = v) → c.consumer o = o

/-- A relabelling leaves alone what is no key of it. -/
theorem image_of_not_mem {role : Role} {m : Relabelling role} {o : Occurrence role}
    (h : o ∉ m) : m.image o = o :=
  Relabelling.image_of_getElem?_none (ExtTreeMap.getElem?_eq_none h)

section

variable (hproducers : Distinct e.producers) (hconsumers : Distinct e.consumers)

include hproducers hconsumers

/-- What is accepted for a permutation that exchanges heads in pairs is its restriction to the
heads, by `agrees_iff_exchanges` and the description of the keys in `mem_restrict?_iff`. -/
theorem isRestriction_of_exchanges (h : ofAutomorphism? s e = some c)
    (hexchanges : s.Exchanges e.producers) (hexchanges' : s.Exchanges e.consumers) :
    c.IsRestriction s e := by
  obtain ⟨hm, hm', -⟩ := ofAutomorphism?_eq_some_iff.1 h
  have hmem := fun o => mem_restrict?_iff hproducers hm (o := o)
  have hmem' := fun o => mem_restrict?_iff hconsumers hm' (o := o)
  refine ⟨(agrees_iff_exchanges hproducers hconsumers h).2 ⟨hexchanges, hexchanges'⟩,
    hmem, hmem', fun o hfix => image_of_not_mem ?_, fun o hfix => image_of_not_mem ?_⟩
  · -- an occurrence whose heads are all fixed is no key, and so it stays
    rw [hmem]
    rintro ⟨v, hv, hmoved⟩
    exact hmoved (hfix v hv)
  · rw [hmem']
    rintro ⟨v, hv, hmoved⟩
    exact hmoved (hfix v hv)

/-- A permutation that sends moved heads to heads of their role and is its own inverse on
the heads of its domain restricts to a symmetry if it moves some head. If it moves none,
there is no symmetry. -/
theorem ofAutomorphism?_of_exchanges (s : Permutation) :
    ((∀ v ∈ e.producers, s.image v ≠ v → s.image v ∈ e.producers) →
      (∀ v ∈ e.consumers, s.image v ≠ v → s.image v ∈ e.consumers) →
      (∀ v, v ∈ e.producers ∨ v ∈ e.consumers → v < s.size → s.image (s.image v) = v) →
      (∃ v, (v ∈ e.producers ∨ v ∈ e.consumers) ∧ s.image v ≠ v) →
      ∃ c, ofAutomorphism? s e = some c ∧ c.IsRestriction s e) ∧
    ((∀ v, v ∈ e.producers ∨ v ∈ e.consumers → s.image v = v) →
      ofAutomorphism? s e = none) := by
  have hiff := exists_ofAutomorphism?_iff hproducers hconsumers (s := s)
  constructor
  · intro hclosed hclosed' htwice ⟨w, hw, hmoved⟩
    have hexchanges : s.Exchanges e.producers :=
      exchanges_of_lt_size fun v hv => htwice v (.inl hv)
    have hexchanges' : s.Exchanges e.consumers :=
      exchanges_of_lt_size fun v hv => htwice v (.inr hv)
    -- some head of one role or the other is moved, so the result is not empty
    have hnot : ¬((∀ v ∈ e.producers, s.image v = v) ∧ ∀ v ∈ e.consumers, s.image v = v) := by
      rintro ⟨hfix, hfix'⟩
      exact hmoved (hw.elim (hfix w) (hfix' w))
    obtain ⟨c, hc⟩ := hiff.2 ⟨⟨⟨closed_of_moved hclosed, hexchanges.alternates⟩,
      ⟨closed_of_moved hclosed', hexchanges'.alternates⟩⟩, hnot⟩
    exact ⟨c, hc, isRestriction_of_exchanges hproducers hconsumers hc hexchanges hexchanges'⟩
  · intro hfix
    rw [Option.eq_none_iff_forall_ne_some]
    intro c hc
    exact (hiff.1 ⟨c, hc⟩).2 ⟨fun v hv => hfix v (.inl hv), fun v hv => hfix v (.inr hv)⟩

end

/-! ### Two exchanges of places -/

/-- The first place is exchanged with the second, the third with the fourth. The heads 6
and 8 are exchanged, and so are 10 and 12. -/
def FourCycle.exchanges : Permutation where
  images := #[1, 0, 3, 2, 4, 5, 8, 9, 6, 7, 12, 13, 10, 11]
  bounded := by decide
  nodup := by decide

/-- The plan with four marked places: the permutation that makes two exchanges is a symmetry, and
the identity is none. -/
theorem ofAutomorphism?_of_exchanges_fourPlaces : ∃ e, FourCycle.plan.encode = .ok e ∧
    Distinct e.producers ∧ Distinct e.consumers ∧
    ((∀ v ∈ e.producers, FourCycle.exchanges.image v ≠ v →
        FourCycle.exchanges.image v ∈ e.producers) ∧
      (∀ v ∈ e.consumers, FourCycle.exchanges.image v ≠ v →
        FourCycle.exchanges.image v ∈ e.consumers) ∧
      (∀ v, v ∈ e.producers ∨ v ∈ e.consumers → v < FourCycle.exchanges.size →
        FourCycle.exchanges.image (FourCycle.exchanges.image v) = v) ∧
      (∃ v, (v ∈ e.producers ∨ v ∈ e.consumers) ∧ FourCycle.exchanges.image v ≠ v) ∧
      ∃ c, ofAutomorphism? FourCycle.exchanges e = some c ∧
        c.IsRestriction FourCycle.exchanges e) ∧
    (∀ v, v ∈ e.producers ∨ v ∈ e.consumers → (identity 14).image v = v) ∧
      ofAutomorphism? (identity 14) e = none := by
  obtain ⟨e, hencode, hkeys⟩ := exists_ok_of_any (show FourCycle.plan.encode.toOption.any (fun e =>
      e.producers.keys == [6, 8, 10, 12] && e.consumers.keys == []) = true by decide +kernel)
  rw [Bool.and_eq_true, beq_iff_eq, beq_iff_eq] at hkeys
  have henc := PartialPlan.encodes_of_encode FourCycle.validate_plan hencode
  have hproducers : Distinct e.producers := fun v w o hv hw =>
    henc.eq_of_occurrence? .producer (by decide) hv hw
  have hconsumers : Distinct e.consumers := fun v w o hv hw =>
    henc.eq_of_occurrence? .consumer (by decide) hv hw
  have hmem : ∀ v, v ∈ e.producers ↔ v ∈ [6, 8, 10, 12] := fun v => by
    rw [← ExtTreeMap.mem_keys, hkeys.1]
  have hmem' : ∀ v, v ∈ e.consumers ↔ v ∈ ([] : List Nat) := fun v => by
    rw [← ExtTreeMap.mem_keys, hkeys.2]
  have hclosed : ∀ v ∈ e.producers, FourCycle.exchanges.image v ≠ v →
      FourCycle.exchanges.image v ∈ e.producers := by
    simp only [hmem]
    decide
  have hclosed' : ∀ v ∈ e.consumers, FourCycle.exchanges.image v ≠ v →
      FourCycle.exchanges.image v ∈ e.consumers := by
    simp only [hmem']
    decide
  have htwice : ∀ v, v ∈ e.producers ∨ v ∈ e.consumers → v < FourCycle.exchanges.size →
      FourCycle.exchanges.image (FourCycle.exchanges.image v) = v := by
    simp only [hmem, hmem', List.not_mem_nil, or_false]
    decide
  have hmoved : ∃ v, (v ∈ e.producers ∨ v ∈ e.consumers) ∧ FourCycle.exchanges.image v ≠ v :=
    ⟨6, .inl ((hmem 6).2 (by decide)), by decide⟩
  have hfixed : ∀ v, v ∈ e.producers ∨ v ∈ e.consumers → (identity 14).image v = v := by
    simp only [hmem, hmem', List.not_mem_nil, or_false]
    decide
  exact ⟨e, hencode, hproducers, hconsumers,
    ⟨hclosed, hclosed', htwice, hmoved,
      (ofAutomorphism?_of_exchanges hproducers hconsumers FourCycle.exchanges).1
        hclosed hclosed' htwice hmoved⟩,
    hfixed, (ofAutomorphism?_of_exchanges hproducers hconsumers (identity 14)).2 hfixed⟩

end CausalSymmetry

end PlanOrbits
