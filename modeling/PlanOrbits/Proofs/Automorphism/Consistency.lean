import PlanOrbits.Automorphism.Result
import PlanOrbits.Proofs.Checked
import PlanOrbits.Proofs.Permutation.Group
import PlanOrbits.Proofs.Permutation.Threading

/-!
# Automorphisms are consistent

What a transcript says of a graph goes through three checks: the cycles of every generator, the
points that the generators act on, and the orbits. Together they accept exactly the transcripts
whose generators are made of disjoint cycles and whose orbits are a partition of the vertices. The
second check never fails, since permutations made of cycles act on as many points as was asked for,
and so there are only errors of two kinds (`outcome`).

The orbits are marked one after the other, which comes to the same as to mark their vertices in
one go (`markOrbits_eq_ok_iff`).
-/

namespace PlanOrbits

/-- Orbits that are not empty and hold every vertex once, and nothing else. -/
structure IsPartition (n : Nat) (orbits : List (List Nat)) : Prop where
  nonempty : ∀ orbit ∈ orbits, orbit ≠ []
  perm : orbits.flatten.Perm (List.range n)

/-- A list is a permutation of the vertices below `n` exactly if its members are distinct, below
`n`, and all there. `Marks` decides the first two parts and `missing?` the third. -/
theorem perm_range_iff {n : Nat} {points : List Nat} :
    points.Perm (List.range n) ↔ DistinctBelow n points ∧ ∀ v < n, v ∈ points := by
  constructor
  · intro h
    refine ⟨⟨fun v hv => List.mem_range.1 (h.mem_iff.1 hv), h.nodup_iff.2 List.nodup_range⟩,
      fun v hv => h.mem_iff.2 (List.mem_range.2 hv)⟩
  · rintro ⟨⟨hlt, hnodup⟩, hall⟩
    exact (List.perm_ext_iff_of_nodup hnodup List.nodup_range).2 fun v =>
      ⟨fun hv => List.mem_range.2 (hlt v hv), fun hv => hall v (List.mem_range.1 hv)⟩

namespace Marks

variable {n : Nat} {m m' : Marks n} {points : List Nat}

/-- `Marks.addAll` counts the points only to name the place of a wrong one, so the count it starts
from does not matter for a success. -/
theorem addAll_eq_ok_congr (i j : Nat) :
    m.addAll i points = .ok m' ↔ m.addAll j points = .ok m' := by
  induction points generalizing m i j with
  | nil => rfl
  | cons v points ih =>
      rw [addAll, addAll]
      cases m.add v with
      | ok m => exact ih (i + 1) (j + 1)
      | error fault => simp

/-- `Marks.missing?` looks for the first vertex without a mark; it finds none exactly if all are
marked. -/
theorem missing?_eq_none_iff : m.missing? = none ↔ ∀ v < n, m.has v = true := by
  rw [missing?, Option.map_eq_none_iff, Vector.findFinIdx?_eq_none_iff]
  constructor
  · intro h v hv
    rw [has, dif_pos hv]
    simpa using h _ (Vector.getElem_mem hv)
  · intro h marked hmarked
    obtain ⟨v, hv, rfl⟩ := Vector.getElem_of_mem hmarked
    have hhas := h v hv
    rw [has, dif_pos hv] at hhas
    simp [hhas]

end Marks

namespace Automorphisms

variable {n : Nat} {m m' : Marks n} {orbits : List (List Nat)} {group : Group} {order : UInt64}
  {a : Automorphisms} {t : Transcript} {e : Error}

/-! ### Orbits -/

/-- To mark orbit after orbit, `markOrbits`, succeeds with the same marks as to mark all their
vertices in one go, if no orbit is empty. This reduces the check of the orbits to what is known of
`Marks.addAll`. -/
theorem markOrbits_eq_ok_iff (i j : Nat) : markOrbits m i orbits = .ok m' ↔
    (∀ orbit ∈ orbits, orbit ≠ []) ∧ m.addAll j orbits.flatten = .ok m' := by
  induction orbits generalizing m i j with
  | nil => simp [markOrbits, Marks.addAll]
  | cons orbit orbits ih =>
      rw [markOrbits, List.forall_mem_cons, List.flatten_cons, Marks.addAll_append]
      by_cases hempty : orbit = []
      · rw [if_pos (List.isEmpty_iff.2 hempty)]
        exact iff_of_false (by simp) fun h => h.1.1 hempty
      · rw [if_neg (mt List.isEmpty_iff.1 hempty), and_iff_right hempty]
        -- each orbit is counted from zero, the flattened list from `j` on: only errors show the
        -- difference
        cases hadd : m.addAll 0 orbit with
        | ok m₁ =>
            rw [(Marks.addAll_eq_ok_congr 0 j).1 hadd]
            exact ih (i + 1) (j + orbit.length)
        | error o =>
            refine iff_of_false (by simp) fun h => ?_
            cases hadd' : m.addAll j orbit with
            | ok m₁ => cases hadd.symm.trans ((Marks.addAll_eq_ok_congr j 0).1 hadd')
            | error o' =>
                rw [hadd'] at h
                cases h.2

/-- `checkOrbits` accepts exactly the partitions of the vertices: every orbit is nonempty, no vertex
is named twice, and none is left out. -/
theorem checkOrbits_eq_ok_iff : checkOrbits n orbits = .ok () ↔ IsPartition n orbits := by
  have hcover {m : Marks n} (hm : (Marks.empty n).addAll 0 orbits.flatten = .ok m) :
      m.missing? = none ↔ ∀ v < n, v ∈ orbits.flatten := by
    rw [Marks.missing?_eq_none_iff]
    refine forall₂_congr fun v _ => ?_
    rw [(Marks.addAll_eq_ok hm).2.2, Marks.has_empty, Bool.false_or, List.contains_iff_mem]
  -- the check is two steps: marking the vertices, and looking for one without a mark
  simp only [checkOrbits, bind_eq_ok_iff, markOrbits_eq_ok_iff 0 0]
  constructor
  · rintro ⟨m, ⟨hnonempty, hm⟩, hmissing⟩
    refine ⟨hnonempty, perm_range_iff.2 ⟨Marks.exists_addAll_empty_iff.1 ⟨m, hm⟩, ?_⟩⟩
    refine (hcover hm).1 (Option.eq_none_iff_forall_ne_some.2 fun v hv => ?_)
    rw [hv] at hmissing
    cases hmissing
  · intro h
    obtain ⟨hdistinct, hall⟩ := perm_range_iff.1 h.perm
    obtain ⟨m, hm⟩ := (@Marks.exists_addAll_empty_iff n 0 _).2 hdistinct
    exact ⟨m, ⟨h.nonempty, hm⟩, by rw [(hcover hm).2 hall]; rfl⟩

/-- The errors of `markOrbits` are about orbits: none of them is `generatorDomain`, which says that
a generator acts on another number of points. -/
theorem markOrbits_ne_generatorDomain (i k l : Nat) :
    markOrbits m i orbits ≠ .error (.generatorDomain k l) := by
  induction orbits generalizing m i with
  | nil => exact nofun
  | cons orbit orbits ih =>
      rw [markOrbits]
      split
      · exact nofun
      · split
        · exact ih _
        · rename_i o _
          cases o.fault <;> exact nofun

/-- `checkOrbits` reports no bad generator either: it adds one more error about orbits. -/
theorem checkOrbits_ne_generatorDomain (k l : Nat) :
    checkOrbits n orbits ≠ .error (.generatorDomain k l) := by
  intro h
  rcases bind_eq_error_iff.1 h with h | ⟨m, -, h⟩
  · exact markOrbits_ne_generatorDomain 0 k l h
  · split at h <;> cases h

/-! ### Parts -/

/-- The check of `Group.ofGenerators` passes if every generator acts on the points of the group. -/
theorem ofGenerators_eq_ok {generators : List Permutation} (h : ∀ p ∈ generators, p.size = n) :
    Group.ofGenerators n generators = .ok ⟨n, generators⟩ := by
  unfold Group.ofGenerators
  split
  · rename_i p i hfind
    have hp := List.fst_mem_of_mem_zipIdx (List.mem_of_find?_eq_some hfind)
    have hne := List.find?_some hfind
    simp [h p hp] at hne
  · rfl

/-- If the group acts on the vertices, `ofParts` is the check of the orbits and nothing else. -/
theorem ofParts_eq (h : group.domainSize = n) : ofParts group orbits order n =
    (checkOrbits n orbits).map fun _ => ⟨group, orbits, order, n⟩ := by
  rw [ofParts, if_neg (not_not.2 h)]
  cases checkOrbits n orbits <;> rfl

/-! ### Transcripts -/

/-- If the cycles of every generator make a permutation, `ofTranscript` succeeds or fails as
`checkOrbits` does. The check of the generators' domains between the two never fails, since
`Permutation.ofCycles n` gives permutations of `n` points. -/
theorem ofTranscript_of_generators {generators : List Permutation}
    (h : List.Forall₂ (fun cycles p => Permutation.ofCycles n cycles = .ok p) t.generators
      generators) :
    ofTranscript t n = ((checkOrbits n t.orbits).map fun _ =>
      (⟨⟨n, generators⟩, t.orbits, t.groupOrder, n⟩ : Automorphisms)).mapError .transcript := by
  have hmapM : t.generators.mapM (fun cycles =>
      (liftM (Permutation.ofCycles n cycles) : Except Error Permutation)) = .ok generators :=
    mapM_eq_ok_iff.2 (h.imp fun _ _ hp => liftM_bijection_eq_ok_iff.2 hp)
  -- made from cycles of vertices, all generators act on `n` points
  have hsize : ∀ p ∈ generators, p.size = n := by
    intro p hp
    obtain ⟨i, hi⟩ := List.getElem?_of_mem hp
    obtain ⟨cycles, -, hcycles⟩ := exists_left_of_forall₂ h hi
    exact (Permutation.ofCycles_eq_ok_iff_describes.1 hcycles).2.size
  rw [ofTranscript, hmapM]
  change (liftM (Group.ofGenerators n generators) : Except Error Group) >>= _ = _
  rw [ofGenerators_eq_ok hsize]
  exact congrArg (Except.mapError Error.transcript) (ofParts_eq rfl)

/-- If the cycles of some generator are not disjoint or leave the vertices, `ofTranscript` reports
the first such generator as a bijection error, whatever the orbits are. So bad generators are
reported before bad orbits. -/
theorem exists_ofTranscript_eq_bijection
    (h : ∃ cycles ∈ t.generators, ¬ DistinctBelow n cycles.flatten) :
    ∃ cause, ofTranscript t n = .error (.bijection cause) := by
  cases hmapM : t.generators.mapM (fun cycles =>
      (liftM (Permutation.ofCycles n cycles) : Except Error Permutation)) with
  | ok generators =>
      -- a pass that succeeds has made a permutation of the bad cycles, too
      obtain ⟨cycles, hcycles, hbad⟩ := h
      obtain ⟨p, hp⟩ := exists_mapM_eq_ok_iff.1 ⟨generators, hmapM⟩ cycles hcycles
      exact absurd (Permutation.exists_ofCycles_iff.1 ⟨p, liftM_bijection_eq_ok_iff.1 hp⟩) hbad
  | error e =>
      obtain ⟨cycles, -, he⟩ := exists_mem_of_mapM_eq_error hmapM
      obtain ⟨cause, -, rfl⟩ := mapError_eq_error_iff.1 he
      exact ⟨cause, by rw [ofTranscript, hmapM]; rfl⟩

/-- Cycles that are disjoint and stay below `n` describe permutations of `n` points, all of which
`Permutation.ofCycles` finds. -/
theorem exists_generators (h : ∀ cycles ∈ t.generators, DistinctBelow n cycles.flatten) :
    ∃ generators, List.Forall₂ (fun cycles p => Permutation.ofCycles n cycles = .ok p)
      t.generators generators := by
  obtain ⟨generators, hmapM⟩ := exists_mapM_eq_ok_iff.2 fun cycles hcycles =>
    Permutation.exists_ofCycles_iff.2 (h cycles hcycles)
  exact ⟨generators, mapM_eq_ok_iff.1 hmapM⟩

/-- All that a transcript may come to: a bad generator, bad orbits, or automorphisms. -/
inductive Outcome (t : Transcript) (n : Nat) : Except Error Automorphisms → Prop
  | generator {cause : BijectionError}
      (hbad : ∃ cycles ∈ t.generators, ¬ DistinctBelow n cycles.flatten) :
      Outcome t n (.error (.bijection cause))
  | orbits {cause : TranscriptError}
      (hgood : ∀ cycles ∈ t.generators, DistinctBelow n cycles.flatten)
      (hbad : ¬ IsPartition n t.orbits) (hdomain : ∀ k l, cause ≠ .generatorDomain k l) :
      Outcome t n (.error (.transcript cause))
  | accepted {generators : List Permutation}
      (hgood : ∀ cycles ∈ t.generators, DistinctBelow n cycles.flatten)
      (hpartition : IsPartition n t.orbits)
      (hdescribes : List.Forall₂ (Permutation.Describes n) t.generators generators) :
      Outcome t n (.ok ⟨⟨n, generators⟩, t.orbits, t.groupOrder, n⟩)

/-- The three ways in which `ofTranscript` can end, for every transcript and every number of
vertices. What is stated about accepted and about refused transcripts is read off this case
distinction. -/
theorem outcome (t : Transcript) (n : Nat) : Outcome t n (ofTranscript t n) := by
  by_cases hgood : ∀ cycles ∈ t.generators, DistinctBelow n cycles.flatten
  · obtain ⟨generators, hgenerators⟩ := exists_generators hgood
    rw [ofTranscript_of_generators hgenerators]
    cases hcheck : checkOrbits n t.orbits with
    | ok _ =>
        exact .accepted hgood (checkOrbits_eq_ok_iff.1 hcheck)
          (hgenerators.imp fun _ _ hp => (Permutation.ofCycles_eq_ok_iff_describes.1 hp).2)
    | error cause =>
        refine .orbits hgood (fun hpartition => ?_) fun k l hcause => ?_
        · exact nomatch hcheck.symm.trans (checkOrbits_eq_ok_iff.2 hpartition)
        · exact checkOrbits_ne_generatorDomain k l (hcause ▸ hcheck)
  · have hbad : ∃ cycles ∈ t.generators, ¬ DistinctBelow n cycles.flatten := by
      simpa using hgood
    obtain ⟨cause, hcause⟩ := exists_ofTranscript_eq_bijection hbad
    rw [hcause]
    exact .generator hbad

/-! ### Consistency -/

/-- Automorphisms as those of `n` vertices are: the generators permute the vertices, and the orbits
are a partition of them. -/
structure IsConsistent (a : Automorphisms) (n : Nat) : Prop where
  vertexCount : a.vertexCount = n
  domainSize : a.group.domainSize = n
  generators : ∀ p ∈ a.group.generators, p.size = n ∧ Set.BijOn p.image (Set.Iio n) (Set.Iio n)
  orbits : IsPartition n a.orbits

/-- What is returned for a graph of which the engine was not asked is consistent as well. -/
theorem isConsistent_trivial (n : Nat) : (trivial n).IsConsistent n where
  vertexCount := rfl
  domainSize := rfl
  generators := fun _ hp => nomatch hp
  orbits :=
    { nonempty := by simp [trivial]
      perm := by simp [trivial, ← List.flatMap_def] }

/-- Whatever `ofTranscript` accepts satisfies `IsConsistent`: the orbits are a partition of the
vertices, and every generator acts on them. -/
theorem Outcome.isConsistent (h : Outcome t n (.ok a)) : a.IsConsistent n := by
  cases h with
  | accepted hgood hpartition hdescribes =>
      refine ⟨rfl, rfl, fun p hp => ?_, hpartition⟩
      obtain ⟨i, hi⟩ := List.getElem?_of_mem hp
      obtain ⟨cycles, -, hp⟩ := exists_left_of_forall₂ hdescribes hi
      exact ⟨hp.size, hp.bijOn⟩

/-- What a transcript says is accepted exactly if its generators are made of disjoint cycles and its
orbits are a partition of the vertices. The generators are then the bijections that the cycles
describe. A bad generator is reported before bad orbits, each with its family; that a generator
acts on another number of points is never reported. -/
theorem ofTranscript_consistent (t : Transcript) (n : Nat) :
    ((∃ a, ofTranscript t n = .ok a) ↔
      (∀ cycles ∈ t.generators, DistinctBelow n cycles.flatten) ∧ IsPartition n t.orbits) ∧
    (∀ a, ofTranscript t n = .ok a → a.IsConsistent n ∧
      List.Forall₂ (Permutation.Describes n) t.generators a.group.generators ∧
      a.orbits = t.orbits ∧ a.groupOrder = t.groupOrder) ∧
    (∀ e, ofTranscript t n = .error e →
      ((∃ cycles ∈ t.generators, ¬ DistinctBelow n cycles.flatten) →
        e.family = .invalidBijection) ∧
      ((∀ cycles ∈ t.generators, DistinctBelow n cycles.flatten) →
        e.family = .protocolViolation) ∧
      (∀ cause, e ≠ .domain cause) ∧ ∀ k l, e ≠ .transcript (.generatorDomain k l)) ∧
    (trivial n).IsConsistent n := by
  have houtcome := outcome t n
  generalize ofTranscript t n = result at houtcome ⊢
  -- every part of the statement is about one of the three outcomes, and void for the others
  cases houtcome with
  | generator hbad =>
      obtain ⟨cycles, hcycles, hnot⟩ := hbad
      refine ⟨iff_of_false nofun fun h => hnot (h.1 cycles hcycles), (fun _ ha => nomatch ha),
        fun e he => ?_, isConsistent_trivial n⟩
      cases he
      exact ⟨fun _ => BijectionError.family_diagnostic _,
        fun hgood => absurd (hgood cycles hcycles) hnot, nofun, nofun⟩
  | orbits hgood hbad hdomain =>
      refine ⟨iff_of_false nofun fun h => hbad h.2, (fun _ ha => nomatch ha), fun e he => ?_,
        isConsistent_trivial n⟩
      cases he
      refine ⟨fun ⟨cycles, hcycles, hnot⟩ => absurd (hgood cycles hcycles) hnot,
        fun _ => TranscriptError.family_diagnostic _, nofun, fun k l heq => ?_⟩
      rw [Error.transcript.injEq] at heq
      exact hdomain k l heq
  | accepted hgood hpartition hdescribes =>
      refine ⟨iff_of_true ⟨_, rfl⟩ ⟨hgood, hpartition⟩, fun a ha => ?_, (fun _ he => nomatch he),
        isConsistent_trivial n⟩
      cases ha
      exact ⟨(Outcome.accepted hgood hpartition hdescribes).isConsistent, hdescribes, rfl, rfl⟩

/-- Two generators of four vertices, and two orbits. -/
def twoExchanges : Transcript := ⟨[[[0, 1]], [[], [3, 2]]], 4, [[1, 0], [2, 3]]⟩

/-- Two exchanges of four vertices are accepted; with a vertex in two orbits they are refused as a
violation of the protocol, and with a point twice in a generator as no bijection, though the orbits
are bad, too. -/
theorem ofTranscript_consistent_fourVertices :
    (∃ a, ofTranscript twoExchanges 4 = .ok a ∧ a.IsConsistent 4 ∧
      List.Forall₂ (Permutation.Describes 4) twoExchanges.generators a.group.generators) ∧
    (∃ e, ofTranscript { twoExchanges with orbits := [[1, 0], [2, 3, 0]] } 4 = .error e ∧
      e.family = .protocolViolation) ∧
    ∃ e, ofTranscript { twoExchanges with generators := [[[0, 1], [1]]], orbits := [[]] } 4 =
      .error e ∧ e.family = .invalidBijection := by
  refine ⟨?_, ?_, ?_⟩
  · obtain ⟨haccepted, hconsistent, -⟩ := ofTranscript_consistent twoExchanges 4
    obtain ⟨a, ha⟩ := haccepted.2
      ⟨by simp [twoExchanges, DistinctBelow], by simp [twoExchanges], by decide⟩
    exact ⟨a, ha, (hconsistent a ha).1, (hconsistent a ha).2.1⟩
  · obtain ⟨-, -, herror, -⟩ :=
      ofTranscript_consistent { twoExchanges with orbits := [[1, 0], [2, 3, 0]] } 4
    have he : ofTranscript { twoExchanges with orbits := [[1, 0], [2, 3, 0]] } 4 =
        .error (.transcript (.repeatedVertex 0)) := by decide +kernel
    exact ⟨_, he, (herror _ he).2.1 (by simp [twoExchanges, DistinctBelow])⟩
  · obtain ⟨-, -, herror, -⟩ := ofTranscript_consistent
      { twoExchanges with generators := [[[0, 1], [1]]], orbits := [[]] } 4
    have he : ofTranscript { twoExchanges with generators := [[[0, 1], [1]]], orbits := [[]] } 4 =
        .error (.bijection (.repeatedPoint 1 [[0, 1], [1]])) := by decide +kernel
    exact ⟨_, he, (herror _ he).1 ⟨[[0, 1], [1]], by simp, by simp [DistinctBelow]⟩⟩

end Automorphisms

end PlanOrbits
