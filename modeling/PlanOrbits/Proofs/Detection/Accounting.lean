import PlanOrbits.Proofs.Detection.Closure

/-!
# What becomes of the generators

Every generator but the identity is inert, rejected or accepted. Whether it is inert is
decided by a scan of the moved points, and whether it is accepted by `ofAutomorphism?`, which
scans them once more. The two agree: what fixes all heads is no symmetry
(`ofAutomorphism?_of_fixesHeads`). So no generator is lost and none is counted twice; this is
shown of one generator (`tried`) and kept up along the list (`Tallied`).
-/

namespace PlanOrbits

open Std (ExtTreeMap)

/-! ### Permutations that fix all heads -/

namespace Permutation

/-- The restriction of `s` to a table of heads is empty if `s` fixes all of them. The points are
added one by one as `restrictBelow` does it: a fixed point is skipped, and a moved one is no head,
so that `restrictStep` finds nothing to write. -/
theorem restrict?_of_fixed {role : Role} {s : Permutation}
    {heads : ExtTreeMap Nat (Occurrence role)} (h : ∀ v ∈ heads, s.image v = v) :
    s.restrict? heads = some ∅ := by
  have hbelow : ∀ t, s.restrictBelow heads t = some ∅ := by
    intro t
    induction t with
    | zero => rfl
    | succ t ih =>
        rw [restrictBelow_succ, ih, Option.bind_some]
        split
        · rfl
        · rename_i hmoved
          rw [restrictStep, ExtTreeMap.getElem?_eq_none fun hmem => hmoved (h t hmem)]
  exact hbelow s.size

end Permutation

namespace PlanEncoding

variable {e : PlanEncoding} {q : Permutation} {h : Harvest} {gs : List Permutation}

/-- Every vertex that carries a producer or a consumer stays where it is. -/
def FixesHeads (e : PlanEncoding) (q : Permutation) : Prop :=
  ∀ v, e.isHead v = true → q.image v = v

/-- The scan of `tryGenerator` over the moved points decides `FixesHeads`, which speaks of all
vertices. A head beyond the points of `q` is fixed anyway (`lt_size_of_image_ne`). -/
theorem fixesHeads_iff : e.FixesHeads q ↔ q.movedPoints.any e.isHead = false := by
  rw [List.any_eq_false]
  constructor
  · intro hfix v hv hhead
    rw [Permutation.movedPoints, List.mem_filter, bne_iff_ne] at hv
    exact hv.2 (hfix v hhead)
  · intro hnone v hhead
    by_contra hmoved
    refine hnone v ?_ hhead
    rw [Permutation.movedPoints, List.mem_filter, bne_iff_ne, List.mem_range]
    exact ⟨Permutation.lt_size_of_image_ne hmoved, hmoved⟩

instance (e : PlanEncoding) (q : Permutation) : Decidable (e.FixesHeads q) :=
  decidable_of_iff _ fixesHeads_iff.symm

/-- A permutation that fixes all heads is no symmetry: both of its restrictions are empty, and
`ofAutomorphism?` refuses a relabelling that moves nothing. This is why an inert generator need not
be tried, and why it would be counted as rejected if it were. -/
theorem ofAutomorphism?_of_fixesHeads (hq : e.FixesHeads q) :
    CausalSymmetry.ofAutomorphism? q e = none := by
  have hproducers : q.restrict? e.producers = some ∅ :=
    Permutation.restrict?_of_fixed fun v hv => hq v (by
      rw [isHead, ExtTreeMap.contains_iff_mem.2 hv, Bool.true_or])
  have hconsumers : q.restrict? e.consumers = some ∅ :=
    Permutation.restrict?_of_fixed fun v hv => hq v (by
      rw [isHead, ExtTreeMap.contains_iff_mem.2 hv, Bool.or_true])
  rw [CausalSymmetry.ofAutomorphism?_eq, hproducers, hconsumers]
  rfl

/-! ### One generator -/

/-- The generator moves a head, and is a symmetry. -/
def Accepts (e : PlanEncoding) (q : Permutation) : Prop :=
  ¬e.FixesHeads q ∧ (CausalSymmetry.ofAutomorphism? q e).isSome = true

/-- The generator moves a head, but is no symmetry. -/
def Rejects (e : PlanEncoding) (q : Permutation) : Prop :=
  ¬e.FixesHeads q ∧ CausalSymmetry.ofAutomorphism? q e = none

instance (e : PlanEncoding) (q : Permutation) : Decidable (e.Accepts q) :=
  inferInstanceAs (Decidable (_ ∧ _))

instance (e : PlanEncoding) (q : Permutation) : Decidable (e.Rejects q) :=
  decidable_of_iff (¬e.FixesHeads q ∧ (CausalSymmetry.ofAutomorphism? q e).isNone = true) <| by
    rw [Rejects, Option.isNone_iff_eq_none]

/-- A generator is not counted twice; with the next lemma, `Tallied.tryGenerator` reduces the two
filters that the generator is not part of. -/
theorem Rejects.not_accepts (hq : e.Rejects q) : ¬e.Accepts q := by
  rw [Accepts, hq.2]
  exact fun haccepts => Bool.false_ne_true haccepts.2

theorem Accepts.not_rejects (hq : e.Accepts q) : ¬e.Rejects q :=
  fun hrejects => hrejects.not_accepts hq

/-- All that one more generator can do. -/
inductive Tried (e : PlanEncoding) (h : Harvest) (q : Permutation) : Harvest → Prop
  | identity (hid : q.isIdentity = true) : Tried e h q h
  | inert (hid : q.isIdentity = false) (hfix : e.FixesHeads q) :
      Tried e h q { h with inert := h.inert + 1 }
  | rejected (hid : q.isIdentity = false) (hrejects : e.Rejects q) :
      Tried e h q { h with rejected := h.rejected + 1 }
  | accepted (hid : q.isIdentity = false) (haccepts : e.Accepts q) {s : CausalSymmetry}
      (hs : CausalSymmetry.ofAutomorphism? q e = some s) :
      Tried e h q { h with symmetries := h.symmetries ++ [s] }

/-- `Tried` lists what `tryGenerator` does, with the condition under which it does it. The cases
follow its tests: first the identity, then the scan for a moved head, then `ofAutomorphism?`. -/
theorem tried (e : PlanEncoding) (h : Harvest) (q : Permutation) :
    e.Tried h q (e.tryGenerator h q) := by
  cases hid : q.isIdentity with
  | true =>
      rw [tryGenerator, if_pos hid]
      exact .identity hid
  | false =>
      rw [tryGenerator, if_neg (by rw [hid]; decide)]
      by_cases hfix : e.FixesHeads q
      · -- the scan has met no head
        rw [fixesHeads_iff.1 hfix]
        exact .inert hid hfix
      · -- the scan has met a head, and the generator is tried
        have hmoves : q.movedPoints.any e.isHead = true := by
          rwa [fixesHeads_iff, Bool.not_eq_false] at hfix
        rw [hmoves]
        cases hs : CausalSymmetry.ofAutomorphism? q e with
        | none => exact .rejected hid ⟨hfix, hs⟩
        | some s => exact .accepted hid ⟨hfix, by rw [hs]; rfl⟩ hs

/-! ### All generators -/

/-- The permutations that move something. -/
def nontrivial (gs : List Permutation) : List Permutation := gs.filter (!·.isIdentity)

/-- What was harvested from some generators, with its counts. -/
structure Tallied (e : PlanEncoding) (gs : List Permutation) (h : Harvest) : Prop where
  symmetries : h.symmetries = (nontrivial gs).filterMap (CausalSymmetry.ofAutomorphism? · e)
  accepted : h.symmetries.length = (nontrivial gs).countP (e.Accepts ·)
  rejected : h.rejected = (nontrivial gs).countP (e.Rejects ·)
  inert : h.inert = (nontrivial gs).countP (e.FixesHeads ·)
  total : (nontrivial gs).length = h.symmetries.length + h.rejected + h.inert

/-- The empty harvest, with which `harvest` starts, is the tally of the empty list. -/
theorem tallied_start : e.Tallied [] { symmetries := [], rejected := 0, inert := 0 } :=
  ⟨rfl, rfl, rfl, rfl, rfl⟩

/-- An identity at the end is left out of the list that the report counts. -/
theorem nontrivial_concat_of_isIdentity (hq : q.isIdentity = true) :
    nontrivial (gs ++ [q]) = nontrivial gs := by
  simp [nontrivial, hq]

/-- Any other generator at the end is counted. -/
theorem nontrivial_concat (hq : q.isIdentity = false) :
    nontrivial (gs ++ [q]) = nontrivial gs ++ [q] := by
  simp [nontrivial, hq]

/-- The step lemma of the tally: if `h` accounts for the generators `gs`, then `tryGenerator`
accounts for one more. Each case of `Tried` moves one of the three counts, and its condition
excludes the other two. -/
theorem Tallied.tryGenerator (ht : e.Tallied gs h) (q : Permutation) :
    e.Tallied (gs ++ [q]) (e.tryGenerator h q) := by
  have htotal := ht.total
  have htried := e.tried h q
  -- only what `Tried` says of the new harvest is used from here on
  generalize e.tryGenerator h q = h' at htried ⊢
  cases htried with
  | identity hid =>
      constructor <;> rw [nontrivial_concat_of_isIdentity hid]
      exacts [ht.symmetries, ht.accepted, ht.rejected, ht.inert, htotal]
  | inert hid hfix =>
      have haccepts : ¬e.Accepts q := fun haccepts => haccepts.1 hfix
      have hrejects : ¬e.Rejects q := fun hrejects => hrejects.1 hfix
      constructor <;> rw [nontrivial_concat hid]
      · simp [ht.symmetries, ofAutomorphism?_of_fixesHeads hfix]
      · simp [ht.accepted, haccepts]
      · simp [ht.rejected, hrejects]
      · simp [ht.inert, hfix]
      · simp [htotal]
        omega
  | rejected hid hrejects =>
      constructor <;> rw [nontrivial_concat hid]
      · simp [ht.symmetries, hrejects.2]
      · simp [ht.accepted, hrejects.not_accepts]
      · simp [ht.rejected, hrejects]
      · simp [ht.inert, hrejects.1]
      · simp [htotal]
        omega
  | accepted hid haccepts hs =>
      constructor <;> rw [nontrivial_concat hid]
      · simp [ht.symmetries, hs]
      · simp [ht.accepted, haccepts]
      · simp [ht.rejected, haccepts.not_rejects]
      · simp [ht.inert, haccepts.1]
      · simp [htotal]
        omega

/-- The run lemma: the harvest of a whole list accounts for it, by induction from the end, as the
fold goes on from the harvest of the generators in front. -/
theorem tallied_harvest (e : PlanEncoding) (a : Automorphisms) :
    e.Tallied a.group.generators (e.harvest a) := by
  rw [harvest]
  induction a.group.generators using List.reverseRecOn with
  | nil => exact tallied_start
  | append_singleton gs q ih =>
      rw [List.foldl_append]
      exact ih.tryGenerator q

end PlanEncoding

/-! ### The report -/

/-- The report counts every generator but the identity once, as what it is, and every
symmetry once. -/
structure Detection.Accounts (d : Detection) (p : PartialPlan) (options : DetectionOptions) :
    Prop where
  total : (PlanEncoding.nontrivial d.automorphisms.group.generators).length =
    d.report.automorphismSymmetries + d.report.rejectedGenerators + d.report.inertGenerators
  inert : d.report.inertGenerators =
    (PlanEncoding.nontrivial d.automorphisms.group.generators).countP (d.encoding.FixesHeads ·)
  accepted : d.report.automorphismSymmetries =
    (PlanEncoding.nontrivial d.automorphisms.group.generators).countP (d.encoding.Accepts ·)
  rejected : d.report.rejectedGenerators =
    (PlanEncoding.nontrivial d.automorphisms.group.generators).countP (d.encoding.Rejects ·)
  /-- An inert generator is no symmetry either. -/
  none_of_inert : ∀ q ∈ d.automorphisms.group.generators, d.encoding.FixesHeads q →
    CausalSymmetry.ofAutomorphism? q d.encoding = none
  /-- In the order of the generators, then in that of the steps; nothing is left out if it
  comes twice. -/
  symmetries : d.symmetries =
    (PlanEncoding.nontrivial d.automorphisms.group.generators).filterMap
        (CausalSymmetry.ofAutomorphism? · d.encoding) ++
      if options.includeSchemaSwaps then p.schemaSwaps else []
  length : d.symmetries.length =
    d.report.automorphismSymmetries + d.report.schemaSwapSymmetries

namespace PartialPlan

variable {p : PartialPlan} {e : PlanEncoding} {a : Automorphisms} {engine : Engine}

theorem accounts_detection (p : PartialPlan) (e : PlanEncoding) (a : Automorphisms)
    (options : DetectionOptions) : (p.detection e a options).Accounts p options := by
  have htallied := e.tallied_harvest a
  constructor
  case total => exact htallied.total
  case inert => exact htallied.inert
  case accepted => exact htallied.accepted
  case rejected => exact htallied.rejected
  case none_of_inert => exact fun q _ => PlanEncoding.ofAutomorphism?_of_fixesHeads
  case symmetries =>
    rw [detection, htallied.symmetries]
  case length => exact List.length_append

/-- If a plan can be encoded, detection succeeds with whatever an engine answers, and its report
adds up. The encoding comes from `encode`, and nothing is asked of the generators: they need not
even be automorphisms of the graph. -/
theorem accounts_of_detect (hencode : p.encode = .ok e) (hengine : engine e.graph = .ok a)
    (options : DetectionOptions) : ∃ d, p.detect engine options = .ok d ∧
      d.encoding = e ∧ d.automorphisms = a ∧ d.Accounts p options :=
  ⟨_, detect_eq_ok hencode hengine options, rfl, rfl, p.accounts_detection e a options⟩

namespace TwoBalls

/-- The balls exchanged, without the literals about them. -/
def ballsOnly : Permutation where
  images := #[1, 0]
  bounded := by decide
  nodup := by decide

/-- The head of a literal exchanged with its only argument. -/
def headToArgument : Permutation where
  images := #[0, 1, 2, 3, 4, 5, 6, 7, 9, 8]
  bounded := by decide
  nodup := by decide

/-- An engine with one answer that lists a generator of every kind. -/
def everyKind : Engine := fun _ =>
  .ok { group := ⟨11, [ballsOnly, freeHeads, .identity 11, headToArgument]⟩, orbits := [],
        groupOrder := 0, vertexCount := 0 }

end TwoBalls

/-- One generator is inert, one accepted, one rejected, and the identity is not counted. -/
theorem accounts_of_detect_twoBalls : ∃ e d, TwoBalls.plan.encode = .ok e ∧
    TwoBalls.plan.detect TwoBalls.everyKind .standard = .ok d ∧
    d.report.automorphismSymmetries = 1 ∧ d.report.rejectedGenerators = 1 ∧
    d.report.inertGenerators = 1 ∧ d.report.schemaSwapSymmetries = 1 ∧
    d.Accounts TwoBalls.plan .standard := by
  obtain ⟨e, hencode, -⟩ := exists_ok_of_any
    (show TwoBalls.plan.encode.toOption.any (fun _ => true) = true by decide +kernel)
  have hengine : TwoBalls.everyKind e.graph = .ok _ := rfl
  obtain ⟨d, hd, -, -, haccounts⟩ := accounts_of_detect hencode hengine .standard
  obtain ⟨d', hd', hcounts⟩ := exists_ok_of_any
    (show (TwoBalls.plan.detect TwoBalls.everyKind .standard).toOption.any
      (fun d => d.report.automorphismSymmetries == 1 && d.report.rejectedGenerators == 1 &&
        d.report.inertGenerators == 1 && d.report.schemaSwapSymmetries == 1) = true by
      decide +kernel)
  rw [hd, Except.ok.injEq] at hd'
  subst hd'
  simp only [Bool.and_eq_true, beq_iff_eq] at hcounts
  obtain ⟨⟨⟨haccepted, hrejected⟩, hinert⟩, hswaps⟩ := hcounts
  exact ⟨e, d, hencode, hd, haccepted, hrejected, hinert, hswaps, haccounts⟩

end PartialPlan

end PlanOrbits
