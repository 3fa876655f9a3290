import Mathlib.Algebra.BigOperators.Group.Finset.Basic
import PlanOrbits.Proofs.Graph.Cells
import PlanOrbits.Proofs.Text.ByteOrder
import PlanOrbits.Symmetry.Basic

/-!
# Consecutive steps of one schema

Symmetries are tried for each two steps of one schema that no other step of this schema stands
between (`PartialPlan.AreConsecutive`). A step is taken together with its place in the plan, so
that nothing depends on whether steps differ.

`PartialPlan.consecutive` lists these pairs; `ListsConsecutive` says of a list that it holds all
of them and nothing else, by the bytes of the schemas' names and then by places. There is one
such list only. A schema of `n` steps has `n - 1` pairs (`length_consecutive`), and the
symmetries are what is found for the pairs one after the other (`schemaSwaps_eq`).
-/

namespace PlanOrbits

section

variable {α : Type} {xs : List α} {key : α → Nat}

/-- The first of a list with ascending keys is the member below which no other lies. -/
theorem head?_eq_some_iff_least (h : xs.Pairwise fun a b => key a < key b) {b : α} :
    xs.head? = some b ↔ b ∈ xs ∧ ∀ c ∈ xs, ¬key c < key b := by
  cases xs with
  | nil => simp
  | cons x xs =>
      have hx := (List.pairwise_cons.1 h).1
      rw [List.head?_cons, Option.some.injEq, List.forall_mem_cons]
      constructor
      · rintro rfl
        exact ⟨List.mem_cons_self, by omega, fun c hc => Nat.not_lt_of_gt (hx c hc)⟩
      · rintro ⟨hb, hleast, -⟩
        rcases List.mem_cons.1 hb with rfl | hb
        · rfl
        · exact absurd (hx b hb) hleast

/-- Two members follow each other in a list if they are the first two or do so behind the first. -/
theorem mem_zip_cons_iff {x a b : α} :
    (a, b) ∈ (x :: xs).zip xs ↔ (a = x ∧ xs.head? = some b) ∨ (a, b) ∈ xs.zip xs.tail := by
  cases xs with
  | nil => simp
  | cons y ys => simp [eq_comm]

/-- In a list with ascending keys two members follow each other if no key lies between theirs. -/
theorem mem_zip_tail_iff (h : xs.Pairwise fun a b => key a < key b) {a b : α} :
    (a, b) ∈ xs.zip xs.tail ↔
      a ∈ xs ∧ b ∈ xs ∧ key a < key b ∧ ∀ c ∈ xs, ¬(key a < key c ∧ key c < key b) := by
  induction xs with
  | nil => simp
  | cons x xs ih =>
      obtain ⟨hx, hxs⟩ := List.pairwise_cons.1 h
      rw [List.tail_cons, mem_zip_cons_iff, head?_eq_some_iff_least hxs, ih hxs,
        List.forall_mem_cons, List.mem_cons, List.mem_cons]
      constructor
      · rintro (⟨rfl, hb, hleast⟩ | ⟨ha, hb, hlt, hbetween⟩)
        · exact ⟨.inl rfl, .inr hb, hx b hb, by omega, fun c hc hbounds => hleast c hc hbounds.2⟩
        · have := hx a ha
          exact ⟨.inr ha, .inr hb, hlt, by omega, hbetween⟩
      · -- the lower one is the first of the list, or both stand behind it
        rintro ⟨rfl | ha, rfl | hb, hlt, -, hbetween⟩
        · omega
        · exact .inl ⟨rfl, hb, fun c hc hless => hbetween c hc ⟨hx c hc, hless⟩⟩
        · have := hx a ha
          omega
        · exact .inr ⟨ha, hb, hlt, hbetween⟩

/-- The pairs of neighbours ascend by their first members. -/
theorem pairwise_zip_tail (h : xs.Pairwise fun a b => key a < key b) :
    (xs.zip xs.tail).Pairwise fun s t => key s.1 < key t.1 := by
  rw [List.pairwise_iff_getElem] at h ⊢
  intro i j hi hj hij
  rw [List.length_zip] at hi hj
  rw [List.getElem_zip, List.getElem_zip]
  exact h i j (by omega) (by omega) hij

end

/-- A step and its place in the plan. -/
abbrev PlacedStep := Operator × Nat

namespace PartialPlan

variable {p : PartialPlan} {schema : String} {a b : PlacedStep}

/-- Two steps of one schema, and none of this schema between them. -/
structure AreConsecutive (p : PartialPlan) (a b : PlacedStep) : Prop where
  first : p.steps[a.2]? = some a.1
  second : p.steps[b.2]? = some b.1
  schema : a.1.schema = b.1.schema
  lt : a.2 < b.2
  none_between : ∀ i op, p.steps[i]? = some op → a.2 < i → i < b.2 → op.schema ≠ a.1.schema

/-- The pairs are the consecutive steps of one schema, by schemas and then in plan order. -/
structure ListsConsecutive (p : PartialPlan) (pairs : List (PlacedStep × PlacedStep)) : Prop where
  mem_iff : ∀ a b, (a, b) ∈ pairs ↔ p.AreConsecutive a b
  ordered : pairs.Pairwise fun s t =>
    Bytes.ofText s.1.1.schema < Bytes.ofText t.1.1.schema ∨
      s.1.1.schema = t.1.1.schema ∧ s.1.2 < t.1.2

/-- The steps of one schema with their places. -/
def placedSteps (p : PartialPlan) (schema : String) : List PlacedStep :=
  p.steps.zipIdx.filter (·.1.schema == schema)

/-- The consecutive steps of each schema. -/
def consecutive (p : PartialPlan) : List (PlacedStep × PlacedStep) :=
  (sortDistinct (p.steps.map (·.schema))).flatMap fun schema =>
    (p.placedSteps schema).zip (p.placedSteps schema).tail

theorem mem_placedSteps :
    a ∈ p.placedSteps schema ↔ p.steps[a.2]? = some a.1 ∧ a.1.schema = schema := by
  rw [placedSteps, List.mem_filter, List.mem_zipIdx_iff_getElem?, beq_iff_eq]

theorem pairwise_placedSteps : (p.placedSteps schema).Pairwise fun a b => a.2 < b.2 := by
  refine List.Pairwise.filter _ (List.pairwise_map.1 ?_)
  rw [List.zipIdx_map_snd]
  exact List.pairwise_lt_range'

theorem map_fst_placedSteps : (p.placedSteps schema).map Prod.fst = p.stepsOf schema := by
  rw [stepsOf, placedSteps]
  conv_rhs => rw [← List.zipIdx_map_fst 0 p.steps]
  rw [List.filter_map]
  rfl

/-- Two steps are consecutive in the sense of `AreConsecutive` if they follow each other among the
steps of their schema. -/
theorem mem_zip_placedSteps : (a, b) ∈ (p.placedSteps schema).zip (p.placedSteps schema).tail ↔
    p.AreConsecutive a b ∧ a.1.schema = schema := by
  rw [mem_zip_tail_iff pairwise_placedSteps]
  simp only [mem_placedSteps]
  constructor
  · rintro ⟨⟨ha, hschema⟩, ⟨hb, hschema'⟩, hlt, hbetween⟩
    refine ⟨⟨ha, hb, hschema.trans hschema'.symm, hlt, fun i op hop hi hi' heq => ?_⟩, hschema⟩
    exact hbetween (op, i) ⟨hop, heq.trans hschema⟩ ⟨hi, hi'⟩
  · rintro ⟨h, rfl⟩
    refine ⟨⟨h.first, rfl⟩, ⟨h.second, h.schema.symm⟩, h.lt, fun c hc hlt => ?_⟩
    exact h.none_between c.2 c.1 hc.1 hlt.1 hlt.2 hc.2

/-- The listed pairs are the consecutive ones, by the bytes of the schemas' names and within a
schema by places. -/
theorem listsConsecutive_consecutive (p : PartialPlan) : p.ListsConsecutive p.consecutive where
  mem_iff a b := by
    simp only [consecutive, List.mem_flatMap, mem_zip_placedSteps, mem_sortDistinct, List.mem_map]
    constructor
    · rintro ⟨schema, -, h, -⟩
      exact h
    · intro h
      exact ⟨a.1.schema, ⟨a.1, List.mem_of_getElem? h.first, rfl⟩, h, rfl⟩
  ordered := by
    rw [consecutive, List.pairwise_flatMap]
    constructor
    · intro schema _
      refine (pairwise_zip_tail pairwise_placedSteps).imp_of_mem fun {s t} hs ht hlt => .inr ?_
      have hs := (mem_zip_placedSteps.1 (show (s.1, s.2) ∈ _ from hs)).2
      have ht := (mem_zip_placedSteps.1 (show (t.1, t.2) ∈ _ from ht)).2
      exact ⟨hs.trans ht.symm, hlt⟩
    · refine pairwise_sortDistinct.imp fun {c d} hlt s hs t ht => .inl ?_
      have hs := (mem_zip_placedSteps.1 (show (s.1, s.2) ∈ _ from hs)).2
      have ht := (mem_zip_placedSteps.1 (show (t.1, t.2) ∈ _ from ht)).2
      rw [hs, ht, ← Text.lt_iff_ofText_lt]
      exact compareOfLessAndEq_eq_lt.1 hlt

/-- Each schema has one pair less than it has steps, so the number of pairs is a sum over the
schemas of the plan. -/
theorem length_consecutive (p : PartialPlan) : p.consecutive.length =
    ∑ schema ∈ (p.steps.map (·.schema)).toFinset, ((p.stepsOf schema).length - 1) := by
  have hlength : ∀ schema, ((p.placedSteps schema).zip (p.placedSteps schema).tail).length =
      (p.stepsOf schema).length - 1 := by
    intro schema
    rw [← map_fst_placedSteps, List.length_zip, List.length_map, List.length_tail]
    omega
  have hnodup : (sortDistinct (p.steps.map (·.schema))).Nodup := by
    refine pairwise_sortDistinct.imp fun {c d} hlt heq => ?_
    have hself : compare d d = .eq := Std.ReflCmp.compare_self
    rw [heq, hself] at hlt
    cases hlt
  have hset : (p.steps.map (·.schema)).toFinset =
      (sortDistinct (p.steps.map (·.schema))).toFinset := by
    ext schema
    rw [List.mem_toFinset, List.mem_toFinset, mem_sortDistinct]
  -- a schema is listed once, so the sum over the list is the sum over the set
  rw [hset, List.sum_toFinset _ hnodup, consecutive, List.length_flatMap]
  simp only [hlength]

/-- `schemaSwaps` goes through the same pairs in the same order and keeps what `swap?` finds for
each. -/
theorem schemaSwaps_eq (p : PartialPlan) :
    p.schemaSwaps = p.consecutive.filterMap fun pair => pair.1.1.swap? pair.2.1 := by
  rw [schemaSwaps, consecutive, List.filterMap_flatMap]
  refine congrArg (List.flatMap · _) (funext fun schema => ?_)
  simp only [← map_fst_placedSteps, ← List.map_tail, List.zip_map, List.filterMap_map]
  rfl

end PartialPlan

end PlanOrbits
