import Mathlib.Algebra.BigOperators.Group.Finset.Piecewise
import Mathlib.Data.List.Sort
import PlanOrbits.Graph.Adjacency
import PlanOrbits.Proofs.Graph.Parts

/-!
# The two forms of a graph

A graph kept as sets of neighbours represents a graph kept as a set of edges if there is one
set for each vertex, and what stands in the sets are the ends of the edges (`Represents`).
Calls keep this and are answered alike (`Represents.answer`), so that it holds after every list
of calls (`Represents.answerAll`).

From it follows all that can be seen of the sets. A set lists the neighbours in ascending order,
since edges are ordered first by lower and then by higher ends. Every edge stands in two sets, so
that the sets hold twice as much as there are edges (`sum_length_neighbourList`). How many edges
there are is told by the answers: as many as were new (`edgeCount_answerAll`).
-/

namespace PlanOrbits

open Std (ExtTreeSet)

/-! ### The order of edges -/

/-- The order by which the set of edges is kept: first by the lower end, then by the higher. -/
theorem Edge.compare_eq_lt_iff {e f : Edge} :
    compare e f = .lt ↔ e.low < f.low ∨ e.low = f.low ∧ e.high < f.high := by
  have hcompare : compare e f = (compare e.low f.low).then (compare e.high f.high) := rfl
  rw [hcompare, Ordering.then_eq_lt, Nat.compare_eq_lt, Nat.compare_eq_lt, Nat.compare_eq_eq]

namespace ColoredGraph

variable {g : ColoredGraph} {v : Nat}

/-- A set of edges lists its members in this order. -/
theorem pairwise_edges :
    g.edges.toList.Pairwise fun e f => e.low < f.low ∨ e.low = f.low ∧ e.high < f.high :=
  ExtTreeSet.ordered_toList.imp Edge.compare_eq_lt_iff.1

/-- The edges are listed in lexicographic order of their ends. -/
theorem pairwise_edgeList : g.edgeList.Pairwise (Prod.Lex (· < ·) (· < ·)) := by
  rw [edgeList, List.pairwise_map]
  exact pairwise_edges.imp Prod.lex_def.2

/-- The neighbours of a vertex are listed in ascending order. Those below the vertex come from edges
that stand before its own in the list, and each of the two stretches is ascending. -/
theorem pairwise_neighbourList : (g.neighbourList v).Pairwise (· < ·) := by
  rw [neighbourList, List.pairwise_filterMap]
  refine pairwise_edges.imp fun {e f} hlt w hw w' hw' => ?_
  have he := e.low_lt_high
  have hf := f.low_lt_high
  simp only [Edge.other?] at hw hw'
  grind

/-! ### Counting neighbours -/

/-- Does an edge, given by its ends, end at the vertex? -/
def endsAt (v : Nat) (ends : Nat × Nat) : Bool := ends.1 == v || ends.2 == v

/-- A vertex has as many neighbours as edges end at it. -/
theorem length_neighbourList : (g.neighbourList v).length = g.edgeList.countP (endsAt v) := by
  rw [neighbourList, List.length_filterMap_eq_countP, edgeList, List.countP_map]
  refine List.countP_congr fun e _ => ?_
  simp only [Function.comp_apply, endsAt, Edge.ends, Edge.other?]
  grind

/-- An edge ends at two of the vertices: its ends are different and both below `n`. -/
theorem sum_endsAt {n : Nat} {ends : Nat × Nat} (h : Joinable n ends) :
    (∑ v ∈ Finset.range n, if endsAt v ends = true then 1 else 0) = 2 := by
  obtain ⟨hne, hlow, hhigh⟩ := h
  have hsplit : ∀ v, (if endsAt v ends = true then 1 else 0) =
      (if ends.1 = v then 1 else 0) + if ends.2 = v then 1 else 0 := by
    intro v
    simp only [endsAt]
    grind
  rw [Finset.sum_congr rfl fun v _ => hsplit v, Finset.sum_add_distrib, Finset.sum_ite_eq,
    Finset.sum_ite_eq, if_pos (Finset.mem_range.2 hlow), if_pos (Finset.mem_range.2 hhigh)]

/-- Summed over the vertices, the ends of a list of pairs are twice as many as the pairs. -/
theorem sum_countP_endsAt {n : Nat} {pairs : List (Nat × Nat)}
    (h : ∀ pair ∈ pairs, Joinable n pair) :
    ∑ v ∈ Finset.range n, pairs.countP (endsAt v) = 2 * pairs.length := by
  induction pairs with
  | nil => exact Finset.sum_const_zero
  | cons pair pairs ih =>
      obtain ⟨hpair, hpairs⟩ := List.forall_mem_cons.1 h
      rw [Finset.sum_congr rfl fun v _ => List.countP_cons, Finset.sum_add_distrib, ih hpairs,
        sum_endsAt hpair, List.length_cons, Nat.mul_succ]

/-- The vertices together have twice as many neighbours as there are edges. -/
theorem sum_length_neighbourList (g : ColoredGraph) :
    ∑ v ∈ Finset.range g.vertexCount, (g.neighbourList v).length = 2 * g.edgeCount := by
  rw [Finset.sum_congr rfl fun v _ => length_neighbourList,
    sum_countP_endsAt fun pair => joinable_of_mem_edgeList, length_edgeList]

/-! ### Counting edges -/

/-- There are as many edges as pairs in a list that names each of them once, from one of its ends.
This is how the graph of a plan is counted, too. -/
theorem edgeCount_eq_length {pairs : List (Nat × Nat)} (hnodup : pairs.Nodup)
    (hasymm : ∀ a b, (a, b) ∈ pairs → (b, a) ∉ pairs)
    (hedges : ∀ a b, g.hasEdge a b = true ↔ (a, b) ∈ pairs ∨ (b, a) ∈ pairs) :
    g.edgeCount = pairs.length := by
  have hne : ∀ a b, (a, b) ∈ pairs → a ≠ b := by
    intro a b hab
    exact (joinable_of_hasEdge ((hedges a b).2 (.inl hab))).1
  -- the pairs with their lower ends first
  let ordered := pairs.map fun e => (min e.1 e.2, max e.1 e.2)
  have hordered : ordered.Nodup := by
    refine hnodup.map_on ?_
    rintro ⟨a, b⟩ hab ⟨c, d⟩ hcd heq
    rw [Prod.mk.injEq] at heq
    have hcases : (a = c ∧ b = d) ∨ (a = d ∧ b = c) := by omega
    rcases hcases with ⟨rfl, rfl⟩ | ⟨rfl, rfl⟩
    · rfl
    · exact absurd hcd (hasymm a b hab)
  have hlisted : g.edgeList.Nodup := by
    refine pairwise_edgeList.imp fun {x y} hlt heq => ?_
    rw [heq, Prod.lex_def] at hlt
    omega
  have hperm : g.edgeList.Perm ordered := by
    rw [List.perm_ext_iff_of_nodup hlisted hordered]
    rintro ⟨a, b⟩
    rw [mem_edgeList, hedges, List.mem_map]
    constructor
    · rintro ⟨hlt, hab | hba⟩
      · exact ⟨(a, b), hab, by simp only [Prod.mk.injEq]; omega⟩
      · exact ⟨(b, a), hba, by simp only [Prod.mk.injEq]; omega⟩
    · rintro ⟨⟨c, d⟩, hcd, heq⟩
      have hcd' := hne c d hcd
      rw [Prod.mk.injEq] at heq
      have hcases : (a = c ∧ b = d) ∨ (a = d ∧ b = c) := by omega
      rcases hcases with ⟨rfl, rfl⟩ | ⟨rfl, rfl⟩
      · exact ⟨by omega, .inl hcd⟩
      · exact ⟨by omega, .inr hcd⟩
  rw [← length_edgeList, hperm.length_eq, List.length_map]

/-! ### Counting answers -/

/-- A call adds an edge if and only if its answer says so. A call that fails adds none. -/
theorem edgeCount_answer (g : ColoredGraph) (call : GraphCall) :
    (g.answer call).1.edgeCount = g.edgeCount + [(g.answer call).2].count (.edge true) := by
  cases call with
  | vertex color => rfl
  | edge a b =>
      simp only [answer, addEdge]
      by_cases ha : a < g.vertexCount
      · by_cases hb : b < g.vertexCount
        · by_cases hab : a = b
          · simp [hb, hab]
          · -- the set grows by an insertion unless it contains the edge, which is what is answered
            have hnew : g.edges.contains (Edge.joining a b hab) = g.hasEdge a b :=
              (hasEdge_eq_contains hab).symm
            simp only [ha, hb, hab, ne_eq, not_false_eq_true, dite_true, edgeCount, insertEdge,
              ExtTreeSet.size_insert, hnew]
            cases g.hasEdge a b <;> rfl
        · simp [ha, hb]
      · simp [ha]

/-- Calls add as many edges as their answers say, by induction on the calls. -/
theorem edgeCount_answerAll (g : ColoredGraph) (calls : List GraphCall) :
    (answerAll answer g calls).1.edgeCount =
      g.edgeCount + (answerAll answer g calls).2.count (.edge true) := by
  induction calls generalizing g with
  | nil => rfl
  | cons call calls ih =>
      have hfirst := g.edgeCount_answer call
      have hrest := ih (g.answer call).1
      have hanswers : (answerAll answer g (call :: calls)).2 =
          [(g.answer call).2] ++ (answerAll answer (g.answer call).1 calls).2 := rfl
      have hlast : (answerAll answer g (call :: calls)).1 =
          (answerAll answer (g.answer call).1 calls).1 := rfl
      rw [hanswers, hlast, List.count_append]
      omega

end ColoredGraph

namespace AdjacencySets

open ColoredGraph (Joinable)

/-! ### What stands in the sets -/

variable {t : AdjacencySets} {g : ColoredGraph} {a b c d v : Nat}

/-- There is a set for each vertex, and the ends of the edges stand in the sets. -/
structure Represents (t : AdjacencySets) (g : ColoredGraph) : Prop where
  colors : t.colors = g.colors
  size_sets : t.sets.size = t.vertexCount
  hasEdge : ∀ a b, t.hasEdge a b = g.hasEdge a b

/-- One insertion changes the set of one vertex. -/
theorem neighboursOf_insert (ha : a < t.sets.size) : (t.insert a b).1.neighboursOf v =
    if a = v then (t.neighboursOf v).insert b else t.neighboursOf v := by
  simp only [neighboursOf, insert, Array.getElem?_modify]
  by_cases hv : a = v
  · subst hv
    simp [ha]
  · simp [hv]

/-- Afterwards a set holds what it held before, and the new neighbour if it is the set that was
written into. -/
theorem hasEdge_insert (ha : a < t.sets.size) :
    (t.insert a b).1.hasEdge c d = (decide (a = c ∧ b = d) || t.hasEdge c d) := by
  rw [hasEdge, neighboursOf_insert ha, hasEdge]
  by_cases hc : a = c
  · have hd : (compare b d == .eq) = decide (b = d) := by
      rw [Bool.eq_iff_iff]
      simp
    rw [if_pos hc, ExtTreeSet.contains_insert, hd]
    simp [hc]
  · simp [hc]

theorem size_sets_insert : (t.insert a b).1.sets.size = t.sets.size := Array.size_modify

/-! ### The list of edges -/

/-- The sets are those of the vertices, in order. -/
theorem toList_sets (t : AdjacencySets) :
    t.sets.toList = (List.range t.sets.size).map t.neighboursOf := by
  refine List.ext_getElem (by simp) fun v hv _ => ?_
  have hlt : v < t.sets.size := by simpa using hv
  simp [neighboursOf, hlt]

/-- The edges are listed vertex by vertex, each with its neighbours above it. -/
theorem edgeList_eq (t : AdjacencySets) : t.edgeList = (List.range t.sets.size).flatMap fun a =>
    ((t.neighboursOf a).toList.filter (a < ·)).map fun b => (a, b) := by
  have hzip : t.sets.toList.zipIdx =
      (List.range t.sets.size).map fun v => (t.neighboursOf v, v) := by
    rw [toList_sets]
    exact List.ext_getElem (by simp) fun v _ _ => by simp
  rw [edgeList, hzip, List.flatMap_map]

/-- The listed pairs are those of a vertex and a greater neighbour, so that an edge, which stands in
two sets, is listed once. -/
theorem mem_edgeList : (a, b) ∈ t.edgeList ↔ a < b ∧ t.hasEdge a b = true := by
  simp only [edgeList_eq, List.mem_flatMap, List.mem_range, List.mem_map, List.mem_filter,
    ExtTreeSet.mem_toList, decide_eq_true_eq, Prod.mk.injEq]
  constructor
  · rintro ⟨a, -, b, ⟨hmem, hlt⟩, rfl, rfl⟩
    exact ⟨hlt, ExtTreeSet.contains_iff_mem.2 hmem⟩
  · rintro ⟨hlt, hedge⟩
    refine ⟨a, ?_, b, ⟨ExtTreeSet.contains_iff_mem.1 hedge, hlt⟩, rfl, rfl⟩
    -- beyond the sets there are no neighbours
    by_contra hsize
    rw [hasEdge, neighboursOf, Array.getElem?_eq_none (Nat.le_of_not_lt hsize), Option.getD_none,
      ExtTreeSet.contains_empty] at hedge
    cases hedge

/-- The listed pairs ascend: the vertices are taken in order, and each set is ascending. -/
theorem pairwise_edgeList : t.edgeList.Pairwise (Prod.Lex (· < ·) (· < ·)) := by
  rw [edgeList_eq, List.pairwise_flatMap]
  constructor
  · intro a _
    rw [List.pairwise_map]
    refine (ExtTreeSet.ordered_toList.filter _).imp fun hlt => ?_
    exact Prod.Lex.right a (Nat.compare_eq_lt.1 hlt)
  · refine List.pairwise_lt_range.imp fun {a a'} hlt pair hpair pair' hpair' => ?_
    obtain ⟨b, -, rfl⟩ := List.mem_map.1 hpair
    obtain ⟨b', -, rfl⟩ := List.mem_map.1 hpair'
    exact Prod.Lex.left b b' hlt

/-! ### Calls to both forms -/

/-- The initial graphs, with the same colours and no edges, represent each other. -/
theorem represents_ofColors (colors : Array Color) :
    (AdjacencySets.ofColors colors).Represents (.ofColors colors) where
  colors := rfl
  size_sets := Array.size_replicate
  hasEdge := by
    intro a b
    have hnone : (ofColors colors).neighboursOf a = ∅ := by
      simp only [neighboursOf, ofColors, Array.getElem?_replicate]
      split <;> rfl
    rw [hasEdge, hnone, ExtTreeSet.contains_empty, ColoredGraph.hasEdge_ofColors]

namespace Represents

variable (h : t.Represents g)

include h

theorem vertexCount : t.vertexCount = g.vertexCount := congrArg Array.size h.colors

/-- A new vertex gets an empty set; all edges are as before. -/
theorem addVertex (color : Color) : (t.addVertex color).1.Represents (g.addVertex color) where
  colors := by simp only [AdjacencySets.addVertex, ColoredGraph.addVertex, h.colors]
  size_sets := by
    have hsize := h.size_sets
    simp only [AdjacencySets.addVertex, AdjacencySets.vertexCount, Array.size_push] at hsize ⊢
    omega
  hasEdge := by
    intro a b
    -- the set of the new vertex is empty, as the set of a vertex that does not exist is taken to be
    have hsame : (t.addVertex color).1.neighboursOf a = t.neighboursOf a := by
      simp only [neighboursOf, AdjacencySets.addVertex, Array.getElem?_push]
      split
      · rename_i ha
        rw [ha, Array.getElem?_eq_none (Nat.le_refl _)]
        rfl
      · rfl
    rw [AdjacencySets.hasEdge, hsame]
    exact h.hasEdge a b

/-- The two insertions, one at each end, make an edge of the other form. -/
theorem insert (hab : a ≠ b) (ha : a < g.vertexCount) (hb : b < g.vertexCount) :
    ((t.insert a b).1.insert b a).1.Represents (g.insertEdge a b hab ha hb) where
  colors := h.colors
  size_sets := by
    rw [size_sets_insert, size_sets_insert, h.size_sets]
    rfl
  hasEdge := by
    intro c d
    have hsize : t.sets.size = g.vertexCount := h.size_sets.trans h.vertexCount
    have hfirst : a < t.sets.size := hsize ▸ ha
    have hsecond : b < (t.insert a b).1.sets.size := by
      rw [size_sets_insert]
      exact hsize ▸ hb
    rw [hasEdge_insert hsecond, hasEdge_insert hfirst, h.hasEdge, ColoredGraph.hasEdge_insertEdge]
    grind

/-- The step lemma: a call is answered alike in both forms, and what it leaves behind is again one
graph. Both forms make the same checks in the same order, so the cases are those of the checks. -/
theorem answer (call : GraphCall) : (t.answer call).2 = (g.answer call).2 ∧
    (t.answer call).1.Represents (g.answer call).1 := by
  have hcount := h.vertexCount
  cases call with
  | vertex color =>
      refine ⟨?_, h.addVertex color⟩
      have hsize : t.colors.size = g.vertexCount := hcount
      simp only [AdjacencySets.answer, AdjacencySets.addVertex, ColoredGraph.answer,
        Array.size_push, Nat.add_sub_cancel, hsize]
  | edge a b =>
      simp only [AdjacencySets.answer, AdjacencySets.addEdge, checkVertex, ColoredGraph.answer,
        ColoredGraph.addEdge, hcount]
      by_cases ha : a < g.vertexCount
      · by_cases hb : b < g.vertexCount
        · by_cases hab : a = b
          · simpa [hb, hab] using h
          · have hanswer : (t.insert a b).2 = !g.hasEdge a b := congrArg (!·) (h.hasEdge a b)
            simpa [ha, hb, hab, hanswer] using h.insert hab ha hb
        · simpa [ha, hb] using h
      · simpa [ha] using h

/-- The run lemma: any list of calls is answered alike, by induction on the calls. -/
theorem answerAll (calls : List GraphCall) :
    (PlanOrbits.answerAll AdjacencySets.answer t calls).2 =
        (PlanOrbits.answerAll ColoredGraph.answer g calls).2 ∧
      (PlanOrbits.answerAll AdjacencySets.answer t calls).1.Represents
        (PlanOrbits.answerAll ColoredGraph.answer g calls).1 := by
  induction calls generalizing t g with
  | nil => exact ⟨rfl, h⟩
  | cons call calls ih =>
      obtain ⟨hfirst, hrest⟩ := h.answer call
      obtain ⟨hanswers, hlast⟩ := ih hrest
      refine ⟨?_, hlast⟩
      simp only [PlanOrbits.answerAll, hfirst, hanswers]

/-! ### What can be seen -/

/-- A set lists the neighbours that the set of edges gives, in the same ascending order. Two
ascending lists with the same members are equal. -/
theorem toList_neighboursOf (v : Nat) : (t.neighboursOf v).toList = g.neighbourList v := by
  have hsorted : (t.neighboursOf v).toList.Pairwise (· < ·) :=
    ExtTreeSet.ordered_toList.imp Nat.compare_eq_lt.1
  refine hsorted.eq_of_mem_iff ColoredGraph.pairwise_neighbourList fun w => ?_
  rw [ExtTreeSet.mem_toList, ColoredGraph.mem_neighbourList, ← h.hasEdge,
    AdjacencySets.hasEdge, ExtTreeSet.contains_iff_mem]

theorem size_neighboursOf (v : Nat) : (t.neighboursOf v).size = (g.neighbourList v).length := by
  rw [← h.toList_neighboursOf, ExtTreeSet.length_toList]

/-- What the query of neighbours returns, errors included. -/
theorem neighbours (v : Nat) : t.neighbours v = g.neighbours v := by
  simp only [AdjacencySets.neighbours, ColoredGraph.neighbours, checkVertex,
    ColoredGraph.checkVertex, h.vertexCount, h.toList_neighboursOf]

/-- What the query of the degree returns. -/
theorem degree (v : Nat) : t.degree v = g.degree v := by
  simp only [AdjacencySets.degree, ColoredGraph.degree, ColoredGraph.neighbours, checkVertex,
    ColoredGraph.checkVertex, h.vertexCount, h.size_neighboursOf]
  split <;> rfl

/-- The number of edges, which the sets obtain by halving their total size. -/
theorem edgeCount : t.edgeCount = g.edgeCount := by
  have hsum : (t.sets.toList.map ExtTreeSet.size).sum =
      ∑ v ∈ Finset.range g.vertexCount, (g.neighbourList v).length := by
    rw [toList_sets, List.map_map, h.size_sets, h.vertexCount,
      ← Finset.sum_congr rfl fun v _ => h.size_neighboursOf v]
    rfl
  rw [AdjacencySets.edgeCount, hsum, ColoredGraph.sum_length_neighbourList,
    Nat.mul_div_cancel_left _ Nat.two_pos]

/-- Both forms list the edges in lexicographic order, so that the lists are equal. -/
theorem edgeList : t.edgeList = g.edgeList := by
  refine pairwise_edgeList.eq_of_mem_iff ColoredGraph.pairwise_edgeList fun (a, b) => ?_
  rw [mem_edgeList, ColoredGraph.mem_edgeList, h.hasEdge]

end Represents

/-! ### Adding one edge -/

/-- An edge that cannot be added, since a vertex is missing or both ends are one, leaves the sets as
they are. -/
theorem addEdge_of_not_joinable (h : ¬Joinable t.vertexCount (a, b)) :
    ∃ cause, t.addEdge a b = (t, .error cause) := by
  simp only [Joinable, not_and] at h
  simp only [addEdge, checkVertex]
  by_cases ha : a < t.vertexCount
  · by_cases hb : b < t.vertexCount
    · by_cases hab : a = b
      · exact ⟨.selfLoop a, by simp [hb, hab]⟩
      · exact absurd hb (h hab ha)
    · exact ⟨.unknownVertex b t.vertexCount, by simp [ha, hb]⟩
  · exact ⟨.unknownVertex a t.vertexCount, by simp [ha]⟩

/-- An edge that can be added is answered with whether it is new. -/
theorem addEdge_of_joinable (h : Joinable t.vertexCount (a, b)) :
    (t.addEdge a b).2 = .ok (!t.hasEdge a b) := by
  obtain ⟨hab, ha, hb⟩ := h
  simp only [] at hab ha hb
  simp [addEdge, checkVertex, ha, hb, hab, insert]

/-! ### Consistency -/

/-- The two forms cannot be told apart. -/
structure LooksLike (t : AdjacencySets) (g : ColoredGraph) : Prop where
  colors : t.colors = g.colors
  answer : ∀ call, (t.answer call).2 = (g.answer call).2
  hasEdge : ∀ a b, t.hasEdge a b = g.hasEdge a b
  edgeCount : t.edgeCount = g.edgeCount
  edgeList : t.edgeList = g.edgeList
  neighbours : ∀ v, t.neighbours v = g.neighbours v
  degree : ∀ v, t.degree v = g.degree v

/-- What is seen of the sets fits together, and fits the answers to the calls that made them. -/
structure Consistent (t : AdjacencySets) (answers : List GraphAnswer) : Prop where
  /-- There is one set for each colour. -/
  size_sets : t.sets.size = t.colors.size
  symmetric : ∀ a b, t.hasEdge a b = true → t.hasEdge b a = true
  irreflexive : ∀ a, t.hasEdge a a = false
  bounded : ∀ a b, t.hasEdge a b = true → a < t.vertexCount ∧ b < t.vertexCount
  /-- A refused edge changes nothing. -/
  unchanged : ∀ a b cause, (t.addEdge a b).2 = .error cause → (t.addEdge a b).1 = t
  /-- An edge is not new if it is there, from either of its ends. -/
  known : ∀ a b, (t.addEdge a b).2 = .ok false ↔ t.hasEdge a b = true ∨ t.hasEdge b a = true
  edgeCount : t.edgeCount = t.edgeList.length
  /-- So many calls added an edge. -/
  length_edgeList : t.edgeList.length = answers.count (.edge true)
  ascending : t.edgeList.Pairwise (Prod.Lex (· < ·) (· < ·))
  low_lt_high : ∀ pair ∈ t.edgeList, pair.1 < pair.2
  mem_edgeList : ∀ a b, a < b → ((a, b) ∈ t.edgeList ↔ t.hasEdge a b = true)
  degree : ∀ v < t.vertexCount,
    t.degree v = .ok (t.edgeList.countP fun pair => pair.1 == v || pair.2 == v)

/-- Everything that can be asked is answered alike. -/
theorem Represents.looksLike (h : t.Represents g) : t.LooksLike g where
  colors := h.colors
  answer call := (h.answer call).1
  hasEdge := h.hasEdge
  edgeCount := h.edgeCount
  edgeList := h.edgeList
  neighbours := h.neighbours
  degree := h.degree

/-- What is seen of the sets fits together. Every part is a property of the set of edges, where both
ends of an edge are one thing, carried over by `Represents`. -/
theorem Represents.consistent {answers : List GraphAnswer} (h : t.Represents g)
    (hanswers : g.edgeCount = answers.count (.edge true)) : t.Consistent answers where
  size_sets := h.size_sets
  symmetric := by
    intro a b hab
    rwa [h.hasEdge, ColoredGraph.hasEdge_comm, ← h.hasEdge]
  irreflexive := by
    intro a
    rw [h.hasEdge, ColoredGraph.hasEdge_self]
  bounded := by
    intro a b hab
    rw [h.hasEdge] at hab
    rw [h.vertexCount]
    exact ColoredGraph.lt_of_hasEdge hab
  unchanged := by
    intro a b cause hcause
    by_cases hjoinable : Joinable t.vertexCount (a, b)
    · rw [addEdge_of_joinable hjoinable] at hcause
      cases hcause
    · obtain ⟨cause', heq⟩ := addEdge_of_not_joinable hjoinable
      rw [heq]
  -- the flag says whether the edge was there; an edge that is refused was not there
  known := by
    intro a b
    rw [h.hasEdge, h.hasEdge, ColoredGraph.hasEdge_comm g b a, or_self]
    by_cases hjoinable : Joinable t.vertexCount (a, b)
    · rw [addEdge_of_joinable hjoinable, h.hasEdge]
      simp
    · obtain ⟨cause, heq⟩ := addEdge_of_not_joinable hjoinable
      rw [heq]
      refine iff_of_false (fun hfalse => nomatch hfalse) fun hab => hjoinable ?_
      rw [h.vertexCount]
      exact ColoredGraph.joinable_of_hasEdge hab
  edgeCount := by
    rw [h.edgeCount, h.edgeList, ColoredGraph.length_edgeList]
  length_edgeList := by
    rw [h.edgeList, ColoredGraph.length_edgeList, hanswers]
  ascending := pairwise_edgeList
  low_lt_high := fun _ hpair => (mem_edgeList.1 hpair).1
  mem_edgeList := fun a b hlt => mem_edgeList.trans (and_iff_right hlt)
  degree := by
    intro v hv
    rw [h.vertexCount] at hv
    rw [h.degree, h.edgeList, ColoredGraph.degree, ColoredGraph.neighbours,
      ColoredGraph.checkVertex, if_pos hv]
    exact congrArg Except.ok ColoredGraph.length_neighbourList

/-- Whatever calls are made of a graph without edges, the two forms answer alike and look
alike, and what is seen of the sets of neighbours fits together and fits the answers. -/
theorem consistent_answerAll (colors : Array Color) (calls : List GraphCall) :
    let (t, answers) := answerAll AdjacencySets.answer (.ofColors colors) calls
    let (g, answers') := answerAll ColoredGraph.answer (.ofColors colors) calls
    answers = answers' ∧ t.LooksLike g ∧ t.Consistent answers ∧
      empty = .ofColors #[] ∧ ColoredGraph.empty = .ofColors #[] := by
  obtain ⟨hanswers, hrepresents⟩ := (represents_ofColors colors).answerAll calls
  have hcount := (ColoredGraph.ofColors colors).edgeCount_answerAll calls
  have hempty : (ColoredGraph.ofColors colors).edgeCount = 0 := ExtTreeSet.size_empty
  rw [hempty, Nat.zero_add, ← hanswers] at hcount
  exact ⟨hanswers, hrepresents.looksLike, hrepresents.consistent hcount, rfl, rfl⟩

example : (answerAll answer empty [.vertex 7, .vertex 7, .edge 1 0, .edge 0 1, .edge 1 1]).2 =
    [.vertex 0, .vertex 1, .edge true, .edge false, .refused (.selfLoop 1)] := by decide +kernel

end AdjacencySets

end PlanOrbits
