import Mathlib.Data.List.Nodup
import PlanOrbits.Graph.Codec
import PlanOrbits.Proofs.Checked

/-!
# Automorphisms of coloured graphs

What it means that a table of images is an automorphism (`isAutomorphism_iff`), and
which vertices a graph made of a list of pairs joins (`hasEdge_ofParts`). Both are
said by `hasEdge` and the colours, so that nobody needs the set of edges itself.
-/

namespace PlanOrbits

open Std (ExtTreeSet LawfulEqOrd)

/-- The image of a vertex in a table; what is not in the table is fixed. -/
def imageIn (images : Array Nat) (v : Nat) : Nat := images[v]?.getD v

/-- Within the table `imageIn` is the entry; its default is used beyond the table only. -/
theorem getElem?_eq_imageIn {images : Array Nat} {v : Nat} (h : v < images.size) :
    images[v]? = some (imageIn images v) := by
  simp [imageIn, h]

namespace ColoredGraph

/-! ### Edges -/

/-- For different vertices, to be joined is to have the edge of the two in the set. -/
theorem hasEdge_eq_contains {g : ColoredGraph} {a b : Nat} (h : a ≠ b) :
    g.hasEdge a b = g.edges.contains (Edge.joining a b h) := by
  simp [hasEdge, h]

/-- Joined vertices are vertices of the graph, as every edge of the set has both ends below the
count. -/
theorem lt_of_hasEdge {g : ColoredGraph} {a b : Nat} (h : g.hasEdge a b = true) :
    a < g.vertexCount ∧ b < g.vertexCount := by
  by_cases hab : a = b
  · rw [hab, hasEdge_self] at h
    cases h
  · rw [hasEdge_eq_contains hab, ExtTreeSet.contains_iff_mem] at h
    have := g.edges_bounded _ h
    simp only [Edge.joining] at this
    simp only [vertexCount]
    omega

/-- Every edge is the one that joins its own ends, so that statements about edges can be made about
pairs. -/
theorem joining_low_high (e : Edge) :
    Edge.joining e.low e.high (Nat.ne_of_lt e.low_lt_high) = e := by
  have hlt := e.low_lt_high
  cases e
  simp only [Edge.joining, Edge.mk.injEq] at *
  omega

/-- The listed edges are those between a vertex and a higher one that it is joined to. -/
theorem mem_edgeList {g : ColoredGraph} {a b : Nat} :
    (a, b) ∈ g.edgeList ↔ a < b ∧ g.hasEdge a b = true := by
  simp only [edgeList, List.mem_map, ExtTreeSet.mem_toList, Edge.ends, Prod.mk.injEq]
  constructor
  · rintro ⟨e, he, rfl, rfl⟩
    have hlt := e.low_lt_high
    refine ⟨hlt, ?_⟩
    rwa [hasEdge_eq_contains (Nat.ne_of_lt hlt), ExtTreeSet.contains_iff_mem, joining_low_high]
  · rintro ⟨hlt, h⟩
    rw [hasEdge_eq_contains (Nat.ne_of_lt hlt), ExtTreeSet.contains_iff_mem] at h
    refine ⟨_, h, ?_, ?_⟩
    · exact Nat.min_eq_left (Nat.le_of_lt hlt)
    · exact Nat.max_eq_right (Nat.le_of_lt hlt)

/-- Graphs that join the same vertices have the same set of edges. -/
theorem edges_eq_of_hasEdge {g h : ColoredGraph} (heq : ∀ a b, g.hasEdge a b = h.hasEdge a b) :
    g.edges = h.edges := by
  refine ExtTreeSet.ext_contains fun e => ?_
  have hjoined := heq e.low e.high
  rwa [hasEdge_eq_contains (Nat.ne_of_lt e.low_lt_high),
    hasEdge_eq_contains (Nat.ne_of_lt e.low_lt_high), joining_low_high] at hjoined

/-- The neighbours of a vertex are the vertices that it is joined to, whichever end of the edge it
is. -/
theorem mem_neighbourList {g : ColoredGraph} {v w : Nat} :
    w ∈ g.neighbourList v ↔ g.hasEdge v w = true := by
  simp only [neighbourList, List.mem_filterMap, ExtTreeSet.mem_toList]
  constructor
  · rintro ⟨e, he, hother⟩
    rw [← joining_low_high e, ← ExtTreeSet.contains_iff_mem,
      ← hasEdge_eq_contains (Nat.ne_of_lt e.low_lt_high)] at he
    rw [Edge.other?] at hother
    split at hother
    · rename_i hlow
      cases hother
      rwa [hlow] at he
    · split at hother
      · rename_i hhigh
        cases hother
        rwa [hhigh, hasEdge_comm] at he
      · cases hother
  · intro h
    have hne : v ≠ w := by
      rintro rfl
      rw [hasEdge_self] at h
      cases h
    rw [hasEdge_eq_contains hne, ExtTreeSet.contains_iff_mem] at h
    refine ⟨_, h, ?_⟩
    have hlow : (Edge.joining v w hne).low = min v w := rfl
    have hhigh : (Edge.joining v w hne).high = max v w := rfl
    rw [Edge.other?, hlow, hhigh]
    -- the vertex is the lower or the higher end of its edge
    rcases Nat.lt_or_gt_of_ne hne with hlt | hlt
    · rw [if_pos (by omega), Nat.max_eq_right (by omega)]
    · rw [if_neg (by omega), if_pos (by omega), Nat.min_eq_right (by omega)]

/-! ### Graphs of lists of pairs -/

/-- After `addEdge` the two ends are joined, in both directions; all other pairs are joined as
before. -/
theorem hasEdge_of_addEdge {g g' : ColoredGraph} {a b : Nat} {new : Bool}
    (h : g.addEdge a b = .ok (g', new)) :
    g'.colors = g.colors ∧ ∀ c d, g'.hasEdge c d = true ↔
      (a = c ∧ b = d) ∨ (a = d ∧ b = c) ∨ g.hasEdge c d = true := by
  unfold addEdge at h
  split at h
  · split at h
    · split at h
      · cases h
        refine ⟨rfl, fun c d => ?_⟩
        rw [hasEdge_insertEdge, Bool.or_eq_true, decide_eq_true_eq, or_assoc]
      · cases h
    · cases h
  · cases h

/-- A graph to which a list of pairs was added joins these and what it joined before. By induction
on the list, each pair coming to those of the graph it is added to. -/
theorem hasEdge_of_addEdges {g g' : ColoredGraph} {pairs : List (Nat × Nat)}
    (h : g.addEdges pairs = .ok g') :
    g'.colors = g.colors ∧ ∀ c d, g'.hasEdge c d = true ↔
      (c, d) ∈ pairs ∨ (d, c) ∈ pairs ∨ g.hasEdge c d = true := by
  unfold addEdges at h
  induction pairs generalizing g with
  | nil =>
      cases h
      simp
  | cons pair pairs ih =>
      obtain ⟨a, b⟩ := pair
      rw [List.foldlM_cons, bind_eq_ok_iff] at h
      obtain ⟨g₁, h₁, h⟩ := h
      rw [map_eq_ok_iff] at h₁
      obtain ⟨⟨g₂, new⟩, h₁, rfl⟩ := h₁
      obtain ⟨hcolors, hedges⟩ := hasEdge_of_addEdge h₁
      obtain ⟨hcolors', hedges'⟩ := ih h
      refine ⟨hcolors'.trans hcolors, fun c d => ?_⟩
      simp only [hedges', hedges, List.mem_cons, Prod.mk.injEq]
      grind

/-- A graph without edges joins no two vertices. -/
@[simp] theorem hasEdge_ofColors (colors : Array Color) (a b : Nat) :
    (ofColors colors).hasEdge a b = false := by
  by_cases hab : a = b
  · rw [hab, hasEdge_self]
  · rw [hasEdge_eq_contains hab]
    exact ExtTreeSet.contains_empty

/-- A graph made of colours and pairs has these colours and joins these pairs. This is all that
later modules use of `ofParts`. -/
theorem hasEdge_ofParts {g : ColoredGraph} {colors : List Color} {pairs : List (Nat × Nat)}
    (h : ofParts colors pairs = .ok g) :
    g.colors = colors.toArray ∧
      ∀ a b, g.hasEdge a b = true ↔ (a, b) ∈ pairs ∨ (b, a) ∈ pairs := by
  obtain ⟨hcolors, hedges⟩ := hasEdge_of_addEdges h
  refine ⟨hcolors, fun a b => ?_⟩
  rw [hedges, hasEdge_ofColors]
  simp

/-! ### Automorphisms -/

/-- A table of images for all vertices, which are vertices and differ, that keeps the
colours and sends edges to edges. -/
structure IsAutomorphism (g : ColoredGraph) (images : Array Nat) : Prop where
  size : images.size = g.vertexCount
  lt : ∀ v < g.vertexCount, imageIn images v < g.vertexCount
  injective : ∀ v < g.vertexCount, ∀ w < g.vertexCount,
    imageIn images v = imageIn images w → v = w
  color : ∀ v < g.vertexCount, g.colors[imageIn images v]? = g.colors[v]?
  edge : ∀ a b, g.hasEdge a b = true →
    g.hasEdge (imageIn images a) (imageIn images b) = true

/-- `isAutomorphism`, which scans the table, the colours and the list of edges, decides
`IsAutomorphism`. -/
theorem isAutomorphism_iff {g : ColoredGraph} {images : Array Nat} :
    g.isAutomorphism images = true ↔ g.IsAutomorphism images := by
  have hfields : g.IsAutomorphism images ↔ images.size = g.vertexCount ∧
      (∀ v < g.vertexCount, imageIn images v < g.vertexCount) ∧
      (∀ v < g.vertexCount, ∀ w < g.vertexCount, imageIn images v = imageIn images w → v = w) ∧
      (∀ v < g.vertexCount, g.colors[imageIn images v]? = g.colors[v]?) ∧
      ∀ a b, g.hasEdge a b = true → g.hasEdge (imageIn images a) (imageIn images b) = true :=
    ⟨fun h => ⟨h.size, h.lt, h.injective, h.color, h.edge⟩,
      fun ⟨hsize, hlt, hinj, hcolor, hedge⟩ => ⟨hsize, hlt, hinj, hcolor, hedge⟩⟩
  rw [hfields]
  simp only [isAutomorphism, Bool.and_eq_true, beq_iff_eq, arePoints_iff, List.all_eq_true,
    List.mem_range, and_assoc]
  refine and_congr_right fun hsize => ?_
  have hget : ∀ v < g.vertexCount, images[v]? = some (imageIn images v) := fun v hv =>
    getElem?_eq_imageIn (hsize ▸ hv)
  have hgetElem : ∀ v (hv : v < images.size), images[v] = imageIn images v := fun v hv => by
    simp [imageIn, hv]
  refine and_congr ?_ (and_congr ?_ (and_congr ?_ ?_))
  · constructor
    · intro h v hv
      exact h _ (Array.mem_toList_iff.2 (Array.mem_of_getElem? (hget v hv)))
    · intro h v hv
      obtain ⟨i, hi, rfl⟩ := Array.getElem_of_mem (Array.mem_toList_iff.1 hv)
      rw [hgetElem i hi]
      exact h i (hsize ▸ hi)
  · rw [List.nodup_iff_injective_getElem]
    constructor
    · intro h v hv w hw heq
      have hv' : v < images.toList.length := by simpa [hsize] using hv
      have hw' : w < images.toList.length := by simpa [hsize] using hw
      have := @h ⟨v, hv'⟩ ⟨w, hw'⟩ (by simpa [hgetElem] using heq)
      simpa using this
    · rintro h ⟨v, hv⟩ ⟨w, hw⟩ heq
      rw [Array.length_toList] at hv hw
      simp only [Array.getElem_toList, hgetElem] at heq
      exact Fin.ext (h v (hsize ▸ hv) w (hsize ▸ hw) heq)
  · refine forall_congr' fun v => imp_congr_right fun hv => ?_
    rw [hget v hv, Option.bind_some]
    exact eq_comm
  · constructor
    · intro h
      -- the list has each edge from its lower end only
      have hlow : ∀ a b, a < b → g.hasEdge a b = true →
          g.hasEdge (imageIn images a) (imageIn images b) = true := by
        intro a b hlt hab
        obtain ⟨ha, hb⟩ := lt_of_hasEdge hab
        have := h (a, b) (mem_edgeList.2 ⟨hlt, hab⟩)
        simpa only [hget a ha, hget b hb] using this
      intro a b hab
      rcases Nat.lt_trichotomy a b with hlt | rfl | hlt
      · exact hlow a b hlt hab
      · rw [hasEdge_self] at hab
        cases hab
      · rw [hasEdge_comm] at hab ⊢
        exact hlow b a hlt hab
    · rintro h ⟨a, b⟩ hmem
      obtain ⟨-, hab⟩ := mem_edgeList.1 hmem
      obtain ⟨ha, hb⟩ := lt_of_hasEdge hab
      simpa only [hget a ha, hget b hb] using h a b hab

end ColoredGraph

end PlanOrbits
