import Mathlib.Data.List.Nodup
import PlanOrbits.Proofs.Graph.Automorphism

/-!
# The cells of colours

The cells of a graph divide its vertices up by colour: every vertex stands in one cell and
stands there once, vertices share a cell exactly if they have one colour, and both the cells
and the vertices in a cell ascend (`isColorPartition_cells`). The cells do not say what the
colours are called, and automorphisms do not depend on it (`isAutomorphism_eq`).
-/

namespace PlanOrbits

open Std (ExtTreeSet)

section

variable {α : Type} [Ord α] [Std.TransOrd α] {xs : List α}

/-- Sorting and dropping repetitions changes no member. -/
theorem mem_sortDistinct [BEq α] [LawfulBEq α] [Std.LawfulEqOrd α] {x : α} :
    x ∈ sortDistinct xs ↔ x ∈ xs := by
  rw [sortDistinct, ExtTreeSet.mem_toList, ExtTreeSet.mem_ofList, List.contains_iff_mem]

/-- The result ascends strictly. -/
theorem pairwise_sortDistinct : (sortDistinct xs).Pairwise fun a b => compare a b = .lt :=
  ExtTreeSet.ordered_toList

end

namespace ColoredGraph

variable {g : ColoredGraph} {cells : List (List Nat)} {c : Color} {v : Nat}

/-! ### One cell -/

/-- The cell of a colour holds the vertices of this colour. -/
theorem mem_cell : v ∈ g.cell c ↔ g.colors[v]? = some c := by
  rw [cell, List.mem_filter, List.mem_range, beq_iff_eq, vertexCount]
  refine and_iff_right_of_imp fun h => ?_
  exact (Array.getElem?_eq_some_iff.1 h).1

theorem pairwise_cell : (g.cell c).Pairwise (· < ·) := List.pairwise_lt_range.filter _

/-- The cells are those of the colours that occur in the graph. -/
theorem mem_cells {vs : List Nat} : vs ∈ g.cells ↔ ∃ c ∈ g.colors, g.cell c = vs := by
  simp only [cells, List.mem_map, mem_sortDistinct, Array.mem_toList_iff]

/-! ### All cells -/

/-- The lists divide the vertices of the graph up by colour, in ascending order. -/
structure IsColorPartition (g : ColoredGraph) (cells : List (List Nat)) : Prop where
  /-- Every vertex stands in one cell, and stands there once. -/
  perm : cells.flatten.Perm (List.range g.vertexCount)
  ne_nil : ∀ vs ∈ cells, vs ≠ []
  /-- Vertices share a cell if they have one colour, and only then. -/
  together : ∀ v < g.vertexCount, ∀ w < g.vertexCount,
    (∃ vs ∈ cells, v ∈ vs ∧ w ∈ vs) ↔ g.colors[v]? = g.colors[w]?
  /-- Later cells have higher colours. -/
  colors_lt : cells.Pairwise fun vs ws => ∀ v ∈ vs, ∀ w ∈ ws, ∀ c d : Color,
    g.colors[v]? = some c → g.colors[w]? = some d → c < d
  ascending : ∀ vs ∈ cells, vs.Pairwise (· < ·)

theorem exists_color (h : v < g.vertexCount) : ∃ c, g.colors[v]? = some c :=
  ⟨_, Array.getElem?_eq_getElem h⟩

/-- An earlier cell is that of a smaller colour. -/
theorem colors_lt_cells : g.cells.Pairwise fun vs ws => ∀ v ∈ vs, ∀ w ∈ ws, ∀ c d : Color,
    g.colors[v]? = some c → g.colors[w]? = some d → c < d := by
  rw [cells, List.pairwise_map]
  refine pairwise_sortDistinct.imp fun {a b} hab v hv w hw c d hc hd => ?_
  rw [mem_cell, hc, Option.some.injEq] at hv
  rw [mem_cell, hd, Option.some.injEq] at hw
  subst hv hw
  exact Std.compare_eq_lt.1 hab

/-- No vertex stands in the cells twice: within a cell vertices ascend, and different cells have
different colours. -/
theorem nodup_flatten_cells : g.cells.flatten.Nodup := by
  rw [List.nodup_flatten]
  constructor
  · intro vs hvs
    obtain ⟨c, -, rfl⟩ := mem_cells.1 hvs
    exact pairwise_cell.imp Nat.ne_of_lt
  · -- a vertex in two cells would have a colour below itself
    refine colors_lt_cells.imp_of_mem fun {vs ws} hvs _ hlt v hv hw => ?_
    obtain ⟨c, -, rfl⟩ := mem_cells.1 hvs
    have hc := mem_cell.1 hv
    exact UInt32.lt_irrefl c (hlt v hv v hw c c hc hc)

/-- Every vertex stands in the cell of its colour. -/
theorem mem_flatten_cells : v ∈ g.cells.flatten ↔ v < g.vertexCount := by
  rw [List.mem_flatten]
  constructor
  · rintro ⟨vs, hvs, hv⟩
    obtain ⟨c, -, rfl⟩ := mem_cells.1 hvs
    exact (Array.getElem?_eq_some_iff.1 (mem_cell.1 hv)).1
  · intro hv
    obtain ⟨c, hc⟩ := exists_color hv
    exact ⟨g.cell c, mem_cells.2 ⟨c, Array.mem_of_getElem? hc, rfl⟩, mem_cell.2 hc⟩

/-- The cells divide the vertices up by colour, each of the five parts by the lemmas above. -/
theorem isColorPartition_cells : g.IsColorPartition g.cells where
  perm := by
    rw [List.perm_ext_iff_of_nodup nodup_flatten_cells List.nodup_range]
    intro v
    rw [mem_flatten_cells, List.mem_range]
  ne_nil := by
    intro vs hvs
    obtain ⟨c, hc, rfl⟩ := mem_cells.1 hvs
    obtain ⟨v, hv⟩ := Array.mem_iff_getElem?.1 hc
    exact List.ne_nil_of_mem (mem_cell.2 hv)
  together := by
    intro v hv w _
    constructor
    · rintro ⟨vs, hvs, hv, hw⟩
      obtain ⟨c, -, rfl⟩ := mem_cells.1 hvs
      rw [mem_cell.1 hv, mem_cell.1 hw]
    · intro heq
      obtain ⟨c, hc⟩ := exists_color hv
      -- the cell of the common colour holds both
      exact ⟨g.cell c, mem_cells.2 ⟨c, Array.mem_of_getElem? hc, rfl⟩, mem_cell.2 hc,
        mem_cell.2 (heq ▸ hc)⟩
  colors_lt := colors_lt_cells
  ascending := by
    intro vs hvs
    obtain ⟨c, -, rfl⟩ := mem_cells.1 hvs
    exact pairwise_cell

/-! ### What colours are called -/

variable {h : ColoredGraph} {images : Array Nat}

/-- Whether two vertices have one colour can be read off the cells, and an automorphism asks nothing
else of colours. -/
theorem IsAutomorphism.of_cells_eq (hcount : g.vertexCount = h.vertexCount)
    (hedges : ∀ a b, g.hasEdge a b = h.hasEdge a b) (hcells : g.cells = h.cells)
    (hg : g.IsAutomorphism images) : h.IsAutomorphism images where
  size := hg.size.trans hcount
  lt := hcount ▸ hg.lt
  injective := hcount ▸ hg.injective
  color := by
    intro v hv
    have hv' : v < g.vertexCount := hcount ▸ hv
    have himage := hg.lt v hv'
    have hcell := (isColorPartition_cells.together _ himage v hv').2 (hg.color v hv')
    rw [hcells] at hcell
    exact (isColorPartition_cells.together _ (hcount ▸ himage) v hv).1 hcell
  edge := by
    intro a b hab
    rw [← hedges] at hab ⊢
    exact hg.edge a b hab

/-- Graphs that differ in nothing but the names of their colours, so that their cells are the same
lists, have the same automorphisms. -/
theorem isAutomorphism_eq (hcount : g.vertexCount = h.vertexCount)
    (hedges : ∀ a b, g.hasEdge a b = h.hasEdge a b) (hcells : g.cells = h.cells)
    (images : Array Nat) : g.isAutomorphism images = h.isAutomorphism images := by
  rw [Bool.eq_iff_iff, isAutomorphism_iff, isAutomorphism_iff]
  exact ⟨.of_cells_eq hcount hedges hcells,
    .of_cells_eq hcount.symm (fun a b => (hedges a b).symm) hcells.symm⟩

end ColoredGraph

end PlanOrbits
