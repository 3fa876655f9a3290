import PlanOrbits.Proofs.Graph.Automorphism

/-!
# Graphs made of colours and pairs

Documents of graphs hold colours and a list of pairs, which are added one after the other.
This succeeds exactly if every pair names two different vertices (`exists_ofParts_iff`), and
the graph then joins the pairs (`hasEdge_ofParts`); otherwise the first pair that does not is
refused (`ofParts_eq_error_iff`). Since a graph is determined by its colours
and by which vertices it joins, its own colours and edges give it back (`ofParts_edgeList`).
-/

namespace PlanOrbits

/-- Every cause of an error of a graph is reported under the family `graph`. -/
theorem GraphError.family_diagnostic (cause : GraphError) : cause.diagnostic.family = .graph := by
  cases cause <;> rfl

namespace ColoredGraph

open Std (ExtTreeSet)

variable {g g' : ColoredGraph} {pairs : List (Nat × Nat)} {colors : List Color}

/-- Graphs with the same colours that join the same vertices are equal. -/
theorem eq_of_hasEdge (hcolors : g.colors = g'.colors)
    (hedges : ∀ a b, g.hasEdge a b = g'.hasEdge a b) : g = g' :=
  ColoredGraph.ext hcolors (edges_eq_of_hasEdge hedges)

/-- The query of a colour answers with the entry of the table. -/
theorem color_eq_ok_iff {v : Nat} {color : Color} :
    g.color v = .ok color ↔ g.colors[v]? = some color := by
  unfold ColoredGraph.color
  cases g.colors[v]? <;> simp

/-- The two numbers are paired, in one of the two directions. -/
def Pairs (pairs : List (Nat × Nat)) (a b : Nat) : Prop := (a, b) ∈ pairs ∨ (b, a) ∈ pairs

/-- The pair names two different vertices of a graph with so many vertices. -/
def Joinable (vertexCount : Nat) (pair : Nat × Nat) : Prop :=
  pair.1 ≠ pair.2 ∧ pair.1 < vertexCount ∧ pair.2 < vertexCount

instance (vertexCount : Nat) (pair : Nat × Nat) : Decidable (Joinable vertexCount pair) :=
  inferInstanceAs (Decidable (_ ∧ _ ∧ _))

/-- An edge is added if and only if its ends are two different vertices. -/
theorem exists_addEdge_eq_ok_iff {a b : Nat} :
    (∃ result, g.addEdge a b = .ok result) ↔ Joinable g.vertexCount (a, b) := by
  unfold addEdge Joinable
  by_cases ha : a < g.vertexCount
  · by_cases hb : b < g.vertexCount
    · by_cases hab : a = b <;> simp [ha, hb, hab]
    · simp [ha, hb]
  · simp [ha]

/-- An added edge makes at most one edge more, none if it was there. -/
theorem edgeCount_le_of_addEdge {a b : Nat} {new : Bool} (h : g.addEdge a b = .ok (g', new)) :
    g'.edgeCount ≤ g.edgeCount + 1 := by
  unfold addEdge at h
  split at h
  · split at h
    · split at h
      · cases h
        exact ExtTreeSet.size_insert_le
      · cases h
    · cases h
  · cases h

/-- Adding an edge leaves the vertices alone. -/
theorem vertexCount_of_addEdge {a b : Nat} {new : Bool} (h : g.addEdge a b = .ok (g', new)) :
    g'.vertexCount = g.vertexCount :=
  congrArg Array.size (hasEdge_of_addEdge h).1

/-- All pairs of a list can be added if and only if each can. The count of vertices, on which this
depends, does not change on the way. -/
theorem exists_addEdges_eq_ok_iff :
    (∃ g', g.addEdges pairs = .ok g') ↔ ∀ pair ∈ pairs, Joinable g.vertexCount pair := by
  unfold addEdges
  induction pairs generalizing g with
  | nil => simp [pure, Except.pure]
  | cons pair pairs ih =>
      obtain ⟨a, b⟩ := pair
      rw [List.forall_mem_cons, ← exists_addEdge_eq_ok_iff]
      simp only [List.foldlM_cons, bind_eq_ok_iff, map_eq_ok_iff]
      constructor
      · rintro ⟨g', g₁, ⟨⟨g₂, new⟩, h₁, rfl⟩, hrest⟩
        have hcount := vertexCount_of_addEdge h₁
        exact ⟨⟨_, h₁⟩, hcount ▸ ih.1 ⟨g', hrest⟩⟩
      · rintro ⟨⟨⟨g₂, new⟩, h₁⟩, hrest⟩
        have hcount := vertexCount_of_addEdge h₁
        obtain ⟨g', hg'⟩ := ih.2 (hcount.symm ▸ hrest)
        exact ⟨g', g₂, ⟨_, h₁, rfl⟩, hg'⟩

/-- A graph is made of colours and pairs if and only if every pair joins two different vertices. -/
theorem exists_ofParts_iff :
    (∃ g, ofParts colors pairs = .ok g) ↔ ∀ pair ∈ pairs, Joinable colors.length pair := by
  have hcount : (ofColors colors.toArray).vertexCount = colors.length := List.size_toArray
  rw [← hcount]
  exact exists_addEdges_eq_ok_iff

/-- There are at most as many edges more as pairs that were added. -/
theorem edgeCount_le_of_addEdges (h : g.addEdges pairs = .ok g') :
    g'.edgeCount ≤ g.edgeCount + pairs.length := by
  unfold addEdges at h
  induction pairs generalizing g with
  | nil =>
      cases h
      exact Nat.le_refl _
  | cons pair pairs ih =>
      rw [List.foldlM_cons, bind_eq_ok_iff] at h
      obtain ⟨g₁, h₁, h⟩ := h
      rw [map_eq_ok_iff] at h₁
      obtain ⟨⟨g₂, new⟩, h₁, rfl⟩ := h₁
      have hadded := edgeCount_le_of_addEdge h₁
      have hrest : g'.edgeCount ≤ g₂.edgeCount + pairs.length := ih h
      rw [List.length_cons]
      omega

/-- There are no more edges than pairs. -/
theorem edgeCount_le_of_ofParts (h : ofParts colors pairs = .ok g) :
    g.edgeCount ≤ pairs.length := by
  have hcount : (ofColors colors.toArray).edgeCount = 0 := ExtTreeSet.size_empty
  have hle := edgeCount_le_of_addEdges h
  omega

/-! ### Pairs that are refused -/

/-- Why a pair is refused by a graph with so many vertices: its first number is looked at before
its second, and both before it is asked whether they differ. -/
inductive Refuses (vertexCount : Nat) : Nat × Nat → GraphError → Prop where
  | first {a b : Nat} (ha : vertexCount ≤ a) :
      Refuses vertexCount (a, b) (.unknownVertex a vertexCount)
  | second {a b : Nat} (ha : a < vertexCount) (hb : vertexCount ≤ b) :
      Refuses vertexCount (a, b) (.unknownVertex b vertexCount)
  | loop {a : Nat} (ha : a < vertexCount) : Refuses vertexCount (a, a) (.selfLoop a)

/-- The first pair that is refused, and why. -/
def RefusesFirst (vertexCount : Nat) (pairs : List (Nat × Nat)) (cause : GraphError) : Prop :=
  ∃ before pair after, pairs = before ++ pair :: after ∧
    (∀ joined ∈ before, Joinable vertexCount joined) ∧ Refuses vertexCount pair cause

/-- `Refuses` names the three reasons in the order in which they are tested: the first end, the
second end, then whether they are one. The reason that is reported is the first that applies. -/
theorem addEdge_eq_error_iff {a b : Nat} {cause : GraphError} :
    g.addEdge a b = .error cause ↔ Refuses g.vertexCount (a, b) cause := by
  unfold addEdge
  constructor
  · intro h
    split at h
    · rename_i ha
      split at h
      · split at h
        · cases h
        · rename_i hab
          -- both ends are vertices, so they are refused for being one
          obtain rfl : a = b := not_not.1 hab
          cases h
          exact .loop ha
      · cases h
        exact .second ha (by omega)
    · cases h
      exact .first (by omega)
  · intro h
    cases h with
    | first ha => rw [dif_neg (by omega)]
    | second ha hb => rw [dif_pos ha, dif_neg (by omega)]
    | loop ha => rw [dif_pos ha, dif_pos ha, dif_neg (by simp)]

/-- The count of vertices along a list of pairs. -/
theorem vertexCount_of_addEdges (h : g.addEdges pairs = .ok g') :
    g'.vertexCount = g.vertexCount :=
  congrArg Array.size (hasEdge_of_addEdges h).1

/-- The error of a list is that of its first pair that cannot be added, all before it being added.
-/
theorem addEdges_eq_error_iff {cause : GraphError} :
    g.addEdges pairs = .error cause ↔ RefusesFirst g.vertexCount pairs cause := by
  unfold addEdges
  rw [foldlM_eq_error_iff]
  refine exists_congr fun before => exists_congr fun pair => exists_congr fun after => ?_
  constructor
  · rintro ⟨g₁, hpairs, hbefore, hpair⟩
    have hcount : g₁.vertexCount = g.vertexCount := vertexCount_of_addEdges hbefore
    refine ⟨hpairs, exists_addEdges_eq_ok_iff.1 ⟨g₁, hbefore⟩, hcount ▸ ?_⟩
    exact addEdge_eq_error_iff.1 (map_eq_error_iff.1 hpair)
  · rintro ⟨hpairs, hbefore, hpair⟩
    obtain ⟨g₁, hg₁⟩ := exists_addEdges_eq_ok_iff.2 hbefore
    have hcount : g₁.vertexCount = g.vertexCount := vertexCount_of_addEdges hg₁
    refine ⟨g₁, hpairs, hg₁, ?_⟩
    rw [← hcount, ← addEdge_eq_error_iff] at hpair
    exact map_eq_error_iff.2 hpair

/-- `ofParts` refuses a list of pairs with the cause of the first one that cannot be joined. -/
theorem ofParts_eq_error_iff {cause : GraphError} :
    ofParts colors pairs = .error cause ↔ RefusesFirst colors.length pairs cause := by
  have hcount : (ofColors colors.toArray).vertexCount = colors.length := List.size_toArray
  rw [← hcount]
  exact addEdges_eq_error_iff

/-- One pair that cannot be joined is enough for an error. -/
theorem exists_ofParts_eq_error (h : ∃ pair ∈ pairs, ¬Joinable colors.length pair) :
    ∃ cause, ofParts colors pairs = .error cause := by
  cases hparts : ofParts colors pairs with
  | error cause => exact ⟨cause, rfl⟩
  | ok g =>
      obtain ⟨pair, hmem, hnot⟩ := h
      exact absurd (exists_ofParts_iff.1 ⟨g, hparts⟩ pair hmem) hnot

/-! ### The edges of a graph -/

/-- The list of edges has every edge once. -/
theorem length_edgeList (g : ColoredGraph) : g.edgeList.length = g.edgeCount := by
  rw [edgeList, List.length_map, ExtTreeSet.length_toList, edgeCount]

/-- Joined vertices are two different vertices, so that the pair can be added to a graph with as
many. -/
theorem joinable_of_hasEdge {a b : Nat} (h : g.hasEdge a b = true) :
    Joinable g.vertexCount (a, b) := by
  refine ⟨fun (hab : a = b) => ?_, lt_of_hasEdge h⟩
  rw [hab, hasEdge_self] at h
  cases h

theorem joinable_of_mem_edgeList {pair : Nat × Nat} (h : pair ∈ g.edgeList) :
    Joinable g.vertexCount pair :=
  joinable_of_hasEdge (mem_edgeList.1 h).2

/-- A graph is made of its own colours and edges. The pairs can be joined, and what is made of them
has the same colours and joins the same vertices. -/
theorem ofParts_edgeList (g : ColoredGraph) : ofParts g.colors.toList g.edgeList = .ok g := by
  have hjoinable : ∀ pair ∈ g.edgeList, Joinable g.colors.toList.length pair := by
    rw [Array.length_toList]
    exact fun pair => joinable_of_mem_edgeList
  obtain ⟨g', hg'⟩ := exists_ofParts_iff.2 hjoinable
  obtain ⟨hcolors, hedges⟩ := hasEdge_ofParts hg'
  rw [hg']
  congr 1
  refine eq_of_hasEdge hcolors fun a b => ?_
  rw [Bool.eq_iff_iff, hedges, mem_edgeList, mem_edgeList, hasEdge_comm g b a, ← or_and_right]
  -- joined vertices differ, so that the edge is listed from one of them
  exact and_iff_right_of_imp fun hab => Nat.lt_or_gt_of_ne (joinable_of_hasEdge hab).1

end ColoredGraph

end PlanOrbits
