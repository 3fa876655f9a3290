import PlanOrbits.Proofs.Graph.Parts
import PlanOrbits.Proofs.Graph.Renumbering

/-!
# Graphs of vertices with identifiers

Vertices with identifiers, and edges between identifiers, make a graph if no identifier is there
twice and every edge joins two different ones of them (`exists_densify_iff`). The argument goes
along the edges: the vertices of listed identifiers are vertices of the graph, and different for
different identifiers, so that an edge is added if it fits (`exists_join_iff`) and refused for one
of three reasons if it does not (`join_eq_error_iff`).

The graph is said in terms of the identifiers (`IsGraph`). There is one such graph, whichever order
the vertices and edges are listed in; this is why the order does not matter (`Alike.densify_eq`).
-/

namespace PlanOrbits.SparseGraph

open ColoredGraph (Pairs)

variable {s s' : SparseGraph} {g g' : ColoredGraph} {r : Renumbering} {cause : GraphError}
  {a b v w : Nat}

/-! ### Identifiers -/

/-- The identifiers of the vertices, as they are listed. -/
def ids (s : SparseGraph) : List Nat := s.vertices.map Prod.fst

/-- An identifier has a vertex if and only if a vertex with it is listed. -/
theorem exists_dense_iff : (∃ v, s.renumbering.dense a = .ok v) ↔ a ∈ s.ids :=
  Renumbering.exists_dense_iff.trans Renumbering.mem_ofIds

/-- An identifier that is not listed is reported under its own number. -/
theorem dense_eq_error_iff :
    s.renumbering.dense a = .error cause ↔ a ∉ s.ids ∧ cause = .unknownId a := by
  rw [Renumbering.dense_eq_error_iff, renumbering, Renumbering.mem_ofIds, ids]

/-- There are as many vertices as different identifiers. -/
theorem size_renumbering (s : SparseGraph) : s.renumbering.size = s.ids.dedup.length :=
  Renumbering.size_ofIds _

/-- The test for repeated identifiers compares two lengths, which are equal only if there are none.
-/
theorem size_renumbering_eq_iff : s.renumbering.size = s.vertices.length ↔ s.ids.Nodup := by
  rw [← Renumbering.size_ofIds_eq_length_iff, ids, List.length_map, renumbering]

/-! ### One edge -/

/-- The edge joins two different identifiers that are listed. -/
def Fits (s : SparseGraph) (edge : Nat × Nat) : Prop :=
  edge.1 ∈ s.ids ∧ edge.2 ∈ s.ids ∧ edge.1 ≠ edge.2

instance (s : SparseGraph) (edge : Nat × Nat) : Decidable (s.Fits edge) :=
  inferInstanceAs (Decidable (_ ∧ _ ∧ _))

/-- Why an edge is refused. Its identifiers are looked up before the vertices are compared. -/
inductive Refuses (s : SparseGraph) : Nat × Nat → GraphError → Prop where
  | first {a b : Nat} (ha : a ∉ s.ids) : Refuses s (a, b) (.unknownId a)
  | second {a b : Nat} (ha : a ∈ s.ids) (hb : b ∉ s.ids) : Refuses s (a, b) (.unknownId b)
  | loop {a v : Nat} (ha : s.renumbering.dense a = .ok v) : Refuses s (a, a) (.selfLoop v)

/-- Add the edge between two identifiers. -/
def join (s : SparseGraph) (g : ColoredGraph) (edge : Nat × Nat) :
    Except GraphError ColoredGraph := do
  let low ← s.renumbering.dense edge.1
  let high ← s.renumbering.dense edge.2
  (g.addEdge low high).map Prod.fst

/-- An edge is added between the vertices of its identifiers. -/
theorem join_eq_ok_iff : s.join g (a, b) = .ok g' ↔ ∃ low high new,
    s.renumbering.dense a = .ok low ∧ s.renumbering.dense b = .ok high ∧
      g.addEdge low high = .ok (g', new) := by
  simp only [join, bind_eq_ok_iff, map_eq_ok_iff]
  constructor
  · rintro ⟨low, hlow, high, hhigh, ⟨_, new⟩, hadd, rfl⟩
    exact ⟨low, high, new, hlow, hhigh, hadd⟩
  · rintro ⟨low, high, new, hlow, hhigh, hadd⟩
    exact ⟨low, hlow, high, hhigh, _, hadd, rfl⟩

/-- An added edge joins the vertices of its two identifiers and leaves everything else as it was,
said of vertices that are given by identifiers. -/
theorem hasEdge_of_join (h : s.join g (a, b) = .ok g') :
    g'.colors = g.colors ∧ ∀ c d v w, s.renumbering.dense c = .ok v →
      s.renumbering.dense d = .ok w →
        (g'.hasEdge v w = true ↔ (a = c ∧ b = d) ∨ (a = d ∧ b = c) ∨ g.hasEdge v w = true) := by
  obtain ⟨low, high, new, hlow, hhigh, hadd⟩ := join_eq_ok_iff.1 h
  obtain ⟨hcolors, hedges⟩ := ColoredGraph.hasEdge_of_addEdge hadd
  refine ⟨hcolors, fun c d v w hc hd => ?_⟩
  rw [hedges, Renumbering.eq_iff_of_dense hlow hc, Renumbering.eq_iff_of_dense hhigh hd,
    Renumbering.eq_iff_of_dense hlow hd, Renumbering.eq_iff_of_dense hhigh hc]

/-- An added edge leaves the vertices alone. -/
theorem vertexCount_of_join {edge : Nat × Nat} (h : s.join g edge = .ok g') :
    g'.vertexCount = g.vertexCount :=
  congrArg Array.size (hasEdge_of_join h).1

/-- An edge is added if it fits and refused if it does not. Vertices of listed identifiers are
vertices of the graph, and different for different identifiers. -/
theorem exists_join_iff (hcount : g.vertexCount = s.renumbering.size) :
    (∃ g', s.join g (a, b) = .ok g') ↔ s.Fits (a, b) := by
  simp only [join_eq_ok_iff]
  constructor
  · rintro ⟨g', low, high, new, hlow, hhigh, hadd⟩
    obtain ⟨hne, -⟩ := ColoredGraph.exists_addEdge_eq_ok_iff.1 ⟨_, hadd⟩
    exact ⟨exists_dense_iff.1 ⟨low, hlow⟩, exists_dense_iff.1 ⟨high, hhigh⟩,
      mt (Renumbering.eq_iff_of_dense hlow hhigh).2 hne⟩
  · rintro ⟨ha, hb, hne⟩
    obtain ⟨low, hlow⟩ := exists_dense_iff.2 ha
    obtain ⟨high, hhigh⟩ := exists_dense_iff.2 hb
    have hjoinable : ColoredGraph.Joinable g.vertexCount (low, high) :=
      ⟨mt (Renumbering.eq_iff_of_dense hlow hhigh).1 hne,
        hcount ▸ Renumbering.lt_size_iff.2 ⟨a, hlow⟩, hcount ▸ Renumbering.lt_size_iff.2 ⟨b, hhigh⟩⟩
    obtain ⟨⟨g', new⟩, hadd⟩ := ColoredGraph.exists_addEdge_eq_ok_iff.2 hjoinable
    exact ⟨g', low, high, new, hlow, hhigh, hadd⟩

/-- The reason for which an edge is refused: the first identifier, the second one, or that both are
one. -/
theorem join_eq_error_iff (hcount : g.vertexCount = s.renumbering.size) :
    s.join g (a, b) = .error cause ↔ s.Refuses (a, b) cause := by
  have hlt : ∀ {a v : Nat}, s.renumbering.dense a = .ok v → v < g.vertexCount :=
    fun h => hcount ▸ Renumbering.lt_size_iff.2 ⟨_, h⟩
  simp only [join, bind_eq_error_iff, map_eq_error_iff, ColoredGraph.addEdge_eq_error_iff,
    dense_eq_error_iff]
  constructor
  · rintro (⟨ha, rfl⟩ | ⟨low, hlow, ⟨hb, rfl⟩ | ⟨high, hhigh, hrefuses⟩⟩)
    · exact .first ha
    · exact .second (exists_dense_iff.1 ⟨low, hlow⟩) hb
    · -- vertices of identifiers are vertices of the graph, so that only a loop is left
      cases hrefuses with
      | first hlarge => exact absurd (hlt hlow) (Nat.not_lt.2 hlarge)
      | second _ hlarge => exact absurd (hlt hhigh) (Nat.not_lt.2 hlarge)
      | loop =>
          obtain rfl : a = b := (Renumbering.eq_iff_of_dense hlow hhigh).1 rfl
          exact .loop hlow
  · intro h
    cases h with
    | first ha => exact .inl ⟨ha, rfl⟩
    | second ha hb =>
        obtain ⟨low, hlow⟩ := exists_dense_iff.2 ha
        exact .inr ⟨low, hlow, .inl ⟨hb, rfl⟩⟩
    | loop ha => exact .inr ⟨_, ha, .inr ⟨_, ha, .loop (hlt ha)⟩⟩

/-! ### All edges -/

variable {edges : List (Nat × Nat)}

/-- What a list of edges changes, by induction on the list: vertices are joined if their identifiers
are paired, or if they were joined before. -/
theorem hasEdge_of_foldlM_join (h : edges.foldlM s.join g = .ok g') :
    g'.colors = g.colors ∧ ∀ a b v w, s.renumbering.dense a = .ok v →
      s.renumbering.dense b = .ok w →
        (g'.hasEdge v w = true ↔ Pairs edges a b ∨ g.hasEdge v w = true) := by
  induction edges generalizing g with
  | nil =>
      cases h
      simp [Pairs]
  | cons edge edges ih =>
      rw [List.foldlM_cons, bind_eq_ok_iff] at h
      obtain ⟨g₁, hjoin, hrest⟩ := h
      obtain ⟨hcolors, hjoined⟩ := hasEdge_of_join hjoin
      obtain ⟨hcolors', hjoined'⟩ := ih hrest
      refine ⟨hcolors'.trans hcolors, fun a b v w ha hb => ?_⟩
      rw [hjoined' a b v w ha hb, hjoined a b v w ha hb]
      simp only [Pairs, List.mem_cons, Prod.ext_iff]
      grind

/-- A list of edges can be added if and only if every edge fits. -/
theorem exists_foldlM_join_iff (hcount : g.vertexCount = s.renumbering.size) :
    (∃ g', edges.foldlM s.join g = .ok g') ↔ ∀ edge ∈ edges, s.Fits edge := by
  induction edges generalizing g with
  | nil => simp [pure, Except.pure]
  | cons edge edges ih =>
      rw [List.forall_mem_cons, ← exists_join_iff hcount]
      simp only [List.foldlM_cons, bind_eq_ok_iff]
      constructor
      · rintro ⟨g', g₁, hjoin, hrest⟩
        have hcount₁ := (vertexCount_of_join hjoin).trans hcount
        exact ⟨⟨g₁, hjoin⟩, (ih hcount₁).1 ⟨g', hrest⟩⟩
      · rintro ⟨⟨g₁, hjoin⟩, hrest⟩
        have hcount₁ := (vertexCount_of_join hjoin).trans hcount
        obtain ⟨g', hg'⟩ := (ih hcount₁).2 hrest
        exact ⟨g', g₁, hjoin, hg'⟩

/-- The count of vertices along a list of edges. -/
theorem vertexCount_of_foldlM_join (h : edges.foldlM s.join g = .ok g') :
    g'.vertexCount = g.vertexCount :=
  congrArg Array.size (hasEdge_of_foldlM_join h).1

/-- If an edge does not fit, the first such edge is the error; those before it have been added. -/
theorem foldlM_join_eq_error_iff (hcount : g.vertexCount = s.renumbering.size) :
    edges.foldlM s.join g = .error cause ↔ ∃ before edge after, edges = before ++ edge :: after ∧
      (∀ fitting ∈ before, s.Fits fitting) ∧ s.Refuses edge cause := by
  rw [foldlM_eq_error_iff]
  refine exists_congr fun before => exists_congr fun edge => exists_congr fun after => ?_
  constructor
  · rintro ⟨g₁, hedges, hbefore, hedge⟩
    have hcount₁ := (vertexCount_of_foldlM_join hbefore).trans hcount
    exact ⟨hedges, (exists_foldlM_join_iff hcount).1 ⟨g₁, hbefore⟩,
      (join_eq_error_iff hcount₁).1 hedge⟩
  · rintro ⟨hedges, hbefore, hedge⟩
    obtain ⟨g₁, hg₁⟩ := (exists_foldlM_join_iff hcount).2 hbefore
    have hcount₁ := (vertexCount_of_foldlM_join hg₁).trans hcount
    exact ⟨g₁, hedges, hg₁, (join_eq_error_iff hcount₁).2 hedge⟩

/-! ### Colours -/

/-- The colours of the vertices, in the order of their identifiers. -/
def colors (s : SparseGraph) : Array Color :=
  s.renumbering.ids.map fun id => (s.vertices.lookup id).getD 0

theorem size_colors (s : SparseGraph) : s.colors.size = s.renumbering.size := Array.size_map

/-- The colour at the vertex of an identifier is the one listed first with it. -/
theorem getElem?_colors (h : s.renumbering.dense a = .ok v) :
    s.colors[v]? = some ((s.vertices.lookup a).getD 0) := by
  rw [Renumbering.dense_eq_ok_iff, Renumbering.external?] at h
  rw [colors, Array.getElem?_map, h, Option.map_some]

/-- If no identifier is listed twice, it is the only one listed with it. -/
theorem getElem?_colors_of_mem (h : s.ids.Nodup) {color : Color} (hmem : (a, color) ∈ s.vertices)
    (hv : s.renumbering.dense a = .ok v) : s.colors[v]? = some color := by
  obtain ⟨color', hlookup⟩ : ∃ color', s.vertices.lookup a = some color' := by
    rw [← Option.isSome_iff_exists, List.lookup_isSome_iff]
    exact ⟨(a, color), hmem, beq_self_eq_true a⟩
  obtain ⟨before, after, hsplit, -⟩ := List.lookup_eq_some_iff.1 hlookup
  have hmem' : (a, color') ∈ s.vertices := by
    rw [hsplit]
    exact List.mem_append_right _ List.mem_cons_self
  rw [getElem?_colors hv, hlookup]
  -- the identifier is listed once, and with it one colour
  exact congrArg (some ·.2) (List.inj_on_of_nodup_map h hmem' hmem rfl)

/-- Writing one colour, with the lookup of its vertex taken out. -/
theorem place_eq_ok {b w : Nat} (hw : r.dense b = .ok w) (colors : Array Color) (color : Color) :
    r.tables.place colors (b, color) = .ok (colors.setIfInBounds w color) := by
  rw [IdTables.place, IdTables.vertexOf_tables, hw]
  rfl

/-- The colour of one identifier is written, and those of the others stay, since different
identifiers have different vertices. -/
theorem getElem?_setIfInBounds_of_dense {a b v w : Nat} {colors : Array Color}
    (hsize : colors.size = r.size) (hw : r.dense b = .ok w) (hv : r.dense a = .ok v)
    (color : Color) :
    (colors.setIfInBounds w color)[v]? = if a = b then some color else colors[v]? := by
  have hlt : v < colors.size := hsize ▸ Renumbering.lt_size_iff.2 ⟨a, hv⟩
  by_cases hab : a = b
  · obtain rfl : w = v := (Renumbering.eq_iff_of_dense hw hv).2 hab.symm
    rw [if_pos hab, Array.getElem?_setIfInBounds_self_of_lt hlt]
  · have hne : w ≠ v := mt (Renumbering.eq_iff_of_dense hw hv).1 (Ne.symm hab)
    rw [if_neg hab, Array.getElem?_setIfInBounds_ne hne]

/-- The loop over the vertices writes the colours of the list; where none is written, the table is
as before. By induction on the list, for every table with one place for each vertex. -/
theorem exists_foldlM_place_eq_ok {vertices : List (Nat × Color)} {colors : Array Color}
    (hlisted : ∀ vertex ∈ vertices, vertex.1 ∈ r.ids) (hnodup : (vertices.map Prod.fst).Nodup)
    (hsize : colors.size = r.size) :
    ∃ colors', vertices.foldlM r.tables.place colors = .ok colors' ∧ colors'.size = r.size ∧
      ∀ a v, r.dense a = .ok v → colors'[v]? = (vertices.lookup a).or colors[v]? := by
  induction vertices generalizing colors with
  | nil => exact ⟨colors, rfl, hsize, fun a v _ => rfl⟩
  | cons vertex vertices ih =>
      obtain ⟨b, color⟩ := vertex
      obtain ⟨hb, hlisted⟩ := List.forall_mem_cons.1 hlisted
      rw [List.map_cons, List.nodup_cons] at hnodup
      obtain ⟨w, hw⟩ := Renumbering.exists_dense_iff.2 hb
      have hsize' : (colors.setIfInBounds w color).size = r.size := by
        rw [Array.size_setIfInBounds, hsize]
      obtain ⟨colors', hplaced, hcount, hread⟩ := ih hlisted hnodup.2 hsize'
      refine ⟨colors', ?_, hcount, fun a v ha => ?_⟩
      · rw [List.foldlM_cons, place_eq_ok hw]
        exact hplaced
      · rw [hread a v ha, getElem?_setIfInBounds_of_dense hsize hw ha, List.lookup_cons]
        by_cases hab : a = b
        · -- the place is not written to again, since no vertex behind has the identifier
          have hnone : vertices.lookup b = none := by
            refine List.lookup_eq_none_iff.2 fun vertex hvertex => bne_iff_ne.2 ?_
            rintro rfl
            exact hnodup.1 (List.mem_map.2 ⟨vertex, hvertex, rfl⟩)
          simp [hab, hnone]
        · simp [hab, beq_false_of_ne]

/-- The loop, started with a table of zeros, gives `colors`. No zero is left, as every vertex has an
identifier that is listed. -/
theorem foldlM_place_eq (h : s.ids.Nodup) :
    s.vertices.foldlM s.renumbering.tables.place (Array.replicate s.vertices.length 0) =
      .ok s.colors := by
  have hsize := size_renumbering_eq_iff.2 h
  have hlisted : ∀ vertex ∈ s.vertices, vertex.1 ∈ s.renumbering.ids := fun vertex hvertex =>
    Renumbering.mem_ofIds.2 (List.mem_map_of_mem hvertex)
  obtain ⟨colors, hplaced, hcount, hread⟩ := exists_foldlM_place_eq_ok hlisted h
    (Array.size_replicate.trans hsize.symm)
  rw [hplaced]
  congr 1
  refine Array.ext_getElem? fun v => ?_
  by_cases hv : v < s.renumbering.size
  · obtain ⟨a, ha⟩ := Renumbering.lt_size_iff.1 hv
    rw [hread a v ha, getElem?_colors ha, Array.getElem?_replicate, if_pos (hsize ▸ hv)]
    cases s.vertices.lookup a <;> rfl
  · rw [Array.getElem?_eq_none (by omega), Array.getElem?_eq_none (by rw [size_colors]; omega)]

/-! ### Graphs -/

/-- Without repeated identifiers the edges are added to the graph of the colours. -/
theorem densify_of_nodup (h : s.ids.Nodup) :
    s.densify = (s.edges.foldlM s.join (.ofColors s.colors)).map (·, s.renumbering) := by
  have hsteps : s.densify = do
      let graph ← s.edges.foldlM s.join (.ofColors s.colors)
      return (graph, s.renumbering) := by
    rw [densify, if_neg (not_not.2 (size_renumbering_eq_iff.2 h))]
    rfl
  rw [hsteps]
  cases s.edges.foldlM s.join (.ofColors s.colors) <;> rfl

/-- Repeated identifiers are reported with the two counts that differ, before any edge is looked at.
-/
theorem densify_of_not_nodup (h : ¬s.ids.Nodup) :
    s.densify = .error (.duplicateVertex s.vertices.length s.ids.dedup.length) := by
  rw [densify, if_pos (mt size_renumbering_eq_iff.1 h), size_renumbering]
  rfl

/-- The two outcomes put together, for a graph. -/
theorem densify_eq_ok_iff : s.densify = .ok (g, r) ↔
    s.ids.Nodup ∧ s.edges.foldlM s.join (.ofColors s.colors) = .ok g ∧ r = s.renumbering := by
  by_cases h : s.ids.Nodup
  · rw [densify_of_nodup h, map_eq_ok_iff]
    simp [h, eq_comm]
  · simp [densify_of_not_nodup h, h]

/-- The graph of the colours has one vertex for each identifier. -/
theorem vertexCount_ofColors (s : SparseGraph) :
    (ColoredGraph.ofColors s.colors).vertexCount = s.renumbering.size := s.size_colors

/-- The identifiers are distinct, and every edge joins two different ones of them. -/
structure WellFormed (s : SparseGraph) : Prop where
  distinct : s.ids.Nodup
  fits : ∀ edge ∈ s.edges, s.Fits edge

/-- There is a graph if and only if the vertices and edges are well formed. -/
theorem exists_densify_iff : (∃ result, s.densify = .ok result) ↔ s.WellFormed := by
  constructor
  · rintro ⟨⟨g, r⟩, h⟩
    obtain ⟨hnodup, hg, -⟩ := densify_eq_ok_iff.1 h
    exact ⟨hnodup, (exists_foldlM_join_iff s.vertexCount_ofColors).1 ⟨g, hg⟩⟩
  · rintro ⟨hnodup, hfits⟩
    obtain ⟨g, hg⟩ := (exists_foldlM_join_iff s.vertexCount_ofColors).2 hfits
    exact ⟨(g, s.renumbering), densify_eq_ok_iff.2 ⟨hnodup, hg, rfl⟩⟩

/-- The first edge that is refused, and why. -/
def RefusesFirst (s : SparseGraph) (cause : GraphError) : Prop :=
  ∃ before edge after, s.edges = before ++ edge :: after ∧
    (∀ fitting ∈ before, s.Fits fitting) ∧ s.Refuses edge cause

/-- The error is that of repeated identifiers or that of the first edge that does not fit. -/
theorem densify_eq_error_iff : s.densify = .error cause ↔
    (¬s.ids.Nodup ∧ cause = .duplicateVertex s.vertices.length s.ids.dedup.length) ∨
      (s.ids.Nodup ∧ s.RefusesFirst cause) := by
  by_cases h : s.ids.Nodup
  · rw [densify_of_nodup h, map_eq_error_iff, foldlM_join_eq_error_iff s.vertexCount_ofColors]
    simp [h, RefusesFirst]
  · rw [densify_of_not_nodup h]
    simp [h, eq_comm]

/-- The graph has one vertex for each identifier, in the order of the identifiers, with the colour
that is listed with it, and joins the vertices whose identifiers are paired. -/
structure IsGraph (s : SparseGraph) (g : ColoredGraph) (r : Renumbering) : Prop where
  vertexCount : g.vertexCount = s.vertices.length
  numbered : ∀ a ∈ s.ids, ∃ v < g.vertexCount, r.dense a = .ok v
  listed : ∀ v < g.vertexCount, ∃ a ∈ s.ids, r.dense a = .ok v
  ascending : ∀ a b v w, r.dense a = .ok v → r.dense b = .ok w → (v < w ↔ a < b)
  colors : ∀ a color, (a, color) ∈ s.vertices → ∃ v, r.dense a = .ok v ∧ g.color v = .ok color
  edges : ∀ a b v w, r.dense a = .ok v → r.dense b = .ok w →
    (g.hasEdge v w = true ↔ Pairs s.edges a b)

/-- The graph that is made is the one that `IsGraph` describes by identifiers. -/
theorem isGraph_of_densify (h : s.densify = .ok (g, r)) : s.IsGraph g r := by
  obtain ⟨hnodup, hg, rfl⟩ := densify_eq_ok_iff.1 h
  obtain ⟨hcolors, hedges⟩ := hasEdge_of_foldlM_join hg
  have hcount : g.vertexCount = s.renumbering.size :=
    (vertexCount_of_foldlM_join hg).trans s.vertexCount_ofColors
  refine ⟨hcount.trans (size_renumbering_eq_iff.2 hnodup), fun a ha => ?_, fun v hv => ?_,
    fun a b v w => Renumbering.lt_iff_of_dense, fun a color hmem => ?_, fun a b v w ha hb => ?_⟩
  · obtain ⟨v, hv⟩ := exists_dense_iff.2 ha
    exact ⟨v, hcount ▸ Renumbering.lt_size_iff.2 ⟨a, hv⟩, hv⟩
  · obtain ⟨a, ha⟩ := Renumbering.lt_size_iff.1 (hcount ▸ hv)
    exact ⟨a, exists_dense_iff.1 ⟨v, ha⟩, ha⟩
  · obtain ⟨v, hv⟩ := exists_dense_iff.2 (List.mem_map_of_mem hmem)
    have hcolor : g.colors[v]? = some color := by
      rw [hcolors]
      exact getElem?_colors_of_mem hnodup hmem hv
    refine ⟨v, hv, ?_⟩
    rw [ColoredGraph.color, hcolor]
  · rw [hedges a b v w ha hb, ColoredGraph.hasEdge_ofColors]
    simp

/-- There is at most one graph that `IsGraph` describes. Every vertex has an identifier, by which
its colour is told, and by two identifiers whether two vertices are joined. -/
theorem IsGraph.unique (hg : s.IsGraph g r) (hg' : s.IsGraph g' r) : g = g' := by
  have hcount : g.vertexCount = g'.vertexCount := hg.vertexCount.trans hg'.vertexCount.symm
  have hcolors : g.colors = g'.colors := by
    refine Array.ext_getElem? fun v => ?_
    by_cases hv : v < g.vertexCount
    · obtain ⟨a, ha, hav⟩ := hg.listed v hv
      obtain ⟨⟨a, color⟩, hmem, rfl⟩ := List.mem_map.1 ha
      obtain ⟨w, haw, hcolor⟩ := hg.colors a color hmem
      obtain ⟨w', haw', hcolor'⟩ := hg'.colors a color hmem
      obtain rfl : w = v := (Renumbering.eq_iff_of_dense haw hav).2 rfl
      obtain rfl : w' = w := (Renumbering.eq_iff_of_dense haw' haw).2 rfl
      rw [ColoredGraph.color_eq_ok_iff] at hcolor hcolor'
      rw [hcolor, hcolor']
    · have hv' : ¬v < g'.vertexCount := hcount ▸ hv
      rw [Array.getElem?_eq_none (Nat.not_lt.1 hv), Array.getElem?_eq_none (Nat.not_lt.1 hv')]
  refine ColoredGraph.eq_of_hasEdge hcolors fun v w => ?_
  by_cases hvw : v < g.vertexCount ∧ w < g.vertexCount
  · obtain ⟨a, -, ha⟩ := hg.listed v hvw.1
    obtain ⟨b, -, hb⟩ := hg.listed w hvw.2
    rw [Bool.eq_iff_iff, hg.edges a b v w ha hb, hg'.edges a b v w ha hb]
  · -- numbers that are no vertices are joined by neither graph
    have hnot : g.hasEdge v w = false := Bool.not_eq_true _ ▸ mt ColoredGraph.lt_of_hasEdge hvw
    have hnot' : g'.hasEdge v w = false :=
      Bool.not_eq_true _ ▸ mt ColoredGraph.lt_of_hasEdge (hcount ▸ hvw)
    rw [hnot, hnot']

/-- The same vertices in another order, and edges that pair the same identifiers. -/
structure Alike (s s' : SparseGraph) : Prop where
  vertices : s.vertices.Perm s'.vertices
  edges : ∀ a b, Pairs s.edges a b ↔ Pairs s'.edges a b

theorem Alike.ids (h : s.Alike s') : s.ids.Perm s'.ids := h.vertices.map Prod.fst

/-- Whether vertices and edges are well formed does not depend on their order. -/
theorem Alike.wellFormed (h : s.Alike s') (hs : s.WellFormed) : s'.WellFormed := by
  have hmem : ∀ {a}, a ∈ s.ids → a ∈ s'.ids := fun ha => h.ids.mem_iff.1 ha
  refine ⟨h.ids.nodup_iff.1 hs.distinct, fun (a, b) hab => ?_⟩
  rcases (h.edges a b).2 (.inl hab) with hab | hba
  · obtain ⟨ha, hb, hne⟩ := hs.fits _ hab
    exact ⟨hmem ha, hmem hb, hne⟩
  · obtain ⟨hb, ha, hne⟩ := hs.fits _ hba
    exact ⟨hmem ha, hmem hb, hne.symm⟩

/-- `IsGraph` says the same of a graph for alike documents. -/
theorem Alike.isGraph (h : s.Alike s') (hg : s'.IsGraph g r) : s.IsGraph g r where
  vertexCount := hg.vertexCount.trans h.vertices.length_eq.symm
  numbered := fun a ha => hg.numbered a (h.ids.mem_iff.1 ha)
  listed := fun v hv => by
    obtain ⟨a, ha, hav⟩ := hg.listed v hv
    exact ⟨a, h.ids.mem_iff.2 ha, hav⟩
  ascending := hg.ascending
  colors := fun a color hmem => hg.colors a color (h.vertices.mem_iff.1 hmem)
  edges := fun a b v w ha hb => (hg.edges a b v w ha hb).trans (h.edges a b).symm

/-- The order of the vertices does not matter, nor the order, the directions and the repetitions of
the edges: both graphs are described alike, and there is only one such graph. -/
theorem Alike.densify_eq (h : s.Alike s') {result : ColoredGraph × Renumbering}
    (hs : s.densify = .ok result) : s'.densify = .ok result := by
  obtain ⟨g, r⟩ := result
  obtain ⟨⟨g', r'⟩, hs'⟩ := exists_densify_iff.2 (h.wellFormed (exists_densify_iff.1 ⟨_, hs⟩))
  obtain rfl : r' = r := by
    rw [(densify_eq_ok_iff.1 hs).2.2, (densify_eq_ok_iff.1 hs').2.2]
    exact (Renumbering.ofIds_eq_ofIds fun id => h.ids.mem_iff).symm
  rw [hs', (isGraph_of_densify hs).unique (h.isGraph (isGraph_of_densify hs'))]

/-! ### Tables -/

/-- The loop over the edges is the same in both forms. -/
theorem join_tables (s : SparseGraph) : s.renumbering.tables.join = s.join := by
  funext g edge
  simp only [IdTables.join, join, IdTables.vertexOf_tables]

/-- With tables the same graph is made, and the same errors are raised. The colours are written one
by one into a table there, which `foldlM_place_eq` accounts for. -/
theorem assemble_eq (s : SparseGraph) :
    s.assemble = s.densify.map fun result => (result.1, result.2.tables) := by
  have htables : IdTables.ofIds (s.vertices.map Prod.fst) = s.renumbering.tables :=
    IdTables.ofIds_eq _
  by_cases h : s.ids.Nodup
  · have hsteps : s.assemble = do
        let colors ← s.vertices.foldlM s.renumbering.tables.place
          (Array.replicate s.vertices.length 0)
        let graph ← s.edges.foldlM s.renumbering.tables.join (.ofColors colors)
        return (graph, s.renumbering.tables) := by
      rw [assemble, htables, IdTables.size_tables,
        if_neg (not_not.2 (size_renumbering_eq_iff.2 h))]
    rw [hsteps, foldlM_place_eq h, join_tables, densify_of_nodup h]
    show (s.edges.foldlM s.join (.ofColors s.colors) >>= fun graph => _) = _
    cases s.edges.foldlM s.join (.ofColors s.colors) <;> rfl
  · rw [densify_of_not_nodup h, assemble, htables, IdTables.size_tables,
      if_pos (mt size_renumbering_eq_iff.1 h), s.size_renumbering]
    rfl

/-- Vertices with identifiers make a graph exactly if their identifiers are distinct and every edge
joins two different ones of them. The graph has one vertex for each identifier, in the order of the
identifiers, with the colour that is listed with it, and joins the vertices whose identifiers are
paired. The order in which vertices and edges are listed does not matter, nor do the directions and
the repetitions of the edges. Repeated identifiers are an error, and, where there are none, so is
the first edge that does not fit. Tables of the identifiers give the same answers. -/
theorem densify_faithful (s : SparseGraph) :
    ((∃ result, s.densify = .ok result) ↔ s.WellFormed) ∧
    (∀ g r, s.densify = .ok (g, r) → s.IsGraph g r) ∧
    (∀ s' result, s.Alike s' → s.densify = .ok result → s'.densify = .ok result) ∧
    (∀ cause, (s.densify = .error cause ↔
        (¬s.ids.Nodup ∧ cause = .duplicateVertex s.vertices.length s.ids.dedup.length) ∨
          (s.ids.Nodup ∧ s.RefusesFirst cause)) ∧
      cause.diagnostic.family = .graph) ∧
    (s.assemble = s.densify.map fun result => (result.1, result.2.tables)) ∧
    ∀ (r : Renumbering) (id v : Nat),
      r.tables.vertexOf id = r.dense id ∧ r.tables.idOf? v = r.external? v :=
  ⟨exists_densify_iff, fun _ _ => isGraph_of_densify, fun _ _ h => h.densify_eq,
    fun cause => ⟨densify_eq_error_iff, cause.family_diagnostic⟩, s.assemble_eq,
    fun r id v => ⟨IdTables.vertexOf_tables r id, IdTables.idOf?_tables r v⟩⟩

/-- Three vertices and one edge, listed once in one order of the vertices and twice in another. With
an edge between one identifier and itself there is no graph. -/
theorem densify_faithful_threeIds :
    (∃ g r v w, densify ⟨[(40, 1), (7, 0), (19, 1)], [(7, 40)]⟩ = .ok (g, r) ∧
      densify ⟨[(7, 0), (19, 1), (40, 1)], [(40, 7), (7, 40)]⟩ = .ok (g, r) ∧
      r.dense 7 = .ok v ∧ r.dense 40 = .ok w ∧ v < w ∧ g.hasEdge v w = true) ∧
    ∃ v, densify ⟨[(40, 1), (7, 0), (19, 1)], [(7, 40), (19, 19), (7, 8)]⟩ =
      .error (.selfLoop v) := by
  constructor
  · obtain ⟨hok, hgraph, halike, -⟩ := densify_faithful ⟨[(40, 1), (7, 0), (19, 1)], [(7, 40)]⟩
    obtain ⟨⟨g, r⟩, h⟩ := hok.2 ⟨by decide, by decide⟩
    have hg := hgraph g r h
    obtain ⟨v, -, hv⟩ := hg.numbered 7 (by decide)
    obtain ⟨w, -, hw⟩ := hg.numbered 40 (by decide)
    refine ⟨g, r, v, w, h, halike _ _ ⟨by decide, fun a b => ?_⟩ h, hv, hw,
      (hg.ascending _ _ _ _ hv hw).2 (by decide), (hg.edges _ _ _ _ hv hw).2 (.inl ?_)⟩
    · simp only [Pairs, List.mem_cons, List.not_mem_nil, Prod.mk.injEq, or_false]
      omega
    · exact List.mem_cons_self
  · obtain ⟨-, -, -, herror, -⟩ :=
      densify_faithful ⟨[(40, 1), (7, 0), (19, 1)], [(7, 40), (19, 19), (7, 8)]⟩
    obtain ⟨v, hv⟩ := exists_dense_iff.2 (show 19 ∈ SparseGraph.ids
      ⟨[(40, 1), (7, 0), (19, 1)], [(7, 40), (19, 19), (7, 8)]⟩ by decide)
    exact ⟨v, (herror _).1.2 (.inr ⟨by decide, [(7, 40)], (19, 19), [(7, 8)], rfl, by decide,
      .loop hv⟩)⟩

end PlanOrbits.SparseGraph
