import PlanOrbits.Encoding.Basic
import PlanOrbits.Proofs.Graph.Parts

/-!
# The encoder, step by step

`PartialPlan.encode` looks everything up and then makes the graph at once. Here the same is done in
steps. A graph grows vertex by vertex and edge by edge, and each edge is added when its vertices
have just been made; operators are looked up by their names in a table. So an edge might be refused
by the graph as it is at that moment, and a name might be missing in the table, which is no error
that is reported but the end of the program (`none`).

`Growth.Gives` says that a computation gives a value and by what the graph grows meanwhile, and
`Growth.Fails` that it ends with an error of the plan. Their rules follow the computation step by
step. All that is carried from one step to the next is the number of vertices: a new vertex differs
from all vertices before it, so that every edge from it to one of these is accepted
(`joinable_newest`).
-/

namespace PlanOrbits

open Std (ExtTreeMap)

/-- A computation on a graph that grows. -/
abbrev Growth (α : Type) : Type := StateT ColoredGraph (ExceptT Error Option) α

namespace Growth

variable {α β : Type}

/-- What becomes of a computation that starts from a graph. -/
def result (x : Growth α) (g : ColoredGraph) : Option (Except Error (α × ColoredGraph)) :=
  (x.run g).run

/-- Add a vertex and give its number. -/
def newVertex (color : Color) : Growth Nat := do
  let g ← get
  set (g.addVertex color)
  return g.vertexCount

/-- Add an edge between vertices that the graph must have by now. -/
def newEdge (a b : Nat) : Growth Unit := do
  let (g, _) ← (← get).addEdge a b
  set g

/-- Look up a name that must be in the table. -/
def lookUp (table : ExtTreeMap String Nat) (name : String) : Growth Nat := liftM table[name]?

end Growth

/-- To compare tables it is enough to go through the keys of one. -/
instance decidableDisjoint {α β : Type} (m : ExtTreeMap Nat α) (m' : ExtTreeMap Nat β) :
    Decidable (∀ v ∈ m, v ∉ m') :=
  decidable_of_iff (∀ v ∈ m.keys, v ∉ m') <| by simp only [ExtTreeMap.mem_keys]

/-! ### The steps of the encoder -/

namespace PartialPlan

open Growth (newVertex newEdge lookUp)

/-- Add vertices, whose colours are looked up one after the other, and give their numbers. -/
def growVertices {α : Type} (color : α → Except PlanError Color) : List α → Growth (List Nat)
  | [] => return []
  | x :: xs => do
      let v ← newVertex (← color x)
      let vs ← growVertices color xs
      return v :: vs

/-- Add the vertices of the variables of steps. -/
def growVariables (palette : Palette) : List Operator → Growth (List (Operator × List Nat))
  | [] => return []
  | op :: ops => do
      let vs ← growVertices (palette.variableColor ·.type) op.vars
      let steps ← growVariables palette ops
      return (op, vs) :: steps

/-- Add the vertices of operators and enter them into a table by their names. -/
def growOperators (palette : Palette) (table : ExtTreeMap String Nat) :
    List Operator → Growth (ExtTreeMap String Nat)
  | [] => return table
  | op :: ops => do
      let v ← newVertex (← palette.schema op.schema)
      growOperators palette (table.insert op.name v) ops

/-- Add the edges of a path that starts at a vertex. -/
def growPath (previous : Nat) : List Nat → Growth Unit
  | [] => return
  | v :: vs => do
      newEdge previous v
      growPath v vs

/-- Add the edges of the paths of steps, whose vertices are looked up by their names. -/
def growPaths (table : ExtTreeMap String Nat) : List (Operator × List Nat) → Growth Unit
  | [] => return
  | (op, vs) :: steps => do
      let v ← lookUp table op.name
      growPath v vs
      growPaths table steps

variable (p : PartialPlan)

/-- Add the constants, the variables, the operators and the paths of the steps, and give the table
of the operators. -/
def growOutline : Growth (ExtTreeMap String Nat) := do
  let palette := Palette.ofPlan p
  let _ ← growVertices (palette.constant ·.type) p.constantVertices
  let steps ← growVariables palette p.realSteps
  let operators ← growOperators palette ∅ p.operators
  growPaths operators steps
  return operators

/-- Add the arguments of a literal behind the previous place of it. -/
def growArguments (l : Literal) (color : Color) (previous : Nat) : List Variable → Growth Unit
  | [] => return
  | arg :: args => do
      let v ← newVertex color
      newEdge previous v
      let target ← p.target l arg
      newEdge v target
      growArguments l color v args

/-- Add a literal below its bracket and give the number of its head. -/
def growLiteral (palette : Palette) (bracket : Nat) (l : Literal) : Growth Nat := do
  let color ← palette.literal l
  let head ← newVertex color
  newEdge bracket head
  p.growArguments l color head l.atom.args
  return head

/-- Add literals below their bracket and enter their heads into a table. -/
def growLiterals {role : Role} (palette : Palette) (name : String) (bracket : Nat)
    (table : ExtTreeMap Nat (Occurrence role)) :
    List Literal → Growth (ExtTreeMap Nat (Occurrence role))
  | [] => return table
  | l :: ls => do
      let head ← p.growLiteral palette bracket l
      growLiterals palette name bracket (table.insert head ⟨name, l⟩) ls

/-- Add all of a plan and give the tables. -/
def grow : Growth (ExtTreeMap String Nat × ExtTreeMap Nat Producer × ExtTreeMap Nat Consumer) := do
  let palette := Palette.ofPlan p
  let operators ← p.growOutline
  let init ← lookUp operators p.init.name
  let producers ← p.growLiterals palette p.init.name init ∅ p.init.postconditions
  let goal ← lookUp operators p.goal.name
  let consumers ← p.growLiterals palette p.goal.name goal ∅ p.goal.preconditions
  return (operators, producers, consumers)

/-- Encode a plan by growing its graph from nothing. There is no answer if a name that is looked
up is missing, or if a vertex is entered as a head of both roles. -/
def encodeByGrowth : Option (Except Error PlanEncoding) :=
  (p.grow.result .empty).bind fun
    | .error e => some (.error e)
    | .ok ((operators, producers, consumers), graph) =>
        if disjoint : ∀ v ∈ producers, v ∉ consumers then
          some (.ok {
            graph, palette := Palette.ofPlan p, operators, producers, consumers, disjoint })
        else none

end PartialPlan

/-! ### Results -/

namespace Growth

variable {α β : Type} {x : Growth α} {f : α → Growth β} {g g' : ColoredGraph} {a : α}

/-- If the first part gives a value, the second part goes on with it from the graph that it leaves.
The three layers of `Growth` are taken off here, and nowhere else. -/
theorem result_bind_of_ok (h : x.result g = some (.ok (a, g'))) :
    (x >>= f).result g = (f a).result g' := by
  unfold result at *
  rw [StateT.run_bind, ExceptT.run_bind, h]
  rfl

/-- If the first part ends with an error, so does the whole. -/
theorem result_bind_of_error {cause : Error} (h : x.result g = some (.error cause)) :
    (x >>= f).result g = some (.error cause) := by
  unfold result at *
  rw [StateT.run_bind, ExceptT.run_bind, h]
  rfl

theorem result_pure (a : α) : (pure a : Growth α).result g = some (.ok (a, g)) := rfl

theorem result_liftM_ok (a : α) :
    (liftM (.ok a : Except PlanError α) : Growth α).result g = some (.ok (a, g)) := rfl

theorem result_liftM_error (cause : PlanError) :
    (liftM (.error cause : Except PlanError α) : Growth α).result g =
      some (.error (.plan cause)) := rfl

theorem result_newVertex (color : Color) :
    (newVertex color).result g = some (.ok (g.vertexCount, g.addVertex color)) := rfl

/-- An edge that the graph accepts. An edge that it refuses is an error of the graph, which
`exists_grown_addEdge` excludes where the encoder adds one. -/
theorem result_newEdge {u v : Nat} {new : Bool} (h : g.addEdge u v = .ok (g', new)) :
    (newEdge u v).result g = some (.ok ((), g')) := by
  have hrun : (newEdge u v).result g =
    ((liftM (g.addEdge u v) : Growth (ColoredGraph × Bool)) >>= fun r => set r.1).result g := rfl
  rw [hrun, h]
  rfl

/-- A name that is in the table. If it were missing, there would be no result. -/
theorem result_lookUp {table : ExtTreeMap String Nat} {name : String} {v : Nat}
    (h : table[name]? = some v) : (lookUp table name).result g = some (.ok (v, g)) := by
  rw [lookUp, h]
  rfl

end Growth

/-! ### Grown graphs -/

namespace ColoredGraph

/-- The graph has grown by vertices of the colours, in this order, and by edges that join the
pairs, in any order. -/
structure Grown (g : ColoredGraph) (colors : List Color) (pairs : List (Nat × Nat))
    (g' : ColoredGraph) : Prop where
  colors : g'.colors.toList = g.colors.toList ++ colors
  hasEdge : ∀ a b, g'.hasEdge a b = true ↔
    g.hasEdge a b = true ∨ (a, b) ∈ pairs ∨ (b, a) ∈ pairs

variable {g g' g'' : ColoredGraph} {colors colors' : List Color} {pairs pairs' : List (Nat × Nat)}

theorem grown_refl (g : ColoredGraph) : g.Grown [] [] g := ⟨by simp, by simp⟩

/-- Vertices are only added, one for each colour. This is what the rules for `Gives` hand on. -/
theorem Grown.vertexCount_eq {n : Nat} (h : g.Grown colors pairs g') (hn : g.vertexCount = n) :
    g'.vertexCount = n + colors.length := by
  have hlength := congrArg List.length h.colors
  rw [List.length_append, Array.length_toList, Array.length_toList] at hlength
  rw [← hn]
  exact hlength

/-- Growth in two stages: the colours are appended, and the edges of the second stage come to those
of the first. -/
theorem Grown.trans (h : g.Grown colors pairs g') (h' : g'.Grown colors' pairs' g'') :
    g.Grown (colors ++ colors') (pairs ++ pairs') g'' := by
  refine ⟨?_, fun a b => ?_⟩
  · rw [h'.colors, h.colors, List.append_assoc]
  · rw [h'.hasEdge, h.hasEdge, List.mem_append, List.mem_append]
    tauto

/-- The pairs count as a set, so that another order of them, or a pair named twice, is the same
growth. -/
theorem Grown.congr (h : g.Grown colors pairs g') (hpairs : ∀ pair, pair ∈ pairs ↔ pair ∈ pairs') :
    g.Grown colors pairs' g' := by
  refine ⟨h.colors, fun a b => ?_⟩
  rw [h.hasEdge, hpairs, hpairs]

/-- A new vertex brings one colour and no edge. -/
theorem grown_addVertex (g : ColoredGraph) (color : Color) :
    g.Grown [color] [] (g.addVertex color) := by
  refine ⟨Array.toList_push, fun a b => ?_⟩
  have hedge : (g.addVertex color).hasEdge a b = g.hasEdge a b := rfl
  simp [hedge]

/-- Vertices that can be joined are joined by `addEdge`, and nothing else changes. The edge may be
there already, which the flag `new` tells and the encoder does not ask. -/
theorem exists_grown_addEdge {a b : Nat} (h : Joinable g.vertexCount (a, b)) :
    ∃ g' new, g.addEdge a b = .ok (g', new) ∧ g.Grown [] [(a, b)] g' := by
  obtain ⟨⟨g', new⟩, hadd⟩ := exists_addEdge_eq_ok_iff.2 h
  obtain ⟨hcolors, hedges⟩ := hasEdge_of_addEdge hadd
  refine ⟨g', new, hadd, by rw [hcolors, List.append_nil], fun c d => ?_⟩
  rw [hedges, List.mem_singleton, List.mem_singleton, Prod.mk.injEq, Prod.mk.injEq]
  -- an edge afterwards is the new pair, in one direction or the other, or an edge from before
  constructor
  · rintro (⟨rfl, rfl⟩ | ⟨rfl, rfl⟩ | hcd)
    · exact .inr (.inl ⟨rfl, rfl⟩)
    · exact .inr (.inr ⟨rfl, rfl⟩)
    · exact .inl hcd
  · rintro (hcd | ⟨rfl, rfl⟩ | ⟨rfl, rfl⟩)
    · exact .inr (.inr hcd)
    · exact .inl ⟨rfl, rfl⟩
    · exact .inr (.inl ⟨rfl, rfl⟩)

/-- The newest vertex, number `n`, can be joined to every vertex before it. -/
theorem joinable_newest {u n : Nat} (h : u < n) : Joinable (n + 1) (u, n) :=
  ⟨Nat.ne_of_lt h, Nat.lt_succ_of_lt h, Nat.lt_succ_self n⟩

theorem joinable_newest_left {u n : Nat} (h : u < n) : Joinable (n + 1) (n, u) :=
  ⟨Nat.ne_of_gt h, Nat.lt_succ_self n, Nat.lt_succ_of_lt h⟩

/-- A graph that has grown from nothing is what `ofParts` makes of its colours and pairs. Colours
are compared as lists and edges one by one, since two graphs with the same edges are equal. -/
theorem Grown.ofParts_eq (h : empty.Grown colors pairs g) : ofParts colors pairs = .ok g := by
  have hempty : ∀ a b, empty.hasEdge a b = false := by
    intro a b
    simp [empty, ofColors, ColoredGraph.hasEdge]
  have hcolors : g.colors = colors.toArray := by
    simpa [empty, ofColors, ← Array.toList_inj] using h.colors
  -- what is joined can be joined, so that no pair is refused
  have hjoinable : ∀ pair ∈ pairs, Joinable colors.length pair := by
    intro pair hpair
    have hjoined := joinable_of_hasEdge ((h.hasEdge _ _).2 (.inr (.inl hpair)))
    rwa [h.vertexCount_eq rfl, show empty.vertexCount = 0 from rfl, Nat.zero_add] at hjoined
  obtain ⟨g', hg'⟩ := exists_ofParts_iff.2 hjoinable
  obtain ⟨hcolors', hedges'⟩ := hasEdge_ofParts hg'
  rw [hg']
  congr 1
  refine eq_of_hasEdge (hcolors'.trans hcolors.symm) fun a b => ?_
  rw [Bool.eq_iff_iff, hedges', h.hasEdge]
  simp [hempty]

end ColoredGraph

/-! ### Outcomes -/

namespace Growth

open ColoredGraph (Joinable)

variable {α β : Type} {x : Growth α} {f : α → Growth β} {g : ColoredGraph} {n : Nat} {a : α}
  {b : β} {colors colors' : List Color} {pairs pairs' : List (Nat × Nat)} {cause : PlanError}

/-- The computation gives the value, and the graph grows by the colours and the pairs. -/
def Gives (x : Growth α) (g : ColoredGraph) (a : α) (colors : List Color)
    (pairs : List (Nat × Nat)) : Prop :=
  ∃ g', x.result g = some (.ok (a, g')) ∧ g.Grown colors pairs g'

/-- The computation ends with an error of the plan. -/
def Fails (x : Growth α) (g : ColoredGraph) (cause : PlanError) : Prop :=
  x.result g = some (.error (.plan cause))

/-- The colours may be written another way, and the pairs listed in another order. -/
theorem Gives.congr (h : x.Gives g a colors pairs) (hcolors : colors = colors')
    (hpairs : ∀ pair, pair ∈ pairs ↔ pair ∈ pairs') : x.Gives g a colors' pairs' := by
  obtain ⟨g', h, hgrown⟩ := h
  exact ⟨g', h, hcolors ▸ hgrown.congr hpairs⟩

/-- The rule for two steps in a row. The second one may use that the graph has `n + colors.length`
vertices by then, and nothing else about it. -/
theorem Gives.bind (hx : x.Gives g a colors pairs) (hn : g.vertexCount = n)
    (hf : ∀ g', g'.vertexCount = n + colors.length → (f a).Gives g' b colors' pairs') :
    (x >>= f).Gives g b (colors ++ colors') (pairs ++ pairs') := by
  obtain ⟨g', hx, hgrown⟩ := hx
  obtain ⟨g'', hf, hgrown'⟩ := hf g' (hgrown.vertexCount_eq hn)
  exact ⟨g'', (result_bind_of_ok hx).trans hf, hgrown.trans hgrown'⟩

/-- A step that succeeds, then one that fails: what has been added is dropped with the graph. -/
theorem Gives.bind_fails (hx : x.Gives g a colors pairs) (hn : g.vertexCount = n)
    (hf : ∀ g', g'.vertexCount = n + colors.length → (f a).Fails g' cause) :
    (x >>= f).Fails g cause := by
  obtain ⟨g', hx, hgrown⟩ := hx
  exact (result_bind_of_ok hx).trans (hf g' (hgrown.vertexCount_eq hn))

theorem Fails.bind (hx : x.Fails g cause) : (x >>= f).Fails g cause := result_bind_of_error hx

theorem gives_pure (a : α) (g : ColoredGraph) : (pure a : Growth α).Gives g a [] [] :=
  ⟨g, result_pure a, g.grown_refl⟩

/-- A last step that only forms the value. -/
theorem Gives.bind_pure {value : α → β} (hx : x.Gives g a colors pairs) :
    (x >>= fun a => pure (value a)).Gives g (value a) colors pairs := by
  obtain ⟨g', hx, hgrown⟩ := hx
  exact ⟨g', (result_bind_of_ok hx).trans (result_pure _), hgrown⟩

/-- The number of the new vertex is the number of vertices there were. -/
theorem gives_newVertex (hn : g.vertexCount = n) (color : Color) :
    (newVertex color).Gives g n [color] [] :=
  ⟨g.addVertex color, hn ▸ result_newVertex color, g.grown_addVertex color⟩

/-- An edge between vertices that can be joined adds one pair and no vertex. -/
theorem gives_newEdge (hn : g.vertexCount = n) {u v : Nat} (h : Joinable n (u, v)) :
    (newEdge u v).Gives g () [] [(u, v)] := by
  obtain ⟨g', new, hadd, hgrown⟩ := ColoredGraph.exists_grown_addEdge (hn ▸ h)
  exact ⟨g', result_newEdge hadd, hgrown⟩

/-! What only looks something up leaves the graph as it is. -/

/-- A lookup of the palette that succeeds leaves the graph as it is. -/
theorem gives_liftM_bind {r : Except PlanError α} (h : r = .ok a)
    (hf : (f a).Gives g b colors pairs) : (liftM r >>= f).Gives g b colors pairs := by
  obtain ⟨g', hf, hgrown⟩ := hf
  exact ⟨g', (result_bind_of_ok (h ▸ result_liftM_ok a)).trans hf, hgrown⟩

/-- After a lookup that succeeds, the error is that of what follows. -/
theorem fails_liftM_bind {r : Except PlanError α} (h : r = .ok a) (hf : (f a).Fails g cause) :
    (liftM r >>= f).Fails g cause :=
  (result_bind_of_ok (h ▸ result_liftM_ok a)).trans hf

/-- A lookup that fails ends the growth with its error, as an error of the plan. -/
theorem fails_liftM {r : Except PlanError α} (h : r = .error cause) :
    (liftM r : Growth α).Fails g cause :=
  h ▸ result_liftM_error cause

/-- A vertex that is looked up by its name leaves the graph as it is. -/
theorem gives_lookUp_bind {table : ExtTreeMap String Nat} {name : String} {v : Nat}
    {f : Nat → Growth β} (h : table[name]? = some v) (hf : (f v).Gives g b colors pairs) :
    (lookUp table name >>= f).Gives g b colors pairs := by
  obtain ⟨g', hf, hgrown⟩ := hf
  exact ⟨g', (result_bind_of_ok (result_lookUp h)).trans hf, hgrown⟩

/-- As `gives_lookUp_bind`, for a continuation that fails. -/
theorem fails_lookUp_bind {table : ExtTreeMap String Nat} {name : String} {v : Nat}
    {f : Nat → Growth β} (h : table[name]? = some v) (hf : (f v).Fails g cause) :
    (lookUp table name >>= f).Fails g cause :=
  (result_bind_of_ok (result_lookUp h)).trans hf

end Growth

end PlanOrbits
