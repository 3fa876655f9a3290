import PlanOrbits.Proofs.Encoding.Layout
import PlanOrbits.Proofs.Graph.Adjacency

/-!
# The shape of a plan's graph

Which number each vertex has, how many vertices and edges there are, which vertices are joined
and what the tables hold (`PartialPlan.HasShape`, `hasShape_of_encode`).

The vertices stand in rows: the constants, the variables of the steps, the operators, and the
places of the literals (`PartialPlan.StandsFor`). To count the edges, each is ascribed to one of
its ends. A variable and a place of a literal bring the edge to the vertex before them on their
path, and an argument brings one more, to its constant (`PartialPlan.broughtLinks`). No edge is
brought twice, neither from one end nor from both.
-/

namespace PlanOrbits

/-! ### Counting places -/

/-- To count places of blocks by their place within the block, count block by block and add. -/
theorem countP_blockPlaces (q : Nat → Bool) (sizes : List Nat) :
    (blockPlaces sizes).countP (fun x => q x.2) =
      (sizes.map fun size => (List.range size).countP q).sum := by
  induction sizes with
  | nil => rfl
  | cons size sizes ih =>
      rw [blockPlaces_cons, List.countP_append, List.countP_map, List.countP_map, List.map_cons,
        List.sum_cons, ← ih]
      rfl

/-- There are as many places as the sizes of the blocks add up to. -/
theorem length_blockPlaces (sizes : List Nat) : (blockPlaces sizes).length = sizes.sum := by
  simpa using countP_blockPlaces (fun _ => true) sizes

namespace PartialPlan

variable (p : PartialPlan)

/-! ### The rows of vertices -/

/-- The number of variables of the first steps. -/
def variablesBefore (step : Nat) : Nat := ((p.steps.take step).flatMap (·.vars)).length

/-- The literals whose places come before those of a literal of the initial state or the goal. -/
def literalsBefore : Role → Nat → List Literal
  | .producer, index => p.init.postconditions.take index
  | .consumer, index => p.init.postconditions ++ p.goal.preconditions.take index

/-- What the vertex with a number stands for: first the distinct constants, each by its first
occurrence, then the variables of the steps, step by step, then the opening bracket, the steps
and the closing bracket, and then for each literal of the initial state and each of the goal a
head and its arguments. -/
inductive StandsFor : Nat → Vertex → Prop where
  | constant {i : Nat} {c : Constant} (hconstant : p.constantVertices[i]? = some c) :
      StandsFor i (.constant c)
  | variable {step index : Nat} {op : Operator} (hstep : p.steps[step]? = some op)
      (hindex : index < op.vars.length) :
      StandsFor (p.constantVertices.length + p.variablesBefore step + index)
        (.variable step index)
  | operator {index : Nat} {op : Operator} (hop : p.operators[index]? = some op) :
      StandsFor (p.constantVertices.length + p.variablesBefore p.steps.length + index)
        (.operator index)
  | literal {role : Role} {index place : Nat} {l : Literal}
      (hliteral : (p.literals role)[index]? = some l) (hplace : place ≤ l.arity) :
      StandsFor (p.constantVertices.length + p.variablesBefore p.steps.length +
          (p.steps.length + 2) + ((p.literalsBefore role index).map (1 + ·.arity)).sum + place)
        (.literal role index place)

/-- The literals of the initial state, then those of the goal. -/
def bracketLiterals : List Literal := p.init.postconditions ++ p.goal.preconditions

/-- The encoding of a plan has the vertices that are listed, with the colours of their kinds, the
edges of the paths and of the links, and nothing else; and its tables hold the operators and the
heads of the literals, and nothing else. -/
structure HasShape (e : PlanEncoding) : Prop where
  vertexCount : e.graph.vertexCount = p.constantVertices.length + p.variablesBefore p.steps.length +
    (p.steps.length + 2) + (p.bracketLiterals.map (1 + ·.arity)).sum
  edgeCount : e.graph.edgeCount =
    p.variablesBefore p.steps.length + (p.bracketLiterals.map (1 + 2 * ·.arity)).sum
  vertex : ∀ k < e.graph.vertexCount, ∃! v, p.StandsFor k v
  color : ∀ k v, p.StandsFor k v → ∃ color, p.HasColor v color ∧ e.graph.colors[k]? = some color
  hasEdge : ∀ a b, e.graph.hasEdge a b = true ↔
    ∃ v w, p.StandsFor a v ∧ p.StandsFor b w ∧ (p.Link v w ∨ p.Link w v)
  operator : ∀ name k, e.operators[name]? = some k ↔
    ∃ i op, p.operators[i]? = some op ∧ op.name = name ∧ p.StandsFor k (.operator i)
  producer : ∀ k o, e.producers[k]? = some o ↔ ∃ i l, p.init.postconditions[i]? = some l ∧
    p.StandsFor k (.literal .producer i 0) ∧ o = ⟨p.init.name, l⟩
  producerCount : e.producers.size = p.init.postconditions.length
  consumer : ∀ k o, e.consumers[k]? = some o ↔ ∃ i l, p.goal.preconditions[i]? = some l ∧
    p.StandsFor k (.literal .consumer i 0) ∧ o = ⟨p.goal.name, l⟩
  consumerCount : e.consumers.size = p.goal.preconditions.length

/-! ### Numbers -/

/-- The number of variables before a step, as the shape tells it, is the start of its block, as the
layout computes it. The next lemmas compare the two ways of counting for the other rows. -/
theorem variablesBefore_eq (step : Nat) : p.variablesBefore step = blockStart p.stepSizes step := by
  rw [variablesBefore, blockStart, stepSizes, List.length_flatMap, List.map_take]

/-- Before the step behind the last one there are all variables. -/
theorem variablesBefore_length : p.variablesBefore p.steps.length = p.stepSizes.sum := by
  rw [variablesBefore, List.take_length, List.length_flatMap, stepSizes]

theorem length_operators : p.operators.length = p.steps.length + 2 := by simp [operators]

/-- A literal takes one vertex more than it has arguments. -/
theorem sum_literalSizes (role : Role) :
    (p.literalSizes role).sum = ((p.literals role).map (1 + ·.arity)).sum := by
  simp only [literalSizes, Nat.add_comm]

/-- The number of the head of a literal: behind the outline come the literals of the first bracket,
then those of the second, each with its places. -/
theorem firstLiteral_add_blockStart (role : Role) (index : Nat) :
    p.firstLiteral role + blockStart (p.literalSizes role) index =
      p.firstOperator + p.operators.length +
        ((p.literalsBefore role index).map (1 + ·.arity)).sum := by
  have hstart : blockStart (p.literalSizes role) index =
      (((p.literals role).take index).map (1 + ·.arity)).sum := by
    simp only [blockStart, literalSizes, List.map_take, Nat.add_comm]
  cases role with
  | producer => rw [hstart, firstLiteral, literalsBefore, literals]
  | consumer =>
      rw [hstart, firstLiteral, literalsBefore, List.map_append, List.sum_append,
        sum_literalSizes, literals, literals, Nat.add_assoc]

variable {p}

/-- `StandsFor`, which describes the numbering row by row in terms of the plan, is the numbering of
the layout: `k` stands for `v` if and only if `v` is a vertex with the number `k`. -/
theorem standsFor_iff {k : Nat} {v : Vertex} :
    p.StandsFor k v ↔ v ∈ p.vertices ∧ p.number v = k := by
  have hfirst : p.constantVertices.length + p.variablesBefore p.steps.length = p.firstOperator := by
    rw [variablesBefore_length, firstOperator]
  constructor
  · intro h
    cases h with
    | constant hconstant =>
        have hnodup : p.constantVertices.Nodup := nodup_eraseDups p.constants
        obtain ⟨hi, rfl⟩ := List.getElem?_eq_some_iff.1 hconstant
        refine ⟨constant_mem_vertices.2 ?_, hnodup.idxOf_getElem k hi⟩
        exact List.mem_eraseDups.1 (List.getElem_mem hi)
    | «variable» hstep hindex =>
        refine ⟨?_, by rw [number, variablesBefore_eq]⟩
        rwa [variable_mem_vertices, blockSize_stepSizes hstep]
    | operator hop =>
        refine ⟨operator_mem_vertices.2 (List.getElem?_eq_some_iff.1 hop).1, ?_⟩
        rw [number, hfirst]
    | literal hliteral hplace =>
        refine ⟨?_, ?_⟩
        · rw [literal_mem_vertices, blockSize_literalSizes hliteral]
          exact Nat.lt_succ_of_le hplace
        · rw [number, firstLiteral_add_blockStart, hfirst, length_operators]
  · -- every name of a vertex belongs to something of the plan, which its rule asks for
    rintro ⟨hv, rfl⟩
    cases v with
    | constant c =>
        have hmem : c ∈ p.constantVertices := List.mem_eraseDups.2 (constant_mem_vertices.1 hv)
        exact .constant (by rw [number, List.getElem?_idxOf hmem])
    | «variable» step index =>
        rw [variable_mem_vertices] at hv
        obtain ⟨op, v, hstep, hv⟩ := exists_step_of_lt hv
        rw [number, ← variablesBefore_eq]
        exact .variable hstep (List.getElem?_eq_some_iff.1 hv).1
    | operator index =>
        rw [operator_mem_vertices] at hv
        rw [number, ← hfirst]
        exact .operator (List.getElem?_eq_getElem hv)
    | literal role index place =>
        rw [literal_mem_vertices] at hv
        obtain ⟨l, hl, hplace⟩ := exists_literal_of_lt hv
        rw [number, firstLiteral_add_blockStart, ← hfirst, length_operators]
        exact .literal hl hplace

/-- The number of vertices, row by row. -/
theorem length_vertices : p.vertices.length =
    p.constantVertices.length + p.variablesBefore p.steps.length + (p.steps.length + 2) +
      (p.bracketLiterals.map (1 + ·.arity)).sum := by
  simp only [vertices, List.length_append, List.length_map, List.length_range, length_blockPlaces,
    sum_literalSizes, variablesBefore_length, length_operators, bracketLiterals, List.map_append,
    List.sum_append, literals]
  omega

/-! ### Which vertex brings an edge -/

variable (p) in
/-- The vertex before a variable or a place on its path. -/
def before? : Vertex → Option Vertex
  | .constant _ => none
  | .variable step 0 => some (.operator (step + 1))
  | .variable step (index + 1) => some (.variable step index)
  | .operator _ => none
  | .literal role _ 0 => some (.operator (p.bracketIndex role))
  | .literal role index (place + 1) => some (.literal role index place)

variable (p) in
/-- The constant that an argument is bound to. -/
def bound? : Vertex → Option Vertex
  | .literal role index (arg + 1) => do
      let l ← (p.literals role)[index]?
      let v ← l.atom.args[arg]?
      let c ← p.substitution[v]?
      return .constant c
  | _ => none

variable (p) in
/-- The links of all vertices, each ascribed to the vertex that brings it. -/
def broughtLinks : List (Vertex × Vertex) :=
  p.vertices.filterMap (fun v => (p.before? v).map (·, v)) ++
    p.vertices.filterMap (fun v => (p.bound? v).map (v, ·))

/-- `bound?` gives the constant of an argument, and nothing for a head or for a vertex of another
kind. -/
theorem bound?_eq_some_iff {v w : Vertex} : p.bound? v = some w ↔
    ∃ role index arg l x c, v = .literal role index (arg + 1) ∧ w = .constant c ∧
      (p.literals role)[index]? = some l ∧ l.atom.args[arg]? = some x ∧
        p.substitution[x]? = some c := by
  constructor
  · intro h
    unfold bound? at h
    split at h
    · simp only [Option.bind_eq_bind, Option.bind_eq_some_iff, Option.pure_def,
        Option.some.injEq] at h
      obtain ⟨l, hl, x, hx, c, hc, rfl⟩ := h
      exact ⟨_, _, _, l, x, c, rfl, rfl, hl, hx, hc⟩
    · cases h
  · rintro ⟨role, index, arg, l, x, c, rfl, rfl, hl, hx, hc⟩
    simp only [bound?, hl, hx, hc, Option.bind_eq_bind, Option.bind_some, Option.pure_def]

/-- A brought link is one that a vertex brings to the one before it, or one that an argument brings
to its constant. -/
theorem mem_broughtLinks_iff {v w : Vertex} : (v, w) ∈ p.broughtLinks ↔
    (w ∈ p.vertices ∧ p.before? w = some v) ∨ (v ∈ p.vertices ∧ p.bound? v = some w) := by
  simp only [broughtLinks, List.mem_append, List.mem_filterMap, Option.map_eq_some_iff,
    Prod.mk.injEq]
  refine or_congr ⟨?_, ?_⟩ ⟨?_, ?_⟩
  · rintro ⟨w, hw, v, hv, rfl, rfl⟩
    exact ⟨hw, hv⟩
  · rintro ⟨hw, hv⟩
    exact ⟨w, hw, v, hv, rfl, rfl⟩
  · rintro ⟨v, hv, w, hw, rfl, rfl⟩
    exact ⟨hv, hw⟩
  · rintro ⟨hv, hw⟩
    exact ⟨v, hv, w, hw, rfl, rfl⟩

/-- The links that the vertices bring are all links. The first four rules of `Link` are the cases of
`before?`, and the last one is `bound?`. -/
theorem Encodes.mem_broughtLinks {e : PlanEncoding} (henc : p.Encodes e) {v w : Vertex} :
    (v, w) ∈ p.broughtLinks ↔ p.Link v w := by
  rw [mem_broughtLinks_iff]
  constructor
  · rintro (⟨hw, hv⟩ | ⟨-, hw⟩)
    · -- one case for each equation of `before?` that gives a vertex
      unfold before? at hv
      split at hv <;> cases hv
      · exact .first_variable (variable_mem_vertices.1 hw)
      · exact .next_variable (variable_mem_vertices.1 hw)
      · exact .head (literal_mem_vertices.1 hw)
      · exact .next_place (literal_mem_vertices.1 hw)
    · obtain ⟨role, index, arg, l, x, c, rfl, rfl, hl, hx, hc⟩ := bound?_eq_some_iff.1 hw
      obtain ⟨c', hmem, hc'⟩ :=
        henc.bound role l (List.mem_of_getElem? hl) x (List.mem_of_getElem? hx)
      rw [hc, Option.some.injEq] at hc'
      exact .argument hl hx hc (hc' ▸ hmem)
  · intro hlink
    have hmem := hlink.mem
    cases hlink with
    | first_variable h => exact .inl ⟨hmem.2, rfl⟩
    | next_variable h => exact .inl ⟨hmem.2, rfl⟩
    | head h => exact .inl ⟨hmem.2, rfl⟩
    | next_place h => exact .inl ⟨hmem.2, rfl⟩
    | argument hl hx hc hdeclared =>
        exact .inr ⟨hmem.1, bound?_eq_some_iff.2 ⟨_, _, _, _, _, _, rfl, rfl, hl, hx, hc⟩⟩

/-- A link is not one in the other direction as well: its second end is a constant or lies one place
further on the path. -/
theorem Link.asymm {v w : Vertex} (h : p.Link v w) : ¬p.Link w v := by
  intro h'
  -- paths lead from operators to higher places, and no link leads from a constant
  cases h <;> cases h'

/-- No vertex is listed twice, since their numbers are different. -/
theorem nodup_vertices : p.vertices.Nodup := by
  refine List.Nodup.of_map p.number ?_
  rw [map_number_vertices]
  exact List.nodup_range

/-- No vertex brings a link twice, and no two bring the same one. A link of the first kind is told
by its second end, one of the second kind by its first end, and only the latter lead to constants.
-/
theorem nodup_broughtLinks : p.broughtLinks.Nodup := by
  rw [broughtLinks, List.nodup_append']
  refine ⟨nodup_vertices.filterMap ?_, nodup_vertices.filterMap ?_, ?_⟩
  · simp only [Option.mem_def, Option.map_eq_some_iff]
    rintro v v' _ ⟨w, hw, rfl⟩ ⟨w', hw', heq⟩
    exact (Prod.mk.inj heq).2.symm
  · simp only [Option.mem_def, Option.map_eq_some_iff]
    rintro v v' _ ⟨w, hw, rfl⟩ ⟨w', hw', heq⟩
    exact (Prod.mk.inj heq).1.symm
  · -- a path ends at no constant
    simp only [List.Disjoint, List.mem_filterMap, Option.map_eq_some_iff]
    rintro _ ⟨v, -, w, hw, rfl⟩ ⟨v', -, w', hw', heq⟩
    obtain ⟨_, _, _, _, _, c, -, rfl, -⟩ := bound?_eq_some_iff.1 hw'
    obtain ⟨-, rfl⟩ := Prod.mk.inj heq
    cases hw

/-- To count vertices, count them row by row. -/
theorem countP_vertices (q : Vertex → Bool) : p.vertices.countP q =
    p.constantVertices.countP (fun c => q (.constant c)) +
    (blockPlaces p.stepSizes).countP (fun x => q (.variable x.1 x.2)) +
    (List.range p.operators.length).countP (fun i => q (.operator i)) +
    (blockPlaces (p.literalSizes .producer)).countP (fun x => q (.literal .producer x.1 x.2)) +
    (blockPlaces (p.literalSizes .consumer)).countP (fun x => q (.literal .consumer x.1 x.2)) := by
  simp only [vertices, List.countP_append, List.countP_map]
  rfl

/-- Of the vertices exactly the variables and the places of literals have one before them on a path;
a constant and an operator are the first of theirs. -/
theorem countP_before? : p.vertices.countP (fun v => (p.before? v).isSome) =
    p.stepSizes.sum + (p.literalSizes .producer).sum + (p.literalSizes .consumer).sum := by
  have hconstant : ∀ c, (p.before? (.constant c)).isSome = false := fun _ => rfl
  have hoperator : ∀ index, (p.before? (.operator index)).isSome = false := fun _ => rfl
  have hvariable : ∀ step index, (p.before? (.variable step index)).isSome = true := by
    intro step index
    cases index <;> rfl
  have hliteral : ∀ role index place, (p.before? (.literal role index place)).isSome = true := by
    intro role index place
    cases place <;> rfl
  simp [countP_vertices, hconstant, hvariable, hoperator, hliteral, length_blockPlaces]

/-- Of the places of literals exactly the arguments are bound. In a plan that can be encoded all of
them are. -/
theorem Encodes.countP_bound? {e : PlanEncoding} (henc : p.Encodes e) (role : Role) :
    (blockPlaces (p.literalSizes role)).countP
        (fun x => (p.bound? (.literal role x.1 x.2)).isSome) =
      ((p.literals role).map (·.arity)).sum := by
  have hargument : ∀ x ∈ blockPlaces (p.literalSizes role),
      (p.bound? (.literal role x.1 x.2)).isSome = true ↔ decide (0 < x.2) = true := by
    rintro ⟨index, place⟩ hx
    cases place with
    | zero => simp [bound?]
    | succ arg =>
        -- that it is bound is what the encoder has checked
        obtain ⟨l, hl, harg⟩ := exists_literal_of_lt (mem_blockPlaces.1 hx)
        have hget := List.getElem?_eq_getElem (Nat.lt_of_succ_le harg)
        obtain ⟨c, -, hc⟩ :=
          henc.bound role l (List.mem_of_getElem? hl) _ (List.mem_of_getElem? hget)
        simp [bound?, hl, hget, hc]
  have hrange : ∀ n, (List.range (n + 1)).countP (fun j => decide (0 < j)) = n := by
    intro n
    rw [List.range_succ_eq_map, List.countP_cons, List.countP_map]
    simp [Function.comp_def]
  rw [List.countP_congr hargument, countP_blockPlaces fun j => decide (0 < j), literalSizes,
    List.map_map]
  simp only [Function.comp_def, hrange]

/-- The number of brought links: one for a variable, and for a literal one and two more for each of
its arguments. -/
theorem Encodes.length_broughtLinks {e : PlanEncoding} (henc : p.Encodes e) :
    p.broughtLinks.length = p.variablesBefore p.steps.length +
      (p.bracketLiterals.map (1 + 2 * ·.arity)).sum := by
  have hliterals : ∀ ls : List Literal, (ls.map (1 + 2 * ·.arity)).sum =
      (ls.map (1 + ·.arity)).sum + (ls.map (·.arity)).sum := by
    intro ls
    rw [← List.sum_map_add]
    simp only [Nat.add_assoc, Nat.two_mul]
  have hbound : p.vertices.countP (fun v => (p.bound? v).isSome) =
      ((p.literals .producer).map (·.arity)).sum + ((p.literals .consumer).map (·.arity)).sum := by
    rw [countP_vertices, henc.countP_bound?, henc.countP_bound?]
    simp [bound?]
  simp only [broughtLinks, List.length_append, List.length_filterMap_eq_countP, Option.isSome_map,
    countP_before?, hbound, sum_literalSizes, variablesBefore_length, bracketLiterals,
    List.map_append, List.sum_append, hliterals, literals]
  omega

/-- Two numbers are joined in the graph if and only if they stand for vertices that are linked in
one of the two directions. -/
theorem Encodes.hasEdge_iff {e : PlanEncoding} (henc : p.Encodes e) {a b : Nat} :
    e.graph.hasEdge a b = true ↔
      ∃ v w, p.StandsFor a v ∧ p.StandsFor b w ∧ (p.Link v w ∨ p.Link w v) := by
  constructor
  · intro h
    obtain ⟨ha, hb⟩ := ColoredGraph.lt_of_hasEdge h
    rw [henc.vertexCount] at ha hb
    obtain ⟨v, hv, rfl⟩ := exists_number_eq ha
    obtain ⟨w, hw, rfl⟩ := exists_number_eq hb
    exact ⟨v, w, standsFor_iff.2 ⟨hv, rfl⟩, standsFor_iff.2 ⟨hw, rfl⟩,
      (henc.hasEdge v hv w hw).1 h⟩
  · rintro ⟨v, w, hv, hw, hlink⟩
    obtain ⟨hmem, rfl⟩ := standsFor_iff.1 hv
    obtain ⟨hmem', rfl⟩ := standsFor_iff.1 hw
    exact (henc.hasEdge v hmem w hmem').2 hlink

/-- There are as many edges as brought links. Every edge is listed from exactly one of its ends, by
`Link.asymm`, and none is listed twice. -/
theorem Encodes.edgeCount {e : PlanEncoding} (henc : p.Encodes e) :
    e.graph.edgeCount = p.variablesBefore p.steps.length +
      (p.bracketLiterals.map (1 + 2 * ·.arity)).sum := by
  -- the links with the numbers of their ends
  let pairs := p.broughtLinks.map fun (v, w) => (p.number v, p.number w)
  have hmem : ∀ a b, (a, b) ∈ pairs ↔
      ∃ v w, p.Link v w ∧ p.number v = a ∧ p.number w = b := by
    intro a b
    simp only [pairs, List.mem_map, Prod.exists, Prod.mk.injEq, henc.mem_broughtLinks]
  have hnodup : pairs.Nodup := by
    refine nodup_broughtLinks.map_on ?_
    rintro ⟨v, w⟩ hlink ⟨v', w'⟩ hlink' heq
    obtain ⟨hv, hw⟩ := (henc.mem_broughtLinks.1 hlink).mem
    obtain ⟨hv', hw'⟩ := (henc.mem_broughtLinks.1 hlink').mem
    obtain ⟨hleft, hright⟩ := Prod.mk.inj heq
    rw [eq_of_number_eq hv hv' hleft, eq_of_number_eq hw hw' hright]
  have hasymm : ∀ a b, (a, b) ∈ pairs → (b, a) ∉ pairs := by
    intro a b hab hba
    obtain ⟨v, w, hlink, rfl, rfl⟩ := (hmem a b).1 hab
    obtain ⟨w', v', hlink', hw', hv'⟩ := (hmem _ _).1 hba
    rw [eq_of_number_eq hlink'.mem.1 hlink.mem.2 hw',
      eq_of_number_eq hlink'.mem.2 hlink.mem.1 hv'] at hlink'
    exact hlink.asymm hlink'
  rw [ColoredGraph.edgeCount_eq_length hnodup hasymm, List.length_map, henc.length_broughtLinks]
  intro a b
  rw [henc.hasEdge_iff, hmem, hmem]
  constructor
  · rintro ⟨v, w, hv, hw, hlink | hlink⟩
    · exact .inl ⟨v, w, hlink, (standsFor_iff.1 hv).2, (standsFor_iff.1 hw).2⟩
    · exact .inr ⟨w, v, hlink, (standsFor_iff.1 hw).2, (standsFor_iff.1 hv).2⟩
  · rintro (⟨v, w, hlink, hv, hw⟩ | ⟨w, v, hlink, hw, hv⟩)
    · exact ⟨v, w, standsFor_iff.2 ⟨hlink.mem.1, hv⟩, standsFor_iff.2 ⟨hlink.mem.2, hw⟩, .inl hlink⟩
    · exact ⟨v, w, standsFor_iff.2 ⟨hlink.mem.2, hv⟩, standsFor_iff.2 ⟨hlink.mem.1, hw⟩, .inr hlink⟩

/-! ### The shape -/

variable {e : PlanEncoding}

/-- What the encoder makes of a validated plan has the shape that the plan tells. The fields are
those of `Encodes`, with vertices described by `StandsFor` instead of their numbers; the counts come
from the lemmas above. -/
theorem hasShape_of_encode (hvalid : p.validate = .ok ()) (h : p.encode = .ok e) :
    p.HasShape e := by
  have hp := validate_eq_ok_iff.1 hvalid
  have henc := encodes_of_encode hvalid h
  obtain ⟨parts, -, -, -, hproducers, hconsumers⟩ := exists_parts_of_encode hp h
  have hstands : ∀ {v : Vertex} {k : Nat}, v ∈ p.vertices → (k = p.number v ↔ p.StandsFor k v) := by
    intro v k hv
    rw [standsFor_iff, and_iff_right hv, eq_comm]
  -- both tables of heads are described alike, by the role
  have hoccurrence : ∀ (role : Role) (k : Nat) (o : Occurrence role),
      e.occurrence? role k = some o ↔ ∃ i l, (p.literals role)[i]? = some l ∧
        p.StandsFor k (.literal role i 0) ∧ o = ⟨(p.bracket role).name, l⟩ := by
    intro role k o
    rw [henc.occurrence]
    refine exists_congr fun i => exists_congr fun l => and_congr_right fun hl => ?_
    rw [hstands (head_mem_vertices hl)]
  exact {
    vertexCount := henc.vertexCount.trans length_vertices
    edgeCount := henc.edgeCount
    vertex := by
      intro k hk
      rw [henc.vertexCount] at hk
      obtain ⟨v, hv, rfl⟩ := exists_number_eq hk
      refine ⟨v, standsFor_iff.2 ⟨hv, rfl⟩, fun w hw => ?_⟩
      obtain ⟨hw, hnumber⟩ := standsFor_iff.1 hw
      exact eq_of_number_eq hw hv hnumber
    color := by
      intro k v hv
      obtain ⟨hmem, rfl⟩ := standsFor_iff.1 hv
      exact henc.color v hmem
    hasEdge := fun a b => henc.hasEdge_iff
    operator := by
      intro name k
      rw [henc.operators]
      refine exists_congr fun i => exists_congr fun op => and_congr_right fun hop =>
        and_congr_right fun _ => ?_
      rw [hstands (operator_mem_vertices.2 (List.getElem?_eq_some_iff.1 hop).1)]
    producer := fun k o => hoccurrence .producer k o
    producerCount := by
      rw [hproducers, parts.size_heads_blocks, literals]
    consumer := fun k o => hoccurrence .consumer k o
    consumerCount := by
      rw [hconsumers, parts.size_heads_blocks, literals] }

/-- The graph of the plan of two balls has 16 vertices and 14 edges. -/
theorem hasShape_of_encode_twoBalls : ∃ e, TwoBalls.plan.validate = .ok () ∧
    TwoBalls.plan.encode = .ok e ∧ TwoBalls.plan.HasShape e ∧
      e.graph.vertexCount = 16 ∧ e.graph.edgeCount = 14 := by
  obtain ⟨e, hencode, -⟩ := exists_ok_of_any
    (show TwoBalls.plan.encode.toOption.any (fun _ => true) = true by decide +kernel)
  have hshape := hasShape_of_encode TwoBalls.validate_plan hencode
  refine ⟨e, TwoBalls.validate_plan, hencode, hshape, ?_, ?_⟩
  · rw [hshape.vertexCount]
    decide +kernel
  · rw [hshape.edgeCount]
    decide +kernel

end PartialPlan

end PlanOrbits
