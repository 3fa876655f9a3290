import PlanOrbits.Proofs.Encoding.Parts
import PlanOrbits.Proofs.Graph.Automorphism
import PlanOrbits.Proofs.Plan.Validation

/-!
# The graph of a plan

What the graph of a validated plan is, said by the names of its vertices: there is one
vertex for each name, its colour is that of its kind, and two vertices are joined
exactly if their names are linked (`PartialPlan.Encodes`). The proof goes through the
`Parts` that the encoder computes before it makes the graph (`exists_parts_of_encode`).
All that is proved about automorphisms of plans rests on `encodes_of_encode` and no
longer looks at the encoder.
-/

namespace PlanOrbits

open Std (ExtTreeMap)

namespace PartialPlan

variable {p : PartialPlan} {e : PlanEncoding}

/-! ### Names of operators -/

/-- The encoder leaves out the steps that have the name of a pseudo step. A well-formed plan has no
such step, so that all of its steps are real. -/
theorem realSteps_eq (h : p.WellFormed) : p.realSteps = p.steps := by
  have hnodup := h.names_nodup
  simp only [operators, List.cons_append, List.map_cons, List.map_append, List.map_nil,
    List.nodup_cons, List.nodup_append, List.mem_append, List.mem_map, List.mem_singleton] at hnodup
  obtain ⟨hinit, -, -, hgoal⟩ := hnodup
  have hsteps : ∀ op ∈ p.steps, op.name ≠ p.init.name ∧ op.name ≠ p.goal.name := by
    intro op hop
    refine ⟨fun heq => hinit (.inl ⟨op, hop, heq⟩), hgoal _ ⟨op, hop, rfl⟩ _ rfl⟩
  rw [realSteps, operators, List.filter_append, List.filter_cons, List.filter_eq_self.2]
  · simp [isPseudo]
  · intro op hop
    simp [isPseudo, hsteps op hop]

/-- The number of variable vertices is the sum of the lengths of the rows. -/
theorem variableCount_eq (h : p.WellFormed) : p.variableCount = p.stepSizes.sum := by
  rw [variableCount, realSteps_eq h, List.length_flatMap, stepSizes]

/-- The steps stand behind the initial pseudo step in the list of operators. -/
theorem getElem?_operators_succ {step : Nat} {op : Operator} (h : p.steps[step]? = some op) :
    p.operators[step + 1]? = some op := by
  obtain ⟨hstep, rfl⟩ := List.getElem?_eq_some_iff.1 h
  rw [operators, List.cons_append, List.getElem?_cons_succ, List.getElem?_append_left hstep, h]

/-- The initial pseudo step is the first operator and the goal is the last. -/
theorem getElem?_operators_bracket (role : Role) :
    p.operators[p.bracketIndex role]? = some (p.bracket role) := by
  cases role with
  | producer => rfl
  | consumer => simp [operators, bracketIndex, bracket]

/-- The table of the operators has the number of each. Names are not repeated in a well-formed plan,
so no entry is overwritten. -/
theorem getD_operatorVertices (h : p.WellFormed) {i : Nat} {op : Operator}
    (hop : p.operators[i]? = some op) :
    (operatorVertices p.firstOperator p.operators).getD op.name 0 = p.number (.operator i) := by
  have hget : (operatorVertices p.firstOperator p.operators)[op.name]? =
      some (p.number (.operator i)) :=
    (getElem?_operatorVertices h.names_nodup).2 ⟨i, op, hop, rfl, rfl⟩
  rw [Std.ExtTreeMap.getD_eq_getD_getElem?, hget, Option.getD_some]

variable (p) in
/-- The edges of the steps and their variables. -/
def stepEdges : List (Nat × Nat) :=
  (variableVertices p.constantVertices.length p.steps).flatMap fun (op, vs) =>
    pathEdges ((operatorVertices p.firstOperator p.operators).getD op.name 0 :: vs)

variable (p) in
/-- The vertex has the colour of its kind. -/
def HasColor (v : Vertex) (color : Color) : Prop :=
  ∃ kind, p.kind? v = some kind ∧ (Palette.ofPlan p).color? kind = some color

/-! ### The parts of a graph -/

/-- The colours and the blocks of which the graph of a plan is made. -/
structure Parts (p : PartialPlan) where
  constantColors : List Color
  variableColors : List (List Color)
  operatorColors : List Color
  blocks : Role → List LiteralBlock
  color_constants : List.Forall₂ (fun (c : Constant) color =>
    (Palette.ofPlan p).color? (.constant c.type) = some color) p.constantVertices constantColors
  color_variables : List.Forall₂ (fun (op : Operator) colors =>
    List.Forall₂ (fun v color => (Palette.ofPlan p).color? (.variable v.type) = some color)
      op.vars colors) p.steps variableColors
  color_operators : List.Forall₂ (fun (op : Operator) color =>
    (Palette.ofPlan p).color? (.operator op.schema) = some color) p.operators operatorColors
  length_blocks : ∀ role, (blocks role).length = (p.literals role).length
  isBlock : ∀ (role : Role) (i : Nat) (l : Literal) (b : LiteralBlock),
    (p.literals role)[i]? = some l → (blocks role)[i]? = some b →
      p.IsBlock (Palette.ofPlan p) l (p.number (.literal role i 0)) b

namespace Parts

variable (parts : p.Parts)

/-- The colours of all vertices. -/
def colors : List Color :=
  parts.constantColors ++ parts.variableColors.flatten ++ parts.operatorColors ++
    (parts.blocks .producer ++ parts.blocks .consumer).flatMap (·.colors)

/-- The edges of the literals of a role. -/
def literalEdges (role : Role) : List (Nat × Nat) :=
  (parts.blocks role).flatMap (·.edges (p.number (.operator (p.bracketIndex role))))

/-- All edges. -/
def edges : List (Nat × Nat) :=
  p.stepEdges ++ parts.literalEdges .producer ++ parts.literalEdges .consumer

variable {parts}

/-- Every literal of a role has its block, at the same place of the list, and the head of the block
is the number of the head of the literal. -/
theorem exists_isBlock {role : Role} {i : Nat} {l : Literal} (hl : (p.literals role)[i]? = some l) :
    ∃ b, (parts.blocks role)[i]? = some b ∧
      p.IsBlock (Palette.ofPlan p) l (p.number (.literal role i 0)) b := by
  obtain ⟨b, hb⟩ := exists_getElem?_of_length_eq (parts.length_blocks role).symm hl
  exact ⟨b, hb, parts.isBlock role i l b hl hb⟩

/-- The other way round: every block belongs to a literal. -/
theorem exists_literal {role : Role} {i : Nat} {b : LiteralBlock}
    (hb : (parts.blocks role)[i]? = some b) : ∃ l, (p.literals role)[i]? = some l ∧
      p.IsBlock (Palette.ofPlan p) l (p.number (.literal role i 0)) b := by
  obtain ⟨l, hl⟩ := exists_getElem?_of_length_eq (parts.length_blocks role) hb
  exact ⟨l, hl, parts.isBlock role i l b hl hb⟩

/-! ### Colours -/

/-- The colours that were looked up for the variables of all steps belong, in order, to the names of
the variable vertices. -/
theorem forall₂_colors_variables : List.Forall₂ (fun v color => p.HasColor v color)
    ((blockPlaces p.stepSizes).map fun (step, index) => .variable step index)
    parts.variableColors.flatten := by
  have hsizes : p.stepSizes = parts.variableColors.map List.length := by
    rw [stepSizes]
    refine List.forall₂_eq_eq_eq ▸ (List.forall₂_map_left_iff.2 (List.forall₂_map_right_iff.2 ?_))
    exact parts.color_variables.imp fun op colors h => h.length_eq
  rw [List.forall₂_map_left_iff]
  refine forall₂_blockPlaces hsizes fun i colors j color hcolors hcolor => ?_
  obtain ⟨op, hop, hstep⟩ := exists_left_of_forall₂ parts.color_variables hcolors
  obtain ⟨v, hv, hcolor⟩ := exists_left_of_forall₂ hstep hcolor
  exact ⟨_, by simp only [kind?, hop, Option.bind_some, hv, Option.map_some], hcolor⟩

/-- The colours of the operators, of the two pseudo steps as well, in the order of their numbers. -/
theorem forall₂_colors_operators : List.Forall₂ (fun v color => p.HasColor v color)
    ((List.range p.operators.length).map .operator) parts.operatorColors := by
  rw [List.forall₂_map_left_iff, forall₂_iff_getElem?]
  refine ⟨by rw [List.length_range, parts.color_operators.length_eq], fun i k color hk hcolor => ?_⟩
  obtain ⟨hi, rfl⟩ := List.getElem?_eq_some_iff.1 hk
  obtain ⟨op, hop, hcolor⟩ := exists_left_of_forall₂ parts.color_operators hcolor
  rw [List.getElem_range]
  exact ⟨_, by rw [kind?, hop, Option.map_some], hcolor⟩

/-- A block has one colour for all of its places, which is that of its literal. -/
theorem forall₂_colors_literals (role : Role) : List.Forall₂ (fun v color => p.HasColor v color)
    ((blockPlaces (p.literalSizes role)).map fun (index, place) => .literal role index place)
    ((parts.blocks role).flatMap (·.colors)) := by
  rw [List.forall₂_map_left_iff, List.flatMap_def]
  refine forall₂_blockPlaces ?_ fun i colors j color hcolors hcolor => ?_
  · exact (map_length_colors (parts.length_blocks role) (parts.isBlock role)).symm
  · rw [List.getElem?_map, Option.map_eq_some_iff] at hcolors
    obtain ⟨b, hb, rfl⟩ := hcolors
    obtain ⟨l, hl, hblock⟩ := exists_literal hb
    have hmem := List.mem_of_getElem? hcolor
    rw [LiteralBlock.colors, List.mem_replicate] at hmem
    rw [hmem.2]
    exact ⟨l.kind, by rw [kind?, hl, Option.map_some],
      (Palette.literal_eq_ok_iff.1 hblock.color).1⟩

/-- The colours of the graph, in the order of its vertices, are those of the kinds of the names in
the order of `vertices`. The four rows are matched one by one. -/
theorem forall₂_colors :
    List.Forall₂ (fun v color => p.HasColor v color) p.vertices parts.colors := by
  have hconstants : List.Forall₂ (fun v color => p.HasColor v color)
      (p.constantVertices.map .constant) parts.constantColors := by
    rw [List.forall₂_map_left_iff]
    exact parts.color_constants.imp fun c color hcolor => ⟨_, rfl, hcolor⟩
  rw [vertices, colors, List.flatMap_append, ← List.append_assoc]
  refine List.rel_append (List.rel_append (List.rel_append (List.rel_append hconstants ?_) ?_)
    ?_) ?_
  · exact parts.forall₂_colors_variables
  · exact parts.forall₂_colors_operators
  · exact parts.forall₂_colors_literals .producer
  · exact parts.forall₂_colors_literals .consumer

/-! ### Heads -/

/-- Different literals have different heads, as they have different numbers. -/
theorem nodup_heads_blocks (role : Role) : ((parts.blocks role).map (·.head)).Nodup := by
  rw [List.Nodup, List.pairwise_iff_getElem]
  intro i j hi hj hlt heq
  rw [List.length_map] at hi hj
  obtain ⟨li, hli, hbi⟩ := parts.exists_literal (List.getElem?_eq_getElem hi)
  obtain ⟨lj, hlj, hbj⟩ := parts.exists_literal (List.getElem?_eq_getElem hj)
  rw [List.getElem_map, List.getElem_map, hbi.head, hbj.head] at heq
  have heq := eq_of_number_eq (head_mem_vertices hli) (head_mem_vertices hlj) heq
  rw [Vertex.literal.injEq] at heq
  omega

/-- The table of a role has one entry for each occurrence of a literal: no head is entered twice. -/
theorem size_heads_blocks (role : Role) (bracket : String) :
    (heads bracket (parts.blocks role) : ExtTreeMap Nat (Occurrence role)).size =
      (p.literals role).length := by
  rw [← parts.length_blocks role]
  exact size_foldl_insert LiteralBlock.head
    (fun b => (⟨bracket, b.literal⟩ : Occurrence role)) (parts.nodup_heads_blocks role)

/-- The table of a role has, at the number of its head, the occurrence of every literal, and it has
no other entries. -/
theorem getElem?_heads_blocks {role : Role} {bracket : String} {head : Nat} {o : Occurrence role} :
    (heads bracket (parts.blocks role))[head]? = some o ↔ ∃ i l, (p.literals role)[i]? = some l ∧
      head = p.number (.literal role i 0) ∧ o = ⟨bracket, l⟩ := by
  rw [getElem?_heads (parts.nodup_heads_blocks role)]
  constructor
  · rintro ⟨b, hb, rfl, rfl⟩
    obtain ⟨i, hi⟩ := List.mem_iff_getElem?.1 hb
    obtain ⟨l, hl, hblock⟩ := exists_literal hi
    exact ⟨i, l, hl, hblock.head, by rw [hblock.literal]⟩
  · rintro ⟨i, l, hl, rfl, rfl⟩
    obtain ⟨b, hb, hblock⟩ := parts.exists_isBlock hl
    exact ⟨b, List.mem_of_getElem? hb, hblock.head, by rw [hblock.literal]⟩

/-! ### Edges -/

/-- The edges of the paths of the steps, by the names of their ends: from the operator to its first
variable, and from each variable to the next one of the step. -/
theorem mem_stepEdges (h : p.WellFormed) {a b : Nat} :
    (a, b) ∈ p.stepEdges ↔ ∃ step, (0 < blockSize p.stepSizes step ∧
        a = p.number (.operator (step + 1)) ∧ b = p.number (.variable step 0)) ∨
      ∃ index, index + 1 < blockSize p.stepSizes step ∧
        a = p.number (.variable step index) ∧ b = p.number (.variable step (index + 1)) := by
  simp only [stepEdges, List.mem_flatMap, Prod.exists, mem_variableVertices]
  constructor
  · rintro ⟨op, vs, ⟨step, hop, rfl⟩, hab⟩
    have hsucc : p.operators[step + 1]? = some op := getElem?_operators_succ hop
    rw [getD_operatorVertices h hsucc, mem_pathEdges_range'] at hab
    refine ⟨step, ?_⟩
    rw [blockSize_stepSizes hop]
    rcases hab with ⟨hpos, rfl, rfl⟩ | ⟨index, hindex, rfl, rfl⟩
    · exact .inl ⟨hpos, rfl, rfl⟩
    · exact .inr ⟨index, hindex, rfl, rfl⟩
  · rintro ⟨step, hab⟩
    -- the step is there, since its row of variables is not empty
    have hstep : 0 < blockSize p.stepSizes step := by
      rcases hab with ⟨hpos, -⟩ | ⟨index, hindex, -⟩ <;> omega
    obtain ⟨op, -, hop, -⟩ := exists_step_of_lt hstep
    refine ⟨op, _, ⟨step, hop, rfl⟩, ?_⟩
    rw [getD_operatorVertices h (getElem?_operators_succ hop), mem_pathEdges_range']
    rw [blockSize_stepSizes hop] at hab
    rcases hab with ⟨hpos, rfl, rfl⟩ | ⟨index, hindex, rfl, rfl⟩
    · exact .inl ⟨hpos, rfl, rfl⟩
    · exact .inr ⟨index, hindex, rfl, rfl⟩

/-- The edges of the literals of a role, by the places of the literals: from the bracket to the
head, from each place to the next, and from each argument to its constant. -/
theorem mem_literalEdges {role : Role} {a b : Nat} :
    (a, b) ∈ parts.literalEdges role ↔
      ∃ i l, (p.literals role)[i]? = some l ∧ p.LiteralEdge role i l a b := by
  rw [literalEdges, List.mem_flatMap]
  constructor
  · rintro ⟨block, hmem, hab⟩
    obtain ⟨i, hi⟩ := List.mem_iff_getElem?.1 hmem
    obtain ⟨l, hl, hblock⟩ := exists_literal hi
    exact ⟨i, l, hl, hblock.mem_edges_iff.1 hab⟩
  · rintro ⟨i, l, hl, hab⟩
    obtain ⟨block, hmem, hblock⟩ := parts.exists_isBlock hl
    exact ⟨block, List.mem_of_getElem? hmem, hblock.mem_edges_iff.2 hab⟩

/-- The pairs that the encoder hands to `ofParts` are the numbers of linked names. `Link` has one
rule for each kind of pair, so the cases of both directions correspond one to one. -/
theorem mem_edges (h : p.WellFormed) {a b : Nat} :
    (a, b) ∈ parts.edges ↔ ∃ v w, p.Link v w ∧ a = p.number v ∧ b = p.number w := by
  have hroles : (a, b) ∈ parts.edges ↔
      (a, b) ∈ p.stepEdges ∨ ∃ role, (a, b) ∈ parts.literalEdges role := by
    rw [edges, List.mem_append, List.mem_append, or_assoc]
    refine or_congr_right ⟨?_, ?_⟩
    · rintro (hab | hab)
      · exact ⟨.producer, hab⟩
      · exact ⟨.consumer, hab⟩
    · rintro ⟨role, hab⟩
      cases role with
      | producer => exact .inl hab
      | consumer => exact .inr hab
  simp only [hroles, mem_stepEdges h, mem_literalEdges]
  constructor
  · rintro (⟨step, ⟨hpos, rfl, rfl⟩ | ⟨index, hindex, rfl, rfl⟩⟩ | ⟨role, i, l, hl, hab⟩)
    · exact ⟨_, _, .first_variable hpos, rfl, rfl⟩
    · exact ⟨_, _, .next_variable hindex, rfl, rfl⟩
    · have hsize := blockSize_literalSizes hl
      rcases hab with ⟨rfl, rfl⟩ | ⟨j, hj, rfl, rfl⟩ | ⟨j, v, c, hv, hc, hmem, rfl, rfl⟩
      · exact ⟨_, _, .head (by omega), rfl, rfl⟩
      · exact ⟨_, _, .next_place (by omega), rfl, rfl⟩
      · exact ⟨_, _, .argument hl hv hc hmem, rfl, rfl⟩
  · rintro ⟨v, w, hlink, rfl, rfl⟩
    -- a rule of `Link` that speaks of a place says that the literal is there, since its block is
    -- long enough
    cases hlink with
    | first_variable hpos => exact .inl ⟨_, .inl ⟨hpos, rfl, rfl⟩⟩
    | next_variable hindex => exact .inl ⟨_, .inr ⟨_, hindex, rfl, rfl⟩⟩
    | head hpos =>
        obtain ⟨l, hl, -⟩ := exists_literal_of_lt hpos
        exact .inr ⟨_, _, l, hl, .inl ⟨rfl, rfl⟩⟩
    | next_place hplace =>
        obtain ⟨l, hl, hle⟩ := exists_literal_of_lt hplace
        exact .inr ⟨_, _, l, hl, .inr (.inl ⟨_, by omega, rfl, rfl⟩)⟩
    | argument hl hv hc hmem =>
        exact .inr ⟨_, _, _, hl, .inr (.inr ⟨_, _, _, hv, hc, hmem, rfl, rfl⟩)⟩

end Parts

/-- If the encoder succeeds on a well-formed plan, there are `Parts` of which it has made the graph,
the palette and the tables. This is the only proof of this module that unfolds `encode`. -/
theorem exists_parts_of_encode (hp : p.WellFormed) (h : p.encode = .ok e) : ∃ parts : p.Parts,
    ColoredGraph.ofParts parts.colors parts.edges = .ok e.graph ∧
      e.palette = Palette.ofPlan p ∧ e.operators = operatorVertices p.firstOperator p.operators ∧
      e.producers = heads p.init.name (parts.blocks .producer) ∧
      e.consumers = heads p.goal.name (parts.blocks .consumer) := by
  have hfirst : p.constantVertices.length + p.variableCount = p.firstOperator := by
    rw [variableCount_eq hp, firstOperator]
  simp only [encode, bind_eq_ok_iff, mapM_eq_ok_iff, liftM_plan_eq_ok_iff, liftM_graph_eq_ok_iff,
    Palette.constant_eq_ok_iff, Palette.variableColor_eq_ok_iff, Palette.schema_eq_ok_iff,
    realSteps_eq hp, hfirst] at h
  obtain ⟨constantColors, hconstants, variableColors, hvariables, operatorColors, hoperators,
    ⟨producers, hproducers⟩, -, ⟨consumers, hconsumers⟩, -, graph, hgraph, h⟩ := h
  cases h
  dsimp only at hconsumers hgraph
  rw [hfirst] at hproducers hconsumers
  obtain ⟨hlengthProducers, hproducers⟩ := isBlock_of_literalBlocks hproducers
  obtain ⟨hlengthConsumers, hconsumers⟩ := isBlock_of_literalBlocks hconsumers
  have hsum : (producers.flatMap (·.colors)).length = (p.literalSizes .producer).sum := by
    rw [List.flatMap_def, List.length_flatten, map_length_colors hlengthProducers hproducers]
    rfl
  -- the encoder counts the colours of the first blocks to find the start of the others
  have hstart : p.firstOperator + p.operators.length + (producers.flatMap (·.colors)).length =
      p.firstLiteral .consumer := by
    rw [hsum, firstLiteral]
  rw [hstart] at hconsumers
  let parts : p.Parts := {
    constantColors, variableColors, operatorColors
    blocks := Role.rec producers consumers
    color_constants := hconstants
    color_variables := hvariables
    color_operators := hoperators
    length_blocks := Role.rec hlengthProducers hlengthConsumers
    isBlock := Role.rec hproducers hconsumers }
  refine ⟨parts, ?_, rfl, rfl, rfl, rfl⟩
  have hinit : (operatorVertices p.firstOperator p.operators).getD p.init.name 0 =
      p.number (.operator (p.bracketIndex .producer)) :=
    getD_operatorVertices hp (getElem?_operators_bracket .producer)
  have hgoal : (operatorVertices p.firstOperator p.operators).getD p.goal.name 0 =
      p.number (.operator (p.bracketIndex .consumer)) :=
    getD_operatorVertices hp (getElem?_operators_bracket .consumer)
  rw [hinit, hgoal] at hgraph
  exact hgraph

/-! ### The graph -/

end PartialPlan

/-- The occurrences by the heads of their literals. -/
def PlanEncoding.occurrence? (e : PlanEncoding) : (role : Role) → Nat → Option (Occurrence role)
  | .producer, head => e.producers[head]?
  | .consumer, head => e.consumers[head]?

namespace PartialPlan

/-- The encoding shows the plan: its vertices are the named vertices, with the colours of
their kinds and the edges of their links, and its tables have the numbers of the operators
and of the heads of the literals. Every argument of a literal is bound to a declared
constant, and literals of one predicate have the same number of arguments. -/
structure Encodes (p : PartialPlan) (e : PlanEncoding) : Prop where
  palette : e.palette = Palette.ofPlan p
  vertexCount : e.graph.vertexCount = p.vertices.length
  color : ∀ v ∈ p.vertices, ∃ c, p.HasColor v c ∧ e.graph.colors[p.number v]? = some c
  hasEdge : ∀ v ∈ p.vertices, ∀ w ∈ p.vertices,
    (e.graph.hasEdge (p.number v) (p.number w) = true ↔ p.Link v w ∨ p.Link w v)
  operators : ∀ (name : String) (k : Nat), e.operators[name]? = some k ↔
    ∃ i op, p.operators[i]? = some op ∧ op.name = name ∧ k = p.number (.operator i)
  occurrence : ∀ (role : Role) (head : Nat) (o : Occurrence role),
    e.occurrence? role head = some o ↔ ∃ i l, (p.literals role)[i]? = some l ∧
      head = p.number (.literal role i 0) ∧ o = ⟨(p.bracket role).name, l⟩
  bound : ∀ role, ∀ l ∈ p.literals role, ∀ v ∈ l.atom.args,
    ∃ c ∈ p.constants, p.substitution[v]? = some c
  arity : ∀ role role', ∀ l ∈ p.literals role, ∀ l' ∈ p.literals role',
    l.atom.predicate = l'.atom.predicate → l.arity = l'.arity

variable {p : PartialPlan} {e : PlanEncoding}

/-- What the encoder makes of a validated plan is described by `Encodes`. Every field is read off
the `Parts` by one of the lemmas above; the last two, on bound arguments and arities, by the lookups
that made the blocks. -/
theorem encodes_of_encode (hvalid : p.validate = .ok ()) (h : p.encode = .ok e) :
    p.Encodes e := by
  have hp := validate_eq_ok_iff.1 hvalid
  obtain ⟨parts, hgraph, hpalette, hoperators, hproducers, hconsumers⟩ :=
    exists_parts_of_encode hp h
  obtain ⟨hcolors, hedges⟩ := ColoredGraph.hasEdge_ofParts hgraph
  have hvertexCount : e.graph.vertexCount = p.vertices.length := by
    rw [ColoredGraph.vertexCount, hcolors, List.size_toArray, parts.forall₂_colors.length_eq]
  have hisBlock : ∀ role, ∀ l ∈ p.literals role,
      ∃ head b, p.IsBlock (Palette.ofPlan p) l head b := by
    intro role l hl
    obtain ⟨i, hi⟩ := List.mem_iff_getElem?.1 hl
    obtain ⟨b, -, hb⟩ := parts.exists_isBlock hi
    exact ⟨_, b, hb⟩
  exact {
    palette := hpalette
    vertexCount := hvertexCount
    color := by
      intro v hv
      obtain ⟨c, hget, hcolor⟩ := exists_right_of_forall₂ parts.forall₂_colors (getElem?_number hv)
      exact ⟨c, hcolor, by rw [hcolors, List.getElem?_toArray, hget]⟩
    hasEdge := by
      intro v hv w hw
      rw [hedges, parts.mem_edges hp, parts.mem_edges hp]
      constructor
      · -- numbers tell names apart, so the linked names are those of the two vertices
        rintro (⟨v', w', hlink, hv', hw'⟩ | ⟨w', v', hlink, hw', hv'⟩)
        · rw [eq_of_number_eq hv hlink.mem.1 hv', eq_of_number_eq hw hlink.mem.2 hw']
          exact .inl hlink
        · rw [eq_of_number_eq hv hlink.mem.2 hv', eq_of_number_eq hw hlink.mem.1 hw']
          exact .inr hlink
      · rintro (hlink | hlink)
        · exact .inl ⟨v, w, hlink, rfl, rfl⟩
        · exact .inr ⟨w, v, hlink, rfl, rfl⟩
    operators := by
      intro name k
      rw [hoperators, getElem?_operatorVertices hp.names_nodup]
      simp only [number, eq_comm]
    occurrence := by
      intro role head o
      rw [← parts.getElem?_heads_blocks]
      cases role with
      | producer => rw [PlanEncoding.occurrence?, hproducers, bracket]
      | consumer => rw [PlanEncoding.occurrence?, hconsumers, bracket]
    bound := by
      intro role l hl v hv
      obtain ⟨head, b, hb⟩ := hisBlock role l hl
      obtain ⟨i, hi⟩ := List.mem_iff_getElem?.1 hv
      obtain ⟨t, -, htarget⟩ := exists_right_of_forall₂ hb.targets hi
      obtain ⟨c, hc, hmem, -⟩ := target_eq_ok_iff.1 htarget
      exact ⟨c, hmem, hc⟩
    arity := by
      intro role role' l hl l' hl' heq
      obtain ⟨head, b, hb⟩ := hisBlock role l hl
      obtain ⟨head', b', hb'⟩ := hisBlock role' l' hl'
      obtain ⟨-, q, j, hq, harity⟩ := Palette.literal_eq_ok_iff.1 hb.color
      obtain ⟨-, q', j', hq', harity'⟩ := Palette.literal_eq_ok_iff.1 hb'.color
      rw [heq, hq', Option.some.injEq, Prod.mk.injEq] at hq
      rw [← harity, ← harity', hq.1] }

/-- Literals of one kind have the same number of arguments. In a plan that can be encoded the
predicate of a literal is declared with as many parameters as the literal has arguments. -/
theorem Encodes.arity_eq (henc : p.Encodes e) {role role' : Role} {i i' : Nat} {l l' : Literal}
    (hl : (p.literals role)[i]? = some l) (hl' : (p.literals role')[i']? = some l')
    (h : l'.kind = l.kind) : l'.arity = l.arity := by
  rw [Literal.kind, Literal.kind, Kind.literal.injEq] at h
  exact henc.arity role' role l' (List.mem_of_getElem? hl') l (List.mem_of_getElem? hl) h.1

/-! ### A plan of two balls -/

namespace TwoBalls

def ball : TypeName := .ofSpelling "ball"

def ballA : Constant := ⟨"a", ball⟩

def ballB : Constant := ⟨"b", ball⟩

/-- A positive literal of one variable. -/
def literal (predicate var : String) : Literal := ⟨⟨predicate, [⟨var, ball⟩]⟩, true⟩

/-- A step that picks up the ball that its variable is bound to. -/
def pick (name var : String) : Operator :=
  ⟨name, [⟨var, ball⟩], [literal "free" var], [literal "held" var]⟩

/-- Two balls are free and are to be held; a step of its own picks up each of them. -/
def plan : PartialPlan where
  domain := ⟨"balls", [ball], [⟨"free", [ball]⟩, ⟨"held", [ball]⟩], []⟩
  problem := ⟨"two-balls", [ballA, ballB]⟩
  init := ⟨"init", [⟨"?a", ball⟩, ⟨"?b", ball⟩], [], [literal "free" "?a", literal "free" "?b"]⟩
  goal := ⟨"goal", [⟨"?a", ball⟩, ⟨"?b", ball⟩], [literal "held" "?a", literal "held" "?b"], []⟩
  steps := [pick "1_pick" "?x", pick "2_pick" "?y"]
  substitution := .ofBindings [⟨⟨"?a", ball⟩, ballA⟩, ⟨⟨"?b", ball⟩, ballB⟩,
    ⟨⟨"?x", ball⟩, ballA⟩, ⟨⟨"?y", ball⟩, ballB⟩]

theorem validate_plan : plan.validate = .ok () := by decide +kernel

end TwoBalls

end PartialPlan

end PlanOrbits
