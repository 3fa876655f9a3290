import PlanOrbits.Proofs.Encoding.Steps

/-!
# Accepted plans and the variables of their steps

A plan is accepted exactly if it is well formed. Then its brackets are told from its steps by their
names, and this is what the encoder goes by: it gives vertices to the variables of the steps, to
those of all of them, and of nothing else (`hasStepVariables_of_encode`).
-/

namespace PlanOrbits.PartialPlan

variable {p : PartialPlan} {e : PlanEncoding}

/-! ### Rows of vertices -/

/-- The operators whose variables the encoder gives vertices to, each with the vertices. -/
def variableRows (p : PartialPlan) : List (Operator × List Nat) :=
  variableVertices p.constantVertices.length p.realSteps

/-- The variables of all steps have vertices in the graph, and nothing else has vertices of this
kind. -/
structure HasStepVariables (p : PartialPlan) (e : PlanEncoding) : Prop where
  steps : p.variableRows.map Prod.fst = p.steps
  /-- The vertices come behind the constants, step by step. -/
  numbers : p.variableRows.flatMap Prod.snd =
    List.range' p.constantVertices.length (p.steps.flatMap (·.vars)).length
  /-- Each variable has a vertex with the colour of variables of its type. -/
  colors : ∀ row ∈ p.variableRows, List.Forall₂ (fun (v : Variable) k => ∃ color,
    e.palette.variableColor v.type = .ok color ∧ e.graph.colors[k]? = some color) row.1.vars row.2
  /-- The vertices of the variables of a step form a path from the vertex of the step. -/
  paths : ∀ row ∈ p.variableRows, ∃ k, e.operators[row.1.name]? = some k ∧
    ∀ edge ∈ pathEdges (k :: row.2), e.graph.hasEdge edge.1 edge.2 = true
  /-- The other vertices have colours of other kinds. -/
  others : ∀ k < e.graph.vertexCount, k ∉ p.variableRows.flatMap Prod.snd → ∃ kind color,
    (∀ type, kind ≠ .variable type) ∧ e.palette.color? kind = some color ∧
      e.graph.colors[k]? = some color

section

variable (hp : p.WellFormed)

include hp

/-- In a well-formed plan the rows that the encoder makes are those of all steps, as none of them is
taken for a pseudo step. -/
theorem variableRows_eq :
    p.variableRows = variableVertices p.constantVertices.length p.steps := by
  rw [variableRows, realSteps_eq hp]

/-- There is one row for each step. -/
theorem map_fst_variableRows : p.variableRows.map Prod.fst = p.steps := by
  rw [variableRows_eq hp, map_fst_variableVertices]

/-- The rows together are the range of vertices behind the constants. -/
theorem flatMap_snd_variableRows : p.variableRows.flatMap Prod.snd =
    List.range' p.constantVertices.length (p.steps.flatMap (·.vars)).length := by
  rw [variableRows_eq hp, flatMap_snd_variableVertices]

/-- The vertex of a variable of a step is in the row of the step, at the place of the variable. -/
theorem number_mem_variableRows {step index : Nat} (h : .variable step index ∈ p.vertices) :
    p.number (.variable step index) ∈ p.variableRows.flatMap Prod.snd := by
  rw [flatMap_snd_variableRows hp, List.length_flatMap, ← stepSizes, ← map_blockPlaces]
  exact List.mem_map.2 ⟨(step, index), mem_blockPlaces.2 (variable_mem_vertices.1 h), rfl⟩

/-- A row belongs to a step of the plan and begins with the vertex of its first variable. -/
theorem exists_step_of_mem_variableRows {op : Operator} {vs : List Nat}
    (h : (op, vs) ∈ p.variableRows) : ∃ step, p.steps[step]? = some op ∧
      vs = List.range' (p.number (.variable step 0)) op.vars.length :=
  mem_variableVertices.1 (variableRows_eq hp ▸ h)

end

/-- Every edge of the path from the vertex of a step through its row is a link of the layout. -/
theorem exists_link_of_mem_pathEdges {step a b : Nat} {op : Operator}
    (hop : p.steps[step]? = some op)
    (h : (a, b) ∈ pathEdges (p.number (.operator (step + 1)) ::
      List.range' (p.number (.variable step 0)) op.vars.length)) :
    ∃ v w, p.Link v w ∧ a = p.number v ∧ b = p.number w := by
  rw [← blockSize_stepSizes hop] at h
  rcases mem_pathEdges_range'.1 h with ⟨hpos, rfl, rfl⟩ | ⟨index, hindex, rfl, rfl⟩
  · exact ⟨_, _, .first_variable hpos, rfl, rfl⟩
  · exact ⟨_, _, .next_variable hindex, rfl, rfl⟩

/-- The vertex of a variable has the colour of variables of its type, as the encoder looks it up. -/
theorem Encodes.exists_variableColor (henc : p.Encodes e) {step index : Nat} {op : Operator}
    {v : Variable} (hop : p.steps[step]? = some op) (hv : op.vars[index]? = some v) :
    ∃ color, e.palette.variableColor v.type = .ok color ∧
      e.graph.colors[p.number (.variable step index)]? = some color := by
  obtain ⟨hindex, -⟩ := List.getElem?_eq_some_iff.1 hv
  rw [← blockSize_stepSizes hop] at hindex
  obtain ⟨color, ⟨kind, hkind, hcolor⟩, hget⟩ :=
    henc.color (.variable step index) (variable_mem_vertices.2 hindex)
  rw [kind?, hop, Option.bind_some, hv] at hkind
  cases hkind
  exact ⟨color, Palette.variableColor_eq_ok_iff.2 (henc.palette ▸ hcolor), hget⟩

/-- The encoder gives vertices to the variables of the steps, and of nothing else: there is a row
for every step, in order, and the rows cover the vertices between those of the constants and those
of the operators. -/
theorem hasStepVariables_of_encode (hvalid : p.validate = .ok ()) (h : p.encode = .ok e) :
    p.HasStepVariables e := by
  have hp := validate_eq_ok_iff.1 hvalid
  have henc := encodes_of_encode hvalid h
  constructor
  case steps => exact map_fst_variableRows hp
  case numbers => exact flatMap_snd_variableRows hp
  case colors =>
    rintro ⟨op, vs⟩ hrow
    obtain ⟨step, hop, rfl⟩ := exists_step_of_mem_variableRows hp hrow
    refine forall₂_iff_getElem?.2 ⟨by simp, fun index v k hv hk => ?_⟩
    obtain ⟨hindex, rfl⟩ := List.getElem?_eq_some_iff.1 hk
    rw [List.getElem_range', Nat.one_mul]
    exact henc.exists_variableColor hop hv
  case paths =>
    rintro ⟨op, vs⟩ hrow
    obtain ⟨step, hop, rfl⟩ := exists_step_of_mem_variableRows hp hrow
    refine ⟨_, henc.getElem?_operators (getElem?_operators_succ hop), ?_⟩
    rintro ⟨a, b⟩ hedge
    obtain ⟨v, w, hlink, rfl, rfl⟩ := exists_link_of_mem_pathEdges hop hedge
    exact (henc.hasEdge v hlink.mem.1 w hlink.mem.2).2 (.inl hlink)
  case others =>
    -- a colour of variables is on vertices of variables only, and these are all in the rows
    intro k hk hnot
    rw [henc.vertexCount] at hk
    obtain ⟨v, hv, rfl⟩ := exists_number_eq hk
    obtain ⟨color, ⟨kind, hkind, hcolor⟩, hget⟩ := henc.color v hv
    refine ⟨kind, color, ?_, henc.palette ▸ hcolor, hget⟩
    rintro type rfl
    obtain ⟨step, index, rfl⟩ := kind?_eq_variable hkind
    exact hnot (number_mem_variableRows hp hv)

/-- Plans are accepted exactly if they are well formed; what is reported of other plans is a rule
that they break, as an error of the family of plans. The brackets of an accepted plan, which come
first and last, are told from its steps by their names. So the encoder gives vertices to the
variables of every step, and to those of nothing else. -/
theorem validate_accepts_wellFormed (p : PartialPlan) :
    (p.validate = .ok () ↔ p.WellFormed) ∧
    (build p.domain p.problem p.init p.goal p.steps p.substitution = p.validate.map fun _ => p) ∧
    ((∃ cause, p.validate = .error cause) ↔ ¬p.WellFormed) ∧
    (∀ cause, p.validate = .error cause → p.Breaks cause ∧ (Error.plan cause).family = .plan) ∧
    (p.validate = .ok () →
      (∀ (i : Nat) (op : Operator), p.operators[i]? = some op →
        (p.isPseudo op = true ↔ i = 0 ∨ i + 1 = p.operators.length)) ∧
      ∀ e, p.encode = .ok e → p.HasStepVariables e) := by
  refine ⟨validate_eq_ok_iff, p.build_eq, ?_, fun cause h => ⟨breaks_of_validate h, ?_⟩,
    fun h => ⟨fun i op => (validate_eq_ok_iff.1 h).isPseudo_iff, fun e => ?_⟩⟩
  · rw [← validate_eq_ok_iff]
    cases p.validate <;> simp
  · exact cause.family_diagnostic
  · exact hasStepVariables_of_encode h

/-- The plan with two balls is accepted, and the variables of its steps have vertices. With one of
its steps a second time it is refused, as two steps of one name are. -/
theorem validate_accepts_wellFormed_twoBalls :
    (∃ e, TwoBalls.plan.encode = .ok e ∧ TwoBalls.plan.HasStepVariables e ∧
      TwoBalls.plan.isPseudo TwoBalls.plan.init = true) ∧
    ∃ cause, PartialPlan.validate { TwoBalls.plan with
        steps := TwoBalls.plan.steps ++ TwoBalls.plan.steps } = .error cause ∧
      (Error.plan cause).family = .plan := by
  constructor
  · obtain ⟨e, hencode, -⟩ := exists_ok_of_any
      (show TwoBalls.plan.encode.toOption.any (fun _ => true) = true by decide +kernel)
    obtain ⟨-, -, -, -, haccepted⟩ := validate_accepts_wellFormed TwoBalls.plan
    obtain ⟨hpseudo, hvariables⟩ := haccepted TwoBalls.validate_plan
    exact ⟨e, hencode, hvariables e hencode, (hpseudo 0 TwoBalls.plan.init rfl).2 (.inl rfl)⟩
  · obtain ⟨-, -, hrefused, hfamily, -⟩ := validate_accepts_wellFormed
      { TwoBalls.plan with steps := TwoBalls.plan.steps ++ TwoBalls.plan.steps }
    obtain ⟨cause, hcause⟩ := hrefused.2 fun h => absurd h.names_nodup (by decide +kernel)
    exact ⟨cause, hcause, (hfamily cause hcause).2⟩

end PlanOrbits.PartialPlan
