import PlanOrbits.Proofs.Encoding.ColorTables
import PlanOrbits.Proofs.Encoding.Shape
import PlanOrbits.Proofs.Encoding.Soundness
import PlanOrbits.Proofs.Graph.AutomorphismGroup

/-!
# Automorphisms send steps to like steps

The vertices of a step and its variables form a path. Variables of one type have one colour, so
colours alone would let an automorphism turn the path around or move it along itself. What holds
the path is its end: the vertex of the step is an operator, and the only operator on a path.

* The step and its first variable go to a step and its first variable (`exists_sends_step`).
* From there on the variables go one by one to those of the other step (`Sends.variables`).
* The other step has no more variables than the step, since the variable behind the last image
  would come from a variable behind the last one (`Sends.blockSize_le`). Here it is needed that
  joined images come from joined vertices.

The brackets are held by the heads of their literals (`Sends.bracket`). A step or a bracket
without a path is held by its colour alone, and may go to any operator of its schema.
-/

namespace PlanOrbits

namespace PartialPlan

variable {p : PartialPlan} {e : PlanEncoding} {m : Array Nat} {v v' w w' : Vertex}

/-- Only variables have the kind of a variable. -/
theorem kind?_eq_variable {type : TypeName} (h : p.kind? v = some (.variable type)) :
    ∃ step index, v = .variable step index := by
  cases v with
  | constant c => cases h
  | «variable» step index => exact ⟨step, index, rfl⟩
  | operator index =>
      obtain ⟨_, -, h⟩ := Option.map_eq_some_iff.1 h
      cases h
  | literal role index place =>
      obtain ⟨_, -, h⟩ := Option.map_eq_some_iff.1 h
      cases h

/-! ### Back along an automorphism -/

section

variable (henc : p.Encodes e) (haut : e.graph.IsAutomorphism m)

include henc haut

/-- Every named vertex is the image of a named vertex, as the table has an inverse on them. -/
theorem exists_sends_to (hw : w ∈ p.vertices) : ∃ v, p.Sends m v w := by
  have hlt : p.number w < e.graph.vertexCount := henc.vertexCount ▸ number_lt hw
  obtain ⟨k, hk, himage⟩ := haut.bijOn_image.surjOn hlt
  obtain ⟨v, hv, rfl⟩ := exists_number_eq (henc.vertexCount ▸ Set.mem_Iio.1 hk)
  exact ⟨v, hv, hw, himage⟩

/-- Images are joined if and only if the vertices are. The direction from right to left is all that
the proof for constants and literals needs; here the other one is needed as well. -/
theorem Sends.joined_iff (h : p.Sends m v w) (h' : p.Sends m v' w') :
    p.Joined w w' ↔ p.Joined v v' := by
  rw [Joined, Joined, ← henc.hasEdge v h.mem_left v' h'.mem_left,
    ← henc.hasEdge w h.mem_right w' h'.mem_right, ← h.image, ← h'.image, haut.hasEdge_image]

end

/-! ### Where steps and their variables go -/

section

variable (henc : p.Encodes e) (hcolors : e.palette.size < 2 ^ 32) (haut : e.graph.IsAutomorphism m)
  {step step' : Nat}

include henc hcolors haut

/-- A variable goes to a variable, by its kind. -/
theorem Sends.variable {index : Nat} (h : p.Sends m (.variable step index) w) :
    ∃ step' index', w = .variable step' index' := by
  obtain ⟨op, x, hop, hx⟩ := exists_step_of_lt (variable_mem_vertices.1 h.mem_left)
  have hkind := h.kind?_eq henc haut hcolors
  rw [kind?, hop, Option.bind_some, hx, Option.map_some] at hkind
  exact kind?_eq_variable hkind

/-- What goes to a variable is a variable. -/
theorem Sends.variable_of_variable {index' : Nat} (h : p.Sends m v (.variable step' index')) :
    ∃ step index, v = .variable step index := by
  obtain ⟨op, x, hop, hx⟩ := exists_step_of_lt (variable_mem_vertices.1 h.mem_right)
  have hkind := h.kind?_eq henc haut hcolors
  rw [kind?, hop, Option.bind_some, hx, Option.map_some, eq_comm] at hkind
  exact kind?_eq_variable hkind

/-- A step that has variables goes to a step, and its first variable to the first variable of this
step. The operator and the first variable are joined, and among the variables of a path only the
first is joined to an operator. -/
theorem exists_sends_step (hstep : 0 < blockSize p.stepSizes step) : ∃ step',
    p.Sends m (.operator (step + 1)) (.operator (step' + 1)) ∧
      p.Sends m (.variable step 0) (.variable step' 0) := by
  have hlink : p.Link (.operator (step + 1)) (.variable step 0) := .first_variable hstep
  obtain ⟨u, hu⟩ := exists_sends henc haut hlink.mem.1
  obtain ⟨w, hw⟩ := exists_sends henc haut hlink.mem.2
  obtain ⟨step', index', rfl⟩ := hw.variable henc hcolors haut
  have hkind := hu.kind?_eq henc haut hcolors
  obtain ⟨op, -, hop, -⟩ := exists_step_of_lt hstep
  rw [kind?, getElem?_operators_succ hop, Option.map_some] at hkind
  obtain ⟨index, op', rfl, -, -⟩ := kind?_eq_operator hkind
  -- no link leads from a variable to an operator, and only one from an operator to a variable
  rcases hu.joined henc haut hw (.inl hlink) with hjoined | hjoined
  · cases hjoined
    exact ⟨step', hu, hw⟩
  · cases hjoined

/-- The variables of a step go in order to those of its image. By induction on the place, as for the
places of literals: of the two neighbours of an image the one before is taken. -/
theorem Sends.variables (h : p.Sends m (.variable step 0) (.variable step' 0)) {index : Nat}
    (hindex : index < blockSize p.stepSizes step) :
    p.Sends m (.variable step index) (.variable step' index) := by
  -- the images of both the variable before and the one before that are needed
  induction index using Nat.strongRecOn with
  | ind index ih =>
      cases index with
      | zero => exact h
      | succ index =>
          have hprev := ih index (by omega) (by omega)
          have hlink : p.Link (.variable step index) (.variable step (index + 1)) :=
            .next_variable hindex
          obtain ⟨w, hw⟩ := exists_sends henc haut hlink.mem.2
          obtain ⟨step'', index', rfl⟩ := hw.variable henc hcolors haut
          rcases hprev.joined henc haut hw (.inl hlink) with hjoined | hjoined
          · cases hjoined
            exact hw
          · -- the variable before is the image of the variable before
            cases hjoined
            have hback := ih index' (by omega) (by omega)
            have heq := hback.injective henc haut hw
            rw [Vertex.variable.injEq] at heq
            omega

/-- The image of a step has no more variables than the step. A variable behind the image of the last
one would be joined to it, and would be the image of a variable joined to the last one, of which
there is only the one before. -/
theorem Sends.blockSize_le (h : p.Sends m (.variable step 0) (.variable step' 0)) :
    blockSize p.stepSizes step' ≤ blockSize p.stepSizes step := by
  by_contra hnot
  -- the first variable of the image that is too many, and the one before it
  have hfirst := variable_mem_vertices.1 h.mem_left
  obtain ⟨last, hlast⟩ : ∃ last, blockSize p.stepSizes step = last + 1 :=
    ⟨blockSize p.stepSizes step - 1, by omega⟩
  have hprev : p.Sends m (.variable step last) (.variable step' last) :=
    h.variables henc hcolors haut (by omega)
  have hlink : p.Link (.variable step' last) (.variable step' (last + 1)) :=
    .next_variable (by omega)
  obtain ⟨v, hv⟩ := exists_sends_to henc haut hlink.mem.2
  obtain ⟨step'', index, rfl⟩ := hv.variable_of_variable henc hcolors haut
  rcases (hprev.joined_iff henc haut hv).1 (.inl hlink) with hjoined | hjoined
  · cases hjoined with
    | next_variable hlt => omega
  · -- it would come from the variable before the last, which goes elsewhere
    cases hjoined
    have hback : p.Sends m (.variable step index) (.variable step' index) :=
      h.variables henc hcolors haut (by omega)
    have heq := hback.unique hv
    rw [Vertex.variable.injEq] at heq
    omega

/-- The image of a step has variables of the same types in the same order. -/
theorem Sends.types_eq {op op' : Operator} (hop : p.steps[step]? = some op)
    (hop' : p.steps[step']? = some op')
    (h : p.Sends m (.variable step 0) (.variable step' 0)) :
    op'.vars.map (·.type) = op.vars.map (·.type) := by
  have hle := h.blockSize_le henc hcolors haut
  rw [blockSize_stepSizes hop, blockSize_stepSizes hop'] at hle
  have hlast : ∀ index < op.vars.length,
      p.Sends m (.variable step index) (.variable step' index) := fun index hindex =>
    h.variables henc hcolors haut (blockSize_stepSizes hop ▸ hindex)
  have hlt : ∀ index < op.vars.length, index < op'.vars.length := fun index hindex =>
    blockSize_stepSizes hop' ▸ variable_mem_vertices.1 (hlast index hindex).mem_right
  -- place by place up to the last variable of the step; behind it neither has one
  refine List.ext_getElem? fun index => ?_
  by_cases hindex : index < op.vars.length
  · have hkind := (hlast index hindex).kind?_eq henc haut hcolors
    have hindex' := hlt index hindex
    simpa [kind?, hop, hop', hindex, hindex'] using hkind
  · rw [List.getElem?_eq_none (by simpa using Nat.le_trans hle (Nat.le_of_not_lt hindex)),
      List.getElem?_eq_none (by simpa using hindex)]

/-- A bracket that has literals is fixed. The head of its first literal goes to a head of the same
role, which is joined to this bracket only. -/
theorem sends_bracket (hp : p.WellFormed) {role : Role} (h : p.literals role ≠ []) :
    p.Sends m (.operator (p.bracketIndex role)) (.operator (p.bracketIndex role)) := by
  obtain ⟨l, ls, hliterals⟩ := List.exists_cons_of_ne_nil h
  have hl : (p.literals role)[0]? = some l := by rw [hliterals, List.getElem?_cons_zero]
  have hlink : p.Link (.operator (p.bracketIndex role)) (.literal role 0 0) :=
    .head (literal_mem_vertices.1 (head_mem_vertices hl))
  obtain ⟨w, hw⟩ := exists_sends henc haut hlink.mem.2
  obtain ⟨index', rfl⟩ := hw.head hp henc hcolors haut
  obtain ⟨b, hb⟩ := exists_sends henc haut hlink.mem.1
  have hkind := hb.kind?_eq henc haut hcolors
  rw [kind?, getElem?_operators_bracket, Option.map_some] at hkind
  obtain ⟨index, op, rfl, -, -⟩ := kind?_eq_operator hkind
  -- the head goes to a head of the same role, and the only operator next to it is the bracket
  rcases hb.joined henc haut hw (.inl hlink) with hjoined | hjoined
  · cases hjoined
    exact hb
  · cases hjoined

end

/-! ### Steps are kept -/

/-- The vertex of a step goes to that of another, and the vertices of its variables to those of
the variables of the other, in order. The steps have one schema and variables of the same
types. -/
structure CarriesStep (p : PartialPlan) (e : PlanEncoding) (m : Array Nat) (step step' : Nat)
    (op op' : Operator) : Prop where
  schema : op'.schema = op.schema
  length : op'.vars.length = op.vars.length
  types : op'.vars.map (·.type) = op.vars.map (·.type)
  operator : ∃ k k', e.operators[op.name]? = some k ∧ e.operators[op'.name]? = some k' ∧
    imageIn m k = k'
  inOrder : ∀ i < op.vars.length,
    imageIn m (p.constantVertices.length + p.variablesBefore step + i) =
      p.constantVertices.length + p.variablesBefore step' + i

/-- The table sends every step that has variables to a like step, and fixes the brackets that
have literals. -/
structure KeepsSteps (p : PartialPlan) (e : PlanEncoding) (m : Array Nat) : Prop where
  step : ∀ step op, p.steps[step]? = some op → op.vars ≠ [] →
    ∃ step' op', p.steps[step']? = some op' ∧ p.CarriesStep e m step step' op op'
  init : p.init.postconditions ≠ [] → ∃ k, e.operators[p.init.name]? = some k ∧ imageIn m k = k
  goal : p.goal.preconditions ≠ [] → ∃ k, e.operators[p.goal.name]? = some k ∧ imageIn m k = k

/-- The table of the operators has the number of each operator, by its name. -/
theorem Encodes.getElem?_operators (henc : p.Encodes e) {index : Nat} {op : Operator}
    (hop : p.operators[index]? = some op) :
    e.operators[op.name]? = some (p.number (.operator index)) :=
  (henc.operators _ _).2 ⟨index, op, hop, rfl, rfl⟩

section

variable (henc : p.Encodes e) (hcolors : e.palette.size < 2 ^ 32) (haut : e.graph.IsAutomorphism m)

include henc hcolors haut

/-- Every step with variables is carried to a step: the schema is that of its vertex, the types are
those of its path. -/
theorem exists_carriesStep {step : Nat} {op : Operator} (hop : p.steps[step]? = some op)
    (hvars : op.vars ≠ []) :
    ∃ step' op', p.steps[step']? = some op' ∧ p.CarriesStep e m step step' op op' := by
  have hpos : 0 < blockSize p.stepSizes step := by
    rw [blockSize_stepSizes hop]
    exact List.length_pos_iff.2 hvars
  obtain ⟨step', hoperator, hfirst⟩ := exists_sends_step henc hcolors haut hpos
  obtain ⟨op', -, hop', -⟩ := exists_step_of_lt (variable_mem_vertices.1 hfirst.mem_right)
  have htypes := hfirst.types_eq henc hcolors haut hop hop'
  have hkind := hoperator.kind?_eq henc haut hcolors
  rw [kind?, kind?, getElem?_operators_succ hop, getElem?_operators_succ hop', Option.map_some,
    Option.map_some, Option.some.injEq, Kind.operator.injEq] at hkind
  refine ⟨step', op', hop', {
    schema := hkind
    length := by simpa using congrArg List.length htypes
    types := htypes
    operator := ⟨_, _, henc.getElem?_operators (getElem?_operators_succ hop),
      henc.getElem?_operators (getElem?_operators_succ hop'), hoperator.image⟩
    inOrder := ?_ }⟩
  -- the row of a step starts behind the constants and the rows before it
  intro i hi
  have himage := (hfirst.variables henc hcolors haut (blockSize_stepSizes hop ▸ hi)).image
  rwa [number, number, ← variablesBefore_eq, ← variablesBefore_eq] at himage

/-- The vertex of a bracket with literals is found in the table and stays where it is. -/
theorem exists_bracket_fixed (hp : p.WellFormed) {role : Role} (h : p.literals role ≠ []) :
    ∃ k, e.operators[(p.bracket role).name]? = some k ∧ imageIn m k = k :=
  ⟨_, henc.getElem?_operators (getElem?_operators_bracket role),
    (sends_bracket henc hcolors haut hp h).image⟩

end

/-- Every automorphism of the graph of a validated plan keeps the steps, as long as the counter of
the colours does not run over. -/
theorem keepsSteps_of_isAutomorphism (hvalid : p.validate = .ok ()) (hencode : p.encode = .ok e)
    (hcolors : (ColorTables.ofPlan? p).isSome) (haut : e.graph.isAutomorphism m = true) :
    p.KeepsSteps e m := by
  have hp := validate_eq_ok_iff.1 hvalid
  have henc := encodes_of_encode hvalid hencode
  have haut := ColoredGraph.isAutomorphism_iff.1 haut
  have hsize : e.palette.size < 2 ^ 32 := henc.palette ▸ ColorTables.size_lt_of_isSome hcolors
  exact {
    step := fun _ _ hop hvars => exists_carriesStep henc hsize haut hop hvars
    init := fun (h : p.literals .producer ≠ []) => exists_bracket_fixed henc hsize haut hp h
    goal := fun (h : p.literals .consumer ≠ []) => exists_bracket_fixed henc hsize haut hp h }

/-- The table that exchanges the two balls exchanges the two steps that pick them up. -/
theorem keepsSteps_exchange_balls : ∃ e,
    TwoBalls.plan.validate = .ok () ∧ TwoBalls.plan.encode = .ok e ∧
      (ColorTables.ofPlan? TwoBalls.plan).isSome ∧
        e.graph.isAutomorphism #[1, 0, 3, 2, 4, 6, 5, 7, 10, 11, 8, 9, 14, 15, 12, 13] = true ∧
          TwoBalls.plan.KeepsSteps e #[1, 0, 3, 2, 4, 6, 5, 7, 10, 11, 8, 9, 14, 15, 12, 13] := by
  obtain ⟨e, hencode, haut⟩ := exists_ok_of_any (show TwoBalls.plan.encode.toOption.any (fun e =>
      e.graph.isAutomorphism #[1, 0, 3, 2, 4, 6, 5, 7, 10, 11, 8, 9, 14, 15, 12, 13]) = true by
    decide +kernel)
  have hcolors : (ColorTables.ofPlan? TwoBalls.plan).isSome := by decide +kernel
  exact ⟨e, TwoBalls.validate_plan, hencode, hcolors, haut,
    keepsSteps_of_isAutomorphism TwoBalls.validate_plan hencode hcolors haut⟩

end PartialPlan

end PlanOrbits
