import PlanOrbits.Proofs.Encoding.Growth
import PlanOrbits.Proofs.Encoding.Parts
import PlanOrbits.Proofs.Plan.Validation

/-!
# Which plans can be encoded

The encoder succeeds on exactly those plans that declare what they use (`PartialPlan.Encodable`),
whether they are valid or not, and on all others it ends with an error of the plan. When it grows
the graph step by step, no edge is refused and no name of an operator is missing
(`encode_eq_ok_iff_encodable`).

The first part follows the steps of the encoder. Each of them gives what the encoder makes of it at
once, or fails with the same error. The `Outline` are the colours that are looked up for the first
three rows of vertices, and the `Lookups` are all that is looked up; either they are found, or the
encoder and the growing graph end with one and the same error.
-/

namespace PlanOrbits.PartialPlan

open Std (ExtTreeMap)
open ColoredGraph (Joinable joinable_newest joinable_newest_left)
open Growth

variable {p : PartialPlan} {palette : Palette} {g : ColoredGraph} {n : Nat} {cause : PlanError}

/-! ### Vertices -/

section

variable {α : Type} {color : α → Except PlanError Color} {xs : List α}

/-- If all colours of a row are found, the growing graph gets one vertex for each, with the next
numbers in a row, as the encoder numbers them at once. No edge is added. -/
theorem gives_growVertices (hn : g.vertexCount = n) {colors : List Color}
    (h : xs.mapM color = .ok colors) :
    (growVertices color xs).Gives g (List.range' n xs.length) colors [] := by
  induction xs generalizing g n colors with
  | nil =>
      cases h
      exact gives_pure [] g
  | cons x xs ih =>
      obtain ⟨c, cs, hc, hcs, rfl⟩ := mapM_cons_eq_ok_iff.1 h
      rw [List.length_cons, List.range'_succ]
      refine gives_liftM_bind hc ?_
      refine (gives_newVertex hn c).bind hn fun g₁ hn₁ => ?_
      exact (ih hn₁ hcs).bind_pure

/-- If a colour of a row is not found, the vertices before it have already been added, and the graph
is given up with the error that `mapM` finds first. -/
theorem fails_growVertices (h : xs.mapM color = .error cause) :
    (growVertices color xs).Fails g cause := by
  induction xs generalizing g with
  | nil => cases h
  | cons x xs ih =>
      rcases mapM_cons_eq_error_iff.1 h with hx | ⟨c, hc, hxs⟩
      · exact (fails_liftM hx).bind
      · refine fails_liftM_bind hc ?_
        exact (gives_newVertex rfl c).bind_fails rfl fun g₁ _ => (ih hxs).bind

end

/-- The rows of all steps, one behind the other. Their numbers are the `variableVertices` that start
at the present size of the graph. -/
theorem gives_growVariables (hn : g.vertexCount = n) {ops : List Operator}
    {colors : List (List Color)}
    (h : (ops.mapM fun op => op.vars.mapM (palette.variableColor ·.type)) = .ok colors) :
    (growVariables palette ops).Gives g (variableVertices n ops) colors.flatten [] := by
  induction ops generalizing g n colors with
  | nil =>
      cases h
      exact gives_pure [] g
  | cons op ops ih =>
      obtain ⟨cs, css, hcs, hcss, rfl⟩ := mapM_cons_eq_ok_iff.1 h
      have hlength : op.vars.length = cs.length := (mapM_eq_ok_iff.1 hcs).length_eq
      refine (gives_growVertices hn hcs).bind hn fun g₁ hn₁ => ?_
      -- the next row starts behind this one, which is as long as the row of its variables
      rw [← hlength] at hn₁
      exact (ih hn₁ hcss).bind_pure

/-- The first step with a variable of unknown colour ends the growth. -/
theorem fails_growVariables {ops : List Operator}
    (h : (ops.mapM fun op => op.vars.mapM (palette.variableColor ·.type)) = .error cause) :
    (growVariables palette ops).Fails g cause := by
  induction ops generalizing g with
  | nil => cases h
  | cons op ops ih =>
      rcases mapM_cons_eq_error_iff.1 h with hop | ⟨cs, hcs, hops⟩
      · exact (fails_growVertices hop).bind
      · exact (gives_growVertices rfl hcs).bind_fails rfl fun g₁ _ => (ih hops).bind

/-- The vertices of the operators, entered into the table under their names while they are made. A
name that two operators share is bound to the later one, in both forms. -/
theorem gives_growOperators (hn : g.vertexCount = n) {table : ExtTreeMap String Nat}
    {ops : List Operator} {colors : List Color}
    (h : ops.mapM (palette.schema ·.schema) = .ok colors) :
    (growOperators palette table ops).Gives g
      ((ops.zipIdx n).foldl (fun m (op, v) => m.insert op.name v) table) colors [] := by
  induction ops generalizing g n table colors with
  | nil =>
      cases h
      exact gives_pure table g
  | cons op ops ih =>
      obtain ⟨c, cs, hc, hcs, rfl⟩ := mapM_cons_eq_ok_iff.1 h
      refine gives_liftM_bind hc ?_
      exact (gives_newVertex hn c).bind hn fun g₁ hn₁ => ih hn₁ hcs

/-! ### Paths of steps -/

/-- A path from a vertex through others. Its edges are all joinable before the first one is added,
and adding edges keeps this, for the number of vertices stays `n`. -/
theorem gives_growPath (hn : g.vertexCount = n) {previous : Nat} {vs : List Nat}
    (h : ∀ pair ∈ pathEdges (previous :: vs), Joinable n pair) :
    (growPath previous vs).Gives g () [] (pathEdges (previous :: vs)) := by
  induction vs generalizing g previous with
  | nil => exact gives_pure () g
  | cons v vs ih =>
      have hcons : pathEdges (previous :: v :: vs) = (previous, v) :: pathEdges (v :: vs) := rfl
      rw [hcons] at h ⊢
      obtain ⟨hfirst, hrest⟩ := List.forall_mem_cons.1 h
      exact (gives_newEdge hn hfirst).bind hn fun g₁ hn₁ => ih hn₁ hrest

/-- The paths of all steps. `growPaths` looks up the vertex of the operator by name, and the encoder
uses a default for a missing name; both find `v`. -/
theorem gives_growPaths (hn : g.vertexCount = n) {table : ExtTreeMap String Nat}
    {steps : List (Operator × List Nat)}
    (h : ∀ step ∈ steps, ∃ v, table[step.1.name]? = some v ∧
      ∀ pair ∈ pathEdges (v :: step.2), Joinable n pair) :
    (growPaths table steps).Gives g () []
      (steps.flatMap fun (op, vs) => pathEdges (table.getD op.name 0 :: vs)) := by
  induction steps generalizing g with
  | nil => exact gives_pure () g
  | cons step steps ih =>
      obtain ⟨op, vs⟩ := step
      obtain ⟨⟨v, hv, hpath⟩, hrest⟩ := List.forall_mem_cons.1 h
      rw [List.flatMap_cons]
      dsimp only
      rw [ExtTreeMap.getD_eq_getD_getElem?, hv, Option.getD_some]
      refine gives_lookUp_bind hv ?_
      exact (gives_growPath hn hpath).bind hn fun g₁ hn₁ => ih hn₁ hrest

/-- The path of a step joins its variables one to the next, and the first one to the vertex `v` of
an operator. All of its edges are joinable: `v` stands behind the rows of all variables, and within
a row the numbers increase. -/
theorem joinable_of_mem_pathEdges {start m v : Nat} {ops : List Operator}
    {step : Operator × List Nat} (hstep : step ∈ variableVertices start ops)
    (hv : start + (ops.flatMap (·.vars)).length ≤ v) (hm : v < m) :
    ∀ pair ∈ pathEdges (v :: step.2), Joinable m pair := by
  rintro ⟨a, b⟩ hab
  have hlt := fun u => lt_of_mem_variableVertices (v := u) hstep
  obtain ⟨op, vs⟩ := step
  obtain ⟨i, -, rfl⟩ := mem_variableVertices.1 hstep
  simp only [List.mem_range'_1] at hlt
  rcases mem_pathEdges_range'.1 hab with ⟨hpos, rfl, rfl⟩ | ⟨j, hj, rfl, rfl⟩
  · -- the vertex of the operator stands behind the row
    have hfirst := hlt (start + blockStart (ops.map (·.vars.length)) i) (by omega)
    exact ⟨by dsimp only; omega, hm, by dsimp only; omega⟩
  · have hnext := hlt (start + blockStart (ops.map (·.vars.length)) i + j + 1) (by omega)
    exact ⟨by dsimp only; omega, by dsimp only; omega, by dsimp only; omega⟩

/-! ### Literals

The bracket of a literal and the constants have vertices from before, and each place of a literal
is new when it is joined. -/

/-- The places of the arguments: each gets a vertex, a link to the place before it and a link to its
constant. The encoder lists all links of the path first and then those to constants, so the two
lists of edges agree up to their order, which `Gives.congr` allows. -/
theorem gives_growArguments {l : Literal} {color : Color} {previous : Nat} {args : List Variable}
    {targets : List Nat} (hn : g.vertexCount = n) (hprevious : previous < n)
    (hconstants : p.constantVertices.length ≤ n) (h : args.mapM (p.target l) = .ok targets) :
    (p.growArguments l color previous args).Gives g () (List.replicate targets.length color)
      (pathEdges (previous :: List.range' n targets.length) ++
        (List.range' n targets.length).zip targets) := by
  induction args generalizing g n previous targets with
  | nil =>
      cases h
      exact gives_pure () g
  | cons arg args ih =>
      obtain ⟨t, ts, ht, hts, rfl⟩ := mapM_cons_eq_ok_iff.1 h
      have htarget : t < n := Nat.lt_of_lt_of_le (target_lt ht) hconstants
      have hsteps : (p.growArguments l color previous (arg :: args)).Gives g ()
          (color :: List.replicate ts.length color)
          ((previous, n) :: (n, t) :: (pathEdges (n :: List.range' (n + 1) ts.length) ++
            (List.range' (n + 1) ts.length).zip ts)) := by
        refine (gives_newVertex hn color).bind hn fun g₁ hn₁ => ?_
        refine (gives_newEdge hn₁ (joinable_newest hprevious)).bind hn₁ fun g₂ hn₂ => ?_
        refine gives_liftM_bind ht ?_
        refine (gives_newEdge hn₂ (joinable_newest_left htarget)).bind hn₂ fun g₃ hn₃ => ?_
        exact ih hn₃ (Nat.lt_succ_self n) (Nat.le_succ_of_le hconstants) hts
      -- the link to a constant is added right behind its argument, not behind the path
      refine hsteps.congr rfl fun pair => ?_
      simp [pathEdges, List.range'_succ]
      tauto

/-- An argument without a target ends the growth, after the vertex of its place and the link to the
place before it have been added. -/
theorem fails_growArguments {l : Literal} {color : Color} {previous : Nat} {args : List Variable}
    (hn : g.vertexCount = n) (hprevious : previous < n)
    (hconstants : p.constantVertices.length ≤ n) (h : args.mapM (p.target l) = .error cause) :
    (p.growArguments l color previous args).Fails g cause := by
  induction args generalizing g n previous with
  | nil => cases h
  | cons arg args ih =>
      refine (gives_newVertex hn color).bind_fails hn fun g₁ hn₁ => ?_
      refine (gives_newEdge hn₁ (joinable_newest hprevious)).bind_fails hn₁ fun g₂ hn₂ => ?_
      rcases mapM_cons_eq_error_iff.1 h with ht | ⟨t, ht, hts⟩
      · exact (fails_liftM ht).bind
      · have htarget : t < n := Nat.lt_of_lt_of_le (target_lt ht) hconstants
        refine fails_liftM_bind ht ?_
        refine (gives_newEdge hn₂ (joinable_newest_left htarget)).bind_fails hn₂ fun g₃ hn₃ => ?_
        exact ih hn₃ (Nat.lt_succ_self n) (Nat.le_succ_of_le hconstants) hts

/-- A literal: its head is the next vertex, linked to the bracket, and its arguments follow. The
result is the head, and colours and edges are those of its block. -/
theorem gives_growLiteral {bracket : Nat} {l : Literal} {b : LiteralBlock}
    (hn : g.vertexCount = n) (hbracket : bracket < n) (hconstants : p.constantVertices.length ≤ n)
    (h : p.literalBlock palette n l = .ok b) :
    (p.growLiteral palette bracket l).Gives g n b.colors (b.edges bracket) := by
  simp only [literalBlock, bind_eq_ok_iff] at h
  obtain ⟨color, hcolor, targets, htargets, h⟩ := h
  cases h
  have hsteps : (p.growLiteral palette bracket l).Gives g n
      (color :: List.replicate targets.length color)
      ((bracket, n) :: (pathEdges (n :: List.range' (n + 1) targets.length) ++
        (List.range' (n + 1) targets.length).zip targets)) := by
    refine gives_liftM_bind hcolor ?_
    refine (gives_newVertex hn color).bind hn fun g₁ hn₁ => ?_
    refine (gives_newEdge hn₁ (joinable_newest hbracket)).bind hn₁ fun g₂ hn₂ => ?_
    exact (gives_growArguments hn₂ (Nat.lt_succ_self n) (Nat.le_succ_of_le hconstants)
      htargets).bind_pure
  exact hsteps

/-- A literal fails by its colour, before anything is added, or by one of its arguments. The error
is that of `literalBlock` in both cases. -/
theorem fails_growLiteral {bracket : Nat} {l : Literal} (hn : g.vertexCount = n)
    (hbracket : bracket < n) (hconstants : p.constantVertices.length ≤ n)
    (h : p.literalBlock palette n l = .error cause) :
    (p.growLiteral palette bracket l).Fails g cause := by
  simp only [literalBlock, bind_eq_error_iff] at h
  rcases h with hcolor | ⟨color, hcolor, htargets | ⟨targets, -, h⟩⟩
  · exact (fails_liftM hcolor).bind
  · refine fails_liftM_bind hcolor ?_
    refine (gives_newVertex hn color).bind_fails hn fun g₁ hn₁ => ?_
    refine (gives_newEdge hn₁ (joinable_newest hbracket)).bind_fails hn₁ fun g₂ hn₂ => ?_
    exact (fails_growArguments hn₂ (Nat.lt_succ_self n) (Nat.le_succ_of_le hconstants)
      htargets).bind
  · cases h

/-- The next block starts where the vertices of a block end: `literalBlocks` computes this from the
arity, the growing graph from the number of its vertices. -/
theorem add_arity_eq_of_literalBlock {head : Nat} {l : Literal} {b : LiteralBlock}
    (h : p.literalBlock palette head l = .ok b) : head + l.arity + 1 = head + b.colors.length := by
  rw [(isBlock_of_literalBlock h).length_colors, Nat.add_assoc]

/-- The literals of a bracket, one behind the other, with the table of heads that is filled on the
way. -/
theorem gives_growLiterals {role : Role} {name : String} {bracket : Nat} {ls : List Literal}
    {table : ExtTreeMap Nat (Occurrence role)} {blocks : List LiteralBlock}
    (hn : g.vertexCount = n) (hbracket : bracket < n) (hconstants : p.constantVertices.length ≤ n)
    (h : p.literalBlocks palette n ls = .ok blocks) :
    (p.growLiterals palette name bracket table ls).Gives g
      (blocks.foldl (fun m b => m.insert b.head ⟨name, b.literal⟩) table)
      (blocks.flatMap (·.colors)) (blocks.flatMap (·.edges bracket)) := by
  induction ls generalizing g n table blocks with
  | nil =>
      cases h
      exact gives_pure table g
  | cons l ls ih =>
      simp only [literalBlocks, bind_eq_ok_iff] at h
      obtain ⟨block, hblock, blocks', hblocks, h⟩ := h
      cases h
      have his := isBlock_of_literalBlock hblock
      -- the growing graph is as large as the head of the next block
      rw [add_arity_eq_of_literalBlock hblock] at hblocks
      rw [List.foldl_cons, List.flatMap_cons, List.flatMap_cons, his.head, his.literal]
      exact (gives_growLiteral hn hbracket hconstants hblock).bind hn fun g₁ hn₁ =>
        ih hn₁ (Nat.lt_add_right _ hbracket) (Nat.le_add_right_of_le hconstants) hblocks

/-- The first literal that fails ends the growth with its error; those before it are given. -/
theorem fails_growLiterals {role : Role} {name : String} {bracket : Nat} {ls : List Literal}
    {table : ExtTreeMap Nat (Occurrence role)} (hn : g.vertexCount = n) (hbracket : bracket < n)
    (hconstants : p.constantVertices.length ≤ n)
    (h : p.literalBlocks palette n ls = .error cause) :
    (p.growLiterals palette name bracket table ls).Fails g cause := by
  induction ls generalizing g n table with
  | nil => cases h
  | cons l ls ih =>
      simp only [literalBlocks, bind_eq_error_iff] at h
      rcases h with hblock | ⟨block, hblock, hblocks | ⟨blocks', -, h⟩⟩
      · exact (fails_growLiteral hn hbracket hconstants hblock).bind
      · rw [add_arity_eq_of_literalBlock hblock] at hblocks
        exact (gives_growLiteral hn hbracket hconstants hblock).bind_fails hn fun g₁ hn₁ =>
          ih hn₁ (Nat.lt_add_right _ hbracket) (Nat.le_add_right_of_le hconstants) hblocks
      · cases h

/-! ### The outline -/

variable (p) in
/-- The number of vertices of the outline, which is also the first head. -/
def outlineSize : Nat := p.constantVertices.length + p.variableCount + p.operators.length

variable (p) in
/-- The table of the operators. -/
def operatorTable : ExtTreeMap String Nat :=
  operatorVertices (p.constantVertices.length + p.variableCount) p.operators

variable (p) in
/-- The edges of the outline. -/
def outlinePairs : List (Nat × Nat) :=
  (variableVertices p.constantVertices.length p.realSteps).flatMap fun (op, vs) =>
    pathEdges (p.operatorTable.getD op.name 0 :: vs)

variable (p) in
/-- The vertices of constants are there when the literals are reached, as `gives_growLiterals` asks.
-/
theorem length_constantVertices_le : p.constantVertices.length ≤ p.outlineSize := by
  rw [outlineSize]
  omega

/-- Every operator of the plan has an entry in `operatorTable`, and its vertex belongs to the
outline. So the lookups of `growPaths` and of the two brackets succeed. -/
theorem exists_getElem?_operatorTable {op : Operator} (hop : op ∈ p.operators) :
    ∃ v < p.outlineSize, p.operatorTable[op.name]? = some v := by
  obtain ⟨v, hget, -, hlt⟩ : ∃ v, p.operatorTable[op.name]? = some v ∧ _ ∧ v < p.outlineSize :=
    exists_operatorVertex hop
  exact ⟨v, hlt, hget⟩

variable (p) in
theorem init_mem_operators : p.init ∈ p.operators := by simp [operators]

variable (p) in
theorem goal_mem_operators : p.goal ∈ p.operators := by simp [operators]

variable (p) in
/-- The colours of the outline, if they are found. -/
structure Outline where
  constantColors : List Color
  variableColors : List (List Color)
  operatorColors : List Color
  constants_eq : p.constantVertices.mapM ((Palette.ofPlan p).constant ·.type) = .ok constantColors
  variables_eq : (p.realSteps.mapM fun op =>
    op.vars.mapM ((Palette.ofPlan p).variableColor ·.type)) = .ok variableColors
  operators_eq : p.operators.mapM ((Palette.ofPlan p).schema ·.schema) = .ok operatorColors

namespace Outline

variable (o : p.Outline)

def colors : List Color := o.constantColors ++ o.variableColors.flatten ++ o.operatorColors

/-- One colour for each constant. -/
theorem length_constantColors : o.constantColors.length = p.constantVertices.length :=
  (mapM_eq_ok_iff.1 o.constants_eq).length_eq.symm

/-- One colour for each variable, over all steps that are not pseudo steps. -/
theorem length_variableColors : o.variableColors.flatten.length = p.variableCount := by
  have hsizes : p.realSteps.map (·.vars.length) = o.variableColors.map List.length := by
    rw [← List.forall₂_eq_eq_eq, List.forall₂_map_left_iff, List.forall₂_map_right_iff]
    exact (mapM_eq_ok_iff.1 o.variables_eq).imp fun op cs h => (mapM_eq_ok_iff.1 h).length_eq
  rw [variableCount, List.length_flatMap, hsizes, List.length_flatten]

/-- One colour for each operator, the pseudo steps included. -/
theorem length_operatorColors : o.operatorColors.length = p.operators.length :=
  (mapM_eq_ok_iff.1 o.operators_eq).length_eq.symm

/-- The outline has `outlineSize` vertices. -/
theorem length_colors : o.colors.length = p.outlineSize := by
  rw [colors, List.length_append, List.length_append, o.length_constantColors,
    o.length_variableColors, o.length_operatorColors, outlineSize]

/-- The first half of the encoder. Constants, variables and operators are numbered in a row, and the
paths of the steps are added when all vertices of the outline are there. -/
theorem gives_growOutline (hn : g.vertexCount = 0) :
    p.growOutline.Gives g p.operatorTable o.colors p.outlinePairs := by
  -- each row starts at the number of vertices that there are by then
  refine ((gives_growVertices hn o.constants_eq).bind hn fun g₁ hn₁ => ?_).congr
    (List.append_assoc ..).symm fun _ => Iff.rfl
  rw [o.length_constantColors, Nat.zero_add] at hn₁
  refine (gives_growVariables hn₁ o.variables_eq).bind hn₁ fun g₂ hn₂ => ?_
  rw [o.length_variableColors] at hn₂
  refine ((gives_growOperators hn₂ o.operators_eq).bind hn₂ fun g₃ hn₃ => ?_).congr
    (List.append_nil _) fun _ => Iff.rfl
  rw [o.length_operatorColors] at hn₃
  refine (gives_growPaths hn₃ fun step hstep => ?_).bind_pure
  obtain ⟨i, hi, -⟩ := mem_variableVertices.1 hstep
  have hop : step.1 ∈ p.operators := List.mem_of_mem_filter (List.mem_of_getElem? hi)
  -- the vertex may be that of another operator of this name, but stands in the row of operators
  obtain ⟨v, hget, hle, hlt⟩ := exists_operatorVertex hop
  exact ⟨v, hget, joinable_of_mem_pathEdges hstep hle hlt⟩

end Outline

variable (p) in
/-- Either the colours of the outline are found, or the encoder and the growing graph end with the
same error of the plan. Only constants and variables can lack a colour, as the palette has one for
every schema of the plan. -/
theorem outline_or_error : Nonempty p.Outline ∨ ∃ cause, p.encode = .error (.plan cause) ∧
    p.growOutline.Fails .empty cause := by
  cases hconstants : p.constantVertices.mapM ((Palette.ofPlan p).constant ·.type) with
  | error cause =>
      -- a constant of an undeclared type; nothing has been added yet
      refine .inr ⟨cause, ?_, (fails_growVertices hconstants).bind⟩
      simp only [encode, mapM_liftM_plan, hconstants, liftM_plan_error_bind]
  | ok constantColors =>
      cases hvariables : p.realSteps.mapM fun op =>
          op.vars.mapM ((Palette.ofPlan p).variableColor ·.type) with
      | error cause =>
          -- a variable of an undeclared type, behind the vertices of all constants
          refine .inr ⟨cause, ?_, (gives_growVertices rfl hconstants).bind_fails rfl fun g₁ _ =>
            (fails_growVariables hvariables).bind⟩
          simp only [encode, mapM_liftM_plan, hconstants, hvariables, liftM_plan_ok_bind,
            liftM_plan_error_bind]
      | ok variableColors =>
          obtain ⟨operatorColors, hoperators⟩ :=
            exists_mapM_eq_ok_iff.2 fun _ hop => Palette.exists_schema p hop
          exact .inl ⟨{
            constantColors, variableColors, operatorColors
            constants_eq := hconstants
            variables_eq := hvariables
            operators_eq := hoperators }⟩

/-! ### All that is looked up -/

variable (p) in
/-- All that is looked up for a plan, if it is found. -/
structure Lookups extends p.Outline where
  producers : List LiteralBlock
  consumers : List LiteralBlock
  producers_eq : p.literalBlocks (Palette.ofPlan p) p.outlineSize p.init.postconditions =
    .ok producers
  consumers_eq : p.literalBlocks (Palette.ofPlan p)
    (p.outlineSize + (producers.flatMap (·.colors)).length) p.goal.preconditions = .ok consumers

namespace Lookups

variable (found : p.Lookups)

/-- The pairs of vertices that are joined. -/
def pairs : List (Nat × Nat) :=
  p.outlinePairs ++ found.producers.flatMap (·.edges (p.operatorTable.getD p.init.name 0)) ++
    found.consumers.flatMap (·.edges (p.operatorTable.getD p.goal.name 0))

/-- What `encode` returns when everything is found, with the graph that `ofParts` makes of the
parts. -/
theorem encode_eq {graph : ColoredGraph} (h : ColoredGraph.ofParts
      (found.colors ++ (found.producers ++ found.consumers).flatMap (·.colors)) found.pairs =
    .ok graph) :
    p.encode = .ok {
      graph, palette := Palette.ofPlan p, operators := p.operatorTable
      producers := heads p.init.name found.producers
      consumers := heads p.goal.name found.consumers
      disjoint := disjoint_heads found.producers_eq found.consumers_eq } := by
  simp only [encode, mapM_liftM_plan, bind_eq_ok_iff, liftM_plan_eq_ok_iff, liftM_graph_eq_ok_iff]
  exact ⟨_, found.constants_eq, _, found.variables_eq, _, found.operators_eq,
    ⟨_, found.producers_eq⟩, attached_eq_ok _, ⟨_, found.consumers_eq⟩, attached_eq_ok _,
    graph, h, rfl⟩

/-- The whole encoder, its two halves put together: the outline, then the literals of the two
brackets, each of them looked up by name. -/
theorem gives_grow (hn : g.vertexCount = 0) : p.grow.Gives g
    (p.operatorTable, heads p.init.name found.producers, heads p.goal.name found.consumers)
    (found.colors ++ (found.producers ++ found.consumers).flatMap (·.colors)) found.pairs := by
  obtain ⟨init, hinitLt, hinit⟩ := exists_getElem?_operatorTable p.init_mem_operators
  obtain ⟨goal, hgoalLt, hgoal⟩ := exists_getElem?_operatorTable p.goal_mem_operators
  have hinitD : p.operatorTable.getD p.init.name 0 = init := by
    rw [ExtTreeMap.getD_eq_getD_getElem?, hinit, Option.getD_some]
  have hgoalD : p.operatorTable.getD p.goal.name 0 = goal := by
    rw [ExtTreeMap.getD_eq_getD_getElem?, hgoal, Option.getD_some]
  -- from here on one step for each line of `grow`
  rw [pairs, hinitD, hgoalD, List.flatMap_append, List.append_assoc p.outlinePairs]
  refine (found.gives_growOutline hn).bind hn fun g₁ hn₁ => gives_lookUp_bind hinit ?_
  rw [Nat.zero_add, found.length_colors] at hn₁
  refine (gives_growLiterals hn₁ hinitLt p.length_constantVertices_le found.producers_eq).bind hn₁
    fun g₂ hn₂ => gives_lookUp_bind hgoal ?_
  exact (gives_growLiterals hn₂ (Nat.lt_add_right _ hgoalLt)
    (Nat.le_add_right_of_le p.length_constantVertices_le) found.consumers_eq).bind_pure

/-- What is found makes an encoding, and the growing graph makes the same. `ofParts` accepts the
edges, as they were joinable one by one. -/
theorem exists_encode_eq_ok (found : p.Lookups) :
    ∃ e, p.encode = .ok e ∧ p.encodeByGrowth = some (.ok e) := by
  obtain ⟨graph, hgrow, hgrown⟩ := found.gives_grow (g := .empty) rfl
  refine ⟨_, found.encode_eq hgrown.ofParts_eq, ?_⟩
  rw [encodeByGrowth, hgrow]
  exact dif_pos _

end Lookups

variable (p) in
/-- Either all is found, or the encoder and the growing graph end with the same error of the plan.
The cases follow the encoder: the outline, the conditions that the initial step establishes, those
that the goal requires. -/
theorem lookups_or_error : Nonempty p.Lookups ∨ ∃ cause, p.encode = .error (.plan cause) ∧
    p.grow.Fails .empty cause := by
  obtain ⟨⟨o⟩⟩ | ⟨cause, hencode, hgrow⟩ := p.outline_or_error
  · obtain ⟨init, hinitLt, hinit⟩ := exists_getElem?_operatorTable p.init_mem_operators
    obtain ⟨goal, hgoalLt, hgoal⟩ := exists_getElem?_operatorTable p.goal_mem_operators
    have houtline := o.gives_growOutline (g := .empty) rfl
    -- the literals start behind the outline, in the growing graph as in the encoder
    have hcount : ∀ {m}, m = 0 + o.colors.length → m = p.outlineSize := by
      rw [Nat.zero_add, o.length_colors]
      exact id
    cases hproducers : p.literalBlocks (Palette.ofPlan p) p.outlineSize p.init.postconditions with
    | error cause =>
        refine .inr ⟨cause, ?_, ?_⟩
        · rw [outlineSize] at hproducers
          simp only [encode, mapM_liftM_plan, o.constants_eq, o.variables_eq, o.operators_eq,
            attached_eq_error hproducers, liftM_plan_ok_bind, liftM_plan_error_bind]
        · refine houtline.bind_fails rfl fun g₁ hn₁ => fails_lookUp_bind hinit ?_
          exact (fails_growLiterals (hcount hn₁) hinitLt p.length_constantVertices_le
            hproducers).bind
    | ok producers =>
        cases hconsumers : p.literalBlocks (Palette.ofPlan p)
            (p.outlineSize + (producers.flatMap (·.colors)).length) p.goal.preconditions with
        | error cause =>
            refine .inr ⟨cause, ?_, ?_⟩
            · rw [outlineSize] at hproducers hconsumers
              simp only [encode, mapM_liftM_plan, o.constants_eq, o.variables_eq, o.operators_eq,
                attached_eq_ok ⟨_, hproducers⟩, attached_eq_error hconsumers, liftM_plan_ok_bind,
                liftM_plan_error_bind]
            · refine houtline.bind_fails rfl fun g₁ hn₁ => fails_lookUp_bind hinit ?_
              refine (gives_growLiterals (hcount hn₁) hinitLt p.length_constantVertices_le
                hproducers).bind_fails (hcount hn₁) fun g₂ hn₂ => ?_
              refine fails_lookUp_bind hgoal ?_
              exact (fails_growLiterals hn₂ (Nat.lt_add_right _ hgoalLt)
                (Nat.le_add_right_of_le p.length_constantVertices_le) hconsumers).bind
        | ok consumers =>
            exact .inl ⟨{ o with
              producers, consumers, producers_eq := hproducers, consumers_eq := hconsumers }⟩
  · exact .inr ⟨cause, hencode, hgrow.bind⟩

/-! ### The condition -/

variable (p) in
/-- The plan declares what the encoder looks up: the types of the constants and of the variables
of those operators that do not have the name of a bracket, and the predicates of the literals of
the initial state and the goal, with as many parameters as the literals have arguments; and the
arguments are bound to constants that are declared. -/
structure Encodable : Prop where
  constantType : ∀ c ∈ p.constants, c.type ∈ p.domain.types
  variableType : ∀ op ∈ p.operators, op.name ≠ p.init.name → op.name ≠ p.goal.name →
    ∀ v ∈ op.vars, v.type ∈ p.domain.types
  literal : ∀ l ∈ p.init.postconditions ++ p.goal.preconditions,
    (∃ q, p.domain.predicates.find? (·.name == l.atom.predicate) = some q ∧ q.arity = l.arity) ∧
      ∀ v ∈ l.atom.args, ∃ c ∈ p.constants, p.substitution[v]? = some c

/-- All is found if and only if all is declared. From left to right every lookup that succeeded is
traced back to a declaration; from right to left the declarations give the lookups in the order of
the encoder. -/
theorem nonempty_lookups_iff : Nonempty p.Lookups ↔ p.Encodable := by
  constructor
  · rintro ⟨found⟩
    refine ⟨fun c hc => ?_, fun op hop hinit hgoal v hv => ?_, fun l hl => ?_⟩
    · exact Palette.exists_constant_iff.1
        (exists_mapM_eq_ok_iff.1 ⟨_, found.constants_eq⟩ c (List.mem_eraseDups.2 hc))
    · -- a step with another name than the pseudo steps is one of `realSteps`
      have hreal : op ∈ p.realSteps := List.mem_filter.2 ⟨hop, by simp [isPseudo, hinit, hgoal]⟩
      obtain ⟨cs, hcs⟩ := exists_mapM_eq_ok_iff.1 ⟨_, found.variables_eq⟩ op hreal
      exact Palette.exists_variableColor_iff.1 (exists_mapM_eq_ok_iff.1 ⟨cs, hcs⟩ v hv)
    · rw [← Palette.exists_literal_iff]
      rcases List.mem_append.1 hl with hl | hl
      · exact exists_literalBlocks_iff.1 ⟨_, found.producers_eq⟩ l hl
      · exact exists_literalBlocks_iff.1 ⟨_, found.consumers_eq⟩ l hl
  · intro h
    have hliteral : ∀ l ∈ p.init.postconditions ++ p.goal.preconditions,
        (∃ color, (Palette.ofPlan p).literal l = .ok color) ∧
          ∀ v ∈ l.atom.args, ∃ c ∈ p.constants, p.substitution[v]? = some c := by
      intro l hl
      rw [Palette.exists_literal_iff]
      exact h.literal l hl
    obtain ⟨constantColors, hconstants⟩ := exists_mapM_eq_ok_iff.2 fun c hc =>
      Palette.exists_constant_iff.2 (h.constantType c (List.mem_eraseDups.1 hc))
    obtain ⟨variableColors, hvariables⟩ : ∃ css, (p.realSteps.mapM fun op =>
        op.vars.mapM ((Palette.ofPlan p).variableColor ·.type)) = .ok css := by
      refine exists_mapM_eq_ok_iff.2 fun op hop => ?_
      obtain ⟨hop, hreal⟩ := List.mem_filter.1 hop
      simp only [isPseudo, Bool.not_eq_true', Bool.or_eq_false_iff, beq_eq_false_iff_ne] at hreal
      exact exists_mapM_eq_ok_iff.2 fun v hv =>
        Palette.exists_variableColor_iff.2 (h.variableType op hop hreal.1 hreal.2 v hv)
    obtain ⟨operatorColors, hoperators⟩ :=
      exists_mapM_eq_ok_iff.2 fun _ hop => Palette.exists_schema p hop
    obtain ⟨producers, hproducers⟩ := exists_literalBlocks_iff.2 fun l hl =>
      hliteral l (List.mem_append_left _ hl)
    obtain ⟨consumers, hconsumers⟩ := exists_literalBlocks_iff.2 fun l hl =>
      hliteral l (List.mem_append_right _ hl)
    exact ⟨{
      constantColors, variableColors, operatorColors, producers, consumers
      constants_eq := hconstants
      variables_eq := hvariables
      operators_eq := hoperators
      producers_eq := hproducers
      consumers_eq := hconsumers }⟩

/-- Every cause of an error of the plan, whatever it is, is reported under the family `plan`. -/
theorem family_plan (cause : PlanError) : (Error.plan cause).family = .plan :=
  cause.family_diagnostic

variable (p) in
/-- A plan is encoded if and only if it declares what the encoder looks up, and otherwise the error
is one of the plan. The graph that grows step by step gives the same, so that on no plan an edge is
refused or a name is missing. -/
theorem encode_eq_ok_iff_encodable : p.encodeByGrowth = some p.encode ∧
    ((∃ e, p.encode = .ok e) ↔ p.Encodable) ∧
      ((∃ cause, p.encode = .error (.plan cause) ∧ (Error.plan cause).family = .plan) ↔
        ¬p.Encodable) := by
  -- the two alternatives of `lookups_or_error` exclude each other
  rw [← nonempty_lookups_iff]
  rcases p.lookups_or_error with ⟨⟨found⟩⟩ | ⟨cause, hencode, hgrow⟩
  · obtain ⟨e, hencode, hgrowth⟩ := found.exists_encode_eq_ok
    rw [hencode, hgrowth]
    refine ⟨rfl, iff_of_true ⟨e, rfl⟩ ⟨found⟩, iff_of_false ?_ (not_not_intro ⟨found⟩)⟩
    rintro ⟨cause, h, -⟩
    cases h
  · have hnone : ¬Nonempty p.Lookups := by
      rintro ⟨found⟩
      obtain ⟨e, hok, -⟩ := found.exists_encode_eq_ok
      rw [hencode] at hok
      cases hok
    have hgrowth : p.encodeByGrowth = some (.error (.plan cause)) := by
      rw [encodeByGrowth, hgrow]
      rfl
    rw [hencode, hgrowth]
    refine ⟨rfl, iff_of_false ?_ hnone, iff_of_true ⟨cause, rfl, family_plan cause⟩ hnone⟩
    rintro ⟨e, h⟩
    cases h

end PlanOrbits.PartialPlan
