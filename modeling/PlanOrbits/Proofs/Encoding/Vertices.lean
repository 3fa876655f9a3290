import Mathlib.Algebra.GroupWithZero.Nat
import Mathlib.Data.List.Nodup
import PlanOrbits.Encoding.Basic
import PlanOrbits.Proofs.Encoding.Palette

/-!
# The vertices of a plan's graph, by name

A vertex of the graph of a plan stands for a constant, a variable of a step, an
operator, or a place in a literal; place 0 is the head of the literal and place `j + 1`
is its argument `j`. `PartialPlan.number` gives the number of a named vertex,
`PartialPlan.vertices` lists the names in the order of their numbers
(`map_number_vertices`), and `PartialPlan.Link` says which names are joined. All of
this is said without the encoder: that the graph is so is shown in
`PlanOrbits.Proofs.Encoding.Layout`.
-/

namespace PlanOrbits

/-- What a vertex stands for. -/
inductive Vertex where
  | constant (c : Constant)
  | variable (step index : Nat)
  | operator (index : Nat)
  | literal (role : Role) (index place : Nat)
  deriving DecidableEq

/-! ### Blocks of consecutive numbers

Variables and literals are numbered block by block. `blockStart sizes i` is the number
of places before block `i`. -/

/-- The number of places in the blocks before block `i`. -/
def blockStart (sizes : List Nat) (i : Nat) : Nat := (sizes.take i).sum

/-- The size of a block; there are no places in a block that is not there. -/
def blockSize (sizes : List Nat) (i : Nat) : Nat := sizes[i]?.getD 0

/-- A block ends where the next one starts. -/
theorem blockStart_succ (sizes : List Nat) (i : Nat) :
    blockStart sizes (i + 1) = blockStart sizes i + blockSize sizes i := by
  rw [blockStart, blockStart, blockSize, List.take_add_one, List.sum_append]
  cases sizes[i]? <;> simp

/-- A block in front moves all others by its size. -/
theorem blockStart_cons_succ (size : Nat) (sizes : List Nat) (i : Nat) :
    blockStart (size :: sizes) (i + 1) = size + blockStart sizes i := by
  simp [blockStart]

/-- A block that has a place is one of the list; beyond the list the size is zero. -/
theorem lt_length_of_lt_blockSize {sizes : List Nat} {i j : Nat} (h : j < blockSize sizes i) :
    i < sizes.length := by
  by_contra hi
  rw [blockSize, List.getElem?_eq_none (by omega)] at h
  simp at h

/-- The places of all blocks, block by block. -/
def blockPlaces (sizes : List Nat) : List (Nat × Nat) :=
  (List.range sizes.length).flatMap fun i => (List.range (blockSize sizes i)).map (i, ·)

/-- The places of all blocks are the pairs of a block and a place below its size. -/
theorem mem_blockPlaces {sizes : List Nat} {i j : Nat} :
    (i, j) ∈ blockPlaces sizes ↔ j < blockSize sizes i := by
  simp only [blockPlaces, List.mem_flatMap, List.mem_range, List.mem_map, Prod.mk.injEq]
  constructor
  · rintro ⟨i, -, j, hj, rfl, rfl⟩
    exact hj
  · intro h
    exact ⟨i, lt_length_of_lt_blockSize h, j, h, rfl, rfl⟩

/-- The places of the blocks, in their order, have consecutive numbers. -/
theorem map_blockPlaces (start : Nat) (sizes : List Nat) :
    (blockPlaces sizes).map (fun (i, j) => start + blockStart sizes i + j) =
      List.range' start sizes.sum := by
  have hprefix : ∀ n, ((List.range n).flatMap fun i =>
      (List.range (blockSize sizes i)).map (i, ·)).map
        (fun (i, j) => start + blockStart sizes i + j) =
      List.range' start (blockStart sizes n) := by
    intro n
    induction n with
    | zero => simp [blockStart]
    | succ n ih =>
        rw [List.range_succ, List.flatMap_append, List.map_append, ih, blockStart_succ,
          ← List.range'_append_1]
        simp [List.range'_eq_map_range, Function.comp_def]
  rw [blockPlaces, hprefix, blockStart, List.take_length]

/-- The places of the first block come first, then those of the others. -/
theorem blockPlaces_cons (size : Nat) (sizes : List Nat) :
    blockPlaces (size :: sizes) =
      (List.range size).map (0, ·) ++ (blockPlaces sizes).map fun (i, j) => (i + 1, j) := by
  rw [blockPlaces, List.length_cons, List.range_succ_eq_map, List.flatMap_cons, List.flatMap_map,
    blockPlaces, List.map_flatMap]
  simp [blockSize, Function.comp_def]

/-- A relation between places and the members of flattened blocks holds if it holds block by block.
It matches rows of the graph with the lists that the encoder flattens. -/
theorem forall₂_blockPlaces {α : Type} {R : Nat × Nat → α → Prop} {sizes : List Nat}
    {blocks : List (List α)} (hsizes : sizes = blocks.map List.length)
    (h : ∀ (i : Nat) (block : List α) (j : Nat) (x : α),
      blocks[i]? = some block → block[j]? = some x → R (i, j) x) :
    List.Forall₂ R (blockPlaces sizes) blocks.flatten := by
  -- the relation changes with the block, since the places of the rest are counted anew
  induction blocks generalizing R sizes with
  | nil =>
      rw [hsizes]
      exact List.Forall₂.nil
  | cons block blocks ih =>
      rw [hsizes, List.map_cons, blockPlaces_cons, List.flatten_cons]
      refine List.rel_append ?_ ?_
      · rw [List.forall₂_map_left_iff, forall₂_iff_getElem?]
        refine ⟨by simp, fun j k x hk hx => ?_⟩
        obtain ⟨hj, rfl⟩ := List.getElem?_eq_some_iff.1 hk
        rw [List.getElem_range]
        exact h 0 block j x rfl hx
      · rw [List.forall₂_map_left_iff]
        exact ih rfl fun i block' j x hblock hx => h (i + 1) block' j x hblock hx

/-- Two ranges of which the second goes on where the first ends are one range. -/
theorem append_range' {s t m n : Nat} (h : t = s + m) :
    List.range' s m ++ List.range' t n = List.range' s (m + n) := by
  rw [h, List.range'_append_1]

/-- The result of `eraseDups` has no repetitions. -/
theorem nodup_eraseDups {α : Type} [BEq α] [LawfulBEq α] : ∀ xs : List α, xs.eraseDups.Nodup
  | [] => by simp
  | x :: xs => by
      rw [List.eraseDups_cons, List.nodup_cons]
      exact ⟨by simp, nodup_eraseDups _⟩
termination_by xs => xs.length
decreasing_by exact Nat.lt_succ_of_le (List.length_filter_le _ _)

namespace PartialPlan

variable (p : PartialPlan)

/-! ### Names and numbers -/

/-- The literals of a role: those of the initial state or those of the goal. -/
def literals : Role → List Literal
  | .producer => p.init.postconditions
  | .consumer => p.goal.preconditions

/-- The bracket that has the literals of a role. -/
def bracket : Role → Operator
  | .producer => p.init
  | .consumer => p.goal

/-- The place among the operators of the bracket that has the literals of a role. -/
def bracketIndex : Role → Nat
  | .producer => 0
  | .consumer => p.steps.length + 1

/-- The numbers of variables of the steps. -/
def stepSizes : List Nat := p.steps.map (·.vars.length)

/-- The numbers of places of the literals of a role. -/
def literalSizes (role : Role) : List Nat := (p.literals role).map (·.arity + 1)

/-- The number of the first operator. -/
def firstOperator : Nat := p.constantVertices.length + p.stepSizes.sum

/-- The number of the head of the first literal of a role. -/
def firstLiteral : Role → Nat
  | .producer => p.firstOperator + p.operators.length
  | .consumer => p.firstOperator + p.operators.length + (p.literalSizes .producer).sum

/-- The number of a named vertex. -/
def number : Vertex → Nat
  | .constant c => p.constantVertices.idxOf c
  | .variable step index => p.constantVertices.length + blockStart p.stepSizes step + index
  | .operator index => p.firstOperator + index
  | .literal role index place =>
      p.firstLiteral role + blockStart (p.literalSizes role) index + place

/-- The named vertices in the order of their numbers. -/
def vertices : List Vertex :=
  p.constantVertices.map .constant ++
    (blockPlaces p.stepSizes).map (fun (step, index) => .variable step index) ++
    (List.range p.operators.length).map .operator ++
    (blockPlaces (p.literalSizes .producer)).map
      (fun (index, place) => .literal .producer index place) ++
    (blockPlaces (p.literalSizes .consumer)).map
      (fun (index, place) => .literal .consumer index place)

variable {p}

/-- The four lemmas from here on say which names are names of vertices, so that `simp` decides
it. -/
@[simp] theorem constant_mem_vertices {c : Constant} :
    Vertex.constant c ∈ p.vertices ↔ c ∈ p.constants := by
  simp [vertices, constantVertices]

@[simp] theorem variable_mem_vertices {step index : Nat} :
    Vertex.variable step index ∈ p.vertices ↔ index < blockSize p.stepSizes step := by
  simp [vertices, mem_blockPlaces]

@[simp] theorem operator_mem_vertices {index : Nat} :
    Vertex.operator index ∈ p.vertices ↔ index < p.operators.length := by
  simp [vertices]

@[simp] theorem literal_mem_vertices {role : Role} {index place : Nat} :
    Vertex.literal role index place ∈ p.vertices ↔
      place < blockSize (p.literalSizes role) index := by
  cases role <;> simp [vertices, mem_blockPlaces]

variable (p)

/-- The distinct constants are numbered by their places in the row. -/
theorem map_idxOf_constantVertices :
    p.constantVertices.map (p.constantVertices.idxOf ·) =
      List.range' 0 p.constantVertices.length := by
  refine List.ext_getElem (by simp) fun i hi _ => ?_
  have hnodup : p.constantVertices.Nodup := nodup_eraseDups p.constants
  rw [List.getElem_map, List.getElem_range', hnodup.idxOf_getElem]
  omega

/-- The listed vertices have the numbers 0, 1, 2, … in this order: `number` and `vertices` describe
one numbering. The rows are appended one by one, each starting where the one before it ends. -/
theorem map_number_vertices : p.vertices.map p.number = List.range p.vertices.length := by
  have hconstants : (p.constantVertices.map Vertex.constant).map p.number =
      List.range' 0 p.constantVertices.length := by
    rw [List.map_map]
    exact p.map_idxOf_constantVertices
  have hvariables : ((blockPlaces p.stepSizes).map fun (step, index) =>
      Vertex.variable step index).map p.number =
        List.range' p.constantVertices.length p.stepSizes.sum := by
    rw [List.map_map]
    exact map_blockPlaces _ _
  have hoperators : ((List.range p.operators.length).map Vertex.operator).map p.number =
      List.range' p.firstOperator p.operators.length := by
    rw [List.map_map, List.range'_eq_map_range]
    rfl
  have hliterals : ∀ role, ((blockPlaces (p.literalSizes role)).map fun (index, place) =>
      Vertex.literal role index place).map p.number =
        List.range' (p.firstLiteral role) (p.literalSizes role).sum := by
    intro role
    rw [List.map_map]
    exact map_blockPlaces _ _
  have hmap : p.vertices.map p.number = List.range' 0 (p.firstLiteral .consumer +
      (p.literalSizes .consumer).sum) := by
    rw [vertices, List.map_append, List.map_append, List.map_append, List.map_append,
      hconstants, hvariables, hoperators, hliterals, hliterals]
    -- each of the five rows starts where the one before it ends
    rw [append_range' (by omega), append_range' (by rw [firstOperator]; omega),
      append_range' (by rw [firstLiteral, firstOperator]; omega),
      append_range' (by rw [firstLiteral, firstOperator]; omega)]
    congr 1
  have hlength := congrArg List.length hmap
  rw [List.length_map, List.length_range'] at hlength
  rw [hmap, hlength, List.range_eq_range']

variable {p}

/-- The number of a vertex is its place in the list. -/
theorem number_of_getElem? {k : Nat} {v : Vertex} (h : p.vertices[k]? = some v) :
    p.number v = k := by
  have hget := congrArg (·[k]?) p.map_number_vertices
  obtain ⟨hk, -⟩ := List.getElem?_eq_some_iff.1 h
  simpa [List.getElem?_map, h, List.getElem?_range hk] using hget

/-- The vertex is found at its number. -/
theorem getElem?_number {v : Vertex} (h : v ∈ p.vertices) : p.vertices[p.number v]? = some v := by
  obtain ⟨k, hk⟩ := List.mem_iff_getElem?.1 h
  rw [number_of_getElem? hk, hk]

/-- Numbers of vertices are below the number of vertices. -/
theorem number_lt {v : Vertex} (h : v ∈ p.vertices) : p.number v < p.vertices.length :=
  (List.getElem?_eq_some_iff.1 (getElem?_number h)).1

/-- Two vertices with one number are the same, for both are found at this number. -/
theorem eq_of_number_eq {v w : Vertex} (hv : v ∈ p.vertices) (hw : w ∈ p.vertices)
    (h : p.number v = p.number w) : v = w := by
  have hget := getElem?_number hv
  rw [h, getElem?_number hw, Option.some.injEq] at hget
  exact hget.symm

/-- Every number below the number of vertices is the number of one. -/
theorem exists_number_eq {k : Nat} (h : k < p.vertices.length) :
    ∃ v ∈ p.vertices, p.number v = k :=
  ⟨p.vertices[k], List.getElem_mem h, number_of_getElem? (List.getElem?_eq_getElem h)⟩

/-! ### Kinds and links -/

variable (p)

/-- The kind of a vertex, which says its colour. -/
def kind? : Vertex → Option Kind
  | .constant c => some (.constant c.type)
  | .variable step index => (p.steps[step]?.bind (·.vars[index]?)).map fun v => .variable v.type
  | .operator index => p.operators[index]?.map fun op => .operator op.schema
  | .literal role index _ => (p.literals role)[index]?.map Literal.kind

section

variable {p} {v : Vertex}

/-- Kinds tell the constructors of names apart, and a constant its type. -/
theorem kind?_eq_constant {type : TypeName} (h : p.kind? v = some (.constant type)) :
    ∃ c, v = .constant c ∧ c.type = type := by
  cases v with
  | constant c => exact ⟨c, rfl, by simpa [kind?] using h⟩
  | «variable» step index =>
      obtain ⟨_, -, h⟩ := Option.map_eq_some_iff.1 h
      cases h
  | operator index =>
      obtain ⟨_, -, h⟩ := Option.map_eq_some_iff.1 h
      cases h
  | literal role index place =>
      obtain ⟨_, -, h⟩ := Option.map_eq_some_iff.1 h
      cases h

/-- An operator is told by its schema, as far as the kind goes; a pseudo step is an operator, too.
-/
theorem kind?_eq_operator {schema : String} (h : p.kind? v = some (.operator schema)) :
    ∃ index op, v = .operator index ∧ p.operators[index]? = some op ∧ op.schema = schema := by
  cases v with
  | constant c => cases h
  | «variable» step index =>
      obtain ⟨_, -, h⟩ := Option.map_eq_some_iff.1 h
      cases h
  | operator index =>
      obtain ⟨op, hop, h⟩ := Option.map_eq_some_iff.1 h
      exact ⟨index, op, rfl, hop, by simpa using h⟩
  | literal role index place =>
      obtain ⟨_, -, h⟩ := Option.map_eq_some_iff.1 h
      cases h

/-- A place of a literal has the kind of the literal, whichever place it is and in whichever role.
-/
theorem kind?_eq_literal {predicate : String} {positive : Bool}
    (h : p.kind? v = some (.literal predicate positive)) :
    ∃ role index place l, v = .literal role index place ∧ (p.literals role)[index]? = some l ∧
      l.kind = .literal predicate positive := by
  cases v with
  | constant c => cases h
  | «variable» step index =>
      obtain ⟨_, -, h⟩ := Option.map_eq_some_iff.1 h
      cases h
  | operator index =>
      obtain ⟨_, -, h⟩ := Option.map_eq_some_iff.1 h
      cases h
  | literal role index place =>
      obtain ⟨l, hl, h⟩ := Option.map_eq_some_iff.1 h
      exact ⟨role, index, place, l, rfl, hl, h⟩

end

/-- The two vertices are joined, and the first comes earlier on its path or is an
argument of a literal that is bound to the second. -/
inductive Link : Vertex → Vertex → Prop where
  | first_variable {step : Nat} (h : 0 < blockSize p.stepSizes step) :
      Link (.operator (step + 1)) (.variable step 0)
  | next_variable {step index : Nat} (h : index + 1 < blockSize p.stepSizes step) :
      Link (.variable step index) (.variable step (index + 1))
  | head {role : Role} {index : Nat} (h : 0 < blockSize (p.literalSizes role) index) :
      Link (.operator (p.bracketIndex role)) (.literal role index 0)
  | next_place {role : Role} {index place : Nat}
      (h : place + 1 < blockSize (p.literalSizes role) index) :
      Link (.literal role index place) (.literal role index (place + 1))
  | argument {role : Role} {index arg : Nat} {l : Literal} {v : Variable} {c : Constant}
      (hliteral : (p.literals role)[index]? = some l) (harg : l.atom.args[arg]? = some v)
      (hbound : p.substitution[v]? = some c) (hdeclared : c ∈ p.constants) :
      Link (.literal role index (arg + 1)) (.constant c)

variable {p}

/-- The row of a step has as many places as the step has variables. -/
theorem blockSize_stepSizes {step : Nat} {op : Operator} (h : p.steps[step]? = some op) :
    blockSize p.stepSizes step = op.vars.length := by
  rw [blockSize, stepSizes, List.getElem?_map, h]
  rfl

/-- The block of a literal has one place for its head and one for each argument. -/
theorem blockSize_literalSizes {role : Role} {index : Nat} {l : Literal}
    (h : (p.literals role)[index]? = some l) :
    blockSize (p.literalSizes role) index = l.arity + 1 := by
  rw [blockSize, literalSizes, List.getElem?_map, h]
  rfl

/-- Every literal has a head. -/
theorem head_mem_vertices {role : Role} {index : Nat} {l : Literal}
    (h : (p.literals role)[index]? = some l) : Vertex.literal role index 0 ∈ p.vertices := by
  rw [literal_mem_vertices, blockSize_literalSizes h]
  exact Nat.succ_pos _

/-- A name of a variable that is the name of a vertex belongs to a step of the plan and to one of
its variables. -/
theorem exists_step_of_lt {step index : Nat} (h : index < blockSize p.stepSizes step) :
    ∃ op v, p.steps[step]? = some op ∧ op.vars[index]? = some v := by
  have hstep := lt_length_of_lt_blockSize h
  rw [stepSizes, List.length_map] at hstep
  have hop := List.getElem?_eq_getElem hstep
  rw [blockSize_stepSizes hop] at h
  exact ⟨_, _, hop, List.getElem?_eq_getElem h⟩

/-- A name of a place that is the name of a vertex belongs to a literal of the plan. -/
theorem exists_literal_of_lt {role : Role} {index place : Nat}
    (h : place < blockSize (p.literalSizes role) index) :
    ∃ l, (p.literals role)[index]? = some l ∧ place ≤ l.arity := by
  have hindex := lt_length_of_lt_blockSize h
  rw [literalSizes, List.length_map] at hindex
  have hl := List.getElem?_eq_getElem hindex
  rw [blockSize_literalSizes hl] at h
  exact ⟨_, hl, by omega⟩

/-- Links join names of vertices, so that both ends have numbers in the graph. -/
theorem Link.mem {v w : Vertex} (h : p.Link v w) : v ∈ p.vertices ∧ w ∈ p.vertices := by
  cases h with
  | first_variable h =>
      have hstep := lt_length_of_lt_blockSize h
      simp only [stepSizes, List.length_map] at hstep
      simp [h, operators]
      omega
  | next_variable h => exact ⟨by simp; omega, by simpa⟩
  | head h =>
      -- the bracket of either role is one of the operators
      rename_i role index
      refine ⟨?_, by simpa⟩
      cases role <;> simp [bracketIndex, operators]
  | next_place h => exact ⟨by simp; omega, by simpa⟩
  | argument hliteral harg hbound hdeclared =>
      obtain ⟨harg, -⟩ := List.getElem?_eq_some_iff.1 harg
      refine ⟨?_, by simpa⟩
      rw [literal_mem_vertices, blockSize_literalSizes hliteral, Literal.arity]
      omega

end PartialPlan

end PlanOrbits
