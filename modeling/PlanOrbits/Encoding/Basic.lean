import PlanOrbits.Encoding.Palette
import PlanOrbits.Graph.Codec

/-!
# Plans as graphs

A plan is encoded as a coloured graph whose automorphisms are candidates for its
symmetries. The vertices are, in this order,

* the distinct constants,
* the variables of the steps, step by step,
* the operators,
* one block for each literal of the initial state, then of the goal: the *head*
  of the literal and one vertex for each argument.

The edges are paths and links. A step and its variables form a path; the bracket
of a literal, its head and its arguments form a path; and each argument is linked
to the constant that it is bound to. Colours tell apart what must not be
exchanged.

The blocks of the initial state end where those of the goal begin, so that no vertex is the
head of a literal of both (`disjoint_heads`). The type of encodings carries this fact: a vertex
is told to be of one role or of the other by looking in one table after the other, and the order
does not matter.
-/

namespace PlanOrbits

open Std (ExtTreeMap)

/-- The graph of a plan, and what its vertices stand for. -/
@[ext] structure PlanEncoding where
  graph : ColoredGraph
  palette : Palette
  /-- The vertices of the operators. -/
  operators : ExtTreeMap String Nat
  /-- The heads of the literals of the initial state. -/
  producers : ExtTreeMap Nat Producer
  /-- The heads of the literals of the goal. -/
  consumers : ExtTreeMap Nat Consumer
  /-- No vertex is a head of both roles. -/
  disjoint : ∀ v ∈ producers, v ∉ consumers

/-- The edges of a path. -/
def pathEdges (vs : List Nat) : List (Nat × Nat) := vs.zip vs.tail

/-- The vertices of a literal: its head and then its arguments, all of one colour.
Each argument has the vertex of a constant as its target. -/
structure LiteralBlock where
  literal : Literal
  head : Nat
  color : Color
  targets : List Nat
  deriving DecidableEq

namespace LiteralBlock

/-- The vertices of the arguments. -/
def args (b : LiteralBlock) : List Nat := List.range' (b.head + 1) b.targets.length

/-- The colours of the vertices. -/
def colors (b : LiteralBlock) : List Color := List.replicate (b.targets.length + 1) b.color

/-- The edges of a literal of the bracket with the given vertex. -/
def edges (b : LiteralBlock) (bracket : Nat) : List (Nat × Nat) :=
  pathEdges (bracket :: b.head :: b.args) ++ b.args.zip b.targets

end LiteralBlock

namespace PartialPlan

variable (p : PartialPlan)

/-- The distinct constants. Their places are their vertices. -/
def constantVertices : List Constant := p.constants.eraseDups

/-- The operators that are no brackets. -/
def realSteps : List Operator := p.operators.filter (!p.isPseudo ·)

/-- The vertex of the constant that an argument of a literal is bound to. -/
def target (l : Literal) (arg : Variable) : Except PlanError Nat :=
  match p.substitution[arg]? with
  | none => .error (.unboundArgument l arg)
  | some constant =>
      match p.constantVertices.idxOf? constant with
      | none => .error (.unknownConstant l constant)
      | some v => .ok v

/-- The block of a literal whose head has the given vertex. -/
def literalBlock (palette : Palette) (head : Nat) (l : Literal) :
    Except PlanError LiteralBlock := do
  let color ← palette.literal l
  let targets ← l.atom.args.mapM (p.target l)
  return { literal := l, head, color, targets }

/-- The blocks of literals, one behind the other from the given vertex on. -/
def literalBlocks (palette : Palette) (head : Nat) :
    List Literal → Except PlanError (List LiteralBlock)
  | [] => .ok []
  | l :: ls => do
      let block ← p.literalBlock palette head l
      let blocks ← literalBlocks palette (head + l.arity + 1) ls
      return block :: blocks

/-- The vertices of the variables of steps, from the given vertex on. -/
def variableVertices (start : Nat) : List Operator → List (Operator × List Nat)
  | [] => []
  | op :: ops =>
      (op, List.range' start op.vars.length) ::
        variableVertices (start + op.vars.length) ops

/-- The number of variables of the steps. -/
def variableCount : Nat := (p.realSteps.flatMap (·.vars)).length

/-- The vertices of operators by name, from the given vertex on. Of two operators
with one name the later counts. -/
def operatorVertices (start : Nat) (ops : List Operator) : ExtTreeMap String Nat :=
  (ops.zipIdx start).foldl (fun m (op, v) => m.insert op.name v) ∅

/-- The heads of blocks, with the occurrences of their literals in the bracket
with the given name. -/
def heads {role : Role} (bracket : String) (blocks : List LiteralBlock) :
    ExtTreeMap Nat (Occurrence role) :=
  blocks.foldl (fun m b => m.insert b.head ⟨bracket, b.literal⟩) ∅

/-! ### Heads of the two roles -/

variable {p} {palette : Palette} {start : Nat} {l : Literal} {ls ls' : List Literal}
  {b : LiteralBlock} {blocks blocks' : List LiteralBlock}

theorem exists_block_of_mem_heads {role : Role} {bracket : String} {v : Nat}
    (h : v ∈ (heads bracket blocks : ExtTreeMap Nat (Occurrence role))) :
    ∃ b ∈ blocks, b.head = v := by
  refine List.foldlRecOn (motive := fun m : ExtTreeMap Nat (Occurrence role) =>
    v ∈ m → ∃ b ∈ blocks, b.head = v) blocks _ (fun hv => ?_) (fun m ih b hb hv => ?_) h
  · exact absurd hv ExtTreeMap.not_mem_empty
  · rcases ExtTreeMap.mem_insert.1 hv with heq | hv
    · exact ⟨b, hb, Nat.compare_eq_eq.1 heq⟩
    · exact ih hv

/-- A pass through a list gives as many results as the list has members. -/
theorem length_of_mapM {α β ε : Type} {f : α → Except ε β} {xs : List α} {ys : List β}
    (h : xs.mapM f = .ok ys) : ys.length = xs.length := by
  induction xs generalizing ys with
  | nil =>
      cases h
      rfl
  | cons x xs ih =>
      rw [List.mapM_cons] at h
      cases hx : f x with
      | error e =>
          rw [hx] at h
          cases h
      | ok y =>
          cases hxs : xs.mapM f with
          | error e =>
              rw [hx, hxs] at h
              cases h
          | ok ys' =>
              rw [hx, hxs] at h
              cases h
              exact congrArg (· + 1) (ih hxs)

/-- A block takes the vertices of its head and of the arguments of its literal. -/
theorem size_of_literalBlock (h : p.literalBlock palette start l = .ok b) :
    b.head = start ∧ b.colors.length = l.arity + 1 := by
  rw [literalBlock] at h
  cases hcolor : palette.literal l with
  | error cause =>
      rw [hcolor] at h
      cases h
  | ok color =>
      cases htargets : l.atom.args.mapM (p.target l) with
      | error cause =>
          rw [hcolor, htargets] at h
          cases h
      | ok targets =>
          rw [hcolor, htargets] at h
          cases h
          refine ⟨rfl, ?_⟩
          rw [LiteralBlock.colors, List.length_replicate, length_of_mapM htargets]
          rfl

/-- The heads of blocks stand among the vertices of the blocks. -/
theorem head_of_literalBlocks (h : p.literalBlocks palette start ls = .ok blocks) :
    ∀ b ∈ blocks, start ≤ b.head ∧ b.head < start + (blocks.flatMap (·.colors)).length := by
  induction ls generalizing start blocks with
  | nil =>
      cases h
      intro b hb
      cases hb
  | cons l ls ih =>
      rw [literalBlocks] at h
      cases hfirst : p.literalBlock palette start l with
      | error cause =>
          rw [hfirst] at h
          cases h
      | ok first =>
          cases hrest : p.literalBlocks palette (start + l.arity + 1) ls with
          | error cause =>
              rw [hfirst, hrest] at h
              cases h
          | ok rest =>
              rw [hfirst, hrest] at h
              cases h
              obtain ⟨hhead, hsize⟩ := size_of_literalBlock hfirst
              rw [List.flatMap_cons, List.length_append, hsize]
              intro b hb
              rcases List.mem_cons.1 hb with rfl | hb
              · omega
              · have := ih hrest b hb
                omega

/-- Literals behind those of the initial state have other heads. -/
theorem disjoint_heads {init goal : String}
    (h : p.literalBlocks palette start ls = .ok blocks)
    (h' : p.literalBlocks palette (start + (blocks.flatMap (·.colors)).length) ls' =
      .ok blocks') :
    ∀ v ∈ (heads init blocks : ExtTreeMap Nat Producer),
      v ∉ (heads goal blocks' : ExtTreeMap Nat Consumer) := by
  intro v hv hv'
  obtain ⟨b, hb, rfl⟩ := exists_block_of_mem_heads hv
  obtain ⟨b', hb', heq⟩ := exists_block_of_mem_heads hv'
  have hlt := (head_of_literalBlocks h b hb).2
  have hle := (head_of_literalBlocks h' b' hb').1
  omega

/-! ### The encoder -/

variable (p)

/-- Encode a plan. It must declare the types of its constants and steps and the
predicates of its initial state and goal, and bind their arguments to constants
that it declares. -/
def encode : Except Error PlanEncoding := do
  let palette := Palette.ofPlan p
  let constantColors ← p.constantVertices.mapM (palette.constant ·.type)
  let variableColors ←
    p.realSteps.mapM fun op => op.vars.mapM (palette.variableColor ·.type)
  let operatorColors ← p.operators.mapM (palette.schema ·.schema)
  let firstVariable := p.constantVertices.length
  let firstOperator := firstVariable + p.variableCount
  let firstProducer := firstOperator + p.operators.length
  let operators := operatorVertices firstOperator p.operators
  let producers ← attached (p.literalBlocks palette firstProducer p.init.postconditions)
  let firstConsumer := firstProducer + (producers.1.flatMap (·.colors)).length
  let consumers ← attached (p.literalBlocks palette firstConsumer p.goal.preconditions)
  let steps := variableVertices firstVariable p.realSteps
  let graph ← ColoredGraph.ofParts
    (constantColors ++ variableColors.flatten ++ operatorColors ++
      (producers.1 ++ consumers.1).flatMap (·.colors))
    (steps.flatMap (fun (op, vs) => pathEdges (operators.getD op.name 0 :: vs)) ++
      producers.1.flatMap (·.edges (operators.getD p.init.name 0)) ++
      consumers.1.flatMap (·.edges (operators.getD p.goal.name 0)))
  return {
    graph
    palette
    operators
    producers := heads p.init.name producers.1
    consumers := heads p.goal.name consumers.1
    disjoint := disjoint_heads producers.2 consumers.2 }

end PartialPlan

end PlanOrbits
