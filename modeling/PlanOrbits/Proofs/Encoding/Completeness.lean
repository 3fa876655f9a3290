import Mathlib.Data.Set.Function
import Mathlib.Logic.Equiv.Basic
import PlanOrbits.Proofs.Encoding.Layout

/-!
# Symmetries of the plan are automorphisms

A symmetry of a plan permutes its constants, the literals of its brackets and its steps,
such that types, literals and schemas stay what they are (`PartialPlan.Symmetry`). It acts
on the names of vertices, and this action keeps names, kinds and links (`Symmetry.link`).
The table of images that it gives is therefore an automorphism of the graph: the encoding
loses no symmetry.
-/

namespace PlanOrbits

/-! ### Permutations of places -/

/-- The image of a place; what is no place stays where it is. -/
def placeImage {n : Nat} (f : Equiv.Perm (Fin n)) (i : Nat) : Nat :=
  if h : i < n then f ⟨i, h⟩ else i

section

variable {n : Nat} {f : Equiv.Perm (Fin n)} {i j : Nat}

theorem placeImage_of_lt (h : i < n) : placeImage f i = f ⟨i, h⟩ := dif_pos h

theorem placeImage_of_le (h : n ≤ i) : placeImage f i = i := dif_neg (by omega)

/-- `placeImage` keeps the places below `n` and those beyond it apart, since `f` permutes the former
and the latter stay. -/
theorem placeImage_lt_iff : placeImage f i < n ↔ i < n := by
  by_cases h : i < n
  · simp [placeImage_of_lt h, h]
  · simp [placeImage_of_le (f := f) (Nat.le_of_not_lt h), h]

/-- On the places below `n` the function is the permutation `f`, elsewhere the identity, and by
`placeImage_lt_iff` the two parts do not meet. -/
theorem placeImage_injective : Function.Injective (placeImage f) := by
  intro i j heq
  have hiff : i < n ↔ j < n := by rw [← placeImage_lt_iff (f := f), heq, placeImage_lt_iff]
  by_cases h : i < n
  · rw [placeImage_of_lt h, placeImage_of_lt (hiff.1 h), Fin.val_inj, f.injective.eq_iff] at heq
    exact Fin.val_eq_of_eq heq
  · have h' : ¬j < n := fun hj => h (hiff.2 hj)
    rwa [placeImage_of_le (Nat.le_of_not_lt h), placeImage_of_le (Nat.le_of_not_lt h')] at heq

end

namespace PartialPlan

/-- A permutation of constants, of the literals of each bracket, and of steps. Constants
keep their types; literals keep predicate and polarity, and their arguments are bound to
the images of the constants; steps keep schema and types of variables. -/
structure Symmetry (p : PartialPlan) where
  constant : Constant → Constant
  literal : (role : Role) → Equiv.Perm (Fin (p.literals role).length)
  step : Equiv.Perm (Fin p.steps.length)
  bijOn_constants : Set.BijOn constant {c | c ∈ p.constants} {c | c ∈ p.constants}
  type_eq : ∀ c ∈ p.constants, (constant c).type = c.type
  predicate_eq : ∀ role i, ((p.literals role)[literal role i]).atom.predicate =
    ((p.literals role)[i]).atom.predicate
  positive_eq : ∀ role i, ((p.literals role)[literal role i]).positive =
    ((p.literals role)[i]).positive
  bound_eq : ∀ (role : Role) (i : Fin (p.literals role).length) (j : Nat) (v v' : Variable),
    ((p.literals role)[i]).atom.args[j]? = some v →
      ((p.literals role)[literal role i]).atom.args[j]? = some v' →
        p.substitution[v']? = p.substitution[v]?.map constant
  schema_eq : ∀ s, (p.steps[step s]).schema = (p.steps[s]).schema
  types_eq : ∀ s, (p.steps[step s]).vars.map (·.type) = (p.steps[s]).vars.map (·.type)

namespace Symmetry

variable {p : PartialPlan} (σ : p.Symmetry)

/-- What a symmetry does with vertices. The brackets stay where they are, and places and
variables go to those of the image in the same order. -/
def vertex : Vertex → Vertex
  | .constant c => .constant (σ.constant c)
  | .variable step index => .variable (placeImage σ.step step) index
  | .operator 0 => .operator 0
  | .operator (step + 1) => .operator (placeImage σ.step step + 1)
  | .literal role index place => .literal role (placeImage (σ.literal role) index) place

/-- The table of images acts as the symmetry does, on every vertex. -/
structure Acts (m : Array Nat) : Prop where
  size : m.size = p.vertices.length
  image : ∀ v ∈ p.vertices, m[p.number v]? = some (p.number (σ.vertex v))

/-! ### Steps and literals -/

/-- The step that a symmetry puts in the place of another has its schema and the types of its
variables. -/
theorem getElem?_step {s : Nat} {op : Operator} (h : p.steps[s]? = some op) :
    ∃ op', p.steps[placeImage σ.step s]? = some op' ∧ op'.schema = op.schema ∧
      op'.vars.map (·.type) = op.vars.map (·.type) := by
  obtain ⟨hs, rfl⟩ := List.getElem?_eq_some_iff.1 h
  refine ⟨_, ?_, σ.schema_eq ⟨s, hs⟩, σ.types_eq ⟨s, hs⟩⟩
  rw [placeImage_of_lt hs]
  simp

variable {e : PlanEncoding} (henc : p.Encodes e)

include henc in
/-- The literal that a symmetry puts in the place of another is of the same kind. Equal kinds give
equal arities in a graph that could be encoded, and the arguments at the same place are bound to
constants that `σ.constant` maps to each other. -/
theorem getElem?_literal {role : Role} {i : Nat} {l : Literal}
    (h : (p.literals role)[i]? = some l) :
    ∃ l', (p.literals role)[placeImage (σ.literal role) i]? = some l' ∧ l'.kind = l.kind ∧
      l'.arity = l.arity ∧ ∀ (j : Nat) (v v' : Variable), l.atom.args[j]? = some v →
        l'.atom.args[j]? = some v' → p.substitution[v']? = p.substitution[v]?.map σ.constant := by
  obtain ⟨hi, rfl⟩ := List.getElem?_eq_some_iff.1 h
  have hget : (p.literals role)[placeImage (σ.literal role) i]? =
      some (p.literals role)[σ.literal role ⟨i, hi⟩] := by
    rw [placeImage_of_lt hi]
    simp
  have hkind : ((p.literals role)[σ.literal role ⟨i, hi⟩]).kind = ((p.literals role)[i]).kind := by
    rw [Literal.kind, Literal.kind, Kind.literal.injEq]
    exact ⟨σ.predicate_eq role ⟨i, hi⟩, σ.positive_eq role ⟨i, hi⟩⟩
  exact ⟨_, hget, hkind, henc.arity_eq h hget hkind, σ.bound_eq role ⟨i, hi⟩⟩

/-- A step and its image have as many variables, so their rows of variable vertices are equally
long. -/
theorem blockSize_step (s : Nat) :
    blockSize p.stepSizes (placeImage σ.step s) = blockSize p.stepSizes s := by
  by_cases hs : s < p.steps.length
  · have hop := List.getElem?_eq_getElem hs
    obtain ⟨op', hop', -, htypes⟩ := σ.getElem?_step hop
    rw [blockSize_stepSizes hop, blockSize_stepSizes hop']
    simpa using congrArg List.length htypes
  · rw [placeImage_of_le (Nat.le_of_not_lt hs)]

include henc in
/-- A literal and its image have as many arguments, so their blocks are equally long. -/
theorem blockSize_literal (role : Role) (i : Nat) :
    blockSize (p.literalSizes role) (placeImage (σ.literal role) i) =
      blockSize (p.literalSizes role) i := by
  by_cases hi : i < (p.literals role).length
  · have hl := List.getElem?_eq_getElem hi
    obtain ⟨l', hl', -, harity, -⟩ := σ.getElem?_literal henc hl
    rw [blockSize_literalSizes hl, blockSize_literalSizes hl', harity]
  · rw [placeImage_of_le (Nat.le_of_not_lt hi)]

/-! ### What the action keeps -/

variable {v w : Vertex}

/-- The two pseudo steps stay: the initial one has number zero, the goal the last number, to which
no place of a step belongs. -/
theorem vertex_bracket (role : Role) :
    σ.vertex (.operator (p.bracketIndex role)) = .operator (p.bracketIndex role) := by
  cases role with
  | producer => rfl
  -- the goal stands behind all steps, where `placeImage` is the identity
  | consumer => rw [bracketIndex, vertex, placeImage_of_le (Nat.le_refl _)]

include henc in
/-- The action leads from names of vertices to names of vertices. Steps go to steps, and the lengths
of blocks are kept by `blockSize_step` and `blockSize_literal`. -/
theorem vertex_mem (hv : v ∈ p.vertices) : σ.vertex v ∈ p.vertices := by
  cases v with
  | constant c =>
      rw [vertex, constant_mem_vertices]
      exact σ.bijOn_constants.mapsTo (constant_mem_vertices.1 hv)
  | «variable» step index =>
      rw [vertex, variable_mem_vertices, σ.blockSize_step]
      exact variable_mem_vertices.1 hv
  | operator index =>
      cases index with
      | zero => exact hv
      | succ step =>
          rw [operator_mem_vertices] at hv
          rw [vertex, operator_mem_vertices]
          simp only [operators, List.length_append, List.length_cons, List.length_nil] at hv ⊢
          by_cases hs : step < p.steps.length
          · have := placeImage_lt_iff (f := σ.step).2 hs
            omega
          -- the closing operator is behind all steps and stays
          · rw [placeImage_of_le (Nat.le_of_not_lt hs)]
            omega
  | literal role index place =>
      rw [vertex, literal_mem_vertices, σ.blockSize_literal henc]
      exact literal_mem_vertices.1 hv

/-- Different names have different images: every part of a name is mapped by a one-to-one function
or kept. -/
theorem vertex_injective (hv : v ∈ p.vertices) (hw : w ∈ p.vertices)
    (h : σ.vertex v = σ.vertex w) : v = w := by
  -- the action keeps the constructor, so that only like vertices can meet
  cases v with
  | constant c =>
      cases w with
      | constant c' =>
          rw [vertex, vertex, Vertex.constant.injEq] at h
          rw [σ.bijOn_constants.injOn (constant_mem_vertices.1 hv) (constant_mem_vertices.1 hw) h]
      | operator index => cases index <;> cases h
      | _ => cases h
  | «variable» step index =>
      cases w with
      | «variable» step' index' =>
          rw [vertex, vertex, Vertex.variable.injEq] at h
          rw [placeImage_injective h.1, h.2]
      | operator index => cases index <;> cases h
      | _ => cases h
  | operator index =>
      cases w with
      | operator index' =>
          cases index <;> cases index'
          case zero.zero => rfl
          case succ.succ =>
            rw [vertex, vertex, Vertex.operator.injEq, Nat.add_right_cancel_iff] at h
            rw [placeImage_injective h]
          all_goals simp [vertex] at h
      | _ => cases index <;> cases h
  | literal role index place =>
      cases w with
      | literal role' index' place' =>
          rw [vertex, vertex, Vertex.literal.injEq] at h
          obtain ⟨rfl, hindex, rfl⟩ := h
          rw [placeImage_injective hindex]
      | operator index => cases index <;> cases h
      | _ => cases h

include henc in
/-- The image of a name has the same kind, and therefore the same colour: a constant keeps its type,
a variable too, a step its schema, a literal its predicate and sign. -/
theorem kind?_vertex (hv : v ∈ p.vertices) : p.kind? (σ.vertex v) = p.kind? v := by
  cases v with
  | constant c => rw [vertex, kind?, kind?, σ.type_eq c (constant_mem_vertices.1 hv)]
  | «variable» step index =>
      obtain ⟨op, x, hop, hx⟩ := exists_step_of_lt (variable_mem_vertices.1 hv)
      obtain ⟨op', hop', -, htypes⟩ := σ.getElem?_step hop
      have htype := congrArg (·[index]?) htypes
      simp only [List.getElem?_map, hx, Option.map_some, Option.map_eq_some_iff] at htype
      obtain ⟨x', hx', htype⟩ := htype
      simp only [vertex, kind?, hop, hop', Option.bind_some, hx, hx', Option.map_some, htype]
  | operator index =>
      cases index with
      | zero => rfl
      | succ step =>
          by_cases hs : step < p.steps.length
          · have hop := List.getElem?_eq_getElem hs
            obtain ⟨op', hop', hschema, -⟩ := σ.getElem?_step hop
            simp only [vertex, kind?, getElem?_operators_succ hop, getElem?_operators_succ hop',
              Option.map_some, hschema]
          -- the closing operator is behind all steps and stays
          · rw [vertex, placeImage_of_le (Nat.le_of_not_lt hs)]
  | literal role index place =>
      obtain ⟨l, hl, -⟩ := exists_literal_of_lt (literal_mem_vertices.1 hv)
      obtain ⟨l', hl', hkind, -⟩ := σ.getElem?_literal henc hl
      simp only [vertex, kind?, hl, hl', Option.map_some, hkind]

include henc in
/-- Linked names have linked images. Four of the five rules speak of lengths of blocks only; an
argument is linked to the constant it is bound to, and the image of the argument to the image of
that constant. -/
theorem link (h : p.Link v w) : p.Link (σ.vertex v) (σ.vertex w) := by
  cases h with
  | first_variable h => exact .first_variable (by rwa [σ.blockSize_step])
  | next_variable h => exact .next_variable (by rwa [σ.blockSize_step])
  | head h =>
      rw [vertex_bracket]
      exact .head (by rwa [σ.blockSize_literal henc])
  | next_place h => exact .next_place (by rwa [σ.blockSize_literal henc])
  | argument hliteral harg hbound hdeclared =>
      obtain ⟨l', hl', -, harity, hargs⟩ := σ.getElem?_literal henc hliteral
      obtain ⟨v', harg'⟩ := exists_getElem?_of_length_eq harity.symm harg
      refine .argument hl' harg' ?_ (σ.bijOn_constants.mapsTo hdeclared)
      rw [hargs _ _ _ harg harg', hbound, Option.map_some]

/-! ### The table of images -/

/-- The table is made by taking the number of the image of every name, in the order of the names. -/
theorem exists_acts : ∃ m, σ.Acts m := by
  refine ⟨(p.vertices.map fun v => p.number (σ.vertex v)).toArray, by simp, fun v hv => ?_⟩
  rw [List.getElem?_toArray, List.getElem?_map, getElem?_number hv, Option.map_some]

variable {σ}

/-- The action determines the table: every entry belongs to a name, and there are no others. -/
theorem Acts.unique {m m' : Array Nat} (h : σ.Acts m) (h' : σ.Acts m') : m' = m := by
  refine Array.ext_getElem? fun k => ?_
  by_cases hk : k < p.vertices.length
  · obtain ⟨v, hv, rfl⟩ := exists_number_eq hk
    rw [h.image v hv, h'.image v hv]
  · rw [Array.getElem?_eq_none (h'.size ▸ Nat.le_of_not_lt hk),
      Array.getElem?_eq_none (h.size ▸ Nat.le_of_not_lt hk)]

include henc in
/-- The table of a symmetry is an automorphism of the encoded graph. Each of the five parts is shown
on names, where the lemmas above say it, and is carried over to the numbers by `Encodes`. -/
theorem Acts.isAutomorphism {m : Array Nat} (h : σ.Acts m) : e.graph.IsAutomorphism m := by
  have himage : ∀ v ∈ p.vertices, imageIn m (p.number v) = p.number (σ.vertex v) := by
    intro v hv
    rw [imageIn, h.image v hv, Option.getD_some]
  -- every vertex of the graph is the number of a name
  have hname : ∀ k < e.graph.vertexCount, ∃ v ∈ p.vertices, p.number v = k :=
    fun k hk => exists_number_eq (henc.vertexCount ▸ hk)
  refine {
    size := h.size.trans henc.vertexCount.symm
    lt := ?lt
    injective := ?injective
    color := ?color
    edge := ?edge }
  case lt =>
    intro k hk
    obtain ⟨v, hv, rfl⟩ := hname k hk
    rw [himage v hv, henc.vertexCount]
    exact number_lt (σ.vertex_mem henc hv)
  case injective =>
    intro k hk k' hk' heq
    obtain ⟨v, hv, rfl⟩ := hname k hk
    obtain ⟨w, hw, rfl⟩ := hname k' hk'
    rw [himage v hv, himage w hw] at heq
    have heq := eq_of_number_eq (σ.vertex_mem henc hv) (σ.vertex_mem henc hw) heq
    rw [σ.vertex_injective hv hw heq]
  case color =>
    intro k hk
    obtain ⟨v, hv, rfl⟩ := hname k hk
    obtain ⟨color, ⟨kind, hkind, hcolor⟩, hget⟩ := henc.color v hv
    obtain ⟨color', ⟨kind', hkind', hcolor'⟩, hget'⟩ := henc.color _ (σ.vertex_mem henc hv)
    -- equal kinds, so equal colours
    rw [σ.kind?_vertex henc hv, hkind, Option.some.injEq] at hkind'
    rw [himage v hv, hget, hget', ← hcolor, ← hcolor', hkind']
  case edge =>
    intro a b hab
    -- an edge is a link in one of the two directions, and so is its image
    obtain ⟨ha, hb⟩ := ColoredGraph.lt_of_hasEdge hab
    obtain ⟨v, hv, rfl⟩ := hname a ha
    obtain ⟨w, hw, rfl⟩ := hname b hb
    rw [himage v hv, himage w hw, henc.hasEdge _ (σ.vertex_mem henc hv) _ (σ.vertex_mem henc hw)]
    rcases (henc.hasEdge v hv w hw).1 hab with hlink | hlink
    · exact .inl (σ.link henc hlink)
    · exact .inr (σ.link henc hlink)

end Symmetry

/-- Every symmetry of a validated plan acts on the vertices of its graph, in one way, as an
automorphism. The numbers of vertices by which the action is described are those that the
encoding uses. -/
theorem isAutomorphism_of_symmetry {p : PartialPlan} {e : PlanEncoding}
    (hvalid : p.validate = .ok ()) (hencode : p.encode = .ok e) (σ : p.Symmetry) :
    p.Encodes e ∧ ∃ m, σ.Acts m ∧ (∀ m', σ.Acts m' → m' = m) ∧ e.graph.isAutomorphism m = true := by
  have henc := encodes_of_encode hvalid hencode
  obtain ⟨m, hm⟩ := σ.exists_acts
  exact ⟨henc, m, hm, fun m' hm' => hm.unique hm',
    ColoredGraph.isAutomorphism_iff.2 (hm.isAutomorphism henc)⟩

/-- The two variables of the plan are bound to the two balls, so the exchange of the balls exchanges
what they are bound to. -/
theorem TwoBalls.substitution_swap :
    plan.substitution[(⟨"?b", ball⟩ : Variable)]? =
        plan.substitution[(⟨"?a", ball⟩ : Variable)]?.map (Equiv.swap ballA ballB) ∧
      plan.substitution[(⟨"?a", ball⟩ : Variable)]? =
        plan.substitution[(⟨"?b", ball⟩ : Variable)]?.map (Equiv.swap ballA ballB) := by
  decide +kernel

/-- The exchange of two balls, and of all that belongs to them. -/
def TwoBalls.exchange : TwoBalls.plan.Symmetry where
  constant := Equiv.swap ballA ballB
  literal
    | .producer => Equiv.swap (0 : Fin 2) (1 : Fin 2)
    | .consumer => Equiv.swap (0 : Fin 2) (1 : Fin 2)
  step := Equiv.swap (0 : Fin 2) (1 : Fin 2)
  bijOn_constants := by
    have hmaps : Set.MapsTo (Equiv.swap ballA ballB)
        {c | c ∈ [ballA, ballB]} {c | c ∈ [ballA, ballB]} := by
      intro c (hc : c ∈ [ballA, ballB])
      rcases List.mem_pair.1 hc with rfl | rfl <;> simp
    refine Set.InvOn.bijOn ⟨fun c _ => ?_, fun c _ => ?_⟩ hmaps hmaps <;>
      exact Equiv.swap_apply_self ballA ballB c
  type_eq c _ := by
    rw [Equiv.swap_apply_def]
    split_ifs with ha hb
    · rw [ha]
      rfl
    · rw [hb]
      rfl
    · rfl
  predicate_eq := by rintro (_ | _) <;> decide
  positive_eq := by rintro (_ | _) <;> decide
  bound_eq := by
    have hsingle : ∀ {x v : Variable} {j : Nat}, [x][j]? = some v → v = x := fun h =>
      List.mem_singleton.1 (List.mem_of_getElem? h)
    rintro (_ | _) ⟨i, hi⟩ j v v' hv hv'
    all_goals
      match i with
      | 0 =>
          rw [hsingle hv, hsingle hv']
          exact TwoBalls.substitution_swap.1
      | 1 =>
          rw [hsingle hv, hsingle hv']
          exact TwoBalls.substitution_swap.2
  schema_eq := by decide
  types_eq := by decide

/-- The exchange of the two balls, with the two steps that pick them, is a symmetry of the plan and
gives an automorphism of its graph. -/
theorem isAutomorphism_exchange_balls : ∃ e,
    TwoBalls.plan.validate = .ok () ∧ TwoBalls.plan.encode = .ok e ∧ TwoBalls.plan.Encodes e ∧
      ∃ m, TwoBalls.exchange.Acts m ∧ (∀ m', TwoBalls.exchange.Acts m' → m' = m) ∧
        e.graph.isAutomorphism m = true := by
  obtain ⟨e, hencode, -⟩ := exists_ok_of_any
    (show TwoBalls.plan.encode.toOption.any (fun _ => true) = true by decide +kernel)
  exact ⟨e, TwoBalls.validate_plan, hencode,
    isAutomorphism_of_symmetry TwoBalls.validate_plan hencode TwoBalls.exchange⟩

end PartialPlan

end PlanOrbits
