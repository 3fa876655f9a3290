import Mathlib.Data.Set.Finite.List
import PlanOrbits.Proofs.Encoding.Grounding

/-!
# Automorphisms are symmetries of the plan

An automorphism of the graph of a plan permutes the named vertices and keeps kinds and
links (`Sends.kind?_eq`, `Sends.joined`). From this alone follows what it does:

* constants go to constants of the same type;
* a head is linked to its bracket, and no other vertex of a literal is linked to an
  operator; the brackets have different kinds, so heads go to heads of the same role;
* from the head on, the places of a literal go one by one to the places of its image, in
  order (`Sends.place`): the next place is joined to this one, and the place before is
  already taken;
* so the constants that arguments are bound to go to each other.

Kinds alone do not separate heads from arguments, nor a bracket from a step that has the
name of its schema.
-/

namespace PlanOrbits

namespace PartialPlan

/-- The table of images sends one named vertex to another. -/
structure Sends (p : PartialPlan) (m : Array Nat) (v w : Vertex) : Prop where
  mem_left : v ∈ p.vertices
  mem_right : w ∈ p.vertices
  image : imageIn m (p.number v) = p.number w

/-- The two vertices are linked, in one order or the other. -/
def Joined (p : PartialPlan) (v w : Vertex) : Prop := p.Link v w ∨ p.Link w v

variable {p : PartialPlan} {e : PlanEncoding} {m : Array Nat} {v v' w w' : Vertex}

/-- The two pseudo steps have different schemas, as `WellFormed` fixes both. So their vertices have
different colours. -/
theorem schema_init_ne_schema_goal (hp : p.WellFormed) : p.init.schema ≠ p.goal.schema := by
  rw [Operator.schema, Operator.schema, hp.init_name, hp.goal_name]
  decide

/-! ### What an automorphism keeps -/

section

variable (henc : p.Encodes e) (haut : e.graph.IsAutomorphism m)

include henc haut

/-- An automorphism sends every named vertex to a named vertex. -/
theorem exists_sends (hv : v ∈ p.vertices) : ∃ w, p.Sends m v w := by
  have hlt := haut.lt (p.number v) (henc.vertexCount ▸ number_lt hv)
  obtain ⟨w, hw, hnumber⟩ := exists_number_eq (henc.vertexCount ▸ hlt)
  exact ⟨w, hv, hw, hnumber.symm⟩

omit henc haut in
/-- There is one image, since the number of a vertex determines it. -/
theorem Sends.unique (h : p.Sends m v w) (h' : p.Sends m v w') : w = w' :=
  eq_of_number_eq h.mem_right h'.mem_right (h.image ▸ h'.image)

/-- There is one vertex that goes to the image. -/
theorem Sends.injective (h : p.Sends m v w) (h' : p.Sends m v' w) : v = v' := by
  refine eq_of_number_eq h.mem_left h'.mem_left (haut.injective _ ?_ _ ?_ ?_)
  · exact henc.vertexCount ▸ number_lt h.mem_left
  · exact henc.vertexCount ▸ number_lt h'.mem_left
  · rw [h.image, h'.image]

/-- A vertex goes to one of its kind. The automorphism keeps colours, and as long as the colours fit
into words, they tell kinds apart. -/
theorem Sends.kind?_eq (hcolors : e.palette.size < 2 ^ 32) (h : p.Sends m v w) :
    p.kind? w = p.kind? v := by
  obtain ⟨color, ⟨kind, hkind, hcolor⟩, hget⟩ := henc.color v h.mem_left
  obtain ⟨color', ⟨kind', hkind', hcolor'⟩, hget'⟩ := henc.color w h.mem_right
  have hkeep := haut.color (p.number v) (henc.vertexCount ▸ number_lt h.mem_left)
  rw [h.image, hget, hget', Option.some.injEq] at hkeep
  rw [henc.palette] at hcolors
  rw [hkeep] at hcolor'
  have heq : kind' = kind := Palette.eq_of_color?_eq (Nat.le_of_lt hcolors) hcolor' hcolor
  rw [hkind, hkind', heq]

/-- Joined vertices go to joined vertices. -/
theorem Sends.joined (h : p.Sends m v w) (h' : p.Sends m v' w') (hjoined : p.Joined v v') :
    p.Joined w w' := by
  have hedge := (henc.hasEdge v h.mem_left v' h'.mem_left).2 hjoined
  have hedge' := haut.edge _ _ hedge
  rw [h.image, h'.image] at hedge'
  exact (henc.hasEdge w h.mem_right w' h'.mem_right).1 hedge'

end

/-! ### Where constants, heads and arguments go -/

section

variable (hp : p.WellFormed) (henc : p.Encodes e) (hcolors : e.palette.size < 2 ^ 32)
  (haut : e.graph.IsAutomorphism m)

include henc hcolors haut

/-- A constant goes to a constant of the same type, by its kind. -/
theorem Sends.constant {c : Constant} (h : p.Sends m (.constant c) w) :
    ∃ c', w = .constant c' ∧ c' ∈ p.constants ∧ c'.type = c.type := by
  obtain ⟨c', rfl, htype⟩ := kind?_eq_constant (h.kind?_eq henc haut hcolors)
  exact ⟨c', rfl, constant_mem_vertices.1 h.mem_right, htype⟩

/-- A place of a literal goes to a place of a literal of the same kind; which place that is, and in
which role, the kind does not tell. -/
theorem Sends.literal {role : Role} {i j : Nat} {l : Literal}
    (hl : (p.literals role)[i]? = some l) (h : p.Sends m (.literal role i j) w) :
    ∃ role' i' j' l', w = .literal role' i' j' ∧ (p.literals role')[i']? = some l' ∧
      l'.kind = l.kind := by
  have hkind := h.kind?_eq henc haut hcolors
  rw [kind?, hl, Option.map_some] at hkind
  obtain ⟨role', i', j', l', rfl, hl', hkind'⟩ := kind?_eq_literal hkind
  exact ⟨role', i', j', l', rfl, hl', hkind'⟩

include hp in

/-- A head goes to a head of the same role. It is joined to its bracket, so its image is joined to
an operator, which only heads are; and the two brackets are told apart by their kinds. -/
theorem Sends.head {role : Role} {i : Nat} (h : p.Sends m (.literal role i 0) w) :
    ∃ i', w = .literal role i' 0 := by
  have hmem := literal_mem_vertices.1 h.mem_left
  obtain ⟨l, hl, -⟩ := exists_literal_of_lt hmem
  obtain ⟨role', i', j', l', rfl, -, -⟩ := h.literal henc hcolors haut hl
  have hlink : p.Link (.operator (p.bracketIndex role)) (.literal role i 0) := .head hmem
  obtain ⟨b, hb⟩ := exists_sends henc haut hlink.mem.1
  have hkind := hb.kind?_eq henc haut hcolors
  rw [kind?, getElem?_operators_bracket, Option.map_some] at hkind
  obtain ⟨index, op, rfl, hop, hschema⟩ := kind?_eq_operator hkind
  -- an operator that a literal is linked to is a bracket, and the place is a head
  rcases hb.joined henc haut h (.inl hlink) with hjoined | hjoined
  · cases hjoined
    rw [getElem?_operators_bracket, Option.some.injEq] at hop
    subst hop
    have hne := schema_init_ne_schema_goal hp
    cases role with
    | producer =>
        cases role' with
        | producer => exact ⟨i', rfl⟩
        | consumer => exact absurd hschema.symm hne
    | consumer =>
        cases role' with
        | producer => exact absurd hschema hne
        | consumer => exact ⟨i', rfl⟩
  · cases hjoined

/-- The places of a literal go in order to the places of its image. By induction on the place: the
next place is joined to this one, so its image is joined to the image of this one, and of the two
neighbours there the one before is already taken. -/
theorem Sends.place {role : Role} {i i' j : Nat} {l : Literal}
    (hl : (p.literals role)[i]? = some l)
    (h : p.Sends m (.literal role i 0) (.literal role i' 0)) (hj : j ≤ l.arity) :
    p.Sends m (.literal role i j) (.literal role i' j) := by
  have hsize := blockSize_literalSizes hl
  -- the images of both the place before and the one before that are needed
  induction j using Nat.strongRecOn with
  | ind j ih =>
      cases j with
      | zero => exact h
      | succ j =>
          have hprev := ih j (by omega) (by omega)
          have hlink : p.Link (.literal role i j) (.literal role i (j + 1)) :=
            .next_place (by omega)
          obtain ⟨w, hw⟩ := exists_sends henc haut hlink.mem.2
          obtain ⟨role', i'', j', l', rfl, -, -⟩ := hw.literal henc hcolors haut hl
          rcases hprev.joined henc haut hw (.inl hlink) with hjoined | hjoined
          · cases hjoined
            exact hw
          · -- the place before is the image of the place before
            cases hjoined
            have hback := ih j' (by omega) (by omega)
            have heq := hback.injective henc haut hw
            rw [Vertex.literal.injEq] at heq
            omega

/-- The constant that an argument is bound to goes to the constant of the argument at the same place
of the image. The link of an argument goes to a link from that place to a constant, and there is
only one. -/
theorem Sends.argument {role : Role} {i i' j : Nat} {l l' : Literal} {v v' : Variable}
    (hl : (p.literals role)[i]? = some l) (hl' : (p.literals role)[i']? = some l')
    (h : p.Sends m (.literal role i 0) (.literal role i' 0))
    (hv : l.atom.args[j]? = some v) (hv' : l'.atom.args[j]? = some v') :
    ∃ c c', p.substitution[v]? = some c ∧ p.substitution[v']? = some c' ∧
      p.Sends m (.constant c) (.constant c') := by
  obtain ⟨c, hmem, hc⟩ := henc.bound role l (List.mem_of_getElem? hl) v (List.mem_of_getElem? hv)
  have hlink : p.Link (.literal role i (j + 1)) (.constant c) := .argument hl hv hc hmem
  obtain ⟨w, hw⟩ := exists_sends henc haut hlink.mem.2
  obtain ⟨c', rfl, -, -⟩ := hw.constant henc hcolors haut
  obtain ⟨hj, -⟩ := List.getElem?_eq_some_iff.1 hv
  have hplace := h.place henc hcolors haut hl (j := j + 1) hj
  -- the image of the link is a link in one of the two directions, and only arguments lead to
  -- constants
  rcases hplace.joined henc haut hw (.inl hlink) with hjoined | hjoined
  · cases hjoined with
    | argument hliteral harg hbound hdeclared =>
        rw [hl', Option.some.injEq] at hliteral
        subst hliteral
        rw [hv', Option.some.injEq] at harg
        subst harg
        exact ⟨c, c', hc, hbound, hw⟩
  · cases hjoined

end

/-! ### Symmetries of a plan -/

/-- The table sends the vertices of a literal to those of another, in order: the literals
have the same predicate and polarity, and the constants of their arguments go to each
other. -/
structure Corresponds (p : PartialPlan) (m : Array Nat) (head : Nat) (l l' : Literal) : Prop where
  predicate : l'.atom.predicate = l.atom.predicate
  positive : l'.positive = l.positive
  arity : l'.arity = l.arity
  argument : ∀ i < l.arity, imageIn m (head + 1 + i) = imageIn m head + 1 + i
  constant : ∀ (i : Nat) (v v' : Variable), l.atom.args[i]? = some v → l'.atom.args[i]? = some v' →
    ∃ c c', p.substitution[v]? = some c ∧ p.substitution[v']? = some c' ∧
      imageIn m (p.constantVertices.idxOf c) = p.constantVertices.idxOf c'

/-- The table permutes the vertices as a symmetry of the problem does. It keeps the role of
heads, the types of constants, and literals with their arguments; and the permutation of
constants that it shows leaves the ground literals of the initial state and those of the
goal as they are, each as often as it was. -/
structure IsSymmetry (p : PartialPlan) (e : PlanEncoding) (m : Array Nat) : Prop where
  producers : Set.BijOn (imageIn m) {h | h ∈ e.producers} {h | h ∈ e.producers}
  consumers : Set.BijOn (imageIn m) {h | h ∈ e.consumers} {h | h ∈ e.consumers}
  constants : ∀ c ∈ p.constants, ∃ c' ∈ p.constants, c'.type = c.type ∧
    imageIn m (p.constantVertices.idxOf c) = p.constantVertices.idxOf c'
  literals : ∀ role role' head o o', e.occurrence? role head = some o →
    e.occurrence? role' (imageIn m head) = some o' → p.Corresponds m head o.literal o'.literal
  ground : ∃ π : Constant → Constant,
    Set.BijOn π {c | c ∈ p.constants} {c | c ∈ p.constants} ∧
      (∀ c ∈ p.constants, (π c).type = c.type ∧
        imageIn m (p.constantVertices.idxOf c) = p.constantVertices.idxOf (π c)) ∧
      ∀ role, ∃ gs, (p.literals role).mapM p.substitution.ground? = some gs ∧
        (gs.map (GroundLiteral.rename π)).Perm gs

section

variable (hp : p.WellFormed) (henc : p.Encodes e) (hcolors : e.palette.size < 2 ^ 32)
  (haut : e.graph.IsAutomorphism m)

include henc hcolors haut

/-- A literal corresponds to the one whose head is the image of its head: equal predicate and sign
by the kind, equal arity as the plan could be encoded, and place by place the rest. -/
theorem corresponds_of_head {role : Role} {i i' : Nat} {l l' : Literal}
    (hl : (p.literals role)[i]? = some l) (hl' : (p.literals role)[i']? = some l')
    (h : p.Sends m (.literal role i 0) (.literal role i' 0)) :
    p.Corresponds m (p.number (.literal role i 0)) l l' := by
  have hkind := h.kind?_eq henc haut hcolors
  rw [kind?, kind?, hl, hl', Option.map_some, Option.map_some, Option.some.injEq] at hkind
  have harity := henc.arity_eq hl hl' hkind
  rw [Literal.kind, Literal.kind, Kind.literal.injEq] at hkind
  refine ⟨hkind.1, hkind.2, harity, fun j hj => ?_, fun j v v' hv hv' => ?_⟩
  · have hplace := (h.place henc hcolors haut hl (j := j + 1) hj).image
    rw [h.image]
    have hnumber : ∀ i, p.number (.literal role i (j + 1)) =
        p.number (.literal role i 0) + 1 + j := by
      intro i
      simp only [number]
      omega
    rwa [hnumber, hnumber] at hplace
  · obtain ⟨c, c', hc, hc', hsends⟩ := h.argument henc hcolors haut hl hl' hv hv'
    exact ⟨c, c', hc, hc', hsends.image⟩

include hp

/-- The heads of a role go one to one onto the heads of the role. They go to heads by `Sends.head`,
and every head is reached, since there are finitely many. -/
theorem bijOn_heads (role : Role) : Set.BijOn (imageIn m)
    {h | (e.occurrence? role h).isSome} {h | (e.occurrence? role h).isSome} := by
  have hsome : ∀ h, (e.occurrence? role h).isSome ↔
      ∃ i l, (p.literals role)[i]? = some l ∧ h = p.number (.literal role i 0) := by
    intro h
    rw [Option.isSome_iff_exists]
    simp only [henc.occurrence]
    constructor
    · rintro ⟨o, i, l, hl, hh, -⟩
      exact ⟨i, l, hl, hh⟩
    · rintro ⟨i, l, hl, hh⟩
      exact ⟨_, i, l, hl, hh, rfl⟩
  -- heads go to heads, and one to one; since there are finitely many, none is left out
  have hfinite : {h | (e.occurrence? role h).isSome}.Finite := by
    refine (Set.finite_lt_nat p.vertices.length).subset fun h hh => ?_
    obtain ⟨i, l, hl, rfl⟩ := (hsome h).1 hh
    exact number_lt (head_mem_vertices hl)
  have hmaps : Set.MapsTo (imageIn m) {h | (e.occurrence? role h).isSome}
      {h | (e.occurrence? role h).isSome} := by
    intro h hh
    obtain ⟨i, l, hl, rfl⟩ := (hsome h).1 hh
    obtain ⟨w, hw⟩ := exists_sends henc haut (head_mem_vertices hl)
    obtain ⟨i', rfl⟩ := hw.head hp henc hcolors haut
    obtain ⟨l', hl', -⟩ := exists_literal_of_lt (literal_mem_vertices.1 hw.mem_right)
    exact (hsome _).2 ⟨i', l', hl', hw.image⟩
  refine (hfinite.injOn_iff_bijOn_of_mapsTo hmaps).1 fun h hh h' hh' heq => ?_
  obtain ⟨i, l, hl, rfl⟩ := (hsome h).1 hh
  obtain ⟨i', l', hl', rfl⟩ := (hsome h').1 hh'
  refine haut.injective _ ?_ _ ?_ heq
  · exact henc.vertexCount ▸ number_lt (head_mem_vertices hl)
  · exact henc.vertexCount ▸ number_lt (head_mem_vertices hl')

omit hp in
/-- The automorphism as a function of constants, which is chosen where it is defined and is the
identity elsewhere. -/
theorem exists_constant_map : ∃ π : Constant → Constant, ∀ c ∈ p.constants,
    p.Sends m (.constant c) (.constant (π c)) ∧ (π c).type = c.type := by
  have hconstants : ∀ c, ∃ c', c ∈ p.constants →
      p.Sends m (.constant c) (.constant c') ∧ c'.type = c.type := by
    intro c
    by_cases hc : c ∈ p.constants
    · obtain ⟨w, hw⟩ := exists_sends henc haut (constant_mem_vertices.2 hc)
      obtain ⟨c', rfl, -, htype⟩ := hw.constant henc hcolors haut
      exact ⟨c', fun _ => ⟨hw, htype⟩⟩
    · exact ⟨c, fun h => absurd h hc⟩
  choose π hπ using hconstants
  exact ⟨π, hπ⟩

variable {π : Constant → Constant}
  (hπ : ∀ c ∈ p.constants, p.Sends m (.constant c) (.constant (π c)))

include hπ

omit hp hcolors in
/-- This function permutes the declared constants: it leads from them to them and merges none. -/
theorem bijOn_constants : Set.BijOn π {c | c ∈ p.constants} {c | c ∈ p.constants} := by
  have hmaps : Set.MapsTo π {c | c ∈ p.constants} {c | c ∈ p.constants} :=
    fun c hc => constant_mem_vertices.1 (hπ c hc).mem_right
  refine ((List.finite_toSet p.constants).injOn_iff_bijOn_of_mapsTo hmaps).1 ?_
  intro c hc c' hc' heq
  have h' := hπ c' hc'
  rw [← heq] at h'
  simpa using (hπ c hc).injective henc haut h'

omit hp in
/-- If the head of one literal goes to the head of another, the ground literal of the second is the
renamed ground literal of the first. -/
theorem ground?_image {role : Role} {i i' : Nat} {l l' : Literal} {g : GroundLiteral}
    (hl : (p.literals role)[i]? = some l) (hl' : (p.literals role)[i']? = some l')
    (h : p.Sends m (.literal role i 0) (.literal role i' 0))
    (hg : p.substitution.ground? l = some g) :
    p.substitution.ground? l' = some (g.rename π) := by
  have hcorresponds := corresponds_of_head henc hcolors haut hl hl' h
  refine ground?_rename hcorresponds.predicate hcorresponds.positive hcorresponds.arity ?_ hg
  intro j v v' hv hv'
  obtain ⟨c, c', hc, hc', hsends⟩ := h.argument henc hcolors haut hl hl' hv hv'
  have heq := hsends.unique (hπ c (constant_mem_vertices.1 hsends.mem_left))
  rw [Vertex.constant.injEq] at heq
  exact ⟨c, hc, heq ▸ hc'⟩

/-- The permutation of the constants leaves the ground literals of a role as they are, up to their
order. The heads give a permutation of places, and `perm_of_getElem?` turns it into one of the list,
in which a literal may occur more than once. -/
theorem ground_perm (role : Role) :
    ∃ gs, (p.literals role).mapM p.substitution.ground? = some gs ∧
      (gs.map (GroundLiteral.rename π)).Perm gs := by
  obtain ⟨gs, hgs⟩ := exists_mapM_eq_some fun l hl =>
    exists_ground?_eq_some fun v hv => (henc.bound role l hl v hv).imp fun c hc => hc.2
  have hground := mapM_eq_some_iff.1 hgs
  have hheads : ∀ i, ∃ i', i < gs.length →
      p.Sends m (.literal role i 0) (.literal role i' 0) := by
    intro i
    by_cases hi : i < gs.length
    · obtain ⟨l, hl, -⟩ := exists_left_of_forall₂ hground (List.getElem?_eq_getElem hi)
      obtain ⟨w, hw⟩ := exists_sends henc haut (head_mem_vertices hl)
      obtain ⟨i', rfl⟩ := hw.head hp henc hcolors haut
      exact ⟨i', fun _ => hw⟩
    · exact ⟨i, fun h => absurd h hi⟩
  -- the place to which the head of each literal goes
  choose f hf using hheads
  refine ⟨gs, hgs, perm_of_getElem? (f := f) (by simp) ?_ ?_ ?_⟩
  · intro i hi
    obtain ⟨l', hl', -⟩ := exists_literal_of_lt (literal_mem_vertices.1 (hf i hi).mem_right)
    obtain ⟨g', hg', -⟩ := exists_right_of_forall₂ hground hl'
    exact (List.getElem?_eq_some_iff.1 hg').1
  · intro i hi j hj heq
    have h' := hf j hj
    rw [← heq] at h'
    simpa using (hf i hi).injective henc haut h'
  · intro i hi
    have hg := List.getElem?_eq_getElem hi
    obtain ⟨l, hl, hground₁⟩ := exists_left_of_forall₂ hground hg
    obtain ⟨l', hl', -⟩ := exists_literal_of_lt (literal_mem_vertices.1 (hf i hi).mem_right)
    obtain ⟨g', hg', hground₂⟩ := exists_right_of_forall₂ hground hl'
    have himage := ground?_image henc hcolors haut hπ hl hl' (hf i hi) hground₁
    rw [List.getElem?_map, hg, Option.map_some, hg', ← hground₂, himage]

end

/-- Every automorphism of the graph of a validated plan is a symmetry of the plan, as long as the
numbers of the colours fit into words. The fields are put together from the lemmas on heads,
constants, places and ground literals. -/
theorem isSymmetry_of_isAutomorphism (hvalid : p.validate = .ok ()) (hencode : p.encode = .ok e)
    (hcolors : e.palette.size < 2 ^ 32) (haut : e.graph.isAutomorphism m = true) :
    p.IsSymmetry e m := by
  have hp := validate_eq_ok_iff.1 hvalid
  have henc := encodes_of_encode hvalid hencode
  have haut := ColoredGraph.isAutomorphism_iff.1 haut
  obtain ⟨π, hπ⟩ := exists_constant_map henc hcolors haut
  have hsends := fun c hc => (hπ c hc).1
  exact {
    producers := by
      simpa [PlanEncoding.occurrence?] using bijOn_heads hp henc hcolors haut .producer
    consumers := by
      simpa [PlanEncoding.occurrence?] using bijOn_heads hp henc hcolors haut .consumer
    constants := fun c hc =>
      ⟨π c, constant_mem_vertices.1 (hsends c hc).mem_right, (hπ c hc).2, (hsends c hc).image⟩
    literals := by
      intro role role' head o o' ho ho'
      obtain ⟨i, l, hl, rfl, rfl⟩ := (henc.occurrence role head o).1 ho
      obtain ⟨i', l', hl', himage, rfl⟩ := (henc.occurrence role' _ o').1 ho'
      obtain ⟨w, hw⟩ := exists_sends henc haut (head_mem_vertices hl)
      -- a head goes to a head, and the one it goes to is the one that the table names
      obtain ⟨i'', rfl⟩ := hw.head hp henc hcolors haut
      have heq := eq_of_number_eq (head_mem_vertices hl') hw.mem_right (himage ▸ hw.image)
      rw [Vertex.literal.injEq] at heq
      obtain ⟨rfl, rfl, -⟩ := heq
      exact corresponds_of_head henc hcolors haut hl hl' hw
    ground := ⟨π, bijOn_constants henc haut hsends,
      fun c hc => ⟨(hπ c hc).2, (hsends c hc).image⟩,
      ground_perm hp henc hcolors haut hsends⟩ }

/-- The table that exchanges the two balls of the plan, with all vertices that belong to them, is a
symmetry. -/
theorem isSymmetry_exchange_balls : ∃ e,
    TwoBalls.plan.validate = .ok () ∧ TwoBalls.plan.encode = .ok e ∧ e.palette.size < 2 ^ 32 ∧
      e.graph.isAutomorphism #[1, 0, 3, 2, 4, 6, 5, 7, 10, 11, 8, 9, 14, 15, 12, 13] = true ∧
        TwoBalls.plan.IsSymmetry e #[1, 0, 3, 2, 4, 6, 5, 7, 10, 11, 8, 9, 14, 15, 12, 13] := by
  obtain ⟨e, hencode, hcheck⟩ := exists_ok_of_any (show TwoBalls.plan.encode.toOption.any (fun e =>
      decide (e.palette.size < 2 ^ 32) &&
        e.graph.isAutomorphism #[1, 0, 3, 2, 4, 6, 5, 7, 10, 11, 8, 9, 14, 15, 12, 13]) = true by
    decide +kernel)
  rw [Bool.and_eq_true, decide_eq_true_eq] at hcheck
  obtain ⟨hcolors, haut⟩ := hcheck
  exact ⟨e, TwoBalls.validate_plan, hencode, hcolors, haut,
    isSymmetry_of_isAutomorphism TwoBalls.validate_plan hencode hcolors haut⟩

end PartialPlan

end PlanOrbits
