import PlanOrbits.Proofs.Encoding.Vertices
import PlanOrbits.Proofs.Tables

/-!
# What the parts of the encoder make

One lemma for each part of the encoder: the tables by name or by head
(`getElem?_operatorVertices`, `getElem?_heads`), the vertices of the steps
(`mem_variableVertices`), the blocks of the literals (`isBlock_of_literalBlocks`), and the
edges of a path (`mem_pathEdges_range'`). They say at which number a thing stands,
counted from the start that the part is given.
-/

namespace PlanOrbits

namespace PartialPlan

/-- The table of the operators, if their names are different, has each operator at its place counted
from the start. -/
theorem getElem?_operatorVertices {start : Nat} {ops : List Operator}
    (hnodup : (ops.map (·.name)).Nodup) {name : String} {v : Nat} :
    (operatorVertices start ops)[name]? = some v ↔
      ∃ i op, ops[i]? = some op ∧ op.name = name ∧ start + i = v := by
  -- no entry of the fold is overwritten, since the names stay different when they are numbered
  have hkeys : ((ops.zipIdx start).map fun x => x.1.name).Nodup := by
    have hmap := congrArg (·.map Operator.name) (List.zipIdx_map_fst start ops)
    rw [List.map_map] at hmap
    exact hmap ▸ hnodup
  rw [operatorVertices,
    getElem?_foldl_insert_of_nodup (fun x : Operator × Nat => x.1.name) Prod.snd hkeys]
  constructor
  · rintro ⟨⟨op, k⟩, hmem, rfl, rfl⟩
    obtain ⟨hk, hop⟩ := List.mk_mem_zipIdx_iff_le_and_getElem?_sub.1 hmem
    exact ⟨k - start, op, hop, rfl, by dsimp only; omega⟩
  · rintro ⟨i, op, hop, rfl, rfl⟩
    exact ⟨(op, start + i), List.mk_mem_zipIdx_iff_le_and_getElem?_sub.2 (by simpa), rfl, rfl⟩

/-- Every operator is found by its name, though perhaps with the vertex of a later operator of that
name. This is all that can be said of a plan that is not well formed, and it is enough to exclude a
missing name. -/
theorem exists_operatorVertex {start : Nat} {ops : List Operator} {op : Operator} (hop : op ∈ ops) :
    ∃ v, (operatorVertices start ops)[op.name]? = some v ∧ start ≤ v ∧ v < start + ops.length := by
  have hget := getElem?_foldl_insert (fun x : Operator × Nat => x.1.name) Prod.snd
    (ops.zipIdx start) op.name
  obtain ⟨i, hi⟩ := List.mem_iff_getElem?.1 hop
  have hne : (ops.zipIdx start).filter (fun x => x.1.name == op.name) ≠ [] := by
    refine List.ne_nil_of_mem (a := (op, start + i)) (List.mem_filter.2 ⟨?_, by simp⟩)
    exact List.mk_mem_zipIdx_iff_le_and_getElem?_sub.2 (by simpa)
  -- of the operators with the name the last one counts, and it stands in the row as well
  rw [List.getLast?_eq_some_getLast hne, Option.map_some] at hget
  refine ⟨_, hget, ?_⟩
  have hmem := List.mem_of_mem_filter (List.getLast_mem hne)
  obtain ⟨hle, hsub⟩ := List.mk_mem_zipIdx_iff_le_and_getElem?_sub.1 hmem
  obtain ⟨hlt, -⟩ := List.getElem?_eq_some_iff.1 hsub
  omega

/-- The table of a role, if the heads of its blocks are different, has one occurrence for each
block. -/
theorem getElem?_heads {role : Role} {bracket : String} {blocks : List LiteralBlock}
    (hnodup : (blocks.map (·.head)).Nodup) {h : Nat} {o : Occurrence role} :
    (heads bracket blocks)[h]? = some o ↔
      ∃ b ∈ blocks, b.head = h ∧ ⟨bracket, b.literal⟩ = o :=
  getElem?_foldl_insert_of_nodup LiteralBlock.head
    (fun b => (⟨bracket, b.literal⟩ : Occurrence role)) hnodup

/-! ### Steps and their variables -/

/-- The row of a step is as long as its list of variables and starts where the rows before it end.
By induction on the steps: the start moves on by one row each time. -/
theorem mem_variableVertices {start : Nat} {ops : List Operator} {op : Operator} {vs : List Nat} :
    (op, vs) ∈ variableVertices start ops ↔ ∃ i, ops[i]? = some op ∧
      vs = List.range' (start + blockStart (ops.map (·.vars.length)) i) op.vars.length := by
  induction ops generalizing start with
  | nil => simp [variableVertices]
  | cons first ops ih =>
      rw [variableVertices, List.mem_cons, ih]
      constructor
      · rintro (h | ⟨i, hop, rfl⟩)
        · cases h
          exact ⟨0, rfl, by simp [blockStart]⟩
        · exact ⟨i + 1, hop, by rw [List.map_cons, blockStart_cons_succ, Nat.add_assoc]⟩
      · rintro ⟨i, hop, rfl⟩
        cases i with
        | zero =>
            rw [List.getElem?_cons_zero, Option.some.injEq] at hop
            exact .inl (by simp [hop, blockStart])
        | succ i =>
            refine .inr ⟨i, hop, ?_⟩
            rw [List.map_cons, blockStart_cons_succ, Nat.add_assoc]

/-- There is one row for each step, in the order of the steps. -/
theorem map_fst_variableVertices (start : Nat) (ops : List Operator) :
    (variableVertices start ops).map Prod.fst = ops := by
  induction ops generalizing start with
  | nil => rfl
  | cons op ops ih => rw [variableVertices, List.map_cons, ih]

/-- The rows stand one behind the other without a gap, so that together they are one range. -/
theorem flatMap_snd_variableVertices (start : Nat) (ops : List Operator) :
    (variableVertices start ops).flatMap Prod.snd =
      List.range' start (ops.flatMap (·.vars)).length := by
  induction ops generalizing start with
  | nil => rfl
  | cons op ops ih =>
      rw [variableVertices, List.flatMap_cons, ih, List.flatMap_cons, List.length_append,
        ← List.range'_append_1]

/-- The vertices of the variables stand before the place where the next row of vertices, that of the
operators, starts. -/
theorem lt_of_mem_variableVertices {start v : Nat} {ops : List Operator}
    {step : Operator × List Nat} (h : step ∈ variableVertices start ops) (hv : v ∈ step.2) :
    v < start + (ops.flatMap (·.vars)).length := by
  have hrange := List.mem_flatMap.2 ⟨step, h, hv⟩
  rw [flatMap_snd_variableVertices, List.mem_range'_1] at hrange
  exact hrange.2

/-! ### Literals -/

variable {p : PartialPlan}

/-- The target of an argument is the declared constant that it is bound to, under its number. An
unbound variable and a binding to an undeclared constant have no target. -/
theorem target_eq_ok_iff {l : Literal} {arg : Variable} {v : Nat} :
    p.target l arg = .ok v ↔ ∃ c, p.substitution[arg]? = some c ∧ c ∈ p.constants ∧
      v = p.number (.constant c) := by
  rw [target]
  cases p.substitution[arg]? with
  | none => simp
  | some c =>
      have hmem : c ∈ p.constants ↔ c ∈ p.constantVertices := by simp [constantVertices]
      simp only [Option.some.injEq, exists_eq_left', hmem]
      cases hidx : p.constantVertices.idxOf? c with
      | none => simp [List.idxOf?_eq_none_iff.1 hidx]
      | some i =>
          -- constants that are declared twice have one vertex, so a place in the row is a number
          have hnodup : p.constantVertices.Nodup := nodup_eraseDups p.constants
          obtain ⟨hi, rfl, -⟩ := List.idxOf?_eq_some_iff.1 hidx
          simp [number, hnodup.idxOf_getElem, eq_comm]

/-- A target is a vertex of the first row. -/
theorem target_lt {l : Literal} {arg : Variable} {v : Nat} (h : p.target l arg = .ok v) :
    v < p.constantVertices.length := by
  obtain ⟨c, -, hc, rfl⟩ := target_eq_ok_iff.1 h
  exact List.idxOf_lt_length_of_mem (List.mem_eraseDups.2 hc)

/-- The block of a literal at a head: its arguments are bound to declared constants. -/
structure IsBlock (p : PartialPlan) (palette : Palette) (l : Literal) (head : Nat)
    (b : LiteralBlock) : Prop where
  literal : b.literal = l
  head : b.head = head
  color : palette.literal l = .ok b.color
  targets : List.Forall₂ (fun v t => p.target l v = .ok t) l.atom.args b.targets

/-- What `literalBlock` returns is a block of the literal at the given head. -/
theorem isBlock_of_literalBlock {palette : Palette} {head : Nat} {l : Literal} {b : LiteralBlock}
    (h : p.literalBlock palette head l = .ok b) : p.IsBlock palette l head b := by
  simp only [literalBlock, bind_eq_ok_iff] at h
  obtain ⟨color, hcolor, targets, htargets, h⟩ := h
  cases h
  exact ⟨rfl, rfl, hcolor, mapM_eq_ok_iff.1 htargets⟩

/-- A block has one colour for each place of its literal, the head included. -/
theorem IsBlock.length_colors {palette : Palette} {head : Nat} {l : Literal} {b : LiteralBlock}
    (h : p.IsBlock palette l head b) : b.colors.length = l.arity + 1 := by
  rw [LiteralBlock.colors, List.length_replicate, ← h.targets.length_eq, Literal.arity]

/-- Blocks of literals are as long as the literals need them, so that the rows of the layout can be
computed from arities. -/
theorem map_length_colors {palette : Palette} {start : Nat → Nat} {ls : List Literal}
    {blocks : List LiteralBlock} (hlength : blocks.length = ls.length)
    (h : ∀ (i : Nat) (l : Literal) (b : LiteralBlock), ls[i]? = some l → blocks[i]? = some b →
      p.IsBlock palette l (start i) b) :
    (blocks.map (·.colors)).map List.length = ls.map (·.arity + 1) := by
  rw [List.map_map]
  refine List.ext_getElem (by simp [hlength]) fun i hi hi' => ?_
  rw [List.length_map] at hi hi'
  rw [List.getElem_map, List.getElem_map]
  exact (h i _ _ (List.getElem?_eq_getElem hi') (List.getElem?_eq_getElem hi)).length_colors

/-- The blocks of a list of literals stand one behind the other, and each starts where the arities
of those before it say. -/
theorem isBlock_of_literalBlocks {palette : Palette} {head : Nat} {ls : List Literal}
    {blocks : List LiteralBlock} (h : p.literalBlocks palette head ls = .ok blocks) :
    blocks.length = ls.length ∧ ∀ i l b, ls[i]? = some l → blocks[i]? = some b →
      p.IsBlock palette l (head + blockStart (ls.map (·.arity + 1)) i) b := by
  induction ls generalizing head blocks with
  | nil =>
      cases h
      simp
  | cons first ls ih =>
      simp only [literalBlocks, bind_eq_ok_iff] at h
      obtain ⟨block, hblock, blocks', hblocks, h⟩ := h
      cases h
      obtain ⟨hlength, hall⟩ := ih hblocks
      refine ⟨by simp [hlength], fun i l b hl hb => ?_⟩
      -- the first block starts at the head, the others behind it by the induction hypothesis
      cases i with
      | zero =>
          cases hl
          cases hb
          simpa [blockStart] using isBlock_of_literalBlock hblock
      | succ i =>
          have := hall i l b hl hb
          rwa [Nat.add_assoc head, Nat.add_assoc, ← blockStart_cons_succ] at this

/-- Literals have blocks, wherever these start, if and only if each has a colour and its arguments
are bound to declared constants. Both conditions are needed for every literal, since the first one
that fails ends the list. -/
theorem exists_literalBlocks_iff {palette : Palette} {head : Nat} {ls : List Literal} :
    (∃ blocks, p.literalBlocks palette head ls = .ok blocks) ↔ ∀ l ∈ ls,
      (∃ color, palette.literal l = .ok color) ∧
        ∀ v ∈ l.atom.args, ∃ c ∈ p.constants, p.substitution[v]? = some c := by
  have htargets : ∀ l : Literal, (∃ targets, l.atom.args.mapM (p.target l) = .ok targets) ↔
      ∀ v ∈ l.atom.args, ∃ c ∈ p.constants, p.substitution[v]? = some c := by
    intro l
    rw [exists_mapM_eq_ok_iff]
    refine forall₂_congr fun v _ => ?_
    simp only [target_eq_ok_iff]
    exact ⟨fun ⟨_, c, hc, hmem, _⟩ => ⟨c, hmem, hc⟩, fun ⟨c, hmem, hc⟩ => ⟨_, c, hc, hmem, rfl⟩⟩
  induction ls generalizing head with
  | nil => simp [literalBlocks]
  | cons l ls ih =>
      rw [List.forall_mem_cons]
      -- the rest starts behind the block of the first literal, wherever that is
      refine Iff.trans ?_ (and_congr (and_congr_right' (htargets l)) (@ih (head + l.arity + 1)))
      simp only [literalBlocks, literalBlock, bind_eq_ok_iff]
      constructor
      · rintro ⟨_, _, ⟨color, hcolor, targets, htargets, -⟩, blocks, hblocks, -⟩
        exact ⟨⟨⟨color, hcolor⟩, targets, htargets⟩, blocks, hblocks⟩
      · rintro ⟨⟨⟨color, hcolor⟩, targets, htargets⟩, blocks, hblocks⟩
        exact ⟨_, _, ⟨color, hcolor, targets, htargets, rfl⟩, blocks, hblocks, rfl⟩

end PartialPlan

/-! ### Paths -/

/-- The edges of a path from a vertex `x` into a row of vertices: from `x` to the first of the row,
if there is one, and from each to the next. -/
theorem mem_pathEdges_range' {x y n a b : Nat} :
    (a, b) ∈ pathEdges (x :: List.range' y n) ↔
      (0 < n ∧ a = x ∧ b = y) ∨ ∃ j, j + 1 < n ∧ a = y + j ∧ b = y + j + 1 := by
  rw [pathEdges, List.tail_cons, List.mem_iff_getElem?]
  constructor
  · rintro ⟨i, hi⟩
    obtain ⟨hx, hy⟩ := List.getElem?_zip_eq_some.1 hi
    obtain ⟨hlt, rfl⟩ := List.getElem?_eq_some_iff.1 hy
    rw [List.length_range'] at hlt
    -- the first edge starts at `x`, all others within the row
    cases i with
    | zero =>
        cases hx
        exact .inl ⟨by omega, rfl, by simp⟩
    | succ j =>
        rw [List.getElem?_cons_succ, List.getElem?_range' (by omega), Option.some.injEq] at hx
        refine .inr ⟨j, hlt, ?_, ?_⟩
        · omega
        · rw [List.getElem_range']
          omega
  · rintro (⟨hn, rfl, rfl⟩ | ⟨j, hj, rfl, rfl⟩)
    · refine ⟨0, List.getElem?_zip_eq_some.2 ⟨rfl, ?_⟩⟩
      rw [List.getElem?_range' hn]
      simp
    · refine ⟨j + 1, List.getElem?_zip_eq_some.2 ⟨?_, ?_⟩⟩
      · rw [List.getElem?_cons_succ, List.getElem?_range' (by omega)]
        simp
      · rw [List.getElem?_range' hj]
        simp
        omega

namespace LiteralBlock

/-- The edges of a block: the path from its bracket through its places, and the links of its
arguments. -/
theorem mem_edges {block : LiteralBlock} {bracket a b : Nat} :
    (a, b) ∈ block.edges bracket ↔ (a = bracket ∧ b = block.head) ∨
      (∃ j, j < block.targets.length ∧ a = block.head + j ∧ b = block.head + j + 1) ∨
      ∃ j, block.targets[j]? = some b ∧ a = block.head + (j + 1) := by
  have hrow : block.head :: block.args = List.range' block.head (block.targets.length + 1) := by
    rw [args, List.range'_succ]
  -- the head and the arguments form one row, so the path is one of `mem_pathEdges_range'`
  rw [edges, List.mem_append, hrow, mem_pathEdges_range', or_assoc]
  refine or_congr (by simp) (or_congr (by simp) ?_)
  rw [args, List.mem_iff_getElem?]
  refine exists_congr fun j => ?_
  rw [List.getElem?_zip_eq_some, and_comm]
  refine and_congr_right fun hb => ?_
  obtain ⟨hj, -⟩ := List.getElem?_eq_some_iff.1 hb
  rw [List.getElem?_range' hj]
  simp
  omega

end LiteralBlock

namespace PartialPlan

variable {p : PartialPlan}

variable (p) in
/-- The numbers of two vertices that a literal joins: its bracket and its head, a place and
the next, or the place of an argument and the constant that the argument is bound to. -/
def LiteralEdge (role : Role) (i : Nat) (l : Literal) (a b : Nat) : Prop :=
  (a = p.number (.operator (p.bracketIndex role)) ∧ b = p.number (.literal role i 0)) ∨
    (∃ j, j < l.arity ∧ a = p.number (.literal role i j) ∧
      b = p.number (.literal role i (j + 1))) ∨
    ∃ j v c, l.atom.args[j]? = some v ∧ p.substitution[v]? = some c ∧ c ∈ p.constants ∧
      a = p.number (.literal role i (j + 1)) ∧ b = p.number (.constant c)

/-- The edges of the block of a literal, with its targets read as constants. The rules of
`LiteralEdge` no longer mention the block. -/
theorem IsBlock.mem_edges_iff {role : Role} {i a b : Nat} {l : Literal} {block : LiteralBlock}
    (hblock : p.IsBlock (Palette.ofPlan p) l (p.number (.literal role i 0)) block) :
    (a, b) ∈ block.edges (p.number (.operator (p.bracketIndex role))) ↔
      p.LiteralEdge role i l a b := by
  rw [LiteralBlock.mem_edges, hblock.head, ← hblock.targets.length_eq]
  refine or_congr Iff.rfl (or_congr Iff.rfl (exists_congr fun j => ?_))
  constructor
  · rintro ⟨htarget, rfl⟩
    obtain ⟨v, hv, htarget⟩ := exists_left_of_forall₂ hblock.targets htarget
    obtain ⟨c, hc, hmem, rfl⟩ := target_eq_ok_iff.1 htarget
    exact ⟨v, c, hv, hc, hmem, rfl, rfl⟩
  · rintro ⟨v, c, hv, hc, hmem, rfl, rfl⟩
    obtain ⟨t, ht, htarget⟩ := exists_right_of_forall₂ hblock.targets hv
    obtain ⟨c', hc', -, rfl⟩ := target_eq_ok_iff.1 htarget
    rw [hc, Option.some.injEq] at hc'
    exact ⟨by rw [ht, hc'], rfl⟩

end PartialPlan

end PlanOrbits
