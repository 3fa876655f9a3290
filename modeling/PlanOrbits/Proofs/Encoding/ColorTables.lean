import Mathlib.Data.List.Induction
import PlanOrbits.Encoding.ColorTables
import PlanOrbits.Proofs.Encoding.Palette

/-!
# Tables of colours hold palettes

The colours that the counter hands out are those of the palette (`Represents`). A new key takes
the next colours and becomes the last key of the palette; a key that its table has already changes
neither. So each step keeps the tables and the palette together (`tracks_addType`,
`tracks_addPredicate`, `tracks_addSchema`), and with it the loops do (`Tracks.foldlM`,
`tracks_ofPlan?`).

The counter runs over exactly if the palette has too many colours, and then there are no tables;
therefore `Tracks` says something of this case as well.
-/

namespace PlanOrbits

open Std (ExtTreeMap)

/-! ### Members that are new -/

section

variable {α : Type}

/-- Append a member, unless there is one like it. -/
def addNew (same : α → α → Bool) (xs : List α) (x : α) : List α :=
  if xs.any (same x) then xs else xs ++ [x]

/-- The loop of `eraseDupsBy` keeps what it has seen in reverse and turns it round at its end, so a
member behind `xs` comes behind all that is kept of `xs`. The induction is on `xs`, for every
`seen`. -/
theorem loop_concat (same : α → α → Bool) (xs seen : List α) (x : α) :
    List.eraseDupsBy.loop same (xs ++ [x]) seen =
      addNew same (List.eraseDupsBy.loop same xs seen) x := by
  induction xs generalizing seen with
  | nil =>
      rw [List.nil_append, List.eraseDupsBy.loop, List.eraseDupsBy.loop, addNew, List.any_reverse]
      cases seen.any (same x) with
      | true => rfl
      | false => simp [List.eraseDupsBy.loop]
  | cons y xs ih =>
      rw [List.cons_append, List.eraseDupsBy.loop, List.eraseDupsBy.loop]
      cases seen.any (same y) <;> exact ih _

/-- To erase the duplicates of a list with one member more, append this member to what is left of
the others if it is new. The palettes are built by `eraseDupsBy`, the tables by loops over the same
list, and this is the step they have in common. -/
theorem eraseDupsBy_concat (same : α → α → Bool) (xs : List α) (x : α) :
    (xs ++ [x]).eraseDupsBy same = addNew same (xs.eraseDupsBy same) x :=
  loop_concat same xs [] x

/-- The same for duplicates by equality, as the types and the schemas are kept. -/
theorem eraseDups_concat [BEq α] (xs : List α) (x : α) :
    (xs ++ [x]).eraseDups = addNew (· == ·) xs.eraseDups x :=
  eraseDupsBy_concat _ xs x

variable [DecidableEq α]

theorem addNew_of_mem {xs : List α} {x : α} (h : x ∈ xs) : addNew (· == ·) xs x = xs :=
  if_pos (List.any_eq_true.2 ⟨x, h, beq_self_eq_true x⟩)

theorem addNew_of_not_mem {xs : List α} {x : α} (h : x ∉ xs) :
    addNew (· == ·) xs x = xs ++ [x] := by
  refine if_neg fun hany => ?_
  obtain ⟨y, hy, heq⟩ := List.any_eq_true.1 hany
  rw [eq_of_beq heq] at h
  exact h hy

/-- A new member is found at the last place, and all others where they were. -/
theorem idxOf?_concat {xs : List α} {x y : α} (hx : x ∉ xs) :
    (xs ++ [x]).idxOf? y = if y = x then some xs.length else xs.idxOf? y := by
  rw [List.idxOf?, List.findIdx?_append, ← List.idxOf?]
  by_cases hyx : y = x
  · rw [if_pos hyx, hyx, List.idxOf?_eq_none_iff.2 hx]
    simp [List.idxOf?_cons]
  · rw [if_neg hyx]
    simp [List.idxOf?_cons, Ne.symm hyx]

end

namespace ColorTables

variable {t : ColorTables} {pal : Palette}

/-! ### Tables and palettes -/

/-- The tables hold the colours of a palette, and the counter is at their number. -/
structure Represents (t : ColorTables) (pal : Palette) : Prop where
  constants : ∀ type, t.constants[type]? = pal.color? (.constant type)
  vars : ∀ type, t.vars[type]? = pal.color? (.variable type)
  literals : ∀ name, t.literals[name]? = (pal.predicate? name).map fun (q, j) =>
    ((2 * pal.types.length + 2 * j).toUInt32, q.arity)
  schemas : ∀ schema, t.schemas[schema]? = pal.color? (.operator schema)
  next : t.next.toNat = pal.size

/-- The tables that were made hold the colours of a palette; if none could be made, the palette
has more colours than the counter can count. -/
def Tracks (pal : Palette) : Option ColorTables → Prop
  | some t => t.Represents pal
  | none => 2 ^ 32 ≤ pal.size

/-- The counter as a colour, as the next key gets it. -/
theorem Represents.next_eq (h : t.Represents pal) : t.next = pal.size.toUInt32 := by
  rw [← h.next, Nat.toUInt32_eq, UInt32.ofNat_toNat]

theorem fresh_eq (t : ColorTables) : t.fresh =
    if t.next.toNat + 1 < 2 ^ 32 then some (t.next, { t with next := t.next + 1 }) else none :=
  rfl

/-- Two colours in a row are handed out if and only if there is room for both. If the counter runs
over at the second one, the first is lost with the tables, so that one test decides. -/
theorem fresh_bind_fresh {α : Type} (t : ColorTables) (f : Color → Color → ColorTables → Option α) :
    (t.fresh.bind fun x => x.2.fresh.bind fun y => f x.1 y.1 y.2) =
      if t.next.toNat + 2 < 2 ^ 32 then f t.next (t.next + 1) { t with next := t.next + 2 }
      else none := by
  have hlt := t.next.toNat_lt
  have hnext : (t.next + 1).toNat = (t.next.toNat + 1) % 2 ^ 32 := UInt32.toNat_add _ _
  -- the counter of the second `fresh` does not wrap, as the first one had room
  by_cases hfirst : t.next.toNat + 1 < 2 ^ 32
  · rw [fresh_eq, if_pos hfirst, Option.bind_some, fresh_eq, hnext, Nat.mod_eq_of_lt hfirst]
    by_cases hsecond : t.next.toNat + 2 < 2 ^ 32
    · rw [if_pos hsecond, if_pos hsecond, Option.bind_some, UInt32.add_assoc]
      rfl
    · rw [if_neg hsecond, if_neg hsecond, Option.bind_none]
  · rw [fresh_eq, if_neg hfirst, Option.bind_none, if_neg (by omega)]

/-- `addType` with its two colours at once. It goes by the table of constants only; the two tables
have the same keys as long as they are `Represents`. -/
theorem addType_eq (t : ColorTables) (type : TypeName) :
    t.addType type =
      if t.constants.contains type then some t
      else if t.next.toNat + 2 < 2 ^ 32 then
        some { t with
          constants := t.constants.insert type t.next
          vars := t.vars.insert type (t.next + 1)
          next := t.next + 2 }
      else none := by
  rw [addType]
  refine congrArg (ite _ _) ?_
  exact fresh_bind_fresh t fun c d t => some { t with
    constants := t.constants.insert type c
    vars := t.vars.insert type d }

/-- `addPredicate` with its two colours at once, of which the table keeps the first, for the
positive literals. -/
theorem addPredicate_eq (t : ColorTables) (q : Predicate) :
    t.addPredicate q =
      if t.literals.contains q.name then some t
      else if t.next.toNat + 2 < 2 ^ 32 then
        some { t with
          literals := t.literals.insert q.name (t.next, q.arity)
          next := t.next + 2 }
      else none := by
  rw [addPredicate]
  refine congrArg (ite _ _) ?_
  exact fresh_bind_fresh t fun c _ t => some { t with
    literals := t.literals.insert q.name (c, q.arity) }

/-- `addSchema` takes one colour. -/
theorem addSchema_eq (t : ColorTables) (schema : String) :
    t.addSchema schema =
      if t.schemas.contains schema then some t
      else if t.next.toNat + 1 < 2 ^ 32 then
        some { t with schemas := t.schemas.insert schema t.next, next := t.next + 1 }
      else none := by
  rw [addSchema, fresh_eq]
  refine congrArg (ite _ _) ?_
  by_cases hroom : t.next.toNat + 1 < 2 ^ 32
  · rw [if_pos hroom, if_pos hroom]
    rfl
  · rw [if_neg hroom, if_neg hroom]
    rfl

/-! ### What a step does -/

theorem toUInt32_add (m n : Nat) : (m + n).toUInt32 = m.toUInt32 + n.toUInt32 :=
  UInt32.ofNat_add m n

/-- The library states this with `compare`; the rows of the palette are searched by equality. -/
theorem getElem?_insert_eq_ite {α β : Type} [Ord α] [Std.TransOrd α] [Std.LawfulEqOrd α]
    [DecidableEq α] (m : ExtTreeMap α β) (k a : α) (b : β) :
    (m.insert k b)[a]? = if a = k then some b else m[a]? := by
  simp only [ExtTreeMap.getElem?_insert, Std.LawfulEqOrd.compare_eq_iff_eq, eq_comm (a := k)]

/-- The counter after some more colours. -/
theorem toNat_next_add {n : Nat} (hroom : t.next.toNat + n < 2 ^ 32) :
    (t.next + n.toUInt32).toNat = t.next.toNat + n := by
  rw [UInt32.toNat_add, Nat.toUInt32_eq, UInt32.toNat_ofNat', Nat.mod_eq_of_lt (a := n) (by omega),
    Nat.mod_eq_of_lt hroom]

section

variable {types : List TypeName} {predicates : List Predicate} {schemas : List String}

/-- As long as only types have colours, a type that is new takes the next two of them, the first for
constants and the second for variables, and becomes the last type of the palette. -/
theorem tracks_addType (h : t.Represents ⟨types, [], []⟩) (type : TypeName) :
    Tracks ⟨addNew (· == ·) types type, [], []⟩ (t.addType type) := by
  have hsize : t.next.toNat = 2 * types.length := h.next
  have hcontains : t.constants.contains type ↔ type ∈ types := by
    rw [ExtTreeMap.contains_eq_isSome_getElem?, h.constants, Palette.color?, Palette.code?,
      Option.isSome_map, Option.isSome_map, List.isSome_idxOf?]
  rw [addType_eq]
  by_cases hmem : type ∈ types
  · -- the type is known: neither the tables nor the palette change
    rw [if_pos (hcontains.2 hmem), addNew_of_mem hmem]
    exact h
  rw [if_neg (mt hcontains.1 hmem), addNew_of_not_mem hmem]
  have hnext : t.next = (2 * types.length).toUInt32 := h.next_eq
  by_cases hroom : t.next.toNat + 2 < 2 ^ 32
  · rw [if_pos hroom]
    exact {
      constants := by
        intro type'
        rw [getElem?_insert_eq_ite, h.constants, Palette.color?, Palette.color?, Palette.code?,
          Palette.code?, idxOf?_concat hmem, hnext]
        split <;> rfl
      vars := by
        intro type'
        rw [getElem?_insert_eq_ite, h.vars, Palette.color?, Palette.color?, Palette.code?,
          Palette.code?, idxOf?_concat hmem, hnext]
        split
        · exact congrArg some (toUInt32_add _ 1).symm
        · rfl
      literals := h.literals
      schemas := h.schemas
      next := by
        rw [Palette.size, List.length_append, List.length_singleton]
        exact (toNat_next_add hroom).trans (congrArg (· + 2) hsize) }
  · -- without room for two colours the palette with the new type is too large as well
    simp only [if_neg hroom, Tracks, Palette.size, List.length_append, List.length_singleton]
    omega

/-- The lookup of a predicate in the palette goes by its name, just as the table's does. -/
theorem isSome_predicate? (pal : Palette) (name : String) :
    (pal.predicate? name).isSome = pal.predicates.any (name == ·.name) := by
  have hany : (pal.predicate? name).isSome = pal.predicates.zipIdx.any fun x => x.1.name == name :=
    List.isSome_find?
  rw [hany]
  conv_rhs => rw [← List.zipIdx_map_fst 0 pal.predicates, List.any_map]
  simp only [Function.comp_def, BEq.comm (a := name)]

/-- A predicate whose name is new is found by its name, at the last place. -/
theorem predicate?_concat {q : Predicate}
    (hnew : (⟨types, predicates, []⟩ : Palette).predicate? q.name = none) (name : String) :
    (⟨types, predicates ++ [q], []⟩ : Palette).predicate? name =
      if name = q.name then some (q, predicates.length)
      else (⟨types, predicates, []⟩ : Palette).predicate? name := by
  have hfind : (⟨types, predicates ++ [q], []⟩ : Palette).predicate? name =
      ((⟨types, predicates, []⟩ : Palette).predicate? name).or
        (if q.name = name then some (q, predicates.length) else none) := by
    simp only [Palette.predicate?, List.zipIdx_append, List.find?_append, List.zipIdx_singleton,
      List.find?_singleton, Nat.zero_add, beq_iff_eq]
  rw [hfind]
  by_cases hname : name = q.name
  · rw [if_pos hname, if_pos hname.symm, hname, hnew, Option.none_or]
  · rw [if_neg hname, if_neg (Ne.symm hname), Option.or_none]

/-- As long as no schema has a colour, a predicate whose name is new takes the next two colours,
behind those of all types. -/
theorem tracks_addPredicate (h : t.Represents ⟨types, predicates, []⟩) (q : Predicate) :
    Tracks ⟨types, addNew (·.name == ·.name) predicates q, []⟩ (t.addPredicate q) := by
  have hsize : t.next.toNat = 2 * types.length + 2 * predicates.length := h.next
  have hcontains : t.literals.contains q.name = predicates.any (q.name == ·.name) := by
    rw [ExtTreeMap.contains_eq_isSome_getElem?, h.literals, Option.isSome_map, isSome_predicate?]
  -- the table of literals knows the predicates that the palette has
  rw [addPredicate_eq, hcontains, addNew]
  by_cases hmem : predicates.any (q.name == ·.name)
  · rw [if_pos hmem, if_pos hmem]
    exact h
  rw [if_neg hmem, if_neg hmem]
  have hnew : (⟨types, predicates, []⟩ : Palette).predicate? q.name = none := by
    rwa [← Option.isNone_iff_eq_none, ← Option.isSome_eq_false_iff, isSome_predicate?,
      ← Bool.not_eq_true]
  have hnext : t.next = (2 * types.length + 2 * predicates.length).toUInt32 := h.next_eq
  by_cases hroom : t.next.toNat + 2 < 2 ^ 32
  · rw [if_pos hroom]
    exact {
      constants := h.constants
      vars := h.vars
      literals := by
        intro name
        rw [getElem?_insert_eq_ite, h.literals, predicate?_concat hnew, hnext]
        split <;> rfl
      schemas := h.schemas
      next := by
        rw [Palette.size, List.length_append, List.length_singleton]
        exact (toNat_next_add hroom).trans (congrArg (· + 2) hsize) }
  · simp only [if_neg hroom, Tracks, Palette.size, List.length_append, List.length_singleton]
    omega

/-- A new schema takes the next colour, behind those of all types and predicates. Only the counter
and the table of schemas change. -/
theorem tracks_addSchema (h : t.Represents ⟨types, predicates, schemas⟩) (schema : String) :
    Tracks ⟨types, predicates, addNew (· == ·) schemas schema⟩ (t.addSchema schema) := by
  have hsize : t.next.toNat = 2 * types.length + 2 * predicates.length + schemas.length := h.next
  have hcontains : t.schemas.contains schema ↔ schema ∈ schemas := by
    rw [ExtTreeMap.contains_eq_isSome_getElem?, h.schemas, Palette.color?, Palette.code?,
      Option.isSome_map, Option.isSome_map, List.isSome_idxOf?]
  rw [addSchema_eq]
  by_cases hmem : schema ∈ schemas
  · rw [if_pos (hcontains.2 hmem), addNew_of_mem hmem]
    exact h
  rw [if_neg (mt hcontains.1 hmem), addNew_of_not_mem hmem]
  -- the schema is new, so the counter has to move on, which it may not be able to
  by_cases hroom : t.next.toNat + 1 < 2 ^ 32
  · rw [if_pos hroom]
    exact {
      constants := h.constants
      vars := h.vars
      literals := h.literals
      schemas := by
        intro schema'
        rw [getElem?_insert_eq_ite, h.schemas, Palette.color?, Palette.color?, Palette.code?,
          Palette.code?, idxOf?_concat hmem, h.next_eq]
        split <;> rfl
      next := by
        rw [Palette.size, List.length_append, List.length_singleton]
        exact (toNat_next_add hroom).trans (congrArg (· + 1) hsize) }
  · simp only [if_neg hroom, Tracks, Palette.size, List.length_append, List.length_singleton]
    omega

end

/-! ### What the loops do -/

/-- Two loops after each other. If the first one runs over, the palette of the second is too large
as well, being no smaller. -/
theorem Tracks.bind {o : Option ColorTables} {pal' : Palette} {f : ColorTables → Option ColorTables}
    (h : Tracks pal o) (hsize : pal.size ≤ pal'.size)
    (hf : ∀ t : ColorTables, t.Represents pal → Tracks pal' (f t)) : Tracks pal' (o.bind f) := by
  cases o with
  | none => exact Nat.le_trans h hsize
  | some t => exact hf t h

/-- A loop keeps track of the palette of the members that it went through, if each of its steps
does. The palette is a function of these members, so the statement serves all three loops of
`ofPlan?`. -/
theorem Tracks.foldlM {α : Type} {add : ColorTables → α → Option ColorTables}
    (palette : List α → Palette) (hsize : ∀ xs x, (palette xs).size ≤ (palette (xs ++ [x])).size)
    (hstep : ∀ (xs : List α) (x : α) (t : ColorTables), t.Represents (palette xs) →
      Tracks (palette (xs ++ [x])) (add t x))
    (h : t.Represents (palette [])) (xs : List α) : Tracks (palette xs) (xs.foldlM add t) := by
  -- the last member is added to what the loop made of those before it
  induction xs using List.reverseRecOn with
  | nil => exact h
  | append_singleton xs x ih =>
      rw [List.foldlM_append]
      refine ih.bind (hsize xs x) fun t ht => ?_
      have hadd := hstep xs x t ht
      simpa using hadd

/-- One member more does not make the list without duplicates shorter. So the palettes along a loop
only grow, as `Tracks.foldlM` asks. -/
theorem length_eraseDupsBy_le {α : Type} (same : α → α → Bool) (xs : List α) (x : α) :
    (xs.eraseDupsBy same).length ≤ ((xs ++ [x]).eraseDupsBy same).length := by
  rw [eraseDupsBy_concat, addNew]
  split
  · exact Nat.le_refl _
  · rw [List.length_append]
    exact Nat.le_add_right _ _

/-- The tables that `ofPlan?` makes of a plan hold the colours of its palette. The three loops are
taken in the order of the code: all types, then all predicates, then all schemas. -/
theorem tracks_ofPlan? (p : PartialPlan) : Tracks (Palette.ofPlan p) (ofPlan? p) := by
  have hempty : Represents empty ⟨[], [], []⟩ := {
    constants := fun _ => rfl
    vars := fun _ => rfl
    literals := fun _ => rfl
    schemas := fun _ => rfl
    next := rfl }
  -- each loop starts from what the one before it has left
  have htypes : Tracks ⟨p.domain.types.eraseDups, [], []⟩
      (p.domain.types.foldlM addType empty) := by
    refine Tracks.foldlM (fun types => ⟨types.eraseDups, [], []⟩) ?_ ?_ hempty _
    · intro types type
      have := length_eraseDupsBy_le (· == ·) types type
      simp only [Palette.size, List.eraseDups]
      omega
    · intro types type t ht
      rw [eraseDups_concat]
      exact tracks_addType ht type
  refine htypes.bind ?_ fun t ht => ?_
  · simp only [Palette.size, Palette.ofPlan, List.length_nil]
    omega
  have hpredicates : Tracks ⟨p.domain.types.eraseDups,
      p.domain.predicates.eraseDupsBy (·.name == ·.name), []⟩
      (p.domain.predicates.foldlM addPredicate t) := by
    refine Tracks.foldlM (fun predicates => ⟨_, predicates.eraseDupsBy _, []⟩) ?_ ?_ ht _
    · intro predicates q
      have := length_eraseDupsBy_le (·.name == ·.name) predicates q
      simp only [Palette.size]
      omega
    · intro predicates q t ht
      rw [eraseDupsBy_concat]
      exact tracks_addPredicate ht q
  refine hpredicates.bind ?_ fun t ht => ?_
  · simp only [Palette.size, Palette.ofPlan, List.length_nil]
    omega
  refine Tracks.foldlM (fun schemas => ⟨_, _, schemas.eraseDups⟩) ?_ ?_ ht _
  · intro schemas schema
    have := length_eraseDupsBy_le (· == ·) schemas schema
    simp only [Palette.size, List.eraseDups]
    omega
  · intro schemas schema t ht
    rw [eraseDups_concat]
    exact tracks_addSchema ht schema

/-- `ofPlan?` gives tables, as long as the palette is not too large for the counter. -/
theorem exists_represents {p : PartialPlan} (hroom : (Palette.ofPlan p).size < 2 ^ 32) :
    ∃ t, ofPlan? p = some t ∧ t.Represents (Palette.ofPlan p) := by
  have htracks := tracks_ofPlan? p
  cases ht : ofPlan? p with
  | none =>
      rw [ht] at htracks
      exact absurd htracks (Nat.not_le.2 hroom)
  | some t =>
      rw [ht] at htracks
      exact ⟨t, rfl, htracks⟩

/-- If `ofPlan?` gives tables, the colours of the palette can be counted in a word of 32 bits. -/
theorem size_lt_of_isSome {p : PartialPlan} (h : (ofPlan? p).isSome) :
    (Palette.ofPlan p).size < 2 ^ 32 := by
  obtain ⟨t, ht⟩ := Option.isSome_iff_exists.1 h
  have hrep : Tracks (Palette.ofPlan p) (some t) := ht ▸ tracks_ofPlan? p
  exact hrep.next ▸ t.next.toNat_lt

/-! ### Looking up -/

namespace Represents

/-- What the encoder looks up in the tables is what it looks up in the palette, errors included.
This and the next three lemmas let the encoder be written with the palette. -/
theorem constant_eq (h : t.Represents pal) (type : TypeName) :
    t.constant type = pal.constant type := by
  rw [constant, h.constants, Palette.color?, Palette.code?, Palette.constant, Palette.typeIndex]
  cases pal.types.idxOf? type <;> rfl

/-- As `constant_eq`, for the colours of variables. -/
theorem variableColor_eq (h : t.Represents pal) (type : TypeName) :
    t.variableColor type = pal.variableColor type := by
  rw [variableColor, h.vars, Palette.color?, Palette.code?, Palette.variableColor,
    Palette.typeIndex]
  cases pal.types.idxOf? type <;> rfl

/-- The table keeps the colour of the positive literals, and the one of the negative literals is the
next. The arity is compared on both sides, after the name has been found. -/
theorem literal_eq (h : t.Represents pal) (l : Literal) : t.literal l = pal.literal l := by
  have hfind : pal.predicates.zipIdx.find? (fun (q, _) => q.name == l.atom.predicate) =
    pal.predicate? l.atom.predicate := rfl
  rw [literal, h.literals, Palette.literal, hfind]
  cases pal.predicate? l.atom.predicate with
  | none => rfl
  | some found =>
      obtain ⟨q, j⟩ := found
      dsimp only [Option.map_some]
      cases l.positive with
      | true => rfl
      | false =>
          rw [if_neg Bool.false_ne_true, if_neg Bool.false_ne_true, toUInt32_add _ 1]
          rfl

/-- As `constant_eq`, for the colours of operators. -/
theorem schema_eq (h : t.Represents pal) (schema : String) :
    t.schema schema = pal.schema schema := by
  rw [ColorTables.schema, h.schemas, Palette.color?, Palette.code?, Palette.schema]
  cases pal.schemas.idxOf? schema <;> rfl

end Represents

end ColorTables

end PlanOrbits
