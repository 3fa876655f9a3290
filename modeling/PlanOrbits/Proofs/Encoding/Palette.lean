import Mathlib.Algebra.Group.Nat.Defs
import Mathlib.Data.List.Find
import PlanOrbits.Encoding.Palette
import PlanOrbits.Proofs.Checked

/-!
# What colours stand for

A colour stands for a `Kind` of vertices. `Palette.code?` numbers the kinds by the
places of their keys, and two kinds have one number only if they are equal
(`Palette.eq_of_code?_eq`). Colours are these numbers as words; they tell kinds apart
as long as the numbers fit (`Palette.eq_of_color?_eq`).
-/

namespace PlanOrbits

/-- What the vertices of one colour have in common. -/
inductive Kind where
  | constant (type : TypeName)
  | variable (type : TypeName)
  | literal (predicate : String) (positive : Bool)
  | operator (schema : String)
  deriving DecidableEq

/-- The kind of the vertices of a literal. -/
def Literal.kind (l : Literal) : Kind := .literal l.atom.predicate l.positive

namespace Palette

variable {pal : Palette}

/-- The first declared predicate with the given name, and its place. -/
def predicate? (pal : Palette) (name : String) : Option (Predicate × Nat) :=
  pal.predicates.zipIdx.find? fun (predicate, _) => predicate.name == name

/-- A predicate that is found stands at the place that is given for it and has the name that was
looked for. -/
theorem predicate?_eq_some {name : String} {q : Predicate} {j : Nat}
    (h : pal.predicate? name = some (q, j)) : pal.predicates[j]? = some q ∧ q.name = name := by
  refine ⟨?_, ?_⟩
  · exact List.mem_zipIdx_iff_getElem?.1 (List.mem_of_find?_eq_some h)
  · simpa using List.find?_some h

/-- A place that is found for a member has this member. -/
theorem getElem?_of_idxOf? {α : Type} [BEq α] [LawfulBEq α] {xs : List α} {x : α} {i : Nat}
    (h : xs.idxOf? x = some i) : xs[i]? = some x := by
  obtain ⟨hi, hx, -⟩ := List.idxOf?_eq_some_iff.1 h
  rw [List.getElem?_eq_getElem hi, hx]

/-! ### The numbers of kinds -/

/-- The number of the colour of a kind. -/
def code? (pal : Palette) : Kind → Option Nat
  | .constant type => (pal.types.idxOf? type).map fun i => 2 * i
  | .variable type => (pal.types.idxOf? type).map fun i => 2 * i + 1
  | .literal name positive => (pal.predicate? name).map fun (_, j) =>
      2 * pal.types.length + 2 * j + if positive then 0 else 1
  | .operator schema => (pal.schemas.idxOf? schema).map fun k =>
      2 * pal.types.length + 2 * pal.predicates.length + k

/-- Every number of a kind is below the size of the palette: the place of its key is below the
length of its row, and the rows are numbered one behind the other. -/
theorem code?_lt_size {kind : Kind} {n : Nat} (h : pal.code? kind = some n) : n < pal.size := by
  unfold size
  cases kind with
  | constant type =>
      obtain ⟨i, hi, rfl⟩ := Option.map_eq_some_iff.1 h
      obtain ⟨hi, -⟩ := List.getElem?_eq_some_iff.1 (getElem?_of_idxOf? hi)
      omega
  | «variable» type =>
      obtain ⟨i, hi, rfl⟩ := Option.map_eq_some_iff.1 h
      obtain ⟨hi, -⟩ := List.getElem?_eq_some_iff.1 (getElem?_of_idxOf? hi)
      omega
  | literal name positive =>
      obtain ⟨⟨q, j⟩, hj, rfl⟩ := Option.map_eq_some_iff.1 h
      obtain ⟨hj, -⟩ := List.getElem?_eq_some_iff.1 (predicate?_eq_some hj).1
      dsimp only
      split <;> omega
  | operator schema =>
      obtain ⟨k, hk, rfl⟩ := Option.map_eq_some_iff.1 h
      obtain ⟨hk, -⟩ := List.getElem?_eq_some_iff.1 (getElem?_of_idxOf? hk)
      omega

/-- What is at the place that a number of a colour names. -/
def kindAt? (pal : Palette) (n : Nat) : Option Kind :=
  if n < 2 * pal.types.length then
    pal.types[n / 2]?.map fun type => if n % 2 = 0 then .constant type else .variable type
  else if n < 2 * pal.types.length + 2 * pal.predicates.length then
    pal.predicates[(n - 2 * pal.types.length) / 2]?.map fun q =>
      .literal q.name ((n - 2 * pal.types.length) % 2 = 0)
  else pal.schemas[n - 2 * pal.types.length - 2 * pal.predicates.length]?.map .operator

/-- The kind is recovered from its number. `kindAt?` finds the row by the size of the number, the
key by halving what is left and the rest by its parity. -/
theorem kindAt?_of_code? {kind : Kind} {n : Nat} (h : pal.code? kind = some n) :
    pal.kindAt? n = some kind := by
  cases kind with
  | constant type =>
      obtain ⟨i, hi, rfl⟩ := Option.map_eq_some_iff.1 h
      have hget := getElem?_of_idxOf? hi
      obtain ⟨hi, -⟩ := List.getElem?_eq_some_iff.1 hget
      rw [kindAt?, if_pos (by omega), show 2 * i / 2 = i by omega, hget]
      simp
  | «variable» type =>
      obtain ⟨i, hi, rfl⟩ := Option.map_eq_some_iff.1 h
      have hget := getElem?_of_idxOf? hi
      obtain ⟨hi, -⟩ := List.getElem?_eq_some_iff.1 hget
      rw [kindAt?, if_pos (by omega), show (2 * i + 1) / 2 = i by omega, hget]
      simp
  | literal name positive =>
      obtain ⟨⟨q, j⟩, hj, rfl⟩ := Option.map_eq_some_iff.1 h
      obtain ⟨hget, rfl⟩ := predicate?_eq_some hj
      obtain ⟨hj, -⟩ := List.getElem?_eq_some_iff.1 hget
      dsimp only
      cases positive with
      | true =>
          rw [kindAt?, if_neg (by simp), if_pos (by simp; omega)]
          simp [hget]
      | false =>
          -- the odd number of the pair: its half is the place, and the rest tells the sign
          rw [kindAt?, if_neg (by simp; omega), if_pos (by simp; omega)]
          simp only [Bool.false_eq_true, if_false]
          rw [show (2 * pal.types.length + 2 * j + 1 - 2 * pal.types.length) / 2 = j by omega,
            show (2 * pal.types.length + 2 * j + 1 - 2 * pal.types.length) % 2 = 1 by omega, hget]
          simp
  | operator schema =>
      obtain ⟨k, hk, rfl⟩ := Option.map_eq_some_iff.1 h
      rw [kindAt?, if_neg (by omega), if_neg (by omega)]
      rw [show 2 * pal.types.length + 2 * pal.predicates.length + k - 2 * pal.types.length -
        2 * pal.predicates.length = k by omega, getElem?_of_idxOf? hk]
      rfl

/-- Different kinds have different numbers, as `kindAt?` recovers both from the same number. -/
theorem eq_of_code?_eq {kind kind' : Kind} {n : Nat} (h : pal.code? kind = some n)
    (h' : pal.code? kind' = some n) : kind = kind' := by
  have hkind := kindAt?_of_code? h
  rw [kindAt?_of_code? h', Option.some.injEq] at hkind
  exact hkind.symm

/-! ### The colours of kinds -/

/-- The colour of a kind. -/
def color? (pal : Palette) (kind : Kind) : Option Color := (pal.code? kind).map Nat.toUInt32

/-- If all colours fit into words, different kinds have different colours. The bound is on the size
of the palette, since the largest number is one below it. -/
theorem eq_of_color?_eq (hsize : pal.size ≤ 2 ^ 32) {kind kind' : Kind} {c : Color}
    (h : pal.color? kind = some c) (h' : pal.color? kind' = some c) : kind = kind' := by
  obtain ⟨n, hn, rfl⟩ := Option.map_eq_some_iff.1 h
  obtain ⟨n', hn', heq⟩ := Option.map_eq_some_iff.1 h'
  have hlt := code?_lt_size hn
  have hlt' := code?_lt_size hn'
  have hnat := congrArg UInt32.toNat heq
  rw [Nat.toUInt32_eq, Nat.toUInt32_eq, UInt32.toNat_ofNat', UInt32.toNat_ofNat',
    Nat.mod_eq_of_lt (by omega), Nat.mod_eq_of_lt (by omega)] at hnat
  exact eq_of_code?_eq hn (hnat ▸ hn')

/-- The place of a type, with the error for an undeclared type taken out. -/
theorem typeIndex_eq_ok_iff {type : TypeName} {i : Nat} :
    pal.typeIndex type = .ok i ↔ pal.types.idxOf? type = some i := by
  rw [typeIndex]
  cases pal.types.idxOf? type <;> simp

/-- The lookup of the encoder finds the colour of the kind, for constants. The next lemmas state the
same for the other kinds, so that what follows speaks of kinds only. -/
theorem constant_eq_ok_iff {type : TypeName} {c : Color} :
    pal.constant type = .ok c ↔ pal.color? (.constant type) = some c := by
  simp [constant, map_eq_ok_iff, typeIndex_eq_ok_iff, color?, code?]

/-- As `constant_eq_ok_iff`, for variables. -/
theorem variableColor_eq_ok_iff {type : TypeName} {c : Color} :
    pal.variableColor type = .ok c ↔ pal.color? (.variable type) = some c := by
  simp [variableColor, map_eq_ok_iff, typeIndex_eq_ok_iff, color?, code?]

/-- As `constant_eq_ok_iff`, for operators. -/
theorem schema_eq_ok_iff {schema : String} {c : Color} :
    pal.schema schema = .ok c ↔ pal.color? (.operator schema) = some c := by
  rw [Palette.schema, color?, code?]
  cases pal.schemas.idxOf? schema <;> simp

/-- A literal has the colour of its kind, if its predicate is declared with as many parameters as it
has arguments. For literals the lookup checks more than that the kind has a number. -/
theorem literal_eq_ok_iff {l : Literal} {c : Color} :
    pal.literal l = .ok c ↔ pal.color? l.kind = some c ∧
      ∃ q j, pal.predicate? l.atom.predicate = some (q, j) ∧ q.arity = l.arity := by
  have hfind : pal.predicates.zipIdx.find? (fun (q, _) => q.name == l.atom.predicate) =
    pal.predicate? l.atom.predicate := rfl
  rw [Palette.literal, hfind, color?, Literal.kind, code?]
  cases hq : pal.predicate? l.atom.predicate with
  | none => simp
  | some found =>
      obtain ⟨q, j⟩ := found
      by_cases harity : q.arity = l.arity
      · cases l.positive <;> simp [harity]
      · simp [harity]

/-! ### The palette of a plan -/

/-- A type is found exactly if the palette has it. -/
theorem exists_typeIndex_iff {type : TypeName} :
    (∃ i, pal.typeIndex type = .ok i) ↔ type ∈ pal.types := by
  simp only [typeIndex_eq_ok_iff]
  cases hidx : pal.types.idxOf? type with
  | none => simpa using List.idxOf?_eq_none_iff.1 hidx
  | some i => simpa using List.mem_of_getElem? (getElem?_of_idxOf? hidx)

/-- The constants that have colours are those of the types that the plan declares. -/
theorem exists_constant_iff {p : PartialPlan} {type : TypeName} :
    (∃ c, (ofPlan p).constant type = .ok c) ↔ type ∈ p.domain.types := by
  have hmem : type ∈ p.domain.types ↔ type ∈ (ofPlan p).types := List.mem_eraseDups.symm
  rw [hmem, ← exists_typeIndex_iff]
  simp only [constant, map_eq_ok_iff]
  exact ⟨fun ⟨_, i, hi, _⟩ => ⟨i, hi⟩, fun ⟨i, hi⟩ => ⟨_, i, hi, rfl⟩⟩

/-- The variables that have colours are those of the types that the plan declares. -/
theorem exists_variableColor_iff {p : PartialPlan} {type : TypeName} :
    (∃ c, (ofPlan p).variableColor type = .ok c) ↔ type ∈ p.domain.types := by
  rw [← exists_constant_iff]
  simp only [variableColor, constant, map_eq_ok_iff]
  exact ⟨fun ⟨_, i, hi, _⟩ => ⟨_, i, hi, rfl⟩, fun ⟨_, i, hi, _⟩ => ⟨_, i, hi, rfl⟩⟩

/-- Erasing duplicates only asks which members are alike, so a function that keeps likeness can be
applied before or after. The recursion is on the length, since `eraseDupsBy` goes on with what it
has filtered. -/
theorem eraseDupsBy_map {α β : Type} {r : α → α → Bool} {s : β → β → Bool} {f : α → β} :
    ∀ xs : List α, (∀ x ∈ xs, ∀ y ∈ xs, s (f x) (f y) = r x y) →
      (xs.map f).eraseDupsBy s = (xs.eraseDupsBy r).map f
  | [], _ => rfl
  | x :: xs, h => by
      have hfilter : (xs.map f).filter (fun y => s y (f x) = false) =
          (xs.filter fun y => r y x = false).map f := by
        rw [List.filter_map]
        refine congrArg (List.map f) (List.filter_congr fun y hy => ?_)
        rw [Function.comp_apply, h y (List.mem_cons_of_mem x hy) x List.mem_cons_self]
      rw [List.map_cons, List.eraseDupsBy_cons, List.eraseDupsBy_cons, hfilter, List.map_cons]
      refine congrArg (f x :: ·) (eraseDupsBy_map _ fun y hy z hz => ?_)
      exact h y (List.mem_cons_of_mem x (List.mem_of_mem_filter hy)) z
        (List.mem_cons_of_mem x (List.mem_of_mem_filter hz))
termination_by xs => xs.length
decreasing_by exact Nat.lt_succ_of_le (List.length_filter_le _ _)

/-- Of the members with one key the first one stays, so a search by key finds the same before and
after. -/
theorem find?_eraseDupsBy {α β : Type} [BEq β] [LawfulBEq β] (key : α → β) (k : β) :
    ∀ xs : List α, (xs.eraseDupsBy fun x y => key x == key y).find? (key · == k) =
      xs.find? (key · == k)
  | [] => by simp
  | x :: xs => by
      rw [List.eraseDupsBy_cons, List.find?_cons, List.find?_cons]
      by_cases hx : key x = k
      · simp [hx]
      · -- what is dropped has the key of the first member, and so not the one looked for
        have hne : ∀ y, (key y == k) = true → (key y == key x) = false := by
          intro y hy
          rw [eq_of_beq hy]
          simpa using Ne.symm hx
        rw [find?_eraseDupsBy key k, List.find?_filter]
        simp only [beq_eq_false_iff_ne.2 hx]
        refine List.find?_congr fun y _ => ?_
        cases hy : key y == k with
        | false => simp
        | true => simp [hne y hy]
termination_by xs => xs.length
decreasing_by exact Nat.lt_succ_of_le (List.length_filter_le _ _)

/-- Of the predicates with one name the first declaration counts: the palette finds what a search of
the declarations themselves finds. -/
theorem map_fst_predicate?_ofPlan (p : PartialPlan) (name : String) :
    ((ofPlan p).predicate? name).map Prod.fst = p.domain.predicates.find? (·.name == name) := by
  rw [← find?_eraseDupsBy Predicate.name name, predicate?, ofPlan]
  conv_rhs => rw [← List.zipIdx_map_fst 0 (p.domain.predicates.eraseDupsBy (·.name == ·.name)),
    List.find?_map]
  rfl

/-- A literal has a colour if and only if its predicate is declared and the first declaration of it
has as many parameters as the literal has arguments. A later declaration with another number is not
looked at. -/
theorem exists_literal_iff {p : PartialPlan} {l : Literal} :
    (∃ c, (ofPlan p).literal l = .ok c) ↔
      ∃ q, p.domain.predicates.find? (·.name == l.atom.predicate) = some q ∧ q.arity = l.arity := by
  simp only [← map_fst_predicate?_ofPlan, literal_eq_ok_iff, color?, Literal.kind, code?,
    Option.map_eq_some_iff]
  constructor
  · rintro ⟨-, -, q, j, hq, harity⟩
    exact ⟨q, ⟨_, hq, rfl⟩, harity⟩
  · rintro ⟨q, ⟨⟨q, j⟩, hq, rfl⟩, harity⟩
    exact ⟨_, ⟨_, ⟨_, hq, rfl⟩, rfl⟩, q, j, hq, harity⟩

/-- The operators of the plan have colours, the pseudo steps included, as the palette lists the
schemas of all of them. -/
theorem exists_schema (p : PartialPlan) {op : Operator} (hop : op ∈ p.operators) :
    ∃ c, (ofPlan p).schema op.schema = .ok c := by
  have hmem : op.schema ∈ (ofPlan p).schemas := List.mem_eraseDups.2 (List.mem_map_of_mem hop)
  rw [Palette.schema]
  cases hidx : (ofPlan p).schemas.idxOf? op.schema with
  | none => exact absurd hmem (List.idxOf?_eq_none_iff.1 hidx)
  | some k => exact ⟨_, rfl⟩

end Palette

end PlanOrbits
