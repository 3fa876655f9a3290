import Mathlib.Data.List.Find
import Mathlib.Data.Set.Function
import Mathlib.Logic.Equiv.Basic
import PlanOrbits.Graph.Codec
import PlanOrbits.Proofs.Encoding.Layout

/-!
# Plans with other names

A renaming puts other constants, variables and predicates in the place of those of a plan.
If it keeps types and does not merge what the plan keeps apart (`Renaming.Fits`), the encoder
does the same with the renamed plan as with the plan: it gives the renamed encoding, or it
reports the renamed error (`encode_plan`). The tables are ordered by names, so the renamed
plan is looked up in other orders; but numbers are given in the order of the declarations.

There is one statement for each function of the encoder, by `mapBoth`: what it makes of
renamed arguments is what it makes of the arguments, renamed.
-/

namespace PlanOrbits

open Std (ExtTreeMap TransOrd LawfulEqOrd)

/-! ### Lists whose members are renamed -/

section

variable {α β : Type}

/-- What is left when duplicates are erased comes from the list, whatever counts as a duplicate. -/
theorem mem_of_mem_eraseDupsBy {r : α → α → Bool} {a : α} : ∀ xs : List α,
    a ∈ xs.eraseDupsBy r → a ∈ xs
  | [], h => h
  | x :: xs, h => by
      rw [List.eraseDupsBy_cons, List.mem_cons] at h
      rcases h with rfl | h
      · exact List.mem_cons_self
      · exact List.mem_cons_of_mem x (List.mem_of_mem_filter (mem_of_mem_eraseDupsBy _ h))
termination_by xs => xs.length
decreasing_by exact Nat.lt_succ_of_le (List.length_filter_le _ _)

variable [DecidableEq α] [DecidableEq β]

/-- A function that does not merge two members of a set keeps the answer of a comparison of them. -/
theorem beq_eq_of_injOn {f : α → β} {s : Set α} (hinj : Set.InjOn f s) {x y : α} (hx : x ∈ s)
    (hy : y ∈ s) : (f x == f y) = (x == y) := by
  rw [Bool.eq_iff_iff, beq_iff_eq, beq_iff_eq]
  exact hinj.eq_iff hx hy

/-- A function that merges no two members of a list can be applied before or after erasing
duplicates. -/
theorem eraseDups_map_of_injOn {f : α → β} {xs : List α} (hinj : Set.InjOn f {x | x ∈ xs}) :
    (xs.map f).eraseDups = xs.eraseDups.map f :=
  Palette.eraseDupsBy_map xs fun _ hx _ hy => beq_eq_of_injOn hinj hx hy

/-- The place of a member stays the same under such a function. -/
theorem idxOf?_map_of_injOn {f : α → β} {s : Set α} (hinj : Set.InjOn f s) {xs : List α} {x : α}
    (hxs : ∀ y ∈ xs, y ∈ s) (hx : x ∈ s) : (xs.map f).idxOf? (f x) = xs.idxOf? x := by
  induction xs with
  | nil => rfl
  | cons y xs ih =>
      obtain ⟨hy, hxs⟩ := List.forall_mem_cons.1 hxs
      rw [List.map_cons, List.idxOf?_cons, List.idxOf?_cons, beq_eq_of_injOn hinj hy hx, ih hxs]

end

/-! ### Renamings -/

/-- New names. -/
structure Renaming where
  constant : Constant → Constant
  var : Variable → Variable
  predicate : String → String

namespace PartialPlan

variable (p : PartialPlan)

/-- The constants that are declared, and those that variables are bound to. -/
def usedConstants : List Constant := p.constants ++ p.substitution.bindings.map (·.constant)

/-- The literals of the operators. -/
def usedLiterals : List Literal :=
  p.operators.flatMap fun op => op.preconditions ++ op.postconditions

/-- The variables of operators and of literals, and those that are bound. -/
def usedVariables : List Variable :=
  p.operators.flatMap (·.vars) ++ p.usedLiterals.flatMap (·.atom.args) ++
    p.substitution.bindings.map (·.var)

/-- The names of predicates that are declared, and those in literals. -/
def usedPredicates : List String :=
  p.domain.predicates.map (·.name) ++ p.usedLiterals.map (·.atom.predicate)

end PartialPlan

namespace Renaming

variable (ρ : Renaming)

def literal (l : Literal) : Literal :=
  ⟨⟨ρ.predicate l.atom.predicate, l.atom.args.map ρ.var⟩, l.positive⟩

/-- The same operator, with the same name. -/
def operator (op : Operator) : Operator where
  name := op.name
  vars := op.vars.map ρ.var
  preconditions := op.preconditions.map ρ.literal
  postconditions := op.postconditions.map ρ.literal

def declaration (q : Predicate) : Predicate := { q with name := ρ.predicate q.name }

def substitution (s : Substitution) : Substitution :=
  .ofBindings (s.bindings.map fun b => ⟨ρ.var b.var, ρ.constant b.constant⟩)

/-- The plan with the new names everywhere. -/
def plan (p : PartialPlan) : PartialPlan where
  domain := { p.domain with
    predicates := p.domain.predicates.map ρ.declaration
    constants := p.domain.constants.map ρ.constant }
  problem := { p.problem with objects := p.problem.objects.map ρ.constant }
  init := ρ.operator p.init
  goal := ρ.operator p.goal
  steps := p.steps.map ρ.operator
  substitution := ρ.substitution p.substitution

/-- The renaming keeps types and merges no two names of the plan. -/
structure Fits (p : PartialPlan) : Prop where
  constant_type : ∀ c ∈ p.usedConstants, (ρ.constant c).type = c.type
  constant_injOn : Set.InjOn ρ.constant {c | c ∈ p.usedConstants}
  var_type : ∀ v ∈ p.usedVariables, (ρ.var v).type = v.type
  var_injOn : Set.InjOn ρ.var {v | v ∈ p.usedVariables}
  predicate_injOn : Set.InjOn ρ.predicate {name | name ∈ p.usedPredicates}

variable {ρ}

/-- A renaming that keeps types and merges no two names at all fits every plan. `Fits` itself asks
this only of the names that the plan uses. -/
theorem fits_of_injective (hconstant : Function.Injective ρ.constant)
    (hconstantType : ∀ c, (ρ.constant c).type = c.type) (hvar : Function.Injective ρ.var)
    (hvarType : ∀ v, (ρ.var v).type = v.type) (hpredicate : Function.Injective ρ.predicate)
    (p : PartialPlan) : ρ.Fits p :=
  ⟨fun c _ => hconstantType c, hconstant.injOn, fun v _ => hvarType v, hvar.injOn,
    hpredicate.injOn⟩

variable (ρ)

/-! ### What the encoder makes, with other names -/

def planError : PlanError → PlanError
  | .undeclaredVariable operator l v => .undeclaredVariable operator (ρ.literal l) (ρ.var v)
  | .unknownPredicate l => .unknownPredicate (ρ.literal l)
  | .arityMismatch l expected => .arityMismatch (ρ.literal l) expected
  | .unboundArgument l v => .unboundArgument (ρ.literal l) (ρ.var v)
  | .unknownConstant l c => .unknownConstant (ρ.literal l) (ρ.constant c)
  | e => e

def error : Error → Error
  | .plan e => .plan (ρ.planError e)
  | e => e

def palette (pal : Palette) : Palette :=
  { pal with predicates := pal.predicates.map ρ.declaration }

def block (b : LiteralBlock) : LiteralBlock := { b with literal := ρ.literal b.literal }

def occurrence {role : Role} (o : Occurrence role) : Occurrence role :=
  ⟨o.operator, ρ.literal o.literal⟩

/-- The same graph, with other names for what its vertices stand for. -/
def encoding (e : PlanEncoding) : PlanEncoding where
  graph := e.graph
  palette := ρ.palette e.palette
  operators := e.operators
  producers := e.producers.map fun _ => ρ.occurrence
  consumers := e.consumers.map fun _ => ρ.occurrence
  disjoint := by
    simp only [ExtTreeMap.mem_map]
    exact e.disjoint

variable {ρ}

/-- An error of the plan that is renamed inside `liftM` is renamed outside of it. -/
theorem liftM_eq_mapBoth {α β : Type} {f : α → β} {x : Except PlanError α}
    {x' : Except PlanError β} (h : x' = mapBoth ρ.planError f x) :
    (liftM x' : Except Error β) = mapBoth ρ.error f (liftM x) := by
  subst h
  cases x <;> rfl

/-- An error of the graph is the same for both plans, as it has numbers in it and no names. -/
theorem liftM_graph_eq_mapBoth {α : Type} (x : Except GraphError α) :
    (liftM x : Except Error α) = mapBoth ρ.error id (liftM x) := by
  cases x <;> rfl

variable (ρ)

/-! ### Operators -/

/-- The pseudo steps are renamed as the other steps are, and their names stay. -/
theorem operators_plan (p : PartialPlan) :
    (ρ.plan p).operators = p.operators.map ρ.operator := by
  simp [PartialPlan.operators, plan]

/-- Steps are told from pseudo steps by their names, which a renaming leaves alone. -/
theorem realSteps_plan (p : PartialPlan) :
    (ρ.plan p).realSteps = p.realSteps.map ρ.operator := by
  rw [PartialPlan.realSteps, operators_plan, List.filter_map]
  rfl

/-- A step keeps the number of its variables. -/
theorem variableCount_plan (p : PartialPlan) :
    (ρ.plan p).variableCount = p.variableCount := by
  rw [PartialPlan.variableCount, realSteps_plan, PartialPlan.variableCount, List.length_flatMap,
    List.length_flatMap, List.map_map]
  simp [Function.comp_def, operator]

/-- Operators are entered under their names, which stay, so the table is the same. -/
theorem operatorVertices_map (start : Nat) (ops : List Operator) :
    PartialPlan.operatorVertices start (ops.map ρ.operator) =
      PartialPlan.operatorVertices start ops := by
  rw [PartialPlan.operatorVertices, List.zipIdx_map, List.foldl_map]
  rfl

/-- The rows of variables have the same numbers, as the steps have as many variables as before. -/
theorem variableVertices_map (start : Nat) (ops : List Operator) :
    PartialPlan.variableVertices start (ops.map ρ.operator) =
      (PartialPlan.variableVertices start ops).map (Prod.map ρ.operator id) := by
  induction ops generalizing start with
  | nil => rfl
  | cons op ops ih =>
      have hlength : (ρ.operator op).vars.length = op.vars.length := List.length_map _
      rw [List.map_cons, PartialPlan.variableVertices, ih, hlength]
      rfl

/-! ### Colours -/

variable (pal : Palette)

/-- A type keeps its place in the renamed palette, for a renaming leaves types alone. -/
theorem constant_palette (type : TypeName) :
    (ρ.palette pal).constant type = mapBoth ρ.planError id (pal.constant type) := by
  rw [Palette.constant, Palette.constant, Palette.typeIndex, Palette.typeIndex, palette]
  cases pal.types.idxOf? type <;> rfl

/-- As `constant_palette`, for variables. -/
theorem variableColor_palette (type : TypeName) :
    (ρ.palette pal).variableColor type = mapBoth ρ.planError id (pal.variableColor type) := by
  rw [Palette.variableColor, Palette.variableColor, Palette.typeIndex, Palette.typeIndex, palette]
  cases pal.types.idxOf? type <;> rfl

/-- As `constant_palette`, for schemas, which are not renamed either. -/
theorem schema_palette (name : String) :
    (ρ.palette pal).schema name = mapBoth ρ.planError id (pal.schema name) := by
  rw [Palette.schema, Palette.schema, palette, List.length_map]
  cases pal.schemas.idxOf? name <;> rfl

variable {ρ pal} {p : PartialPlan} {l : Literal}

/-- A predicate is found where it was, unless another one of the palette has got its name; this is
what the hypothesis excludes. -/
theorem predicate?_palette {name : String}
    (hinj : ∀ q ∈ pal.predicates, ρ.predicate q.name = ρ.predicate name → q.name = name) :
    (ρ.palette pal).predicate? (ρ.predicate name) =
      (pal.predicate? name).map (Prod.map ρ.declaration id) := by
  rw [Palette.predicate?, Palette.predicate?, palette, List.zipIdx_map, List.find?_map]
  refine congrArg (Option.map _) (List.find?_congr fun q hq => ?_)
  have hmem := List.fst_mem_of_mem_zipIdx hq
  rw [Bool.eq_iff_iff]
  simp only [Function.comp_apply, Prod.map, declaration, beq_iff_eq]
  exact ⟨hinj q.1 hmem, congrArg ρ.predicate⟩

/-- A literal has the colour of the renamed literal, and if it has none, the renamed error. The
number of arguments, which the lookup compares with the declaration, is the same. -/
theorem literal_palette (hinj : ∀ q ∈ pal.predicates,
      ρ.predicate q.name = ρ.predicate l.atom.predicate → q.name = l.atom.predicate) :
    (ρ.palette pal).literal (ρ.literal l) = mapBoth ρ.planError id (pal.literal l) := by
  have hfind := predicate?_palette hinj
  have harity : (ρ.literal l).arity = l.arity := List.length_map _
  rw [Palette.literal, Palette.literal, harity]
  cases hq : pal.predicate? l.atom.predicate with
  | none =>
      rw [hq] at hfind
      rw [Palette.predicate?] at hfind hq
      simp only [literal]
      rw [hfind, hq]
      rfl
  | some found =>
      obtain ⟨q, j⟩ := found
      have hparams : (ρ.declaration q).arity = q.arity := rfl
      rw [hq] at hfind
      rw [Palette.predicate?] at hfind hq
      simp only [literal]
      rw [hfind, hq]
      simp only [Option.map_some, Prod.map, hparams]
      -- the two numbers that are compared, and that the error reports, are those of the plan
      by_cases harity' : q.arity = l.arity
      · rw [if_neg (not_not.2 harity'), if_neg (not_not.2 harity')]
        rfl
      · rw [if_pos harity', if_pos harity']
        rfl

/-! ### Names of the plan -/

/-- A substitution that is renamed binds the renamed variables to the renamed constants. The renamed
bindings are built up into a new table, ordered by the new names; since no two variables are merged,
no binding overwrites another. -/
theorem getElem?_substitution {s : Substitution} {used : Set Variable}
    (hinj : Set.InjOn ρ.var used) (hused : ∀ b ∈ s.bindings, b.var ∈ used) {v : Variable}
    (hv : v ∈ used) : (ρ.substitution s)[ρ.var v]? = s[v]?.map ρ.constant := by
  have hnodup : ((s.bindings.map fun b => (⟨ρ.var b.var, ρ.constant b.constant⟩ : Binding)).map
      (·.var)).Nodup := by
    have hvars := Substitution.nodup_map_var_bindings s
    have hcomp := hvars.map_on (f := ρ.var) fun w hw w' hw' heq => by
      obtain ⟨b, hb, rfl⟩ := List.mem_map.1 hw
      obtain ⟨b', hb', rfl⟩ := List.mem_map.1 hw'
      exact hinj (hused b hb) (hused b' hb') heq
    rw [List.map_map] at hcomp ⊢
    exact hcomp
  -- a table that is built from different keys holds exactly the bindings it was built from
  refine Option.ext fun c => ?_
  rw [substitution, Substitution.ofBindings, getElem?_foldl_insert_of_nodup _ _ hnodup,
    Option.map_eq_some_iff]
  constructor
  · rintro ⟨b', hb', hvar, hconstant⟩
    obtain ⟨b, hb, rfl⟩ := List.mem_map.1 hb'
    have heq : b.var = v := hinj (hused b hb) hv hvar
    exact ⟨b.constant, heq ▸ Substitution.mem_bindings.1 hb, hconstant⟩
  · rintro ⟨c₀, hc₀, rfl⟩
    exact ⟨_, List.mem_map_of_mem ((Substitution.mem_bindings (b := ⟨v, c₀⟩)).2 hc₀), rfl, rfl⟩

namespace Fits

variable (h : ρ.Fits p)

include h

/-- The constants keep their numbers: the declarations stay in their order, and no two used
constants are merged. -/
theorem constantVertices_plan :
    (ρ.plan p).constantVertices = p.constantVertices.map ρ.constant := by
  have hconstants : (ρ.plan p).constants = p.constants.map ρ.constant := by
    simp [PartialPlan.constants, plan]
  rw [PartialPlan.constantVertices, hconstants]
  exact eraseDups_map_of_injOn (h.constant_injOn.mono fun c hc => List.mem_append_left _ hc)

/-- `getElem?_substitution` for the plan, whose bindings are among the names it uses. -/
theorem getElem?_plan {v : Variable} (hv : v ∈ p.usedVariables) :
    (ρ.plan p).substitution[ρ.var v]? = p.substitution[v]?.map ρ.constant :=
  getElem?_substitution h.var_injOn
    (fun _ hb => List.mem_append_right _ (List.mem_map_of_mem hb)) hv

/-- The palette of the renamed plan is the renamed palette. Predicates of one name are merged in
both, and `Fits` excludes that further ones are. -/
theorem ofPlan_plan : Palette.ofPlan (ρ.plan p) = ρ.palette (Palette.ofPlan p) := by
  have hpredicates : (p.domain.predicates.map ρ.declaration).eraseDupsBy (·.name == ·.name) =
      (p.domain.predicates.eraseDupsBy (·.name == ·.name)).map ρ.declaration :=
    Palette.eraseDupsBy_map _ fun q hq q' hq' => beq_eq_of_injOn h.predicate_injOn
      (List.mem_append_left _ (List.mem_map_of_mem hq))
      (List.mem_append_left _ (List.mem_map_of_mem hq'))
  have hschemas : (ρ.plan p).operators.map (·.schema) = p.operators.map (·.schema) := by
    rw [operators_plan, List.map_map]
    rfl
  rw [Palette.ofPlan, hschemas, palette, Palette.ofPlan]
  exact congrArg (Palette.mk _ · _) hpredicates

/-! ### Literals -/

/-- The colour of a literal of the plan is kept. Here `Fits` excludes that a predicate takes the
name of another. -/
theorem literal_palette (hl : l ∈ p.usedLiterals) :
    (ρ.palette (Palette.ofPlan p)).literal (ρ.literal l) =
      mapBoth ρ.planError id ((Palette.ofPlan p).literal l) := by
  refine Renaming.literal_palette fun q hq heq => h.predicate_injOn ?_ ?_ heq
  · exact List.mem_append_left _ (List.mem_map_of_mem (mem_of_mem_eraseDupsBy _ hq))
  · exact List.mem_append_right _ (List.mem_map_of_mem hl)

/-- An argument has the same target under its new name, or the renamed error. The place of the
constant among the declared ones does not change. -/
theorem target_plan {v : Variable} (hv : v ∈ p.usedVariables) :
    (ρ.plan p).target (ρ.literal l) (ρ.var v) = mapBoth ρ.planError id (p.target l v) := by
  rw [PartialPlan.target, PartialPlan.target, h.getElem?_plan hv]
  cases hc : p.substitution[v]? with
  | none => rfl
  | some c =>
      -- the constant is bound, so it is one of those that the renaming must not merge
      have hbound : (⟨v, c⟩ : Binding) ∈ p.substitution.bindings :=
        List.mem_map_of_mem (ExtTreeMap.mem_toList_iff_getElem?_eq_some.2 hc)
      have hplace : (ρ.plan p).constantVertices.idxOf? (ρ.constant c) =
          p.constantVertices.idxOf? c := by
        rw [h.constantVertices_plan]
        refine idxOf?_map_of_injOn h.constant_injOn (fun d hd => ?_) ?_
        · exact List.mem_append_left _ (List.mem_eraseDups.1 hd)
        · exact List.mem_append_right _ (List.mem_map_of_mem hbound)
      rw [Option.map_some]
      simp only
      rw [hplace]
      cases p.constantVertices.idxOf? c <;> rfl

/-- The block of a renamed literal is the renamed block. Only its literal changes, since colours and
targets are kept. -/
theorem literalBlock_plan (head : Nat) (hl : l ∈ p.usedLiterals) :
    (ρ.plan p).literalBlock (ρ.palette (Palette.ofPlan p)) head (ρ.literal l) =
      mapBoth ρ.planError ρ.block (p.literalBlock (Palette.ofPlan p) head l) := by
  have hargs : ∀ v ∈ l.atom.args, v ∈ p.usedVariables := fun v hv =>
    List.mem_append_left _ (List.mem_append_right _ (List.mem_flatMap_of_mem hl hv))
  refine bind_eq_mapBoth (h.literal_palette hl) fun color => ?_
  refine bind_eq_mapBoth (mapM_map_eq_mapBoth_id fun v hv => h.target_plan (hargs v hv)) ?_
  exact fun targets => rfl

/-- The blocks of renamed literals are the renamed blocks, at the same heads, since literals keep
their arities. -/
theorem literalBlocks_plan (head : Nat) {ls : List Literal} (hls : ∀ l ∈ ls, l ∈ p.usedLiterals) :
    (ρ.plan p).literalBlocks (ρ.palette (Palette.ofPlan p)) head (ls.map ρ.literal) =
      mapBoth ρ.planError (List.map ρ.block) (p.literalBlocks (Palette.ofPlan p) head ls) := by
  induction ls generalizing head with
  | nil => rfl
  | cons l ls ih =>
      obtain ⟨hl, hls⟩ := List.forall_mem_cons.1 hls
      have harity : (ρ.literal l).arity = l.arity := List.length_map _
      rw [List.map_cons, PartialPlan.literalBlocks, PartialPlan.literalBlocks, harity]
      refine bind_eq_mapBoth (h.literalBlock_plan head hl) fun block => ?_
      exact bind_eq_mapBoth (ih _ hls) fun blocks => rfl

/-- The same with the palette of the renamed plan, and from a vertex that is counted in it. This is
the form in which the encoder calls it. -/
theorem literalBlocks_ofPlan {head head' : Nat} (hhead : head' = head) {ls : List Literal}
    (hls : ∀ l ∈ ls, l ∈ p.usedLiterals) :
    (ρ.plan p).literalBlocks (Palette.ofPlan (ρ.plan p)) head' (ls.map ρ.literal) =
      mapBoth ρ.planError (List.map ρ.block) (p.literalBlocks (Palette.ofPlan p) head ls) := by
  rw [hhead, h.ofPlan_plan, h.literalBlocks_plan head hls]

end Fits

/-- The table of heads has the same keys, with the renamed literals as its occurrences. By induction
from the end of the list, as the fold inserts. -/
theorem heads_map {role : Role} (bracket : String) (blocks : List LiteralBlock) :
    (PartialPlan.heads bracket (blocks.map ρ.block) : ExtTreeMap Nat (Occurrence role)) =
      (PartialPlan.heads bracket blocks).map fun _ => ρ.occurrence := by
  have hinsert : ∀ (m : ExtTreeMap Nat (Occurrence role)) (v : Nat) (o : Occurrence role),
      (m.map fun _ => ρ.occurrence).insert v (ρ.occurrence o) =
        (m.insert v o).map fun _ => ρ.occurrence := by
    intro m v o
    refine ExtTreeMap.ext_getElem? fun w => ?_
    simp only [ExtTreeMap.getElem?_insert, ExtTreeMap.getElem?_map]
    split
    · rfl
    · rfl
  rw [PartialPlan.heads, PartialPlan.heads]
  induction blocks using List.reverseRecOn with
  | nil => exact ExtTreeMap.ext_getElem? fun w => by simp
  | append_singleton blocks b ih =>
      rw [List.map_append, List.foldl_append, List.foldl_append, ih]
      exact hinsert _ b.head ⟨bracket, b.literal⟩

/-! ### The encoding -/

/-- A block and the renamed block have the same colours. -/
theorem flatMap_colors_map (blocks : List LiteralBlock) :
    (blocks.map ρ.block).flatMap (·.colors) = blocks.flatMap (·.colors) := by
  rw [List.flatMap_map]
  rfl

/-- A block and the renamed block have the same edges. -/
theorem flatMap_edges_map (bracket : Nat) (blocks : List LiteralBlock) :
    (blocks.map ρ.block).flatMap (·.edges bracket) = blocks.flatMap (·.edges bracket) := by
  rw [List.flatMap_map]
  rfl

/-- The paths of the steps are the same, as the operators are found by names that stay. -/
theorem flatMap_pathEdges_map (vertex : String → Nat) (steps : List (Operator × List Nat)) :
    ((steps.map (Prod.map ρ.operator id)).flatMap fun (op, vs) =>
        pathEdges (vertex op.name :: vs)) =
      steps.flatMap fun (op, vs) => pathEdges (vertex op.name :: vs) := by
  rw [List.flatMap_map]
  rfl

/-- The encoder makes of the renamed plan what it makes of the plan, under other names: the same
graph with renamed tables, or the renamed error. The parts of the encoder are rewritten one after
the other, each by its lemma above. -/
theorem Fits.encode_plan (h : ρ.Fits p) :
    (ρ.plan p).encode = mapBoth ρ.error ρ.encoding p.encode := by
  have hinit : ∀ l ∈ p.init.postconditions, l ∈ p.usedLiterals := fun l hl =>
    List.mem_flatMap_of_mem (List.mem_append_left _ List.mem_cons_self)
      (List.mem_append_right _ hl)
  have hgoal : ∀ l ∈ p.goal.preconditions, l ∈ p.usedLiterals := fun l hl =>
    List.mem_flatMap_of_mem (List.mem_append_right _ List.mem_cons_self)
      (List.mem_append_left _ hl)
  have hvars : ∀ op ∈ p.realSteps, ∀ v ∈ op.vars, v ∈ p.usedVariables := fun op hop v hv =>
    List.mem_append_left _ (List.mem_append_left _
      (List.mem_flatMap_of_mem (List.mem_of_mem_filter hop) hv))
  have hstart : (ρ.plan p).constantVertices.length + (ρ.plan p).variableCount +
      (ρ.plan p).operators.length =
        p.constantVertices.length + p.variableCount + p.operators.length := by
    rw [h.constantVertices_plan, variableCount_plan, operators_plan, List.length_map,
      List.length_map]
  rw [PartialPlan.encode, PartialPlan.encode]
  simp only [h.ofPlan_plan, h.constantVertices_plan, realSteps_plan, operators_plan,
    variableCount_plan, operatorVertices_map, variableVertices_map, List.length_map]
  -- the parts of the encoding in the order in which they are made
  refine bind_eq_mapBoth (mapM_map_eq_mapBoth_id fun c hc => ?constants) fun constantColors => ?_
  case constants =>
    rw [h.constant_type c (List.mem_append_left _ (List.mem_eraseDups.1 hc))]
    exact liftM_eq_mapBoth (constant_palette ρ _ _)
  refine bind_eq_mapBoth (mapM_map_eq_mapBoth_id fun op hop =>
    mapM_map_eq_mapBoth_id fun v hv => ?vars) fun variableColors => ?_
  case vars =>
    rw [h.var_type v (hvars op hop v hv)]
    exact liftM_eq_mapBoth (variableColor_palette ρ _ _)
  refine bind_eq_mapBoth (mapM_map_eq_mapBoth_id fun op _ =>
    liftM_eq_mapBoth (schema_palette ρ _ _)) fun operatorColors => ?_
  refine bind_eq_mapBoth (liftM_eq_mapBoth (attached_eq_mapBoth
    (h.literalBlocks_ofPlan hstart hinit))) fun producers => ?_
  refine bind_eq_mapBoth (liftM_eq_mapBoth (attached_eq_mapBoth
    (h.literalBlocks_ofPlan ?start hgoal))) fun consumers => ?_
  case start =>
    exact congrArg₂ (· + ·) hstart (congrArg List.length (flatMap_colors_map producers.1))
  refine bind_eq_mapBoth (f := id) ?graph fun graph => ?tables
  case graph =>
    rw [← List.map_append, flatMap_colors_map, flatMap_edges_map, flatMap_edges_map,
      flatMap_pathEdges_map (fun name => ExtTreeMap.getD _ name 0)]
    exact liftM_graph_eq_mapBoth _
  case tables =>
    exact congrArg Except.ok (PlanEncoding.ext rfl rfl rfl (heads_map _ _) (heads_map _ _))

/-- A renamed plan can be encoded exactly if the plan can, and then the graphs are equal, with
the same numbers of vertices, so that the engine gets the same commands and the hash is the
same. -/
theorem graph_eq_of_fits (h : ρ.Fits p) :
    ((∃ e', (ρ.plan p).encode = .ok e') ↔ ∃ e, p.encode = .ok e) ∧
      ∀ e e', p.encode = .ok e → (ρ.plan p).encode = .ok e' →
        e'.graph = e.graph ∧ e'.graph.commands = e.graph.commands ∧
          e'.graph.hash = e.graph.hash := by
  rw [h.encode_plan]
  refine ⟨exists_mapBoth_eq_ok_iff, fun e e' he he' => ?_⟩
  rw [he, mapBoth, Except.ok.injEq] at he'
  subst he'
  exact ⟨rfl, rfl, rfl⟩

/-- The two balls exchanged, two variables, and the two predicates. -/
def otherNames : Renaming where
  constant := Equiv.swap PartialPlan.TwoBalls.ballA PartialPlan.TwoBalls.ballB
  var := Equiv.swap ⟨"?a", PartialPlan.TwoBalls.ball⟩ ⟨"?y", PartialPlan.TwoBalls.ball⟩
  predicate := Equiv.swap "free" "held"

theorem fits_otherNames (p : PartialPlan) : otherNames.Fits p := by
  refine fits_of_injective (Equiv.injective _) (fun c => ?_) (Equiv.injective _) (fun v => ?_)
    (Equiv.injective _) p
  · show (Equiv.swap _ _ c).type = c.type
    rw [Equiv.swap_apply_def]
    split
    · simp [*, PartialPlan.TwoBalls.ballA, PartialPlan.TwoBalls.ballB]
    · split
      · simp [*, PartialPlan.TwoBalls.ballA, PartialPlan.TwoBalls.ballB]
      · rfl
  · show (Equiv.swap _ _ v).type = v.type
    rw [Equiv.swap_apply_def]
    split
    · simp [*]
    · split
      · simp [*]
      · rfl

/-- The two balls of the plan exchange their names and are then declared the other way round; the
graph is the same. -/
theorem graph_eq_of_fits_twoBalls : ∃ e e', PartialPlan.TwoBalls.plan.encode = .ok e ∧
    (otherNames.plan PartialPlan.TwoBalls.plan).encode = .ok e' ∧
    (otherNames.plan PartialPlan.TwoBalls.plan).constants ≠ PartialPlan.TwoBalls.plan.constants ∧
    e'.graph = e.graph ∧ e'.graph.commands = e.graph.commands ∧
      e'.graph.hash = e.graph.hash := by
  obtain ⟨e, hencode, -⟩ := exists_ok_of_any
    (show PartialPlan.TwoBalls.plan.encode.toOption.any (fun _ => true) = true by decide +kernel)
  obtain ⟨hiff, hgraph⟩ := graph_eq_of_fits (fits_otherNames PartialPlan.TwoBalls.plan)
  obtain ⟨e', hencode'⟩ := hiff.2 ⟨e, hencode⟩
  exact ⟨e, e', hencode, hencode', by decide, hgraph e e' hencode hencode'⟩

end Renaming

end PlanOrbits
