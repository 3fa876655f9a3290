import Mathlib.Data.Finset.Card
import PlanOrbits.Proofs.Encoding.ColorTables
import PlanOrbits.Proofs.Encoding.Shape

/-!
# Colours and kinds, one to one

A plan declares kinds of vertices (`PartialPlan.Declares`). The colours below the counter of its
tables belong to them one to one (`colors_tell_kinds`): the kinds have numbers, different
kinds different ones, and every number below the size is the number of a kind
(`exists_code?_eq`), also the odd ones behind the colours of positive literals, which are in no
table. In the graph of a plan every vertex has the colour of its kind (`forall₂_vertexKinds`);
this holds of any plan that is encoded, even if it does not pass the checks.
-/

namespace PlanOrbits

/-! ### The colours of a plan -/

namespace PartialPlan

/-- The kinds that a plan declares: the constants and the variables of its types, the positive
and the negative literals of its predicates, and the operators of its schemas. -/
inductive Declares (p : PartialPlan) : Kind → Prop where
  | constant {type : TypeName} (htype : type ∈ p.domain.types) : Declares p (.constant type)
  | variable {type : TypeName} (htype : type ∈ p.domain.types) : Declares p (.variable type)
  | literal {q : Predicate} (hq : q ∈ p.domain.predicates) (positive : Bool) :
      Declares p (.literal q.name positive)
  | operator {op : Operator} (hop : op ∈ p.operators) : Declares p (.operator op.schema)

/-- The number of colours that a plan needs: two for each type, two for each name of a predicate
and one for each schema, each counted once. -/
def colorCount (p : PartialPlan) : Nat :=
  2 * p.domain.types.toFinset.card + 2 * (p.domain.predicates.map (·.name)).toFinset.card +
    (p.operators.map (·.schema)).toFinset.card

/-- The kinds of the vertices of the graph of a plan, in order. A literal has a vertex for its
head and one for each argument, all of one kind. -/
def vertexKinds (p : PartialPlan) : List Kind :=
  p.constantVertices.map (.constant ·.type) ++
    (p.realSteps.flatMap (·.vars)).map (.variable ·.type) ++
    p.operators.map (.operator ·.schema) ++
    p.bracketLiterals.flatMap fun l => List.replicate (l.arity + 1) l.kind

variable {p : PartialPlan} {kind : Kind}

/-- The palette keeps the first predicate of each name, so that every declared name is found, and
only these. -/
theorem exists_predicate?_iff {name : String} :
    (∃ found, (Palette.ofPlan p).predicate? name = some found) ↔
      ∃ q ∈ p.domain.predicates, q.name = name := by
  rw [← Option.isSome_iff_exists, ← Option.isSome_map (f := Prod.fst),
    Palette.map_fst_predicate?_ofPlan, List.find?_isSome]
  simp only [beq_iff_eq]

/-- The kinds that a plan declares are those that its palette gives a number. The palette lists
types, predicates and schemas without their repetitions, which makes no difference to what is found
in them. -/
theorem declares_iff_exists_code? :
    p.Declares kind ↔ ∃ n, (Palette.ofPlan p).code? kind = some n := by
  have hidx : ∀ {α : Type} [DecidableEq α] {xs : List α} {x : α},
      (∃ i, xs.eraseDups.idxOf? x = some i) ↔ x ∈ xs := by
    intro α _ xs x
    rw [← Option.isSome_iff_exists, List.isSome_idxOf?, List.mem_eraseDups]
  simp only [← Option.isSome_iff_exists]
  cases kind with
  | constant type =>
      rw [Palette.code?, Option.isSome_map, Option.isSome_iff_exists, Palette.ofPlan, hidx]
      exact ⟨fun h => by cases h; assumption, .constant⟩
  | «variable» type =>
      rw [Palette.code?, Option.isSome_map, Option.isSome_iff_exists, Palette.ofPlan, hidx]
      exact ⟨fun h => by cases h; assumption, .variable⟩
  | literal name positive =>
      -- predicates are found by their names, not by the whole declaration
      rw [Palette.code?, Option.isSome_map, Option.isSome_iff_exists, exists_predicate?_iff]
      constructor
      · rintro ⟨⟩
        exact ⟨_, ‹_›, rfl⟩
      · rintro ⟨q, hq, rfl⟩
        exact .literal hq positive
  | operator schema =>
      rw [Palette.code?, Option.isSome_map, Option.isSome_iff_exists, Palette.ofPlan, hidx,
        List.mem_map]
      constructor
      · rintro ⟨⟩
        exact ⟨_, ‹_›, rfl⟩
      · rintro ⟨op, hop, rfl⟩
        exact .operator hop

/-! ### Every number is that of a kind -/

/-- In a list without repetitions every member is found at its own place. -/
theorem idxOf?_of_nodup {α : Type} [DecidableEq α] {xs : List α} (hnodup : xs.Nodup) {i : Nat}
    (hi : i < xs.length) : xs.idxOf? xs[i] = some i := by
  refine List.idxOf?_eq_some_iff.2 ⟨hi, rfl, fun j hj heq => ?_⟩
  exact absurd ((hnodup.getElem_inj_iff).1 heq) (Nat.ne_of_lt hj)

/-- The names of the predicates of a palette are different, since `eraseDupsBy` compares names. -/
theorem map_name_predicates (p : PartialPlan) :
    (Palette.ofPlan p).predicates.map (·.name) = (p.domain.predicates.map (·.name)).eraseDups :=
  (Palette.eraseDupsBy_map _ fun _ _ _ _ => rfl).symm

/-- Every predicate of a palette is found by its name at its own place. -/
theorem predicate?_getElem {j : Nat} (hj : j < (Palette.ofPlan p).predicates.length) :
    (Palette.ofPlan p).predicate? (Palette.ofPlan p).predicates[j].name =
      some ((Palette.ofPlan p).predicates[j], j) := by
  have hmem : (Palette.ofPlan p).predicates[j].name ∈ (Palette.ofPlan p).predicates.map (·.name) :=
    List.mem_map_of_mem (List.getElem_mem hj)
  rw [map_name_predicates, List.mem_eraseDups, List.mem_map] at hmem
  obtain ⟨⟨q, j'⟩, hfound⟩ := exists_predicate?_iff.2 hmem
  obtain ⟨hget, hname⟩ := Palette.predicate?_eq_some hfound
  obtain ⟨hj', rfl⟩ := List.getElem?_eq_some_iff.1 hget
  -- different places have different names, so it was found at its own place
  have hnodup : ((Palette.ofPlan p).predicates.map (·.name)).Nodup :=
    map_name_predicates p ▸ nodup_eraseDups _
  have heq := List.inj_on_of_nodup_map hnodup (List.getElem_mem hj') (List.getElem_mem hj) hname
  obtain rfl := (hnodup.of_map _).getElem_inj_iff.1 heq
  exact hfound

/-- Every number below the size is the number of a kind. The palette is cut into three stretches:
two numbers for each type, two for each predicate and one for each schema. -/
theorem exists_code?_eq {n : Nat} (hn : n < (Palette.ofPlan p).size) :
    ∃ kind, (Palette.ofPlan p).code? kind = some n := by
  rw [Palette.size] at hn
  by_cases htypes : n < 2 * (Palette.ofPlan p).types.length
  · have hi : n / 2 < (Palette.ofPlan p).types.length := by omega
    have hidx := idxOf?_of_nodup (nodup_eraseDups p.domain.types) hi
    -- even numbers stand for constants of the type, odd ones for variables
    rcases Nat.mod_two_eq_zero_or_one n with hmod | hmod
    · refine ⟨.constant _, Option.map_eq_some_iff.2 ⟨_, hidx, ?_⟩⟩
      omega
    · refine ⟨.variable _, Option.map_eq_some_iff.2 ⟨_, hidx, ?_⟩⟩
      omega
  by_cases hpredicates : n < 2 * (Palette.ofPlan p).types.length +
      2 * (Palette.ofPlan p).predicates.length
  · have hj : (n - 2 * (Palette.ofPlan p).types.length) / 2 <
      (Palette.ofPlan p).predicates.length := by omega
    refine ⟨.literal _ ((n - 2 * (Palette.ofPlan p).types.length) % 2 = 0),
      Option.map_eq_some_iff.2 ⟨_, predicate?_getElem hj, ?_⟩⟩
    simp only [decide_eq_true_eq]
    split <;> omega
  · have hk : n - 2 * (Palette.ofPlan p).types.length - 2 * (Palette.ofPlan p).predicates.length <
      (Palette.ofPlan p).schemas.length := by omega
    have hidx := idxOf?_of_nodup (nodup_eraseDups (p.operators.map (·.schema))) hk
    refine ⟨.operator _, Option.map_eq_some_iff.2 ⟨_, hidx, ?_⟩⟩
    omega

/-- The size of the palette as the plan declares it: different types and predicate names count
twice, different schemas once. -/
theorem size_ofPlan (p : PartialPlan) : (Palette.ofPlan p).size = p.colorCount := by
  have hcard : ∀ {α : Type} [DecidableEq α] (xs : List α),
      xs.eraseDups.length = xs.toFinset.card := by
    intro α _ xs
    rw [← List.toFinset_card_of_nodup (nodup_eraseDups xs)]
    congr 1
    ext x
    rw [List.mem_toFinset, List.mem_toFinset, List.mem_eraseDups]
  rw [colorCount, ← hcard, ← hcard, ← hcard, ← map_name_predicates, List.length_map]
  rfl

/-! ### The colours of a graph -/

/-- The vertices of literals have the colours of their kinds: the head of a block and the places of
its arguments all have the colour of the literal. -/
theorem forall₂_colors_of_literalBlocks {palette : Palette} {head : Nat} {ls : List Literal}
    {blocks : List LiteralBlock} (h : p.literalBlocks palette head ls = .ok blocks) :
    List.Forall₂ (fun l b => List.Forall₂ (fun kind c => palette.color? kind = some c)
      (List.replicate (l.arity + 1) l.kind) (LiteralBlock.colors b)) ls blocks := by
  obtain ⟨hlength, hblocks⟩ := isBlock_of_literalBlocks h
  refine forall₂_iff_getElem?.2 ⟨hlength.symm, fun i l b hl hb => ?_⟩
  have hblock := hblocks i l b hl hb
  have hcolor := (Palette.literal_eq_ok_iff.1 hblock.color).1
  rw [LiteralBlock.colors, ← hblock.targets.length_eq, Literal.arity]
  refine forall₂_iff_getElem?.2 ⟨by simp, fun j kind c hkind hc => ?_⟩
  rw [List.eq_of_mem_replicate (List.mem_of_getElem? hkind),
    List.eq_of_mem_replicate (List.mem_of_getElem? hc), hcolor]

/-- Each vertex of the graph of a plan has the colour of its kind. The list of colours is put
together from four rows, and `vertexKinds` lists the kinds in the same order. -/
theorem forall₂_vertexKinds {e : PlanEncoding} (h : p.encode = .ok e) :
    List.Forall₂ (fun kind c => (Palette.ofPlan p).color? kind = some c) p.vertexKinds
      e.graph.colors.toList := by
  simp only [encode, bind_eq_ok_iff, mapM_eq_ok_iff, liftM_plan_eq_ok_iff, liftM_graph_eq_ok_iff,
    Palette.constant_eq_ok_iff, Palette.variableColor_eq_ok_iff, Palette.schema_eq_ok_iff] at h
  obtain ⟨constantColors, hconstants, variableColors, hvariables, operatorColors, hoperators,
    ⟨producers, hproducers⟩, -, ⟨consumers, hconsumers⟩, -, graph, hgraph, h⟩ := h
  cases h
  dsimp only
  rw [(ColoredGraph.hasEdge_ofParts hgraph).1, vertexKinds]
  -- row by row: constants, variables, operators, literals
  refine List.rel_append (List.rel_append (List.rel_append ?_ ?_) ?_) ?_
  · exact List.forall₂_map_left_iff.2 hconstants
  · rw [List.flatMap_def]
    exact List.forall₂_map_left_iff.2 (List.rel_flatten (List.forall₂_map_left_iff.2 hvariables))
  · exact List.forall₂_map_left_iff.2 hoperators
  · rw [List.flatMap_def, List.flatMap_def]
    refine List.rel_flatten (List.forall₂_map_left_iff.2 (List.forall₂_map_right_iff.2 ?_))
    exact List.rel_append (forall₂_colors_of_literalBlocks hproducers)
      (forall₂_colors_of_literalBlocks hconsumers)

end PartialPlan

namespace ColorTables

variable {t : ColorTables} {p : PartialPlan}

/-- The tables give the vertices of a kind a colour. -/
def Gives (t : ColorTables) : Kind → Color → Prop
  | .constant type, c => t.constant type = .ok c
  | .variable type, c => t.variableColor type = .ok c
  | .literal name positive, c =>
      ∃ l : Literal, l.kind = .literal name positive ∧ t.literal l = .ok c
  | .operator schema, c => t.schema schema = .ok c

/-- The tables give a kind the colour that the palette gives it. For a predicate a literal has to be
named of which the colour is looked up; any arguments will do, as long as they are as many as the
parameters. -/
theorem Represents.gives_iff {pal : Palette} (h : t.Represents pal) {kind : Kind} {c : Color} :
    t.Gives kind c ↔ pal.color? kind = some c := by
  cases kind with
  | constant type => rw [Gives, h.constant_eq, Palette.constant_eq_ok_iff]
  | «variable» type => rw [Gives, h.variableColor_eq, Palette.variableColor_eq_ok_iff]
  | operator schema => rw [Gives, h.schema_eq, Palette.schema_eq_ok_iff]
  | literal name positive =>
      simp only [Gives, h.literal_eq, Palette.literal_eq_ok_iff]
      constructor
      · rintro ⟨l, hkind, hcolor, -⟩
        rwa [hkind] at hcolor
      · intro hcolor
        obtain ⟨n, hcode, -⟩ := Option.map_eq_some_iff.1 hcolor
        obtain ⟨⟨q, j⟩, hfound, -⟩ := Option.map_eq_some_iff.1 hcode
        refine ⟨⟨⟨name, List.replicate q.arity ⟨"", .ofSpelling ""⟩⟩, positive⟩, rfl, hcolor, q, j,
          hfound, ?_⟩
        exact List.length_replicate.symm

/-- The tables look up what the palette looks up, and their colours and the kinds that the plan
declares belong to each other one to one. -/
structure TellsKinds (t : ColorTables) (p : PartialPlan) : Prop where
  constant : ∀ type, t.constant type = (Palette.ofPlan p).constant type
  variableColor : ∀ type, t.variableColor type = (Palette.ofPlan p).variableColor type
  literal : ∀ l, t.literal l = (Palette.ofPlan p).literal l
  schema : ∀ schema, t.schema schema = (Palette.ofPlan p).schema schema
  size : t.size = p.colorCount
  declared : ∀ kind c, t.Gives kind c → p.Declares kind ∧ c.toNat < t.size
  color : ∀ kind, p.Declares kind → ∃! c, t.Gives kind c
  kind : ∀ c : Color, c.toNat < t.size → ∃! kind, t.Gives kind c

/-- Tables that hold the palette of a plan tell its kinds apart. Colours are numbers of kinds as
words; below the size of the palette no number is cut by this, so all that is known of numbers
passes over to colours. -/
theorem tellsKinds_of_represents (h : t.Represents (Palette.ofPlan p)) : t.TellsKinds p := by
  have hsize : t.size = (Palette.ofPlan p).size := h.next
  have hlt : (Palette.ofPlan p).size < 2 ^ 32 := hsize ▸ t.next.toNat_lt
  have hword : ∀ n < (Palette.ofPlan p).size, n.toUInt32.toNat = n := by
    intro n hn
    rw [Nat.toUInt32_eq, UInt32.toNat_ofNat', Nat.mod_eq_of_lt (Nat.lt_trans hn hlt)]
  exact {
    constant := h.constant_eq
    variableColor := h.variableColor_eq
    literal := h.literal_eq
    schema := h.schema_eq
    size := hsize.trans (PartialPlan.size_ofPlan p)
    declared := by
      intro kind c hgives
      obtain ⟨n, hcode, rfl⟩ := Option.map_eq_some_iff.1 (h.gives_iff.1 hgives)
      have hn := Palette.code?_lt_size hcode
      exact ⟨PartialPlan.declares_iff_exists_code?.2 ⟨n, hcode⟩, by rwa [hword n hn, hsize]⟩
    color := by
      intro kind hkind
      obtain ⟨n, hcode⟩ := PartialPlan.declares_iff_exists_code?.1 hkind
      have hcolor : (Palette.ofPlan p).color? kind = some n.toUInt32 :=
        Option.map_eq_some_iff.2 ⟨n, hcode, rfl⟩
      refine ⟨_, h.gives_iff.2 hcolor, fun c hc => ?_⟩
      have heq := h.gives_iff.1 hc
      rwa [hcolor, Option.some.injEq, eq_comm] at heq
    kind := by
      intro c hc
      -- a colour below the counter is the number of a kind, and no other kind has this number
      rw [hsize] at hc
      obtain ⟨kind, hcode⟩ := PartialPlan.exists_code?_eq hc
      have hcolor : (Palette.ofPlan p).color? kind = some c :=
        Option.map_eq_some_iff.2 ⟨_, hcode, UInt32.ofNat_toNat⟩
      refine ⟨kind, h.gives_iff.2 hcolor, fun kind' hkind' => ?_⟩
      exact Palette.eq_of_color?_eq (Nat.le_of_lt hlt) (h.gives_iff.1 hkind') hcolor }

end ColorTables

namespace PartialPlan

/-- If the counter can count the colours that a plan needs, they are handed out, and belong to
the declared kinds one to one. In the graph of the plan each vertex has the colour of its kind,
so that two vertices have one colour exactly if they are of one kind. -/
theorem colors_tell_kinds (p : PartialPlan) (hroom : p.colorCount < 2 ^ 32) :
    ∃ t, ColorTables.ofPlan? p = some t ∧ t.TellsKinds p ∧ ∀ e, p.encode = .ok e →
      List.Forall₂ t.Gives p.vertexKinds e.graph.colors.toList ∧
        ∀ a b, a < e.graph.vertexCount → b < e.graph.vertexCount →
          (e.graph.colors[a]? = e.graph.colors[b]? ↔ p.vertexKinds[a]? = p.vertexKinds[b]?) := by
  rw [← size_ofPlan] at hroom
  obtain ⟨t, ht, hrep⟩ := ColorTables.exists_represents hroom
  refine ⟨t, ht, ColorTables.tellsKinds_of_represents hrep, fun e hencode => ?_⟩
  have hcolors := forall₂_vertexKinds hencode
  refine ⟨hcolors.imp fun _ _ => hrep.gives_iff.2, fun a b ha hb => ?_⟩
  obtain ⟨kind, hkind, hcolor⟩ := exists_left_of_forall₂ hcolors
    (Array.getElem?_toList.trans (Array.getElem?_eq_getElem ha))
  obtain ⟨kind', hkind', hcolor'⟩ := exists_left_of_forall₂ hcolors
    (Array.getElem?_toList.trans (Array.getElem?_eq_getElem hb))
  -- both vertices have kinds, and a kind is known by its colour
  rw [hkind, hkind', Array.getElem?_eq_getElem ha, Array.getElem?_eq_getElem hb,
    Option.some.injEq, Option.some.injEq]
  constructor
  · intro heq
    rw [heq] at hcolor
    exact Palette.eq_of_color?_eq (Nat.le_of_lt hroom) hcolor hcolor'
  · rintro rfl
    rwa [hcolor, Option.some.injEq] at hcolor'

/-- The plan of two balls, with declarations that add nothing: the type once more, in another
spelling, and a predicate once more, with another number of parameters. -/
def TwoBalls.repetitive : PartialPlan :=
  { TwoBalls.plan with
    domain := ⟨"balls", [TwoBalls.ball, .ofSpelling " BALL "],
      [⟨"free", [TwoBalls.ball]⟩, ⟨"held", [TwoBalls.ball]⟩, ⟨"free", []⟩], []⟩ }

/-- A type and a predicate that are declared twice take no further colours, and the kinds are still
told apart. -/
theorem colors_tell_kinds_repetitive : TwoBalls.repetitive.colorCount < 2 ^ 32 ∧
    ∃ t e, ColorTables.ofPlan? TwoBalls.repetitive = some t ∧
      t.TellsKinds TwoBalls.repetitive ∧ t.size = 9 ∧ TwoBalls.repetitive.encode = .ok e ∧
        List.Forall₂ t.Gives TwoBalls.repetitive.vertexKinds e.graph.colors.toList := by
  have hcount : TwoBalls.repetitive.colorCount = 9 := by decide +kernel
  have hroom : TwoBalls.repetitive.colorCount < 2 ^ 32 := by rw [hcount]; decide
  obtain ⟨t, ht, htells, hencode⟩ := colors_tell_kinds TwoBalls.repetitive hroom
  obtain ⟨e, he, -⟩ := exists_ok_of_any
    (show TwoBalls.repetitive.encode.toOption.any (fun _ => true) = true by decide +kernel)
  exact ⟨hroom, t, e, ht, htells, htells.size.trans hcount, he, (hencode e he).1⟩

end PartialPlan

end PlanOrbits
