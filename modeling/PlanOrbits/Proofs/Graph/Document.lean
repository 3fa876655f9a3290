import PlanOrbits.Proofs.Graph.Adjacency
import PlanOrbits.Proofs.Json.RoundTrip

/-!
# Documents of graphs, in normal form

A document of a graph holds colours and pairs, in any order, in either direction and any number of
times. What is made of it depends on the colours and on which two vertices are paired, and on
nothing else (`ofText_eq_of_pairsAlike`); and a graph has one document, whose pairs are the edges in
lexicographic order, so that to read and to write is to bring a document into normal form.

The text of a document is any text that can be read as one (`Holds`). A pair that cannot be joined
is not a fault of the document: the text is read, and the first such pair is the error of the graph
(`ofText_eq_error_iff`).
-/

namespace PlanOrbits.ColoredGraph

open Text (wordLimit)

variable {g : ColoredGraph} {text text' : String} {colors : List Color}
  {pairs pairs' : List (Nat × Nat)}

/-! ### Documents -/

/-- The document of colours and pairs. -/
def document (colors : List Color) (pairs : List (Nat × Nat)) : Json :=
  Json.record [("colors", toJson colors), ("edges", toJson pairs)]

/-- The text is a document of the colours and the pairs. -/
def Holds (text : String) (colors : List Color) (pairs : List (Nat × Nat)) : Prop :=
  (Json.parse? text).bind partsOfJson? = some (colors, pairs)

theorem toJson_eq (g : ColoredGraph) : toJson g = document g.colors.toList g.edgeList := rfl

/-- The document of colours and pairs has a text, since numbers and field names can be spelled. -/
theorem isSpelled_document (colors : List Color) (pairs : List (Nat × Nat)) :
    (document colors pairs).IsSpelled := by
  refine Json.isSpelled_record fun field hfield => ?_
  simp only [List.mem_cons, List.not_mem_nil, or_false] at hfield
  rcases hfield with rfl | rfl
  · exact isSpelled_toJson colors
  · exact isSpelled_toJson pairs

/-- The document of colours and pairs holds them. Ends of pairs have to be words, as they are read
as such; colours always are. -/
theorem partsOfJson?_document
    (hpairs : ∀ pair ∈ pairs, pair.1 < wordLimit ∧ pair.2 < wordLimit) :
    partsOfJson? (document colors pairs) = some (colors, pairs) := by
  have hcolors : ofJson? (toJson colors) = some colors := ofJson?_toJson colors
  have hedges : ofJson? (toJson pairs) = some pairs := by
    refine ofJson?_toJson_list fun pair hpair => ?_
    obtain ⟨hlow, hhigh⟩ := hpairs pair hpair
    exact ofJson?_toJson_prod (ofJson?_toJson_nat hlow) (ofJson?_toJson_nat hhigh)
  refine (Record.bind_record ?_ ?_).trans ?_
  · rfl
  · decide
  · simp [Record.required, List.lookup_cons, hcolors, hedges]

/-- The text of the document holds them, too. -/
theorem holds_document (hpairs : ∀ pair ∈ pairs, pair.1 < wordLimit ∧ pair.2 < wordLimit) :
    Holds (document colors pairs).pretty colors pairs := by
  rw [Holds, Json.parse?_pretty (isSpelled_document colors pairs)]
  exact partsOfJson?_document hpairs

/-! ### Reading -/

/-- What is made of a text depends on the colours and the pairs that it holds only. -/
theorem ofText_of_holds (h : Holds text colors pairs) :
    ofText text = (ofParts colors pairs).mapError .graph := by
  obtain ⟨j, hparse, hparts⟩ := Option.bind_eq_some_iff.1 h
  simp only [ofText, hparse, ofJson, hparts]
  rfl

/-- A graph is made of the text exactly if every pair can be joined. -/
theorem exists_ofText_iff (h : Holds text colors pairs) :
    (∃ g, ofText text = .ok g) ↔ ∀ pair ∈ pairs, Joinable colors.length pair := by
  simp only [ofText_of_holds h, mapError_eq_ok_iff]
  exact exists_ofParts_iff

/-- Otherwise the first pair that cannot be joined is the error. -/
theorem ofText_eq_error_iff (h : Holds text colors pairs) {e : Error} :
    ofText text = .error e ↔
      ∃ cause, e = .graph cause ∧ RefusesFirst colors.length pairs cause := by
  rw [ofText_of_holds h, mapError_eq_error_iff]
  simp only [ofParts_eq_error_iff]
  refine exists_congr fun cause => ?_
  rw [and_comm, eq_comm]

/-- The graph has the colours and joins the pairs. -/
theorem hasEdge_ofText (h : Holds text colors pairs) (hg : ofText text = .ok g) :
    g.colors = colors.toArray ∧ ∀ a b, g.hasEdge a b = true ↔ Pairs pairs a b := by
  rw [ofText_of_holds h, mapError_eq_ok_iff] at hg
  exact hasEdge_ofParts hg

/-- The order of the pairs, their directions and how often they are there do not matter. Pairs that
are alike can be joined alike, and the graphs that are made join the same vertices. -/
theorem ofText_eq_of_pairsAlike (h : Holds text colors pairs) (h' : Holds text' colors pairs')
    (hg : ofText text = .ok g) (halike : ∀ a b, Pairs pairs a b ↔ Pairs pairs' a b) :
    ofText text' = .ok g := by
  have hjoinable := (exists_ofText_iff h).1 ⟨g, hg⟩
  have hjoinable' : ∀ pair ∈ pairs', Joinable colors.length pair := by
    -- the same pair may stand the other way round in the other text
    rintro ⟨a, b⟩ hab
    rcases (halike a b).2 (.inl hab) with hab | hba
    · exact hjoinable _ hab
    · obtain ⟨hne, hlow, hhigh⟩ := hjoinable _ hba
      exact ⟨hne.symm, hhigh, hlow⟩
  obtain ⟨g', hg'⟩ := (exists_ofText_iff h').2 hjoinable'
  obtain ⟨hcolors, hedges⟩ := hasEdge_ofText h hg
  obtain ⟨hcolors', hedges'⟩ := hasEdge_ofText h' hg'
  rw [hg', eq_of_hasEdge (hcolors'.trans hcolors.symm) fun a b => ?_]
  rw [Bool.eq_iff_iff, hedges, hedges', halike]

/-- A graph is read back from the text of its document, since its edges can be joined and give the
graph again. -/
theorem ofText_pretty (h : g.vertexCount ≤ wordLimit) : ofText (toJson g).pretty = .ok g := by
  have hends : ∀ pair ∈ g.edgeList, pair.1 < wordLimit ∧ pair.2 < wordLimit := by
    intro pair hpair
    obtain ⟨-, hlow, hhigh⟩ := joinable_of_mem_edgeList hpair
    exact ⟨Nat.lt_of_lt_of_le hlow h, Nat.lt_of_lt_of_le hhigh h⟩
  rw [toJson_eq, ofText_of_holds (holds_document hends), ofParts_edgeList]
  rfl

/-! ### The normal form -/

/-- The edges of the graph, with their lower ends first, in lexicographic order. -/
structure IsNormalForm (g : ColoredGraph) (pairs : List (Nat × Nat)) : Prop where
  ascending : ∀ pair ∈ pairs, pair.1 < pair.2
  sorted : pairs.Pairwise (Prod.Lex (· < ·) (· < ·))
  edges : ∀ a b, g.hasEdge a b = true ↔ Pairs pairs a b

/-- The list of edges of a graph is in normal form. -/
theorem isNormalForm_edgeList (g : ColoredGraph) : g.IsNormalForm g.edgeList where
  ascending := fun _ hpair => (mem_edgeList.1 hpair).1
  sorted := pairwise_edgeList
  edges := by
    intro a b
    rw [Pairs, mem_edgeList, mem_edgeList, hasEdge_comm g b a, ← or_and_right]
    -- joined vertices differ, so that the edge is listed from one of them
    exact (and_iff_right_of_imp fun hab => Nat.lt_or_gt_of_ne (joinable_of_hasEdge hab).1).symm

/-- A graph has one list of edges in normal form: two lists in lexicographic order with the same
members are equal. -/
theorem IsNormalForm.eq_edgeList (h : g.IsNormalForm pairs) : pairs = g.edgeList := by
  have hmem : ∀ pair, pair ∈ pairs ↔ pair ∈ g.edgeList := by
    rintro ⟨a, b⟩
    rw [mem_edgeList, h.edges]
    constructor
    · intro hab
      exact ⟨h.ascending _ hab, .inl hab⟩
    · rintro ⟨hlt, hab | hba⟩
      · exact hab
      · exact absurd (h.ascending _ hba) (Nat.lt_asymm hlt)
  have hnodup : ∀ {xs : List (Nat × Nat)}, xs.Pairwise (Prod.Lex (· < ·) (· < ·)) → xs.Nodup :=
    fun hsorted => hsorted.imp fun hlt heq => by
      rw [heq, Prod.lex_def] at hlt
      omega
  -- both lists ascend, so that they are equal once they have the same members
  refine ((List.perm_ext_iff_of_nodup (hnodup h.sorted) (hnodup pairwise_edgeList)).2
    hmem).eq_of_pairwise (fun x y _ _ hxy hyx => ?_) h.sorted pairwise_edgeList
  rw [Prod.lex_def] at hxy hyx
  omega

/-- A graph is read back from its document. A text that holds colours and pairs is read as the graph
that has the colours and joins the pairs, if they can be joined; if not, the first pair that cannot
is an error of the graph. Texts with the same colours that pair the same vertices, in any order and
direction and any number of times, are read as one graph, and one text is written for it, which
holds the edges in normal form. -/
theorem ofText_normalises :
    (∀ g : ColoredGraph, g.vertexCount ≤ wordLimit → ofText (toJson g).pretty = .ok g) ∧
    (∀ colors pairs, (∀ pair ∈ pairs, pair.1 < wordLimit ∧ pair.2 < wordLimit) →
      Holds (document colors pairs).pretty colors pairs) ∧
    (∀ text colors pairs, Holds text colors pairs →
      ((∃ g, ofText text = .ok g) ↔ ∀ pair ∈ pairs, Joinable colors.length pair) ∧
      (∀ g, ofText text = .ok g →
        g.colors = colors.toArray ∧ ∀ a b, g.hasEdge a b = true ↔ Pairs pairs a b) ∧
      ∀ e, (ofText text = .error e ↔
          ∃ cause, e = .graph cause ∧ RefusesFirst colors.length pairs cause) ∧
        (ofText text = .error e → e.family = .graph)) ∧
    (∀ text text' colors pairs pairs', Holds text colors pairs → Holds text' colors pairs' →
      (∀ a b, Pairs pairs a b ↔ Pairs pairs' a b) → ∀ g, ofText text = .ok g →
        ∃ g', ofText text' = .ok g' ∧ g' = g ∧ (toJson g').pretty = (toJson g).pretty) ∧
    ∀ (g : ColoredGraph) (pairs : List (Nat × Nat)), g.IsNormalForm g.edgeList ∧
      (g.IsNormalForm pairs → (toJson g).pretty = (document g.colors.toList pairs).pretty) := by
  refine ⟨fun g => ofText_pretty, fun colors pairs => holds_document,
    fun text colors pairs h => ⟨exists_ofText_iff h, fun g => hasEdge_ofText h, fun e =>
      ⟨ofText_eq_error_iff h, fun he => ?_⟩⟩,
    fun text text' colors pairs pairs' h h' halike g hg => ?_,
    fun g pairs => ⟨g.isNormalForm_edgeList, fun hpairs => ?_⟩⟩
  -- a text that holds colours and pairs fails only when its pairs are joined
  · obtain ⟨cause, rfl, -⟩ := (ofText_eq_error_iff h).1 he
    exact cause.family_diagnostic
  · exact ⟨g, ofText_eq_of_pairsAlike h h' hg halike, rfl, rfl⟩
  · rw [toJson_eq, hpairs.eq_edgeList]

/-- The outer two of three vertices are joined by one pair, and by three that say the same. A
document that holds a loop in front of a vertex that is not there is refused for the loop. -/
theorem ofText_normalises_joinedEnds :
    (∃ g, ofText (document [7, 2, 7] [(2, 0), (0, 2), (2, 0)]).pretty = .ok g ∧
      g.hasEdge 0 2 = true ∧
      ofText (document [7, 2, 7] [(0, 2)]).pretty = .ok g ∧
      (toJson g).pretty = (document [7, 2, 7] [(0, 2)]).pretty) ∧
    ofText (document [7, 2, 7] [(0, 2), (1, 1), (9, 0)]).pretty =
      .error (.graph (.selfLoop 1)) := by
  obtain ⟨-, hholds, hread, halike, hnormal⟩ := ofText_normalises
  have hmany := hholds [7, 2, 7] [(2, 0), (0, 2), (2, 0)] (by decide)
  have hone := hholds [7, 2, 7] [(0, 2)] (by decide)
  constructor
  · obtain ⟨hok, hedges, -⟩ := hread _ _ _ hmany
    obtain ⟨g, hg⟩ := hok.2 (by decide)
    obtain ⟨hcolors, hjoined⟩ := hedges g hg
    have hsame : ∀ a b, Pairs [(2, 0), (0, 2), (2, 0)] a b ↔ Pairs [(0, 2)] a b := by
      intro a b
      simp only [Pairs, List.mem_cons, List.not_mem_nil, Prod.mk.injEq, or_false]
      omega
    obtain ⟨_, hg', rfl, -⟩ := halike _ _ _ _ _ hmany hone hsame g hg
    refine ⟨_, hg, (hjoined 0 2).2 (.inr List.mem_cons_self), hg', ?_⟩
    have hform : ColoredGraph.IsNormalForm _ [(0, 2)] :=
      ⟨by decide, by simp, fun a b => (hjoined a b).trans (hsame a b)⟩
    rw [(hnormal _ _).2 hform, hcolors]
  · have hloop := hholds [7, 2, 7] [(0, 2), (1, 1), (9, 0)] (by decide)
    refine ((hread _ _ _ hloop).2.2 _).1.2 ⟨_, rfl, [(0, 2)], (1, 1), [(9, 0)], rfl, ?_, ?_⟩
    · decide
    · exact .loop (by decide)

end PlanOrbits.ColoredGraph
