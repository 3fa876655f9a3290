import PlanOrbits.Proofs.Bytes.Readers
import PlanOrbits.Proofs.Graph.Parts
import PlanOrbits.Text.Digits

/-!
# Graphs as bytes

The bytes of a graph are its colours and its edges, each list behind its count. Reading is
described for any byte string: if it begins with a writing of colours and pairs, then a graph
is made of them and whatever follows is ignored (`ofBytes_partBytes`); every other byte string
is cut off (`ofBytes_of_not_beginsWithParts`). A graph is therefore read back from its bytes,
and not from a front of them.

Counts and the ends of edges are words of 64 bits, colours are words of 32 bits.
-/

namespace PlanOrbits.ColoredGraph

open Bytes (Reads reads_word)
open Text (wordLimit)

variable {g : ColoredGraph} {colors : List Color} {pairs : List (Nat × Nat)}
  {bytes rest : List UInt8}

/-! ### Colours and pairs -/

/-- The bytes of colours and pairs. -/
def partBytes (colors : List Color) (pairs : List (Nat × Nat)) : List UInt8 :=
  Bytes.writeList colorBytes colors ++ Bytes.writeList edgeBytes pairs

/-- The counts and the ends of the pairs are words. -/
structure PartsFit (colors : List Color) (pairs : List (Nat × Nat)) : Prop where
  colors_lt : colors.length < wordLimit
  pairs_lt : pairs.length < wordLimit
  ends_lt : ∀ pair ∈ pairs, pair.1 < wordLimit ∧ pair.2 < wordLimit

/-- The byte string begins with a writing of colours and pairs. -/
def BeginsWithParts (bytes : List UInt8) : Prop :=
  ∃ colors pairs rest, PartsFit colors pairs ∧ bytes = partBytes colors pairs ++ rest

theorem toBytes_eq (g : ColoredGraph) : g.toBytes = partBytes g.colors.toList g.edgeList := rfl

/-- A list of colours is written as the list of their numbers, so that one reader serves for both.
-/
theorem writeList_colorBytes (colors : List Color) : Bytes.writeList colorBytes colors =
    Bytes.writeList (Bytes.word 4) (colors.map UInt32.toNat) := by
  rw [Bytes.writeList, Bytes.writeList, List.length_map, List.flatMap_map]
  rfl

/-- A colour is recovered from its number. -/
theorem map_toUInt32_map_toNat (colors : List Color) :
    (colors.map UInt32.toNat).map Nat.toUInt32 = colors := by
  rw [List.map_map]
  exact List.map_id'' (fun c => UInt32.ofNat_toNat) colors

/-- A number that fits four bytes is recovered from the colour. -/
theorem map_toNat_map_toUInt32 {ns : List Nat} (h : ∀ n ∈ ns, n < Nat.pow 256 4) :
    (ns.map Nat.toUInt32).map UInt32.toNat = ns := by
  rw [List.map_map]
  exact (List.map_congr_left fun n hn => UInt32.toNat_ofNat_of_lt' (h n hn)).trans (List.map_id ns)

/-- The numbers of colours and the pairs are read from exactly what their writers write, put
together from `Reads.list`, `Reads.pair` and `reads_word`. -/
theorem reads_readParts : Reads readParts
    (fun parts => Bytes.writeList (Bytes.word 4) parts.1 ++ Bytes.writeList edgeBytes parts.2)
    (fun parts => (parts.1.length < wordLimit ∧ ∀ n ∈ parts.1, n < Nat.pow 256 4) ∧
      parts.2.length < wordLimit ∧ ∀ pair ∈ parts.2, pair.1 < wordLimit ∧ pair.2 < wordLimit) :=
  (reads_word 4).list.pair ((reads_word 8).pair (reads_word 8)).list

/-- What is read, said with colours: the string begins with a writing of parts that fit, and the
rest is what stands behind it. -/
theorem readParts_eq_some_iff {ns : List Nat} : readParts bytes = some ((ns, pairs), rest) ↔
    ∃ colors : List Color, colors.map UInt32.toNat = ns ∧ PartsFit colors pairs ∧
      bytes = partBytes colors pairs ++ rest := by
  rw [reads_readParts bytes (ns, pairs) rest]
  constructor
  · rintro ⟨⟨⟨hcolors, hns⟩, hpairs, hends⟩, hbytes⟩
    refine ⟨ns.map Nat.toUInt32, map_toNat_map_toUInt32 hns, ⟨?_, hpairs, hends⟩, ?_⟩
    · rwa [List.length_map]
    · rwa [partBytes, writeList_colorBytes, map_toNat_map_toUInt32 hns]
  · rintro ⟨colors, rfl, hfit, hbytes⟩
    refine ⟨⟨⟨?_, ?_⟩, hfit.pairs_lt, hfit.ends_lt⟩, ?_⟩
    · rw [List.length_map]
      exact hfit.colors_lt
    · rw [List.forall_mem_map]
      exact fun c _ => c.toNat_lt
    · rwa [partBytes, writeList_colorBytes] at hbytes

/-- A writing of parts is read, whatever follows. -/
theorem readParts_partBytes (hfit : PartsFit colors pairs) (rest : List UInt8) :
    readParts (partBytes colors pairs ++ rest) = some ((colors.map UInt32.toNat, pairs), rest) :=
  readParts_eq_some_iff.2 ⟨colors, rfl, hfit, rfl⟩

/-- Nothing is read from all other strings. -/
theorem readParts_eq_none_iff : readParts bytes = none ↔ ¬BeginsWithParts bytes := by
  rw [Option.eq_none_iff_forall_ne_some]
  constructor
  · rintro h ⟨colors, pairs, rest, hfit, rfl⟩
    exact h _ (readParts_partBytes hfit rest)
  · rintro h ⟨⟨ns, pairs⟩, rest⟩ hread
    obtain ⟨colors, -, hfit, hbytes⟩ := readParts_eq_some_iff.1 hread
    exact h ⟨colors, pairs, rest, hfit, hbytes⟩

/-- A strict prefix of a writing of parts does not begin with parts, as nothing is read from it. -/
theorem not_beginsWithParts_of_cut {front back : List UInt8} (hfit : PartsFit colors pairs)
    (hcut : partBytes colors pairs = front ++ back) (hback : back ≠ []) :
    ¬BeginsWithParts front := by
  obtain ⟨hfits, hbytes⟩ := (reads_readParts _ _ _).1 (readParts_partBytes hfit [])
  rw [List.append_nil, List.append_nil] at hbytes
  rw [hcut] at hbytes
  exact readParts_eq_none_iff.1 (reads_readParts.eq_none_of_cut hfits hbytes.symm hback)

/-! ### Reading -/

/-- The parts that a byte string begins with are made into a graph; what follows is ignored. -/
theorem ofBytes_partBytes (hfit : PartsFit colors pairs) (rest : List UInt8) :
    ofBytes (partBytes colors pairs ++ rest) = (ofParts colors pairs).mapError .graph := by
  simp only [ofBytes, readParts_partBytes hfit, map_toUInt32_map_toNat]
  rfl

/-- A byte string that does not begin with parts is refused as a document. -/
theorem ofBytes_of_not_beginsWithParts (h : ¬BeginsWithParts bytes) :
    ofBytes bytes = .error (.document .truncatedGraph) := by
  simp only [ofBytes, readParts_eq_none_iff.2 h]
  rfl

/-- Conversely, a graph that was read is made of parts at the front of the string. -/
theorem exists_parts_of_ofBytes (h : ofBytes bytes = .ok g) :
    ∃ colors pairs rest, PartsFit colors pairs ∧ bytes = partBytes colors pairs ++ rest ∧
      ofParts colors pairs = .ok g := by
  by_cases hbegins : BeginsWithParts bytes
  · obtain ⟨colors, pairs, rest, hfit, rfl⟩ := hbegins
    rw [ofBytes_partBytes hfit, mapError_eq_ok_iff] at h
    exact ⟨colors, pairs, rest, hfit, rfl, h⟩
  · rw [ofBytes_of_not_beginsWithParts hbegins] at h
    cases h

/-! ### Graphs and their own bytes -/

/-- The parts of a graph fit if its counts do: the ends of edges are vertices, so they are below the
count of vertices. -/
theorem partsFit_edgeList (hvertices : g.vertexCount < wordLimit)
    (hedges : g.edgeCount < wordLimit) : PartsFit g.colors.toList g.edgeList where
  colors_lt := by rwa [Array.length_toList]
  pairs_lt := by rwa [length_edgeList]
  ends_lt := by
    intro pair hpair
    obtain ⟨-, hlow, hhigh⟩ := joinable_of_mem_edgeList hpair
    exact ⟨Nat.lt_trans hlow hvertices, Nat.lt_trans hhigh hvertices⟩

/-- The counts of a graph that was read fit, since repeated pairs only make fewer edges. -/
theorem counts_lt_of_ofBytes (h : ofBytes bytes = .ok g) :
    g.vertexCount < wordLimit ∧ g.edgeCount < wordLimit := by
  obtain ⟨colors, pairs, rest, hfit, -, hparts⟩ := exists_parts_of_ofBytes h
  have hcount : g.vertexCount = colors.length := congrArg Array.size (hasEdge_ofParts hparts).1
  exact ⟨hcount ▸ hfit.colors_lt, Nat.lt_of_le_of_lt (edgeCount_le_of_ofParts hparts) hfit.pairs_lt⟩

/-- A graph is made again of its own colours and edges, which its bytes hold. -/
theorem ofBytes_toBytes_append (hvertices : g.vertexCount < wordLimit)
    (hedges : g.edgeCount < wordLimit) (rest : List UInt8) :
    ofBytes (g.toBytes ++ rest) = .ok g := by
  rw [toBytes_eq, ofBytes_partBytes (partsFit_edgeList hvertices hedges), ofParts_edgeList]
  rfl

/-- A graph is read back from its bytes, whatever follows them, and a front of the bytes is
refused as a document. A graph that was read has the colours and pairs of the document; it is
a graph in which edges join different vertices in either order, and it is read back from its
own bytes. A pair of the document that names one vertex twice, or a vertex that is none, is an
error of the graph. All other byte strings are refused as documents. -/
theorem ofBytes_reads_toBytes :
    (∀ g : ColoredGraph, g.vertexCount < wordLimit → g.edgeCount < wordLimit →
      (∀ rest, ofBytes (g.toBytes ++ rest) = .ok g) ∧
      ∀ front back, g.toBytes = front ++ back → back ≠ [] →
        ∃ e : Error, ofBytes front = .error e ∧ e.family.label = "serde") ∧
    (∀ bytes g, ofBytes bytes = .ok g →
      (∃ colors pairs rest, PartsFit colors pairs ∧ bytes = partBytes colors pairs ++ rest ∧
        g.colors = colors.toArray ∧
        ∀ a b, g.hasEdge a b = true ↔ (a, b) ∈ pairs ∨ (b, a) ∈ pairs) ∧
      (∀ a b, g.hasEdge a b = true →
        g.hasEdge b a = true ∧ a ≠ b ∧ a < g.vertexCount ∧ b < g.vertexCount) ∧
      ofBytes g.toBytes = .ok g) ∧
    (∀ colors pairs rest, PartsFit colors pairs →
      (∃ pair ∈ pairs, pair.1 = pair.2 ∨ colors.length ≤ pair.1 ∨ colors.length ≤ pair.2) →
      ∃ e : Error, ofBytes (partBytes colors pairs ++ rest) = .error e ∧
        e.family.label = "graph") ∧
    ∀ bytes, ¬BeginsWithParts bytes →
      ∃ e : Error, ofBytes bytes = .error e ∧ e.family.label = "serde" := by
  have hrefused : ∀ bytes, ¬BeginsWithParts bytes →
      ∃ e : Error, ofBytes bytes = .error e ∧ e.family.label = "serde" :=
    fun bytes h => ⟨_, ofBytes_of_not_beginsWithParts h, rfl⟩
  refine ⟨fun g hvertices hedges => ⟨?_, fun front back hcut hback => ?_⟩,
    fun bytes g h => ⟨?_, fun a b hab => ?_, ?_⟩, fun colors pairs rest hfit hbad => ?_, hrefused⟩
  · exact ofBytes_toBytes_append hvertices hedges
  · have hfit := partsFit_edgeList hvertices hedges
    exact hrefused front (not_beginsWithParts_of_cut hfit hcut hback)
  · obtain ⟨colors, pairs, rest, hfit, hbytes, hparts⟩ := exists_parts_of_ofBytes h
    exact ⟨colors, pairs, rest, hfit, hbytes, hasEdge_ofParts hparts⟩
  · exact ⟨hasEdge_comm g a b ▸ hab, joinable_of_hasEdge hab⟩
  · -- the graph is written with fewer pairs than it was read from, or as many
    obtain ⟨hvertices, hedges⟩ := counts_lt_of_ofBytes h
    have hread := ofBytes_toBytes_append hvertices hedges []
    rwa [List.append_nil] at hread
  · have hnot : ∃ pair ∈ pairs, ¬Joinable colors.length pair := by
      obtain ⟨pair, hpair, hbad⟩ := hbad
      refine ⟨pair, hpair, fun ⟨hne, hlow, hhigh⟩ => ?_⟩
      omega
    obtain ⟨cause, hcause⟩ := exists_ofParts_eq_error hnot
    refine ⟨.graph cause, ?_, ?_⟩
    · rw [ofBytes_partBytes hfit, hcause]
      rfl
    · cases cause <;> rfl

/-- Three vertices, the outer two of which have one colour and are joined. -/
def joinedEnds : ColoredGraph :=
  (ofColors #[7, 2, 7]).insertEdge 0 2 (by decide) (Nat.zero_lt_succ 2) (by decide : 2 < 3)

/-- The graph with one edge between its ends: its bytes, the bytes cut between the ends of the edge,
a document whose third pair is a loop, and a string that is an absurd count with nothing behind it.
-/
theorem ofBytes_reads_toBytes_joinedEnds :
    (∀ rest, ofBytes (joinedEnds.toBytes ++ rest) = .ok joinedEnds) ∧
    (∃ e, ofBytes (joinedEnds.toBytes.take 36) = .error e ∧ e.family.label = "serde") ∧
    ofBytes joinedEnds.toBytes = .ok joinedEnds ∧
    (∃ e, ofBytes (partBytes [7, 2] [(1, 0), (0, 1), (1, 1)] ++ [0]) = .error e ∧
      e.family.label = "graph") ∧
    ∃ e, ofBytes (List.replicate 8 255) = .error e ∧ e.family.label = "serde" := by
  obtain ⟨hwhole, hread, hbad, hrefused⟩ := ofBytes_reads_toBytes
  obtain ⟨hback, hcut⟩ := hwhole joinedEnds (by decide +kernel) (by decide +kernel)
  refine ⟨hback, ?_, ?_, ?_, ?_⟩
  · exact hcut _ _ (List.take_append_drop 36 _).symm (by decide +kernel)
  · exact (hread (joinedEnds.toBytes ++ []) joinedEnds (hback [])).2.2
  · exact hbad _ _ _ ⟨by decide, by decide, by decide⟩ ⟨(1, 1), by decide, .inl rfl⟩
  · exact hrefused _ (readParts_eq_none_iff.1 (by decide +kernel))

end PlanOrbits.ColoredGraph
