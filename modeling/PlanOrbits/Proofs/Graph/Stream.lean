import PlanOrbits.Graph.Adjacency
import PlanOrbits.Proofs.Graph.Bytes

/-!
# What a hash tells about a graph

A graph is hashed by way of its stream, which is the tag of the format and then the bytes of the
graph. Since a graph is read back from its bytes whatever follows them, a stream tells its graph
and also where it ends (`eq_of_stream_append_eq`): different graphs have different streams, of
which neither begins with the other. Hexadecimal text tells the digest (`Bytes.hex_injective`), so
that two graphs of one hash are equal or have streams that collide (`hash_eq_iff`).

A graph that is built by calls is determined by the colours of the vertices that were added and by
the pairs that were joined (`colors_answerAll`, `hasEdge_answerAll`), in whatever order the calls
were made; and so is its hash.
-/

namespace PlanOrbits

/-! ### Hexadecimal text -/

namespace Bytes

/-- The sixteen digits are different characters. -/
theorem eq_of_digitChar_eq : ∀ m < 16, ∀ n < 16, Nat.digitChar m = Nat.digitChar n → m = n := by
  decide

/-- A byte is told by its two digits, its quotient and its remainder by sixteen. -/
theorem hexByte_injective : Function.Injective hexByte := by
  intro b c h
  rw [hexByte, hexByte, List.cons.injEq, List.cons.injEq] at h
  obtain ⟨hhigh, hlow, -⟩ := h
  have hb := b.toNat_lt
  have hc := c.toNat_lt
  have hhigh := eq_of_digitChar_eq _ (by omega) _ (by omega) hhigh
  have hlow := eq_of_digitChar_eq _ (by omega) _ (by omega) hlow
  exact UInt8.toNat_inj.1 (by omega)

/-- Bytes are told by their hexadecimal text. Every byte takes two characters, so the texts are
compared two characters at a time. -/
theorem hex_injective : Function.Injective hex := by
  intro bs cs h
  replace h : bs.flatMap hexByte = cs.flatMap hexByte := String.ofList_injective h
  induction bs generalizing cs with
  | nil =>
      cases cs with
      | nil => rfl
      | cons c cs => cases h
  | cons b bs ih =>
      cases cs with
      | nil => cases h
      | cons c cs =>
          -- every byte is written with two digits
          rw [List.flatMap_cons, List.flatMap_cons] at h
          obtain ⟨hfirst, hrest⟩ := List.append_inj h rfl
          rw [hexByte_injective hfirst, ih hrest]

end Bytes

namespace ColoredGraph

open Std (ExtTreeSet)
open Text (wordLimit)

variable {g h : ColoredGraph}

/-! ### Streams -/

/-- The counts of the graph are words of 64 bits. -/
structure FitsWords (g : ColoredGraph) : Prop where
  vertexCount_lt : g.vertexCount < wordLimit
  edgeCount_lt : g.edgeCount < wordLimit

/-- The stream is the tag of the format, which is the same for all graphs, and the bytes of the
graph. -/
theorem stream_eq (g : ColoredGraph) : g.stream = streamTag ++ g.toBytes := by
  simp only [stream, toBytes, Bytes.writeList, vertexCount, Array.length_toList, List.append_assoc]

/-- A byte string that begins with a stream tells the graph of it, and what is behind it: behind the
tag both sides are read as graphs. -/
theorem eq_of_stream_append_eq (hg : g.FitsWords) (hh : h.FitsWords) {back back' : List UInt8}
    (heq : g.stream ++ back = h.stream ++ back') : g = h ∧ back = back' := by
  rw [stream_eq, stream_eq, List.append_assoc, List.append_assoc] at heq
  have hbytes : g.toBytes ++ back = h.toBytes ++ back' := List.append_cancel_left heq
  have hread := ofBytes_toBytes_append hg.vertexCount_lt hg.edgeCount_lt back
  rw [hbytes, ofBytes_toBytes_append hh.vertexCount_lt hh.edgeCount_lt, Except.ok.injEq] at hread
  subst hread
  exact ⟨rfl, List.append_cancel_left hbytes⟩

/-- Graphs of word size are equal if their streams are: `eq_of_stream_append_eq` with nothing
behind them. -/
theorem stream_eq_iff (hg : g.FitsWords) (hh : h.FitsWords) : g.stream = h.stream ↔ g = h := by
  constructor
  · intro heq
    exact (eq_of_stream_append_eq hg hh (congrArg (· ++ []) heq)).1
  · rintro rfl
    rfl

/-- Graphs are equal if they have the same colours and join the same vertices, in whatever way they
were built. -/
theorem eq_iff_hasEdge : g = h ↔ g.colors = h.colors ∧ ∀ a b, g.hasEdge a b = h.hasEdge a b := by
  constructor
  · rintro rfl
    exact ⟨rfl, fun a b => rfl⟩
  · rintro ⟨hcolors, hedges⟩
    exact eq_of_hasEdge hcolors hedges

/-! ### Hashes -/

/-- The two byte strings differ, but have one digest. -/
def Collide (bytes bytes' : List UInt8) : Prop :=
  bytes ≠ bytes' ∧ Sha256.digest bytes = Sha256.digest bytes'

/-- Graphs of one hash are equal, or their streams are different and collide. Nothing else is lost
on the way to the hash. -/
theorem hash_eq_iff (hg : g.FitsWords) (hh : h.FitsWords) :
    g.hash = h.hash ↔ g = h ∨ Collide g.stream h.stream := by
  have hdigest : g.hash = h.hash ↔ Sha256.digest g.stream = Sha256.digest h.stream :=
    Bytes.hex_injective.eq_iff
  rw [hdigest, ← stream_eq_iff hg hh, Collide]
  by_cases heq : g.stream = h.stream
  · simp [heq]
  · simp [heq]

/-! ### Graphs that are built by calls -/

/-- The colours of the vertices that calls add, in the order of the vertices. -/
def addedColors (calls : List GraphCall) : List Color :=
  calls.filterMap fun call =>
    match call with
    | .vertex color => some color
    | .edge _ _ => none

/-- The pairs that calls join, given the answers: those of the edges that are not refused. -/
def joinedPairs (calls : List GraphCall) (answers : List GraphAnswer) : List (Nat × Nat) :=
  (calls.zip answers).filterMap fun exchange =>
    match exchange with
    | (.edge a b, .edge _) => some (a, b)
    | _ => none

/-- Do the calls, made of the graph without vertices, join the two? -/
def Joins (calls : List GraphCall) (a b : Nat) : Prop :=
  (a, b) ∈ joinedPairs calls (answerAll answer empty calls).2 ∨
    (b, a) ∈ joinedPairs calls (answerAll answer empty calls).2

/-- A call for a vertex adds its colour at the end, and a call for an edge adds none. -/
theorem colors_answer (g : ColoredGraph) (call : GraphCall) :
    (g.answer call).1.colors.toList = g.colors.toList ++ addedColors [call] := by
  cases call with
  | vertex color => exact Array.toList_push
  | edge a b =>
      rw [answer]
      split
      · rename_i g' isNew h
        rw [(hasEdge_of_addEdge h).1]
        exact (List.append_nil _).symm
      · exact (List.append_nil _).symm

/-- A call for an edge joins its pair, unless it is refused, and a call for a vertex joins nothing.
-/
theorem hasEdge_answer (g : ColoredGraph) (call : GraphCall) (a b : Nat) :
    (g.answer call).1.hasEdge a b = true ↔
      (a, b) ∈ joinedPairs [call] [(g.answer call).2] ∨
        (b, a) ∈ joinedPairs [call] [(g.answer call).2] ∨ g.hasEdge a b = true := by
  -- an edge that is refused is not among the joined pairs, as they are told by the answers
  cases call with
  | vertex color => simp [joinedPairs, answer, hasEdge, addVertex]
  | edge c d =>
      rw [answer]
      split
      · rename_i g' isNew h
        have hjoined : joinedPairs [.edge c d] [.edge isNew] = [(c, d)] := rfl
        rw [(hasEdge_of_addEdge h).2, hjoined, List.mem_singleton, List.mem_singleton,
          Prod.mk.injEq, Prod.mk.injEq]
        grind
      · simp [joinedPairs]

/-- The colours after a list of calls, in the order in which vertices were added. -/
theorem colors_answerAll (g : ColoredGraph) (calls : List GraphCall) :
    (answerAll answer g calls).1.colors.toList = g.colors.toList ++ addedColors calls := by
  induction calls generalizing g with
  | nil => exact (List.append_nil _).symm
  | cons call calls ih =>
      have hrun : (answerAll answer g (call :: calls)).1 =
          (answerAll answer (g.answer call).1 calls).1 := rfl
      have hadded : addedColors (call :: calls) = addedColors [call] ++ addedColors calls :=
        List.filterMap_append (l := [call])
      rw [hrun, ih, colors_answer, hadded, List.append_assoc]

/-- The pairs joined by a list of calls, by induction on the calls with `hasEdge_answer`. -/
theorem hasEdge_answerAll (g : ColoredGraph) (calls : List GraphCall) (a b : Nat) :
    (answerAll answer g calls).1.hasEdge a b = true ↔
      (a, b) ∈ joinedPairs calls (answerAll answer g calls).2 ∨
        (b, a) ∈ joinedPairs calls (answerAll answer g calls).2 ∨ g.hasEdge a b = true := by
  induction calls generalizing g with
  | nil => simp [answerAll, joinedPairs]
  | cons call calls ih =>
      have hrun : (answerAll answer g (call :: calls)).1 =
          (answerAll answer (g.answer call).1 calls).1 := rfl
      have hjoined : joinedPairs (call :: calls) (answerAll answer g (call :: calls)).2 =
          joinedPairs [call] [(g.answer call).2] ++
            joinedPairs calls (answerAll answer (g.answer call).1 calls).2 :=
        List.filterMap_append (l := [(call, (g.answer call).2)])
      rw [hrun, ih, hasEdge_answer, hjoined, List.mem_append, List.mem_append]
      tauto

/-- Graphs built of the same colours by joining the same pairs are equal. -/
theorem answerAll_eq_of_parts {calls calls' : List GraphCall}
    (hcolors : addedColors calls = addedColors calls')
    (hjoined : ∀ a b, Joins calls a b ↔ Joins calls' a b) :
    (answerAll answer empty calls).1 = (answerAll answer empty calls').1 := by
  refine eq_of_hasEdge ?_ fun a b => ?_
  · rw [← Array.toList_inj, colors_answerAll, colors_answerAll, hcolors]
  · have hnone : ¬empty.hasEdge a b = true := by simp [empty]
    rw [Bool.eq_iff_iff, hasEdge_answerAll, hasEdge_answerAll, or_iff_left hnone,
      or_iff_left hnone]
    exact hjoined a b

/-! ### What a hash tells -/

/-- A stream tells its graph, which is to say its colours and which vertices it joins, and a
stream begins with another only if they are the same. If the streams of two graphs do not collide,
then their hashes tell them apart. Calls that add the same colours and join the same pairs, in any
order and direction and any number of times, lead to one hash. -/
theorem hash_tells_graph :
    (∀ g h : ColoredGraph, g.FitsWords → h.FitsWords →
      (g.stream = h.stream ↔ g = h) ∧
      (g = h ↔ g.colors = h.colors ∧ ∀ a b, g.hasEdge a b = h.hasEdge a b) ∧
      (∀ back, g.stream ++ back = h.stream ↔ g = h ∧ back = []) ∧
      (¬Collide g.stream h.stream → (g.hash = h.hash ↔ g = h))) ∧
    ∀ calls calls', addedColors calls = addedColors calls' →
      (∀ a b, Joins calls a b ↔ Joins calls' a b) →
      (answerAll answer empty calls).1.hash = (answerAll answer empty calls').1.hash := by
  refine ⟨fun g h hg hh => ⟨stream_eq_iff hg hh, eq_iff_hasEdge, fun back => ⟨fun hback => ?_, ?_⟩,
    fun hcollide => ?_⟩, fun calls calls' hcolors hjoined => ?_⟩
  · rw [← List.append_nil h.stream] at hback
    exact eq_of_stream_append_eq hg hh hback
  · rintro ⟨rfl, rfl⟩
    exact List.append_nil _
  · rw [hash_eq_iff hg hh, or_iff_left hcollide]
  · rw [answerAll_eq_of_parts hcolors hjoined]

/-- One vertex of one of two colours has two hashes. Three vertices and an edge have one hash,
although the second calls for edges are made before the vertices are there, name the ends in the
other order, or are made once more. -/
theorem hash_tells_graph_ofColors :
    (ofColors #[7]).hash ≠ (ofColors #[2]).hash ∧
    (answerAll answer empty [.vertex 7, .vertex 2, .vertex 7, .edge 0 2]).1.hash =
      (answerAll answer empty [.vertex 7, .edge 0 1, .vertex 2, .vertex 7, .edge 2 0, .edge 1 1,
        .edge 0 2]).1.hash := by
  obtain ⟨htells, hcalls⟩ := hash_tells_graph
  constructor
  · have hsmall : ∀ color, (ofColors #[color]).FitsWords := fun color =>
      ⟨(by decide : 1 < wordLimit), (by decide +kernel : (∅ : ExtTreeSet Edge).size < wordLimit)⟩
    have hcollide : ¬Collide (ofColors #[7]).stream (ofColors #[2]).stream := fun hcollide =>
      absurd hcollide.2 (by decide +kernel)
    rw [ne_eq, (htells _ _ (hsmall 7) (hsmall 2)).2.2.2 hcollide]
    intro heq
    exact absurd (congrArg colors heq) (by decide)
  · refine hcalls _ _ rfl fun a b => ?_
    have hfirst : joinedPairs [.vertex 7, .vertex 2, .vertex 7, .edge 0 2]
        (answerAll answer empty [.vertex 7, .vertex 2, .vertex 7, .edge 0 2]).2 = [(0, 2)] := by
      decide +kernel
    have hsecond : joinedPairs [.vertex 7, .edge 0 1, .vertex 2, .vertex 7, .edge 2 0, .edge 1 1,
        .edge 0 2] (answerAll answer empty [.vertex 7, .edge 0 1, .vertex 2, .vertex 7, .edge 2 0,
          .edge 1 1, .edge 0 2]).2 = [(2, 0), (0, 2)] := by
      decide +kernel
    rw [Joins, Joins, hfirst, hsecond]
    grind

end ColoredGraph

end PlanOrbits
