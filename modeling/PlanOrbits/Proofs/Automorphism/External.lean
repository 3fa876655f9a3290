import PlanOrbits.CommandLine.Execution
import PlanOrbits.Proofs.Automorphism.Consistency
import PlanOrbits.Proofs.Graph.Sparse
import PlanOrbits.Proofs.Permutation.NormalForm

/-!
# Automorphisms in terms of identifiers

What is found out about a renumbered graph is told in the identifiers that the vertices had before.
Every vertex has an identifier, and all that is told of are vertices, so that nothing can go wrong
(`externalAutomorphisms_eq`); the command about automorphisms is the same without this case
(`FileCommand.automorphisms_eq`).

The orbits are told as they are. Of cycles more is asked: that they begin with their least
identifiers and ascend. Cycles of vertices do so in terms of vertices, and it carries over since
identifiers ascend with the vertices (`areCyclesOf_map`).
-/

namespace PlanOrbits

namespace Renumbering

variable {r : Renumbering} {id v w : Nat} {p : Permutation} {a : Automorphisms}

/-! ### Identifiers of vertices -/

/-- The identifier of a vertex. Numbers that are no vertices have the identifier 0. -/
def idOf (r : Renumbering) (v : Nat) : Nat := (r.external? v).getD 0

/-- Every vertex has an identifier, so that `external?` finds one. -/
theorem external?_eq (h : v < r.size) : r.external? v = some (r.idOf v) := by
  obtain ⟨id, hid⟩ := lt_size_iff.1 h
  rw [idOf, dense_eq_ok_iff.1 hid, Option.getD_some]

/-- `external` finds the identifier of every vertex. Its error for other numbers therefore never
occurs. -/
theorem external_eq (h : v < r.size) : r.external v = .ok (r.idOf v) := by
  rw [external, external?_eq h]

/-- `dense` leads from the identifier of a vertex back to the vertex. -/
theorem dense_idOf (h : v < r.size) : r.dense (r.idOf v) = .ok v :=
  dense_eq_ok_iff.2 (external?_eq h)

theorem idOf_mem (h : v < r.size) : r.idOf v ∈ r.ids := exists_dense_iff.1 ⟨v, dense_idOf h⟩

/-- Every listed identifier is that of a vertex. -/
theorem exists_idOf (h : id ∈ r.ids) : ∃ v < r.size, r.idOf v = id := by
  obtain ⟨v, hv⟩ := exists_dense_iff.2 h
  have hlt := lt_size_iff.2 ⟨id, hv⟩
  exact ⟨v, hlt, (eq_iff_of_dense (dense_idOf hlt) hv).1 rfl⟩

/-- Identifiers ascend with the vertices. This is what keeps the first member of a cycle its least
one, and the cycles in their order. -/
theorem idOf_lt_idOf_iff (hv : v < r.size) (hw : w < r.size) : r.idOf v < r.idOf w ↔ v < w :=
  (lt_iff_of_dense (dense_idOf hv) (dense_idOf hw)).symm

theorem idOf_le_idOf_iff (hv : v < r.size) (hw : w < r.size) : r.idOf v ≤ r.idOf w ↔ v ≤ w := by
  rw [← Nat.not_lt, idOf_lt_idOf_iff hw hv, Nat.not_lt]

theorem idOf_eq_idOf_iff (hv : v < r.size) (hw : w < r.size) : r.idOf v = r.idOf w ↔ v = w :=
  (eq_iff_of_dense (dense_idOf hv) (dense_idOf hw)).symm

/-- `idOf` is a bijection between the vertices and the listed identifiers. -/
theorem bijOn_idOf (r : Renumbering) :
    Set.BijOn r.idOf (Set.Iio r.size) {id | id ∈ r.ids} :=
  ⟨fun _ => idOf_mem, fun _ hv _ hw => (idOf_eq_idOf_iff hv hw).1, fun _ => exists_idOf⟩

/-! ### Lists of vertices -/

/-- A list of vertices is translated member by member, and no member is refused. -/
theorem mapM_external {vs : List Nat} (h : ∀ v ∈ vs, v < r.size) :
    vs.mapM r.external = .ok (vs.map r.idOf) :=
  mapM_eq_ok_map fun v hv => external_eq (h v hv)

/-- `mapM_external` for lists of lists, as the orbits of a result and the cycles of a generator
are. -/
theorem mapM_mapM_external {lists : List (List Nat)} (h : ∀ v ∈ lists.flatten, v < r.size) :
    lists.mapM (·.mapM r.external) = .ok (lists.map (·.map r.idOf)) :=
  mapM_eq_ok_map fun _ hvs => mapM_external fun v hv => h v (List.mem_flatten_of_mem hvs hv)

/-! ### Permutations of identifiers -/

/-- What a permutation of the vertices does to an identifier: it goes to the vertex of the
identifier, to the image of the vertex, and back to an identifier. -/
def imageOfId (r : Renumbering) (p : Permutation) (id : Nat) : Except GraphError Nat := do
  let v ← r.dense id
  r.external (p.image v)

/-- What `imageOfId` does to the identifier of a vertex is what the permutation does to the vertex.
-/
theorem imageOfId_idOf (hsize : p.size = r.size) (hv : v < r.size) :
    r.imageOfId p (r.idOf v) = .ok (r.idOf (p.image v)) := by
  have himage : p.image v < r.size := hsize ▸ p.image_lt_size_iff.2 (hsize ▸ hv)
  rw [imageOfId, dense_idOf hv]
  exact external_eq himage

/-- If the permutation acts on all vertices, `imageOfId` is defined on all listed identifiers and
permutes them: it is the image under `idOf` of the permutation of the vertices. -/
theorem exists_bijOn_imageOfId (hsize : p.size = r.size) :
    ∃ f : Nat → Nat, Set.BijOn f {id | id ∈ r.ids} {id | id ∈ r.ids} ∧
      ∀ id ∈ r.ids, r.imageOfId p id = .ok (f id) := by
  have himage := p.bijOn_image
  rw [hsize] at himage
  -- the function goes back to the vertex, on to its image, and to an identifier again
  obtain ⟨back, hback⟩ : ∃ back, Set.InvOn back r.idOf (Set.Iio r.size) {id | id ∈ r.ids} :=
    ⟨_, r.bijOn_idOf.invOn_invFunOn⟩
  have hmaps : Set.BijOn back {id | id ∈ r.ids} (Set.Iio r.size) := r.bijOn_idOf.symm hback.symm
  refine ⟨r.idOf ∘ p.image ∘ back, r.bijOn_idOf.comp (himage.comp hmaps), fun id hid => ?_⟩
  obtain ⟨v, hv, rfl⟩ := exists_idOf hid
  have heq : back (r.idOf v) = v := hback.1 hv
  rw [imageOfId_idOf hsize hv, Function.comp_apply, Function.comp_apply, heq]

/-- Cycles of listed identifiers, written in one way only, that tell what the permutation does to
the identifiers. -/
structure AreCyclesOf (r : Renumbering) (p : Permutation) (cycles : List (List Nat)) : Prop where
  listed : ∀ id ∈ cycles.flatten, id ∈ r.ids
  /-- No identifier is there twice, in one cycle or in two. -/
  distinct : cycles.flatten.Nodup
  long : ∀ cycle ∈ cycles, 2 ≤ cycle.length
  least : ∀ cycle ∈ cycles, ∀ id ∈ cycle, startOf cycle ≤ id
  ascending : cycles.Pairwise fun c d => startOf c < startOf d
  /-- Each identifier of a cycle goes to the next one, and the last to the first. -/
  follows : ∀ cycle ∈ cycles, ∀ step ∈ rotation cycle, r.imageOfId p step.1 = .ok step.2
  fixes : ∀ id ∈ r.ids, id ∉ cycles.flatten → r.imageOfId p id = .ok id

/-- To rename the members of a cycle renames both ends of each of its steps. -/
theorem rotation_map (f : Nat → Nat) (cycle : List Nat) :
    rotation (cycle.map f) = (rotation cycle).map (Prod.map f f) := by
  rw [rotation, rotation, ← List.zip_map, List.map_append, List.map_tail, List.head?_map,
    Option.toList_map]

section

variable (hsize : p.size = r.size) {cycle : List Nat}

include hsize

theorem lt_size_of_mem_cycles (hcycle : cycle ∈ p.cycles) (hv : v ∈ cycle) : v < r.size :=
  hsize ▸ Permutation.lt_size_of_mem_flatten_cycles (List.mem_flatten_of_mem hcycle hv)

/-- A renamed cycle begins with the identifier of the vertex that the cycle begins with. -/
theorem startOf_map_idOf (hcycle : cycle ∈ p.cycles) :
    startOf cycle < r.size ∧ startOf (cycle.map r.idOf) = r.idOf (startOf cycle) := by
  have hne : cycle ≠ [] := List.ne_nil_of_length_pos
    (Nat.lt_of_lt_of_le Nat.two_pos (p.isDecomposition_cycles.long cycle hcycle))
  exact ⟨lt_size_of_mem_cycles hsize hcycle (startOf_mem hne), startOf_map hne r.idOf⟩

/-- The identifiers in the renamed cycles are those of the vertices that are moved. -/
theorem mem_flatten_map_idOf : id ∈ (p.cycles.map (·.map r.idOf)).flatten ↔
    ∃ v < r.size, p.image v ≠ v ∧ r.idOf v = id := by
  rw [← List.map_flatten, List.mem_map]
  refine exists_congr fun v => ?_
  rw [← Permutation.mem_flatten_cycles, ← and_assoc]
  refine and_congr_left' (and_iff_right_of_imp fun hv => ?_).symm
  exact hsize ▸ Permutation.lt_size_of_mem_flatten_cycles hv

/-- The renamed cycles of a permutation are its cycles in terms of identifiers, in the one form that
`AreCyclesOf` allows. Since the identifiers ascend with the vertices, what is least and what comes
first among the vertices is so among the identifiers. -/
theorem areCyclesOf_map : r.AreCyclesOf p (p.cycles.map (·.map r.idOf)) := by
  have hcycles := p.isDecomposition_cycles
  constructor
  case listed =>
    intro id hid
    obtain ⟨v, hv, -, rfl⟩ := (mem_flatten_map_idOf hsize).1 hid
    exact idOf_mem hv
  case distinct =>
    have hlt : ∀ v ∈ p.cycles.flatten, v < r.size := fun v hv =>
      hsize ▸ Permutation.lt_size_of_mem_flatten_cycles hv
    rw [← List.map_flatten]
    exact p.nodup_flatten_cycles.map_on fun v hv w hw =>
      (idOf_eq_idOf_iff (hlt v hv) (hlt w hw)).1
  case long =>
    simp only [List.forall_mem_map, List.length_map]
    exact hcycles.long
  -- the first vertex of a cycle is its least one, and `idOf` is monotone
  case least =>
    simp only [List.forall_mem_map]
    intro cycle hcycle v hv
    obtain ⟨hlt, hstart⟩ := startOf_map_idOf hsize hcycle
    rw [hstart, idOf_le_idOf_iff hlt (lt_size_of_mem_cycles hsize hcycle hv)]
    exact hcycles.least cycle hcycle v hv
  case ascending =>
    rw [List.pairwise_map]
    refine hcycles.ascending.imp_of_mem fun hc hd hless => ?_
    obtain ⟨hlt, hstart⟩ := startOf_map_idOf hsize hc
    obtain ⟨hlt', hstart'⟩ := startOf_map_idOf hsize hd
    rw [hstart, hstart', idOf_lt_idOf_iff hlt hlt']
    exact hless
  -- a step of the renamed cycle is a renamed step of the cycle
  case follows =>
    simp only [List.forall_mem_map, rotation_map]
    intro cycle hcycle step hstep
    have hfirst : step.1 ∈ cycle := map_fst_rotation cycle ▸ List.mem_map_of_mem hstep
    have himage := Permutation.traverses_iff.1 (hcycles.traverses cycle hcycle) step hstep
    rw [Prod.map_fst, Prod.map_snd,
      imageOfId_idOf hsize (lt_size_of_mem_cycles hsize hcycle hfirst), himage]
  case fixes =>
    intro id hid hnot
    obtain ⟨v, hv, rfl⟩ := exists_idOf hid
    have hfixed : p.image v = v := by
      refine not_not.1 fun hmoved => hnot ?_
      exact (mem_flatten_map_idOf hsize).2 ⟨v, hv, hmoved, rfl⟩
    rw [imageOfId_idOf hsize hv, hfixed]

end

/-! ### Automorphisms -/

/-- The automorphisms in terms of identifiers, for vertices that have one. -/
def named (r : Renumbering) (a : Automorphisms) : ExternalAutomorphisms where
  groupOrder := a.groupOrder
  generators := a.group.generators.map fun p => p.cycles.map (·.map r.idOf)
  orbits := a.orbits.map (·.map r.idOf)
  metrics := a.metrics

/-- For consistent automorphisms the translation succeeds, and is `named`: the error for a vertex
without an identifier is never reported. -/
theorem externalAutomorphisms_eq (h : a.IsConsistent r.size) :
    r.externalAutomorphisms a = .ok (r.named a) := by
  have hgenerators : a.group.generators.mapM (fun p => p.cycles.mapM (·.mapM r.external)) =
      .ok (a.group.generators.map fun p => p.cycles.map (·.map r.idOf)) := by
    refine mapM_eq_ok_map fun p hp => mapM_mapM_external fun v hv => ?_
    rw [← (h.generators p hp).1]
    exact Permutation.lt_size_of_mem_flatten_cycles hv
  have horbits : a.orbits.mapM (·.mapM r.external) = .ok (a.orbits.map (·.map r.idOf)) :=
    mapM_mapM_external fun v hv => List.mem_range.1 (h.orbits.perm.mem_iff.1 hv)
  rw [externalAutomorphisms, hgenerators, horbits]
  rfl

end Renumbering

/-! ### What is found -/

/-- What an engine may find out about a graph: what a transcript says that is accepted for its
vertices and, if there are none, nothing. -/
inductive ColoredGraph.IsFound (g : ColoredGraph) (a : Automorphisms) : Prop where
  | transcript (t : Transcript) (h : Automorphisms.ofTranscript t g.vertexCount = .ok a)
  | empty (hg : g.vertexCount = 0) (ha : a = Automorphisms.trivial 0)

/-- Whatever may be found about a graph is consistent with its number of vertices. -/
theorem ColoredGraph.IsFound.isConsistent {g : ColoredGraph} {a : Automorphisms}
    (h : g.IsFound a) : a.IsConsistent g.vertexCount := by
  cases h with
  | transcript t h =>
      have houtcome := Automorphisms.outcome t g.vertexCount
      rw [h] at houtcome
      exact houtcome.isConsistent
  | empty hg ha =>
      rw [hg, ha]
      exact Automorphisms.isConsistent_trivial 0

section

variable {m : Type → Type} [Monad m] [LawfulMonad m] [Programs m]

/-- What is done with the result of a computation matters only for what may be found. -/
theorem EngineConfig.compute_bind_congr {β : Type} {c : EngineConfig} {g : ColoredGraph}
    {f f' : Except Error Automorphisms → m β}
    (h : ∀ result, (∀ a, result = .ok a → g.IsFound a) → f result = f' result) :
    c.compute g >>= f = c.compute g >>= f' := by
  unfold EngineConfig.compute
  split
  · -- no engine is asked about a graph without vertices
    rename_i hempty
    rw [pure_bind, pure_bind]
    refine h _ fun a ha => ?_
    cases ha
    exact .empty (Array.isEmpty_iff_size_eq_zero.1 hempty) rfl
  · -- whatever a started program did, its result is one of `ofTranscript` or an error
    rw [bind_assoc, bind_assoc]
    refine bind_congr fun outcome => ?_
    rw [pure_bind, pure_bind]
    refine h _ fun a ha => ?_
    obtain ⟨t, -, ht⟩ := bind_eq_ok_iff.1 ha
    exact .transcript t ht

end

/-! ### Graphs with identifiers -/

namespace SparseGraph

variable {s : SparseGraph} {text : String} {g : ColoredGraph} {r : Renumbering} {a : Automorphisms}

/-- A text is accepted as a graph with identifiers if it is read as one, and this one is well
formed. -/
theorem ofText_eq_ok_iff : ofText text = .ok (g, r) ↔
    ∃ s, readJson? SparseGraph text = some s ∧ s.densify = .ok (g, r) := by
  rw [ofText]
  cases readJson? SparseGraph text with
  | none => simp [throw, throwThe, MonadExceptOf.throw]
  | some s => simp [liftM_graph_eq_ok_iff]

/-- What is known of the renumbering of an accepted graph: it has an identifier for every vertex,
and the identifiers are those that were listed, each of them once. -/
theorem renumbering_of_densify (h : s.densify = .ok (g, r)) :
    g.vertexCount = r.size ∧ s.ids.Nodup ∧ ∀ id, id ∈ r.ids ↔ id ∈ s.ids := by
  obtain ⟨hnodup, hg, rfl⟩ := densify_eq_ok_iff.1 h
  refine ⟨?_, hnodup, fun id => Renumbering.mem_ofIds⟩
  exact (vertexCount_of_foldlM_join hg).trans s.vertexCount_ofColors

/-- Automorphisms that are found for the renumbered graph are consistent with the renumbering. -/
theorem isConsistent_of_isFound (h : s.densify = .ok (g, r)) (ha : g.IsFound a) :
    a.IsConsistent r.size :=
  (renumbering_of_densify h).1 ▸ ha.isConsistent

/-- In terms of identifiers, the orbits contain every listed identifier exactly once. The vertices
are the numbers below the size, and `idOf` maps them one to one onto the identifiers. -/
theorem flatten_named_orbits_perm (h : s.densify = .ok (g, r)) (ha : a.IsConsistent r.size) :
    (r.named a).orbits.flatten.Perm s.ids := by
  obtain ⟨-, hnodup, hids⟩ := renumbering_of_densify h
  have hvertices : ((List.range r.size).map r.idOf).Perm s.ids := by
    refine (List.perm_ext_iff_of_nodup ?_ hnodup).2 fun id => ?_
    · exact List.nodup_range.map_on fun v hv w hw =>
        (Renumbering.idOf_eq_idOf_iff (List.mem_range.1 hv) (List.mem_range.1 hw)).1
    · rw [← hids, List.mem_map]
      constructor
      · rintro ⟨v, hv, rfl⟩
        exact Renumbering.idOf_mem (List.mem_range.1 hv)
      · intro hid
        obtain ⟨v, hv, rfl⟩ := Renumbering.exists_idOf hid
        exact ⟨v, List.mem_range.2 hv, rfl⟩
  have hflatten : (r.named a).orbits.flatten = a.orbits.flatten.map r.idOf := List.map_flatten.symm
  rw [hflatten]
  exact (ha.orbits.perm.map r.idOf).trans hvertices

end SparseGraph

/-! ### The command -/

namespace FileCommand

variable {m : Type → Type} [Monad m] [LawfulMonad m] {α β : Type}

/-- A step that succeeds without files leaves the rest of the command as it is. -/
theorem ofExcept_ok_bind (a : α) (f : α → FileCommand m β) : ofExcept (.ok a) >>= f = f a := by
  refine ExceptT.ext ?_
  rw [ExceptT.run_bind]
  exact pure_bind _ _

/-- A step that fails without files ends the command; what would follow does not matter. -/
theorem ofExcept_error_bind (e : Error) (f : α → FileCommand m β) :
    ofExcept (.error e) >>= f = ofExcept (.error e) := by
  refine ExceptT.ext ?_
  rw [ExceptT.run_bind]
  exact pure_bind _ _

/-- A computation that is lifted into a command is run first. With this lemma `compute_bind_congr`
applies inside a command. -/
theorem run_liftM_bind (x : m α) (f : α → FileCommand m β) :
    (liftM x >>= f).run = x >>= fun a => (f a).run :=
  ExceptT.run_bind_lift x f

variable [Files m] [Programs m] (isVerbose : Bool) (graph : String) (config out : Option String)

/-- The command about automorphisms, without the error for vertices that have no identifier. -/
def automorphismsByName : FileCommand m String := do
  let text ← readText graph (.unreadable graph)
  let (g, ids) ← ofExcept (SparseGraph.ofText text)
  let config ← loadConfig isVerbose config
  let found ← ofExcept (← (config.compute g : m (Except Error Automorphisms)))
  deliver out (toJson (ids.named found))

/-- The command about automorphisms, `automorphisms`, is `automorphismsByName`, for all files and
programs: after a graph was accepted, its branch for vertices without identifiers is never taken. -/
theorem automorphisms_eq : (automorphisms isVerbose graph config out : FileCommand m String) =
    automorphismsByName isVerbose graph config out := by
  unfold automorphisms automorphismsByName
  refine bind_congr fun text => ?_
  cases htext : SparseGraph.ofText text with
  | error e => rw [ofExcept_error_bind, ofExcept_error_bind]
  | ok result =>
      obtain ⟨g, ids⟩ := result
      obtain ⟨s, -, hs⟩ := SparseGraph.ofText_eq_ok_iff.1 htext
      rw [ofExcept_ok_bind, ofExcept_ok_bind]
      refine bind_congr fun engine => ExceptT.ext ?_
      rw [run_liftM_bind, run_liftM_bind]
      -- only what may be found about this graph comes back from the engine
      refine EngineConfig.compute_bind_congr fun result hresult => ?_
      cases result with
      | error e => rw [ofExcept_error_bind, ofExcept_error_bind]
      | ok a =>
          have hnamed := Renumbering.externalAutomorphisms_eq
            (SparseGraph.isConsistent_of_isFound hs (hresult a rfl))
          rw [ofExcept_ok_bind, ofExcept_ok_bind, hnamed]
          exact congrArg ExceptT.run (ofExcept_ok_bind _ _)

end FileCommand

/-! ### Translations -/

namespace SparseGraph

variable {s : SparseGraph} {text : String} {g : ColoredGraph} {r : Renumbering} {a : Automorphisms}

/-- Automorphisms of the vertices, and the same ones in terms of the listed identifiers: the orbits
are a partition of the identifiers, and the cycles of each generator tell how it permutes them. -/
structure IsTranslation (s : SparseGraph) (r : Renumbering) (a : Automorphisms)
    (x : ExternalAutomorphisms) : Prop where
  listed : ∀ id, id ∈ r.ids ↔ id ∈ s.ids
  nonempty : ∀ orbit ∈ x.orbits, orbit ≠ []
  partition : s.ids.Nodup ∧ x.orbits.flatten.Perm s.ids
  orbits : List.Forall₂ (List.Forall₂ fun v id => r.dense id = .ok v) a.orbits x.orbits
  cycles : List.Forall₂ r.AreCyclesOf a.group.generators x.generators
  bijections : ∀ p ∈ a.group.generators, ∃ f : Nat → Nat,
    Set.BijOn f {id | id ∈ s.ids} {id | id ∈ s.ids} ∧ ∀ id ∈ s.ids, r.imageOfId p id = .ok (f id)
  groupOrder : x.groupOrder = a.groupOrder
  metrics : x.metrics = a.metrics

/-- `named` satisfies all that is asked of a translation. -/
theorem isTranslation_named (h : s.densify = .ok (g, r)) (ha : a.IsConsistent r.size) :
    s.IsTranslation r a (r.named a) := by
  obtain ⟨-, hnodup, hids⟩ := renumbering_of_densify h
  constructor
  case listed => exact hids
  case nonempty =>
    simp only [Renumbering.named, List.forall_mem_map, ne_eq, List.map_eq_nil_iff]
    exact ha.orbits.nonempty
  case partition => exact ⟨hnodup, flatten_named_orbits_perm h ha⟩
  -- the identifiers stand at the same places as their vertices
  case orbits =>
    refine List.forall₂_map_right_iff.2 (List.forall₂_same.2 fun orbit horbit => ?_)
    refine List.forall₂_map_right_iff.2 (List.forall₂_same.2 fun v hv => ?_)
    have hmem := List.mem_flatten_of_mem horbit hv
    exact Renumbering.dense_idOf (List.mem_range.1 (ha.orbits.perm.mem_iff.1 hmem))
  case cycles =>
    exact List.forall₂_map_right_iff.2 (List.forall₂_same.2 fun p hp =>
      Renumbering.areCyclesOf_map (ha.generators p hp).1)
  case bijections =>
    intro p hp
    obtain ⟨f, hf, himage⟩ := Renumbering.exists_bijOn_imageOfId (ha.generators p hp).1
    simp only [hids] at hf himage
    exact ⟨f, hf, himage⟩
  case groupOrder => rfl
  case metrics => rfl

/-- Whatever is found out about a graph that was accepted, it can be told in terms of identifiers:
the orbits become a partition of the listed identifiers, and each generator becomes cycles of
listed identifiers, written in one way only, which tell the bijection that the generator is on the
identifiers. The command about automorphisms does so without a case for vertices that have no
identifier. -/
theorem externalAutomorphisms_faithful :
    (∀ text s g r a, readJson? SparseGraph text = some s → SparseGraph.ofText text = .ok (g, r) →
      ColoredGraph.IsFound g a →
        ∃ x, r.externalAutomorphisms a = .ok x ∧ SparseGraph.IsTranslation s r a x) ∧
    ∀ (m : Type → Type) [Monad m] [LawfulMonad m] [Files m] [Programs m] (isVerbose : Bool)
      (graph : String) (config out : Option String),
      (FileCommand.automorphisms isVerbose graph config out : FileCommand m String) =
        FileCommand.automorphismsByName isVerbose graph config out := by
  refine ⟨fun text s g r a hread haccepted hfound => ?_, fun m _ _ _ _ =>
    FileCommand.automorphisms_eq⟩
  -- a text is read in one way only, so the graph that was accepted is the given one
  obtain ⟨s', hread', hs⟩ := ofText_eq_ok_iff.1 haccepted
  obtain rfl : s' = s := Option.some.inj (hread'.symm.trans hread)
  have ha := isConsistent_of_isFound hs hfound
  exact ⟨r.named a, Renumbering.externalAutomorphisms_eq ha, isTranslation_named hs ha⟩

/-- A star with two rays. -/
def star : SparseGraph := ⟨[(99, 1), (20, 0), (10, 0)], [(10, 99), (20, 99)]⟩

/-- The document of the star, with arrays in the places of records. -/
def starText : String := "[[[99, 1], [20, 0], [10, 0]], [[10, 99], [20, 99]]]"

/-- What an engine writes about the star. -/
def starTranscript : String := "(0 1)\n2 orbits; grpsize=2; 1 gen; 3 nodes; maxlev=2\n0 1 (2); 2;\n"

/-- A machine with few files and one program. -/
structure StarMachine where
  /-- The files and their paths, the newest first. -/
  files : List (String × List UInt8)

instance : Files (StateM StarMachine) where
  read? path := return (← get).files.lookup path
  write path bytes := do
    modify fun s => ⟨(path, bytes) :: s.files⟩
    return true
  createDirectory _ := return true

/-- The program is an engine that was only ever asked about the star. -/
instance : Programs (StateM StarMachine) where
  start? program _ _ _ :=
    return if program = "dreadnaut" then some ⟨starTranscript.toList, false, true⟩ else none

/-- For a star whose rays are exchanged, in the vertices 0 and 1, the result tells of the
identifiers 10 and 20. -/
theorem externalAutomorphisms_faithful_star :
    (∃ g r a x, SparseGraph.ofText starText = .ok (g, r) ∧
      Automorphisms.ofTranscript ⟨[[[0, 1]]], 2, [[0, 1], [2]]⟩ 3 = .ok a ∧
      r.externalAutomorphisms a = .ok x ∧ star.IsTranslation r a x) ∧
    (FileCommand.automorphisms false "star.json" none none :
        FileCommand (StateM StarMachine) String) =
      FileCommand.automorphismsByName false "star.json" none none := by
  constructor
  · have hread : readJson? SparseGraph starText = some star := by decide +kernel
    obtain ⟨⟨g, r⟩, hs⟩ := exists_densify_iff.2 (show star.WellFormed from ⟨by decide, by decide⟩)
    have haccepted : SparseGraph.ofText starText = .ok (g, r) :=
      ofText_eq_ok_iff.2 ⟨star, hread, hs⟩
    have hcount : g.vertexCount = 3 := (isGraph_of_densify hs).vertexCount
    obtain ⟨a, ha⟩ : ∃ a, Automorphisms.ofTranscript ⟨[[[0, 1]]], 2, [[0, 1], [2]]⟩ 3 = .ok a := by
      refine ⟨⟨⟨3, [⟨#[1, 0, 2], by decide, by decide⟩]⟩, [[0, 1], [2]], 2, 3⟩, ?_⟩
      decide +kernel
    obtain ⟨x, hx, htranslation⟩ := externalAutomorphisms_faithful.1 starText star g r a hread
      haccepted (.transcript _ (hcount.symm ▸ ha))
    exact ⟨g, r, a, x, haccepted, ha, hx, htranslation⟩
  · exact externalAutomorphisms_faithful.2 (StateM StarMachine) false "star.json" none none

end SparseGraph

end PlanOrbits
