import Mathlib.Data.Finite.Prod
import PlanOrbits.Proofs.Graph.Automorphism
import PlanOrbits.Proofs.Permutation.Group

/-!
# Automorphisms form a group

`isAutomorphism` sends every edge along and asks whether there is an edge again. It never
looks at vertices that are not joined. That these are not joined afterwards either is a matter
of counting: the pairs of joined vertices are finitely many, and an injective map of them into
themselves hits all of them (`IsAutomorphism.hasEdge_image`).

So the accepted tables are exactly the bijections of the vertices that change neither colours
nor adjacency (`IsPreservedBy`). Said in this symmetric way, it is plain that they contain the
identity and are closed under composition and inverses.
-/

namespace PlanOrbits.ColoredGraph

variable {g : ColoredGraph} {images : Array Nat} {p q r : Permutation}

/-- The table is a bijection of the vertices. The image of a vertex has its colour, and the
images of two vertices are joined exactly if the vertices are. -/
structure IsPreservedBy (g : ColoredGraph) (images : Array Nat) : Prop where
  size : images.size = g.vertexCount
  bijective : Set.BijOn (imageIn images) (Set.Iio g.vertexCount) (Set.Iio g.vertexCount)
  color : ∀ v < g.vertexCount, g.color (imageIn images v) = g.color v
  hasEdge : ∀ a b, g.hasEdge (imageIn images a) (imageIn images b) = g.hasEdge a b

/-! ### Edges come from edges -/

/-- Beyond the table every number is its own image. -/
theorem imageIn_of_size_le {v : Nat} (h : images.size ≤ v) : imageIn images v = v := by
  rw [imageIn, Array.getElem?_eq_none h, Option.getD_none]

/-- The query of a colour, which can fail, and the entry of the table agree on vertices. -/
theorem color_eq_color_iff {v w : Nat} (hv : v < g.vertexCount) (hw : w < g.vertexCount) :
    g.color v = g.color w ↔ g.colors[v]? = g.colors[w]? := by
  simp only [color, Array.getElem?_eq_getElem hv, Array.getElem?_eq_getElem hw,
    Except.ok.injEq, Option.some.injEq]

/-- The pairs of joined vertices. -/
def adjacentPairs (g : ColoredGraph) : Set (Nat × Nat) := {e | g.hasEdge e.1 e.2 = true}

/-- Joined pairs are pairs of numbers below the count. -/
theorem finite_adjacentPairs (g : ColoredGraph) : g.adjacentPairs.Finite := by
  refine ((Set.finite_lt_nat g.vertexCount).prod (Set.finite_lt_nat g.vertexCount)).subset ?_
  intro e he
  exact lt_of_hasEdge he

namespace IsAutomorphism

/-- The table of an automorphism is a bijection of the vertices: it is one-to-one, and there are
finitely many. -/
theorem bijOn_image (h : g.IsAutomorphism images) :
    Set.BijOn (imageIn images) (Set.Iio g.vertexCount) (Set.Iio g.vertexCount) :=
  ((Set.finite_lt_nat g.vertexCount).injOn_iff_bijOn_of_mapsTo h.lt).1
    fun v hv w hw heq => h.injective v hv w hw heq

/-- Every pair of joined vertices is the image of one. The pairs are finitely many, and the
automorphism maps them to pairs of joined vertices without merging any. -/
theorem surjOn_adjacentPairs (h : g.IsAutomorphism images) :
    Set.SurjOn (Prod.map (imageIn images) (imageIn images)) g.adjacentPairs g.adjacentPairs := by
  have hmaps : Set.MapsTo (Prod.map (imageIn images) (imageIn images))
      g.adjacentPairs g.adjacentPairs := fun e he => h.edge e.1 e.2 he
  have hinj : Set.InjOn (Prod.map (imageIn images) (imageIn images)) g.adjacentPairs := by
    intro e he f hf heq
    obtain ⟨he₁, he₂⟩ := lt_of_hasEdge he
    obtain ⟨hf₁, hf₂⟩ := lt_of_hasEdge hf
    obtain ⟨h₁, h₂⟩ := Prod.mk.inj heq
    exact Prod.ext (h.injective _ he₁ _ hf₁ h₁) (h.injective _ he₂ _ hf₂ h₂)
  exact ((g.finite_adjacentPairs.injOn_iff_bijOn_of_mapsTo hmaps).1 hinj).surjOn

/-- Images are joined only if the vertices are, although the check does not ask for it. The pair of
images is the image of a joined pair, and that can only be the pair itself. -/
theorem hasEdge_image (h : g.IsAutomorphism images) (a b : Nat) :
    g.hasEdge (imageIn images a) (imageIn images b) = g.hasEdge a b := by
  have hback : ∀ v, imageIn images v < g.vertexCount → v < g.vertexCount := by
    intro v hv
    by_contra hnot
    rw [imageIn_of_size_le (h.size ▸ Nat.le_of_not_lt hnot)] at hv
    exact hnot hv
  rw [Bool.eq_iff_iff]
  refine ⟨fun hjoined => ?_, h.edge a b⟩
  -- the pair of images is the image of a joined pair, and no other pair has this image
  obtain ⟨ha, hb⟩ := lt_of_hasEdge hjoined
  obtain ⟨⟨c, d⟩, hcd, heq⟩ := h.surjOn_adjacentPairs (show (_, _) ∈ g.adjacentPairs from hjoined)
  obtain ⟨hc, hd⟩ := lt_of_hasEdge hcd
  obtain ⟨hca, hdb⟩ := Prod.mk.inj heq
  rw [← h.injective c hc a (hback a ha) hca, ← h.injective d hd b (hback b hb) hdb]
  exact hcd

end IsAutomorphism

/-- The check decides whether the table keeps the graph as it is. From left to right this is more
than is checked, by `hasEdge_image`. -/
theorem isAutomorphism_iff_isPreservedBy :
    g.isAutomorphism images = true ↔ g.IsPreservedBy images := by
  rw [isAutomorphism_iff]
  constructor
  · intro h
    exact {
      size := h.size
      bijective := h.bijOn_image
      color := fun v hv => (color_eq_color_iff (h.lt v hv) hv).2 (h.color v hv)
      hasEdge := h.hasEdge_image }
  · intro h
    exact {
      size := h.size
      lt := h.bijective.mapsTo
      injective := fun v hv w hw heq => h.bijective.injOn hv hw heq
      color := fun v hv => (color_eq_color_iff (h.bijective.mapsTo hv) hv).1 (h.color v hv)
      edge := fun a b hab => (h.hasEdge a b).trans hab }

/-! ### The group -/

/-- For the table of a permutation of the vertices only colours and adjacency have to be looked at.
-/
theorem isPreservedBy_images_iff : g.IsPreservedBy p.images ↔ p.size = g.vertexCount ∧
    (∀ v < g.vertexCount, g.color (p.image v) = g.color v) ∧
      ∀ a b, g.hasEdge (p.image a) (p.image b) = g.hasEdge a b := by
  constructor
  · intro h
    exact ⟨h.size, h.color, h.hasEdge⟩
  · rintro ⟨hsize, hcolor, hedge⟩
    exact ⟨hsize, hsize ▸ p.bijOn_image, hcolor, hedge⟩

/-- The identity changes nothing. -/
theorem isPreservedBy_identity (g : ColoredGraph) :
    g.IsPreservedBy (Permutation.identity g.vertexCount).images := by
  rw [isPreservedBy_images_iff]
  simp

/-- Two tables after each other: what each of them keeps is kept. -/
theorem IsPreservedBy.compose (hp : g.IsPreservedBy p.images) (hq : g.IsPreservedBy q.images)
    (h : p.compose q = .ok r) : g.IsPreservedBy r.images := by
  obtain ⟨-, hsize, himage⟩ := Permutation.compose_eq_ok_iff.1 h
  rw [isPreservedBy_images_iff] at hp hq ⊢
  obtain ⟨-, hpcolor, hpedge⟩ := hp
  obtain ⟨hqsize, hqcolor, hqedge⟩ := hq
  refine ⟨hsize.trans hqsize, fun v hv => ?_, fun a b => ?_⟩
  · have hlt : q.image v < g.vertexCount := hqsize ▸ q.image_lt_size_iff.2 (hqsize ▸ hv)
    rw [himage, hpcolor _ hlt, hqcolor v hv]
  · rw [himage, himage, hpedge, hqedge]

/-- The inverse keeps what the permutation keeps, since images are alike exactly if the vertices
are. -/
theorem IsPreservedBy.inverse (hp : g.IsPreservedBy p.images) :
    g.IsPreservedBy p.inverse.images := by
  rw [isPreservedBy_images_iff] at hp ⊢
  obtain ⟨hsize, hcolor, hedge⟩ := hp
  have hsize' : p.inverse.size = g.vertexCount := p.size_inverse.trans hsize
  refine ⟨hsize', fun v hv => ?_, fun a b => ?_⟩
  · have hlt : p.inverse.image v < g.vertexCount :=
      hsize' ▸ p.inverse.image_lt_size_iff.2 (hsize' ▸ hv)
    rw [← hcolor _ hlt, p.image_image_inverse]
  · rw [← hedge, p.image_image_inverse, p.image_image_inverse]

/-- An accepted table is the table of a permutation of the vertices, so that `Permutation` has all
that is needed to speak of groups. -/
theorem IsPreservedBy.exists_ofImages (h : g.IsPreservedBy images) :
    ∃ p : Permutation, p.images = images ∧ Permutation.ofImages images = .ok p := by
  have hcheck := isAutomorphism_iff_isPreservedBy.2 h
  simp only [isAutomorphism, Bool.and_eq_true] at hcheck
  obtain ⟨hall, hnodup⟩ := arePoints_iff.1 hcheck.1.1.2
  have hbounded : ∀ v ∈ images, v < images.size := fun v hv =>
    h.size ▸ hall v (Array.mem_toList_iff.2 hv)
  exact ⟨⟨images, hbounded, hnodup⟩, rfl, Permutation.ofImages_eq_ok_iff.2 rfl⟩

/-- The check accepts exactly the bijections of the vertices that keep colours, edges and pairs
that are no edges. They are permutations; the identity is one of them, and with any two of them
their composition and their inverses are. -/
theorem isAutomorphism_decides (g : ColoredGraph) :
    (∀ images, g.isAutomorphism images = true ↔ g.IsPreservedBy images) ∧
    g.isAutomorphism (Permutation.identity g.vertexCount).images = true ∧
    ∀ first second, g.isAutomorphism first = true → g.isAutomorphism second = true →
      ∃ p q r, Permutation.ofImages first = .ok p ∧ Permutation.ofImages second = .ok q ∧
        p.compose q = .ok r ∧ g.isAutomorphism r.images = true ∧
          g.isAutomorphism p.inverse.images = true := by
  simp only [isAutomorphism_iff_isPreservedBy]
  refine ⟨fun _ => trivial, g.isPreservedBy_identity, fun first second hfirst hsecond => ?_⟩
  obtain ⟨p, rfl, hp⟩ := hfirst.exists_ofImages
  obtain ⟨q, rfl, hq⟩ := hsecond.exists_ofImages
  obtain ⟨r, hr⟩ := Permutation.exists_compose_iff.2 (hfirst.size.trans hsecond.size.symm)
  exact ⟨p, q, r, hp, hq, hr, hfirst.compose hsecond hr, hfirst.inverse⟩

/-- Four vertices in a ring. -/
def ringOfFour : ColoredGraph :=
  ((((ofColors #[5, 5, 5, 5]).insertEdge 0 1 Nat.zero_ne_one (by decide) (by decide)).insertEdge
    1 2 (by decide) (by decide) (by decide)).insertEdge
    2 3 (by decide) (by decide) (by decide)).insertEdge 3 0 (by decide) (by decide) (by decide)

/-- Four vertices in a ring. Turns by one place and by two are accepted, and so is their
composition; an exchange of two neighbours is refused, since it would join vertices that are not
joined. -/
theorem isAutomorphism_decides_ringOfFour :
    ringOfFour.isAutomorphism #[1, 2, 3, 0] = true ∧
      ringOfFour.isAutomorphism #[2, 3, 0, 1] = true ∧
        ¬ringOfFour.IsPreservedBy #[1, 0, 2, 3] ∧
          ∃ p q r, Permutation.ofImages #[1, 2, 3, 0] = .ok p ∧
            Permutation.ofImages #[2, 3, 0, 1] = .ok q ∧ p.compose q = .ok r ∧
              ringOfFour.isAutomorphism r.images = true ∧
                ringOfFour.isAutomorphism p.inverse.images = true := by
  have hone : ringOfFour.isAutomorphism #[1, 2, 3, 0] = true := by decide +kernel
  have htwo : ringOfFour.isAutomorphism #[2, 3, 0, 1] = true := by decide +kernel
  have hexchange : ringOfFour.isAutomorphism #[1, 0, 2, 3] ≠ true := by decide +kernel
  obtain ⟨hiff, -, hclosed⟩ := isAutomorphism_decides ringOfFour
  exact ⟨hone, htwo, fun h => hexchange ((hiff _).2 h), hclosed _ _ hone htwo⟩

end PlanOrbits.ColoredGraph
