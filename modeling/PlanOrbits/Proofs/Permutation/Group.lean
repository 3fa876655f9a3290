import PlanOrbits.Proofs.Permutation.Images

/-!
# Permutations form a group

A table is taken for a permutation exactly if every entry lies below its size and every
point is hit once (`exists_ofImages_iff`); since only the range and the repetitions are
checked, that every point is hit is a matter of counting. What `compose` gives is described
by one equivalence, `compose_eq_ok_iff`: the domains agree, and the result sends every point
where the second factor and then the first send it. With the two equations of the inverse
every law of a group is then a law of functions (`bijOn_and_group_laws`).
-/

namespace PlanOrbits.Permutation

variable {p q r : Permutation} {n v : Nat}

/-! ### Tables -/

/-- The entries of a table lie below its size, and every point is hit exactly once. -/
def IsBijectionTable (images : Array Nat) : Prop :=
  (∀ v ∈ images, v < images.size) ∧ ∀ v < images.size, images.count v = 1

/-- The table of a permutation is a bijection, as its record says. -/
theorem isBijectionTable_images (p : Permutation) : IsBijectionTable p.images := by
  refine ⟨p.bounded, fun v hv => ?_⟩
  rw [← Array.count_toList]
  exact List.count_eq_one_of_mem p.nodup (Array.mem_toList_iff.2 (p.mem_images hv))

/-- A table in which every point is hit once has no repetitions. -/
theorem IsBijectionTable.nodup {images : Array Nat} (h : IsBijectionTable images) :
    images.toList.Nodup := by
  refine List.nodup_iff_count_le_one.2 fun v => ?_
  rw [Array.count_toList]
  by_cases hv : v ∈ images
  · exact Nat.le_of_eq (h.2 v (h.1 v hv))
  · rw [Array.count_eq_zero.2 hv]
    exact Nat.zero_le 1

/-- The table of a permutation is accepted by `ofImages`, and no other is. The check scans for
entries out of range and for repetitions. -/
theorem ofImages_eq_ok_iff {images : Array Nat} :
    ofImages images = .ok p ↔ p.images = images := by
  constructor
  · intro h
    unfold ofImages at h
    split at h
    · cases h
      rfl
    · cases h
  · rintro rfl
    obtain ⟨marks, hmarks⟩ := @Marks.exists_addAll_eq_ok _ (Marks.empty p.images.size) 0 _
      (fun v hv => ⟨p.bounded v (Array.mem_toList_iff.1 hv), Marks.has_empty v⟩) p.nodup
    -- the check goes through what the type already carries
    unfold ofImages
    split
    · exact congrArg Except.ok (eq_of_images rfl)
    · rename_i herror
      rw [hmarks] at herror
      cases herror

/-- What is accepted is a bijection table: as many different points as there are points are all of
them. -/
theorem exists_ofImages_iff {images : Array Nat} :
    (∃ p, ofImages images = .ok p) ↔ IsBijectionTable images := by
  constructor
  · rintro ⟨p, hp⟩
    obtain rfl := ofImages_eq_ok_iff.1 hp
    exact p.isBijectionTable_images
  · intro h
    exact ⟨⟨images, h.1, h.nodup⟩, ofImages_eq_ok_iff.2 rfl⟩

/-- A document holds a permutation if it holds its table as a list. -/
theorem ofJson?_eq_some_iff {j : Json} :
    ofJson? j = some p ↔ ofJson? j = some p.images.toList := by
  have hok : ∀ images : List Nat,
      (ofImages images.toArray).toOption = some p ↔ images = p.images.toList := by
    intro images
    have htable : images = p.images.toList ↔ p.images = images.toArray := by
      rw [← Array.toList_inj, eq_comm]
    rw [htable, ← ofImages_eq_ok_iff]
    cases ofImages images.toArray <;> simp [Except.toOption]
  change (ofJson? j >>= fun images : List Nat => (ofImages images.toArray).toOption) = some p ↔ _
  simp only [Option.bind_eq_bind, Option.bind_eq_some_iff, hok, exists_eq_right]

/-! ### Identity and composition -/

@[simp] theorem size_identity (n : Nat) : (identity n).size = n := Array.size_range

@[simp] theorem image_identity (n v : Nat) : (identity n).image v = v := by
  by_cases hv : v < (identity n).size
  · rw [image_eq_getElem hv]
    exact Array.getElem_range _
  · exact image_of_size_le _ (Nat.le_of_not_lt hv)

/-- Permutations are composed exactly if they have as many points. -/
theorem exists_compose_iff : (∃ r, p.compose q = .ok r) ↔ p.size = q.size := by
  unfold compose
  split
  · rename_i h
    exact iff_of_true ⟨_, rfl⟩ h
  · rename_i h
    exact iff_of_false (fun ⟨_, hr⟩ => nomatch hr) h

/-- The table of a composition is the table of the right factor, each entry sent on by the left. -/
theorem images_of_compose (h : p.compose q = .ok r) : r.images = q.images.map p.image := by
  unfold compose at h
  split at h
  · cases h
    rfl
  · cases h

theorem size_of_compose (h : p.compose q = .ok r) : r.size = q.size := by
  rw [size, images_of_compose h, Array.size_map, size]

/-- The composition applies the right factor first, also to numbers that are no points. -/
theorem image_of_compose (h : p.compose q = .ok r) (v : Nat) :
    r.image v = p.image (q.image v) := by
  by_cases hv : v < q.size
  · rw [image, image?, images_of_compose h, Array.getElem?_map,
      show q.images[v]? = some (q.image v) from image?_eq_some hv]
    rfl
  · have hr := size_of_compose h
    have hp := exists_compose_iff.1 ⟨r, h⟩
    have hv := Nat.le_of_not_lt hv
    rw [q.image_of_size_le hv, p.image_of_size_le (hp ▸ hv), r.image_of_size_le (hr ▸ hv)]

/-- All that `compose` says: the sizes agree, and its result sends a point where `q` and then `p`
send it. The laws below follow from this equivalence alone. -/
theorem compose_eq_ok_iff : p.compose q = .ok r ↔
    p.size = q.size ∧ r.size = q.size ∧ ∀ v, r.image v = p.image (q.image v) := by
  constructor
  · intro h
    exact ⟨exists_compose_iff.1 ⟨r, h⟩, size_of_compose h, image_of_compose h⟩
  · rintro ⟨hp, hr, himage⟩
    obtain ⟨r', h⟩ := exists_compose_iff.2 hp
    have hrr' : r' = r := eq_of_image ((size_of_compose h).trans hr.symm) fun v _ => by
      rw [image_of_compose h, himage]
    rwa [hrr'] at h

/-- The composition is applied to a point of the domain, and to no other number. -/
theorem image?_of_compose (h : p.compose q = .ok r) (v : Nat) :
    r.image? v = (q.image? v).bind p.image? := by
  obtain ⟨hp, hr, himage⟩ := compose_eq_ok_iff.1 h
  by_cases hv : v < q.size
  · have hq : q.image v < p.size := hp ▸ q.image_lt_size_iff.2 hv
    rw [image?_eq_some hv, Option.bind_some, image?_eq_some hq, image?_eq_some (hr ▸ hv), himage]
  · have hv := Nat.le_of_not_lt hv
    rw [image?_eq_none hv, image?_eq_none (hr ▸ hv), Option.bind_none]

/-! ### Inverses -/

@[simp] theorem size_inverse (p : Permutation) : p.inverse.size = p.size := size_ofAssignments _

/-- The inverse is assigned from the table: the image of a point gets the point. -/
theorem mem_inverseAssignments (hv : v < p.size) : (p.image v, v) ∈ p.inverseAssignments := by
  rw [inverseAssignments, List.mem_zipIdx_iff_getElem?, Array.getElem?_toList]
  exact image?_eq_some hv

/-- The inverse undoes the permutation, on all numbers. -/
@[simp] theorem image_inverse_image (p : Permutation) (v : Nat) :
    p.inverse.image (p.image v) = v := by
  by_cases hv : v < p.size
  · exact image_ofAssignments_of_mem p.inverseAssignments_exchanges (mem_inverseAssignments hv)
  · have hv := Nat.le_of_not_lt hv
    rw [p.image_of_size_le hv, p.inverse.image_of_size_le (p.size_inverse.trans_le hv)]

@[simp] theorem image_image_inverse (p : Permutation) (v : Nat) : p.image (p.inverse.image v) = v :=
  p.inverse.image_injective (p.image_inverse_image _)

/-- Every place of a table is written when the inverse is written into it, so that what the table
held before does not matter. -/
theorem scatter_inverseAssignments {table : Array Nat} (htable : table.size = p.size) :
    scatter table p.inverseAssignments = p.inverse.images := by
  refine Array.ext (by rw [size_scatter, htable]; exact p.size_inverse.symm) fun w hw hw' => ?_
  have hlt : w < p.size := by rwa [size_scatter, htable] at hw
  obtain ⟨v, hv, rfl⟩ := p.bijOn_image.surjOn hlt
  rw [getElem_scatter_of_mem (htable ▸ hlt) (mem_inverseAssignments hv)
    p.inverseAssignments_exchanges.nodup, ← image_eq_getElem hw', image_inverse_image]

/-! ### The laws -/

/-- The laws of the two neutral sides and of the two inverse sides. -/
theorem identity_compose (p : Permutation) : (identity p.size).compose p = .ok p :=
  compose_eq_ok_iff.2 (by simp)

theorem compose_identity (p : Permutation) : p.compose (identity p.size) = .ok p :=
  compose_eq_ok_iff.2 (by simp)

theorem inverse_compose (p : Permutation) : p.inverse.compose p = .ok (identity p.size) :=
  compose_eq_ok_iff.2 (by simp)

theorem compose_inverse (p : Permutation) : p.compose p.inverse = .ok (identity p.size) :=
  compose_eq_ok_iff.2 (by simp)

/-- Both ways to put three permutations together give the same. -/
theorem compose_assoc {pq qr : Permutation} (hpq : p.compose q = .ok pq)
    (hqr : q.compose r = .ok qr) : pq.compose r = p.compose qr := by
  obtain ⟨hp, hsize, himage⟩ := compose_eq_ok_iff.1 hpq
  obtain ⟨hq, hsize', himage'⟩ := compose_eq_ok_iff.1 hqr
  obtain ⟨t, ht⟩ := exists_compose_iff.2 (hsize.trans hq : pq.size = r.size)
  obtain ⟨-, htsize, htimage⟩ := compose_eq_ok_iff.1 ht
  rw [ht, eq_comm]
  refine compose_eq_ok_iff.2 ⟨hp.trans (hq.trans hsize'.symm), htsize.trans hsize'.symm, ?_⟩
  intro v
  rw [htimage, himage, himage']

/-- A composition is undone by undoing its factors in the other order. -/
theorem inverse_compose_inverse (h : p.compose q = .ok r) :
    q.inverse.compose p.inverse = .ok r.inverse := by
  obtain ⟨hp, hr, himage⟩ := compose_eq_ok_iff.1 h
  refine compose_eq_ok_iff.2 ⟨?_, ?_, fun v => ?_⟩
  · rw [size_inverse, size_inverse, hp]
  · rw [size_inverse, size_inverse, hr, hp]
  · refine r.image_injective ?_
    rw [image_image_inverse, himage, image_image_inverse, image_image_inverse]

/-- The laws of a group for permutations of `n` points, with the composition at a point. -/
structure GroupLaws (n : Nat) (p q r : Permutation) : Prop where
  composed : ∃ pq, p.compose q = .ok pq ∧ pq.size = n ∧
    (∀ v, pq.image? v = (q.image? v).bind p.image?) ∧
      q.inverse.compose p.inverse = .ok pq.inverse
  associative : ∃ pq qr pqr, p.compose q = .ok pq ∧ q.compose r = .ok qr ∧
    pq.compose r = .ok pqr ∧ p.compose qr = .ok pqr
  identity_left : (identity n).compose p = .ok p
  identity_right : p.compose (identity n) = .ok p
  inverse_left : p.inverse.compose p = .ok (identity n)
  inverse_right : p.compose p.inverse = .ok (identity n)

/-- The laws for three permutations of `n` points. Compositions of them exist, as the sizes agree.
-/
theorem groupLaws (hp : p.size = n) (hq : q.size = n) (hr : r.size = n) : GroupLaws n p q r := by
  obtain ⟨pq, hpq⟩ := exists_compose_iff.2 (hp.trans hq.symm)
  obtain ⟨qr, hqr⟩ := exists_compose_iff.2 (hq.trans hr.symm)
  have hsize : pq.size = n := (size_of_compose hpq).trans hq
  obtain ⟨pqr, hpqr⟩ := exists_compose_iff.2 (hsize.trans hr.symm)
  subst hp
  exact {
    composed := ⟨pq, hpq, hsize, image?_of_compose hpq, inverse_compose_inverse hpq⟩
    associative := ⟨pq, qr, pqr, hpq, hqr, hpqr, compose_assoc hpq hqr ▸ hpqr⟩
    identity_left := p.identity_compose
    identity_right := p.compose_identity
    inverse_left := p.inverse_compose
    inverse_right := p.compose_inverse }

/-- What is accepted as a permutation is a bijection, in tables and in documents; every
permutation, however it was made, is a bijection of its points, and its inverse fills a table of
zeros; permutations can be composed if they have as many points, and then the laws of a group
hold. -/
theorem bijOn_and_group_laws :
    (∀ images : Array Nat, ((∃ p, ofImages images = .ok p) ↔ IsBijectionTable images) ∧
      ∀ p, ofImages images = .ok p → p.images = images) ∧
    (∀ j : Json, ((∃ p : Permutation, ofJson? j = some p) ↔
        ∃ images : List Nat, ofJson? j = some images ∧ IsBijectionTable images.toArray) ∧
      ∀ p : Permutation, ofJson? j = some p → ofJson? j = some p.images.toList) ∧
    (∀ n, (identity n).size = n ∧ ∀ cycles p, ofCycles n cycles = .ok p → p.size = n) ∧
    (∀ p : Permutation, (∀ v < p.size, p.image? v = some (p.image v)) ∧
      Set.BijOn p.image (Set.Iio p.size) (Set.Iio p.size) ∧
      scatter (Array.replicate p.size 0) p.inverseAssignments = p.inverse.images) ∧
    (∀ p q, (∃ r, compose p q = .ok r) ↔ p.size = q.size) ∧
    ∀ n (p q r : Permutation), p.size = n → q.size = n → r.size = n → GroupLaws n p q r := by
  refine ⟨fun images => ⟨exists_ofImages_iff, fun p => ofImages_eq_ok_iff.1⟩,
    fun j => ⟨⟨?_, ?_⟩, fun p => ofJson?_eq_some_iff.1⟩,
    fun n => ⟨size_identity n, fun cycles p h => (ofCycles_eq_ok_iff.1 h).2.2.1⟩,
    fun p => ⟨fun v => image?_eq_some, p.bijOn_image,
      scatter_inverseAssignments Array.size_replicate⟩,
    fun p q => exists_compose_iff, fun n p q r => groupLaws⟩
  · rintro ⟨p, hp⟩
    exact ⟨p.images.toList, ofJson?_eq_some_iff.1 hp, p.isBijectionTable_images⟩
  · rintro ⟨images, himages, htable⟩
    obtain ⟨p, hp⟩ := exists_ofImages_iff.2 htable
    refine ⟨p, ofJson?_eq_some_iff.2 ?_⟩
    rwa [ofImages_eq_ok_iff.1 hp]

/-- The rotation of three points. -/
def rotationOfThree : Permutation := ⟨#[1, 2, 0], by decide, by decide⟩

/-- The exchange of two of three points. -/
def exchangeOfTwo : Permutation := ⟨#[1, 0, 2], by decide, by decide⟩

/-- The laws for a rotation and an exchange of three points, where the order of the factors matters,
and a table that is refused. -/
theorem bijOn_and_group_laws_threePoints :
    rotationOfThree.size = 3 ∧ exchangeOfTwo.size = 3 ∧
      rotationOfThree.compose exchangeOfTwo ≠ exchangeOfTwo.compose rotationOfThree ∧
      GroupLaws 3 rotationOfThree exchangeOfTwo rotationOfThree ∧
      ¬ ∃ p, ofImages #[1, 2, 1] = .ok p :=
  ⟨rfl, rfl, by decide +kernel, bijOn_and_group_laws.2.2.2.2.2 3 _ _ _ rfl rfl rfl,
    fun h => absurd ((bijOn_and_group_laws.1 #[1, 2, 1]).1.1 h).2 (by decide)⟩

end PlanOrbits.Permutation
