import PlanOrbits.Permutation.Stepwise
import PlanOrbits.Proofs.Permutation.Images

/-!
# Cycles are threaded into a table

Cycles are accepted if their points, read one after the other, lie below the bound and are
distinct; otherwise the first point that offends is reported (`ofCycles_eq_error_iff`). The
permutation of accepted cycles sends every point to the next one of its cycle, the last to the
first, and fixes all others (`Describes`), and these facts determine it
(`ofCycles_eq_ok_iff_describes`).

To write the cycles point by point comes to the same (`tableOfCycles_eq`), although every image is
written before it has been looked at as a point. Behind any number of assignments the points found
are those that were written, and the table is the one that the assignments so far have filled
(`foldlM_assign`). A cycle with a bad image is refused at the latest when that image has its turn.
-/

namespace PlanOrbits

theorem BijectionError.family_diagnostic (cause : BijectionError) :
    cause.diagnostic.family = .invalidBijection := by
  cases cause <;> rfl

/-! ### The first offence -/

/-- Points below `n`, none of which occurs twice. -/
def DistinctBelow (n : Nat) (points : List Nat) : Prop := (∀ v ∈ points, v < n) ∧ points.Nodup

/-- What may be wrong with a point that comes behind others. -/
inductive Offends (n : Nat) (before : List Nat) (v : Nat) : PointFault → Prop
  | outOfRange (h : n ≤ v) : Offends n before v .outOfRange
  | repeated (h : v ∈ before) : Offends n before v .repeated

/-- The first point of a list that offends, and its fault: all points before it are distinct and
below `n`. -/
def OffendsFirst (n : Nat) (points : List Nat) (v : Nat) (fault : PointFault) : Prop :=
  ∃ before after, points = before ++ v :: after ∧ DistinctBelow n before ∧ Offends n before v fault

namespace Marks

variable {n index : Nat} {m m' : Marks n} {points : List Nat} {v : Nat} {fault : PointFault}

/-- Points can all be marked if and only if they are distinct and below the bound. -/
theorem exists_addAll_empty_iff :
    (∃ m, (empty n).addAll index points = .ok m) ↔ DistinctBelow n points := by
  rw [addAll_isOk_iff]
  simp only [has_empty, and_true, DistinctBelow]

/-- A point is refused if it is too large, and else if it is marked already. -/
theorem add_eq_error_iff :
    m.add v = .error fault ↔
      n ≤ v ∧ fault = .outOfRange ∨ m.has v = true ∧ fault = .repeated := by
  unfold add has
  by_cases hv : v < n
  · rw [dif_pos hv, dif_pos hv]
    cases m.marked[v] <;> simp [Nat.not_le.2 hv, eq_comm]
  · rw [dif_neg hv, dif_neg hv]
    simp [Nat.le_of_not_lt hv, eq_comm]

/-- Points are marked in stages; the index of the second stage counts those of the first. -/
theorem addAll_append (front rest : List Nat) :
    m.addAll index (front ++ rest) =
      (m.addAll index front).bind (·.addAll (index + front.length) rest) := by
  induction front generalizing m index with
  | nil => rfl
  | cons v front ih =>
      rw [List.cons_append, addAll, addAll]
      cases m.add v with
      | error fault => rfl
      | ok m =>
          rw [List.length_cons, Nat.add_comm front.length, ← Nat.add_assoc]
          exact ih

/-- The point that is refused stands behind points that could be marked, by induction on the points.
-/
theorem exists_of_addAll_eq_error {o : Offence} (h : m.addAll index points = .error o) :
    ∃ before after m', points = before ++ o.point :: after ∧
      m.addAll index before = .ok m' ∧ m'.add o.point = .error o.fault := by
  induction points generalizing m index with
  | nil => cases h
  | cons v points ih =>
      rw [addAll] at h
      cases hadd : m.add v with
      | error fault =>
          rw [hadd] at h
          cases h
          exact ⟨[], points, m, rfl, rfl, hadd⟩
      | ok m₁ =>
          rw [hadd] at h
          obtain ⟨before, after, m', rfl, hbefore, hpoint⟩ := ih h
          exact ⟨v :: before, after, m', rfl, by rw [addAll, hadd]; exact hbefore, hpoint⟩

/-- Behind points that have been marked, a point is refused if it offends against them, that is, if
it is too large or one of them. -/
theorem add_eq_error_iff_offends {before : List Nat}
    (hbefore : (empty n).addAll index before = .ok m) :
    m.add v = .error fault ↔ Offends n before v fault := by
  rw [add_eq_error_iff, (addAll_eq_ok hbefore).2.2, has_empty, Bool.false_or,
    List.contains_iff_mem]
  constructor
  · rintro (⟨hv, rfl⟩ | ⟨hv, rfl⟩)
    · exact .outOfRange hv
    · exact .repeated hv
  · rintro (hv | hv)
    · exact .inl ⟨hv, rfl⟩
    · exact .inr ⟨hv, rfl⟩

/-- The first point that offends is the one that `addAll` reports. Both ways of saying it name the
points in front of it. -/
theorem offendsFirst_iff : OffendsFirst n points v fault ↔
    ∃ o, (empty n).addAll 0 points = .error o ∧ o.point = v ∧ o.fault = fault := by
  constructor
  · rintro ⟨before, after, rfl, hdistinct, hoffends⟩
    obtain ⟨m, hm⟩ := exists_addAll_empty_iff.2 hdistinct
    refine ⟨⟨before.length, v, fault⟩, ?_, rfl, rfl⟩
    rw [addAll_append, hm, Except.bind, addAll, (add_eq_error_iff_offends hm).2 hoffends,
      Nat.zero_add]
  · rintro ⟨o, ho, rfl, rfl⟩
    obtain ⟨before, after, m, hpoints, hm, hpoint⟩ := exists_of_addAll_eq_error ho
    exact ⟨before, after, hpoints, exists_addAll_empty_iff.1 ⟨m, hm⟩,
      (add_eq_error_iff_offends hm).1 hpoint⟩

end Marks

/-! ### Point by point -/

/-- `rotation` assigns to every point of a cycle the one behind it, and to the last one the first,
place by place. -/
theorem rotation_eq_map (cycle : List Nat) :
    rotation cycle = (List.finRange cycle.length).map fun i =>
      (cycle.get i, pointBehind cycle i) := by
  have hlength : (rotation cycle).length = cycle.length := by
    rw [rotation, List.length_zip, length_rotated, Nat.min_self]
  refine List.ext_getElem (by simpa using hlength) fun i hi hi' => ?_
  simp only [rotation, List.getElem_zip, List.getElem_map, List.getElem_finRange, Fin.cast_mk,
    pointBehind, List.get_eq_getElem, Prod.mk.injEq, true_and]
  cases cycle with
  | nil => simp at hi'
  | cons v rest =>
      simp only [List.length_map, List.length_finRange, List.length_cons] at hi'
      simp only [List.tail_cons, List.head?_cons, Option.toList_some, List.length_cons]
      -- the point behind the last one is the first
      by_cases hlast : i < rest.length
      · simp only [List.getElem_append_left hlast, Nat.mod_eq_of_lt (Nat.succ_lt_succ hlast),
          List.getElem_cons_succ]
      · obtain rfl : i = rest.length := by omega
        simp

namespace Threading

variable {n : Nat} {cycles : List (List Nat)} {t : Threading n}

/-- Behind any number of assignments the table is filled with them and their points have been found.
If a point cannot be added, the assignment that has it is where the fold stops, and its offence is
the error. -/
theorem foldlM_assign (index : Nat) (assignments : List (Nat × Nat)) :
    assignments.foldlM (fun t a => t.assign cycles a.1 a.2) t =
      match t.found.addAll index (assignments.map Prod.fst) with
      | .ok found => .ok ⟨scatter t.images assignments, found⟩
      | .error o => .error (.ofPoint o.point n cycles o.fault) := by
  induction assignments generalizing t index with
  | nil => rfl
  | cons a rest ih =>
      rw [List.foldlM_cons, assign, List.map_cons, Marks.addAll]
      cases t.found.add a.1 with
      | error fault => rfl
      | ok found => exact ih (index + 1)

/-- To write a cycle point by point is to write the assignments of its rotation, one behind the
other. -/
theorem assignCycle_eq (cycle : List Nat) :
    t.assignCycle cycles cycle =
      (rotation cycle).foldlM (fun t a => t.assign cycles a.1 a.2) t := by
  rw [rotation_eq_map, List.foldlM_map]
  rfl

theorem foldlM_assignCycle (rest : List (List Nat)) :
    rest.foldlM (assignCycle cycles) t =
      (rest.flatMap rotation).foldlM (fun t a => t.assign cycles a.1 a.2) t := by
  induction rest generalizing t with
  | nil => rfl
  | cons cycle rest ih =>
      rw [List.foldlM_cons, List.flatMap_cons, List.foldlM_append, assignCycle_eq]
      exact bind_congr fun t => ih

end Threading

namespace Permutation

variable {n : Nat} {cycles : List (List Nat)} {p : Permutation}

/-- Cycles are taken or refused as their points are: `ofCycles` has no other way to fail. -/
theorem ofCycles_cases (n : Nat) (cycles : List (List Nat)) :
    (∃ m p, (Marks.empty n).addAll 0 cycles.flatten = .ok m ∧ ofCycles n cycles = .ok p ∧
      p.images = scatter (Array.range n) (cycles.flatMap rotation)) ∨
    ∃ o, (Marks.empty n).addAll 0 cycles.flatten = .error o ∧
      ofCycles n cycles = .error (.ofPoint o.point n cycles o.fault) := by
  unfold ofCycles
  split
  · rename_i m h
    exact .inl ⟨m, _, h, rfl, rfl⟩
  · rename_i o h
    refine .inr ⟨o, h, ?_⟩
    cases o.fault <;> rfl

/-- Filling the table point by point gives the table of the permutation, or its error, although
every image is written before it has been looked at as a point. -/
theorem tableOfCycles_eq (n : Nat) (cycles : List (List Nat)) :
    tableOfCycles n cycles = (ofCycles n cycles).map images := by
  rw [tableOfCycles, Threading.foldlM_assignCycle, Threading.foldlM_assign 0, map_fst_rotations,
    Threading.start]
  rcases ofCycles_cases n cycles with ⟨m, p, hm, hp, himages⟩ | ⟨o, ho, herror⟩
  · rw [hm, hp]
    exact congrArg Except.ok himages.symm
  · rw [ho, herror]
    rfl

/-! ### What is accepted -/

/-- The permutation sends every point of the cycle to the one behind it. -/
def Traverses (p : Permutation) (cycle : List Nat) : Prop :=
  ∀ i : Fin cycle.length, p.image (cycle.get i) = pointBehind cycle i

/-- A cycle is traversed if its assignments hold. -/
theorem traverses_iff {cycle : List Nat} :
    p.Traverses cycle ↔ ∀ a ∈ rotation cycle, p.image a.1 = a.2 := by
  rw [rotation_eq_map]
  simp only [List.forall_mem_map, List.mem_finRange, forall_const]
  rfl

/-- A permutation of the points below `n` that traverses the cycles and fixes the points that stand
in no cycle. -/
structure Describes (n : Nat) (cycles : List (List Nat)) (p : Permutation) : Prop where
  size : p.size = n
  bijOn : Set.BijOn p.image (Set.Iio n) (Set.Iio n)
  traverses : ∀ cycle ∈ cycles, p.Traverses cycle
  fixes : ∀ v, v ∉ cycles.flatten → p.image v = v

/-- `ofCycles_eq_ok_iff`, said with `Describes`. -/
theorem ofCycles_eq_ok_iff_describes :
    ofCycles n cycles = .ok p ↔ DistinctBelow n cycles.flatten ∧ Describes n cycles p := by
  rw [ofCycles_eq_ok_iff, DistinctBelow, and_assoc]
  refine and_congr_right fun _ => and_congr_right fun _ => ?_
  simp only [List.mem_flatMap, forall_exists_index, and_imp]
  constructor
  · rintro ⟨rfl, hmoved, hfixed⟩
    exact ⟨rfl, p.bijOn_image, fun cycle hcycle => traverses_iff.2 fun a => hmoved a cycle hcycle,
      hfixed⟩
  · intro h
    exact ⟨h.size, fun a cycle hcycle => traverses_iff.1 (h.traverses cycle hcycle) a, h.fixes⟩

theorem exists_ofCycles_iff :
    (∃ p, ofCycles n cycles = .ok p) ↔ DistinctBelow n cycles.flatten := by
  rw [← @Marks.exists_addAll_empty_iff n 0]
  rcases ofCycles_cases n cycles with ⟨m, p, hm, hp, -⟩ | ⟨o, ho, herror⟩
  · exact iff_of_true ⟨p, hp⟩ ⟨m, hm⟩
  · rw [ho, herror]
    exact iff_of_false nofun nofun

/-- The error is that of the first point that offends, with the cycles as they were given. -/
theorem ofCycles_eq_error_iff {e : BijectionError} : ofCycles n cycles = .error e ↔
    ∃ v fault, OffendsFirst n cycles.flatten v fault ∧ e = .ofPoint v n cycles fault := by
  simp only [Marks.offendsFirst_iff]
  rcases ofCycles_cases n cycles with ⟨m, p, hm, hp, -⟩ | ⟨o, ho, herror⟩
  · rw [hm, hp]
    exact iff_of_false nofun nofun
  · rw [ho, herror, Except.error.injEq]
    constructor
    · rintro rfl
      exact ⟨_, _, ⟨o, rfl, rfl, rfl⟩, rfl⟩
    · rintro ⟨_, _, ⟨o', ho', rfl, rfl⟩, rfl⟩
      cases ho'
      rfl

/-- Cycles are accepted exactly if their points are distinct and below the bound. The permutation
is then the bijection that they describe. Otherwise the first offence, in the order in which the
cycles are read, decides what is reported. All this holds as well if the table is filled point by
point, each image before it was checked. -/
theorem ofCycles_accepts_disjoint (n : Nat) (cycles : List (List Nat)) :
    tableOfCycles n cycles = (ofCycles n cycles).map images ∧
    ((∃ p, ofCycles n cycles = .ok p) ↔ DistinctBelow n cycles.flatten) ∧
    (∀ p, ofCycles n cycles = .ok p → Describes n cycles p) ∧
    (∀ e, ofCycles n cycles = .error e ↔
      (∃ v, OffendsFirst n cycles.flatten v .outOfRange ∧ e = .pointOutOfRange v n cycles) ∨
      ∃ v, OffendsFirst n cycles.flatten v .repeated ∧ e = .repeatedPoint v cycles) ∧
    ∀ e, ofCycles n cycles = .error e → e.diagnostic.family = .invalidBijection ∧
      ((∃ v, OffendsFirst n cycles.flatten v .outOfRange) → e.diagnostic.code = "out-of-range") ∧
      ((∃ v, OffendsFirst n cycles.flatten v .repeated) →
        e.diagnostic.code = "duplicate-point") := by
  -- the two faults, told apart by the point that offends first
  have herror (e : BijectionError) : ofCycles n cycles = .error e ↔
      (∃ v, OffendsFirst n cycles.flatten v .outOfRange ∧ e = .pointOutOfRange v n cycles) ∨
      ∃ v, OffendsFirst n cycles.flatten v .repeated ∧ e = .repeatedPoint v cycles := by
    rw [ofCycles_eq_error_iff]
    constructor
    · rintro ⟨v, fault, hv, rfl⟩
      cases fault with
      | outOfRange => exact .inl ⟨v, hv, rfl⟩
      | repeated => exact .inr ⟨v, hv, rfl⟩
    · rintro (⟨v, hv, rfl⟩ | ⟨v, hv, rfl⟩)
      · exact ⟨v, .outOfRange, hv, rfl⟩
      · exact ⟨v, .repeated, hv, rfl⟩
  refine ⟨tableOfCycles_eq n cycles, exists_ofCycles_iff,
    fun p hp => (ofCycles_eq_ok_iff_describes.1 hp).2, herror,
    fun e he => ⟨e.family_diagnostic, ?_, ?_⟩⟩
  · rintro ⟨v, hv⟩
    obtain rfl := Except.error.inj (he.symm.trans ((herror _).2 (.inl ⟨v, hv, rfl⟩)))
    rfl
  · rintro ⟨v, hv⟩
    obtain rfl := Except.error.inj (he.symm.trans ((herror _).2 (.inr ⟨v, hv, rfl⟩)))
    rfl

/-- Six points, of which three are moved in one cycle. -/
def threeOfSixMoved : Permutation := ⟨#[0, 4, 2, 1, 3, 5], by decide, by decide⟩

/-- An empty cycle and one of one point are accepted. Of two offences the first is reported, also
if the second one has been written as an image before. -/
theorem ofCycles_accepts_disjoint_sixPoints :
    ofCycles 6 [[3, 1, 4], [], [2]] = .ok threeOfSixMoved ∧
    Describes 6 [[3, 1, 4], [], [2]] threeOfSixMoved ∧
    (∃ e, ofCycles 6 [[0, 1, 0, 9]] = .error e ∧ e.diagnostic.family = .invalidBijection ∧
      e.diagnostic.code = "duplicate-point") ∧
    ∃ e, ofCycles 6 [[0, 9], [0]] = .error e ∧ e.diagnostic.family = .invalidBijection ∧
      e.diagnostic.code = "out-of-range" := by
  have haccepted : ofCycles 6 [[3, 1, 4], [], [2]] = .ok threeOfSixMoved := by decide +kernel
  have hrepeated : OffendsFirst 6 [0, 1, 0, 9] 0 .repeated :=
    ⟨[0, 1], [9], rfl, by simp [DistinctBelow], .repeated (by simp)⟩
  have houtOfRange : OffendsFirst 6 [0, 9, 0] 9 .outOfRange :=
    ⟨[0], [0], rfl, by simp [DistinctBelow], .outOfRange (by decide)⟩
  obtain ⟨-, -, -, herror, hcode⟩ := ofCycles_accepts_disjoint 6 [[0, 1, 0, 9]]
  obtain ⟨-, -, -, herror', hcode'⟩ := ofCycles_accepts_disjoint 6 [[0, 9], [0]]
  have he := (herror _).2 (.inr ⟨0, hrepeated, rfl⟩)
  have he' := (herror' _).2 (.inl ⟨9, houtOfRange, rfl⟩)
  exact ⟨haccepted, (ofCycles_accepts_disjoint 6 [[3, 1, 4], [], [2]]).2.2.1 _ haccepted,
    ⟨_, he, (hcode _ he).1, (hcode _ he).2.2 ⟨0, hrepeated⟩⟩,
    ⟨_, he', (hcode' _ he').1, (hcode' _ he').2.1 ⟨9, houtOfRange⟩⟩⟩

end Permutation

end PlanOrbits
