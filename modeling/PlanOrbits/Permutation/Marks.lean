/-!
# Marking points

Many checks of this library ask of a list of points whether all of them lie
below a bound and none occurs twice. They walk the list once and mark every
point; the first point that is too large or already marked is reported with its
place.

The view of a set of marks is `Marks.has`. `addAll_isOk_iff` says which lists are
accepted and `addAll_eq_ok` what is marked afterwards.
-/

namespace PlanOrbits

/-- What is wrong with a point. -/
inductive PointFault where
  | outOfRange
  | repeated
  deriving DecidableEq, Repr

/-- A point that is wrong, and its place in the list. -/
structure Offence where
  index : Nat
  point : Nat
  fault : PointFault
  deriving DecidableEq, Repr

/-- A set of points below `n`. -/
structure Marks (n : Nat) where
  marked : Vector Bool n

namespace Marks

variable {n : Nat}

/-- No points. -/
def empty (n : Nat) : Marks n := ⟨Vector.replicate n false⟩

/-- Is the point in the set? -/
def has (m : Marks n) (p : Nat) : Bool :=
  if h : p < n then m.marked[p] else false

@[simp] theorem has_empty (p : Nat) : (empty n).has p = false := by
  simp [has, empty]

/-- Add a point, if it is below the bound and new. -/
def add (m : Marks n) (p : Nat) : Except PointFault (Marks n) :=
  if h : p < n then
    if m.marked[p] then .error .repeated else .ok ⟨m.marked.set p true⟩
  else .error .outOfRange

/-- Add the points of a list whose first one has the place `index`. -/
def addAll (m : Marks n) (index : Nat) : List Nat → Except Offence (Marks n)
  | [] => .ok m
  | p :: ps =>
      match m.add p with
      | .ok m' => m'.addAll (index + 1) ps
      | .error fault => .error { index, point := p, fault }

/-- The first point below the bound that is not in the set. -/
def missing? (m : Marks n) : Option Nat := m.marked.findFinIdx? (!·) |>.map (·.val)

/-! ## What is accepted, and what is marked -/

theorem add_eq_ok {m m' : Marks n} {p : Nat} (h : m.add p = .ok m') :
    p < n ∧ m.has p = false ∧ ∀ q, m'.has q = (m.has q || q == p) := by
  unfold add at h
  split at h
  · rename_i hp
    split at h
    · simp at h
    · rename_i hm
      simp only [Except.ok.injEq] at h
      subst h
      refine ⟨hp, by simpa [has, hp] using hm, fun q => ?_⟩
      by_cases hq : q < n
      · by_cases hqp : p = q
        · simp [has, hqp, hq]
        · have : (q == p) = false := by simpa using fun e => hqp e.symm
          simp [has, hq, hqp, this]
      · have : (q == p) = false := by
          simp only [beq_eq_false_iff_ne]
          omega
        simp [has, hq, this]
  · simp at h

theorem exists_add_eq_ok {m : Marks n} {p : Nat} (hp : p < n) (hm : m.has p = false) :
    ∃ m', m.add p = .ok m' := by
  simp only [has, hp, dif_pos] at hm
  exact ⟨_, by simp only [add, hp, dif_pos, hm]; rfl⟩

/-- What is marked after a list was accepted, and what that says of the list. -/
theorem addAll_eq_ok {m m' : Marks n} {index : Nat} {ps : List Nat}
    (h : m.addAll index ps = .ok m') :
    (∀ p ∈ ps, p < n ∧ m.has p = false) ∧ ps.Nodup ∧
      ∀ q, m'.has q = (m.has q || ps.contains q) := by
  induction ps generalizing m index with
  | nil =>
      simp only [addAll, Except.ok.injEq] at h
      subst h
      simp
  | cons p ps ih =>
      rw [addAll] at h
      split at h
      · rename_i m₁ h₁
        obtain ⟨hp, hm, hhas⟩ := add_eq_ok h₁
        obtain ⟨hall, hnodup, hhas'⟩ := ih h
        refine ⟨?_, ?_, fun q => ?_⟩
        · intro q hq
          cases hq with
          | head => exact ⟨hp, hm⟩
          | tail _ hq =>
              obtain ⟨hlt, hq'⟩ := hall q hq
              rw [hhas] at hq'
              simp only [Bool.or_eq_false_iff] at hq'
              exact ⟨hlt, hq'.1⟩
        · refine List.nodup_cons.2 ⟨fun hmem => ?_, hnodup⟩
          have := (hall p hmem).2
          rw [hhas] at this
          simp at this
        · rw [hhas' q, hhas q, List.contains_cons, Bool.or_assoc]
      · simp at h

theorem exists_addAll_eq_ok {m : Marks n} {index : Nat} {ps : List Nat}
    (hall : ∀ p ∈ ps, p < n ∧ m.has p = false) (hnodup : ps.Nodup) :
    ∃ m', m.addAll index ps = .ok m' := by
  induction ps generalizing m index with
  | nil => exact ⟨m, rfl⟩
  | cons p ps ih =>
      obtain ⟨hp, hm⟩ := hall p (by simp)
      obtain ⟨m₁, h₁⟩ := exists_add_eq_ok hp hm
      obtain ⟨_, _, hhas⟩ := add_eq_ok h₁
      obtain ⟨hnot, hrest⟩ := List.nodup_cons.1 hnodup
      obtain ⟨m', h'⟩ := @ih m₁ (index + 1) (fun q hq => by
        obtain ⟨hlt, hq'⟩ := hall q (by simp [hq])
        refine ⟨hlt, ?_⟩
        have hne : (q == p) = false := by
          simp only [beq_eq_false_iff_ne]
          rintro rfl
          exact hnot hq
        simp [hhas, hq', hne]) hrest
      exact ⟨m', by rw [addAll, h₁]; exact h'⟩

/-- The accepted lists: distinct points below the bound, none of them marked. -/
theorem addAll_isOk_iff {m : Marks n} {index : Nat} {ps : List Nat} :
    (∃ m', m.addAll index ps = .ok m') ↔
      (∀ p ∈ ps, p < n ∧ m.has p = false) ∧ ps.Nodup :=
  ⟨fun ⟨_, h⟩ => ⟨(addAll_eq_ok h).1, (addAll_eq_ok h).2.1⟩,
    fun ⟨hall, hnodup⟩ => exists_addAll_eq_ok hall hnodup⟩

end Marks

/-- Are these distinct points below `n`? -/
def arePoints (n : Nat) (ps : List Nat) : Bool :=
  match (Marks.empty n).addAll 0 ps with
  | .ok _ => true
  | .error _ => false

theorem arePoints_iff {n : Nat} {ps : List Nat} :
    arePoints n ps = true ↔ (∀ p ∈ ps, p < n) ∧ ps.Nodup := by
  have h := @Marks.addAll_isOk_iff n (Marks.empty n) 0 ps
  simp only [Marks.has_empty, and_true] at h
  rw [← h, arePoints]
  split
  · rename_i m' h'
    simp only [true_iff]
    exact ⟨m', h'⟩
  · rename_i o h'
    simp [h']

end PlanOrbits
