import Mathlib.Data.List.Forall2
import PlanOrbits.Error

/-!
# Operations that may fail

What the success of an operation says about its parts: of a sequence, that every part
succeeded; of a pass through a list, that it succeeded at every member. Proofs take a
success apart with these lemmas and do not unfold the monad.

`mapBoth` changes what an operation gives and what it reports. If this is done to the parts
of a sequence or of a pass, it is done to the whole.
-/

namespace PlanOrbits

variable {ε ε' α β : Type}

/-- A sequence in `Except` succeeds exactly if both of its parts do. This is the lemma by which
almost every proof about an encoder or a reader takes a `do` block apart. -/
theorem bind_eq_ok_iff {x : Except ε α} {f : α → Except ε β} {b : β} :
    x >>= f = .ok b ↔ ∃ a, x = .ok a ∧ f a = .ok b := by
  cases x with
  | error e => simp [bind, Except.bind]
  | ok a => simp [bind, Except.bind]

/-- A sequence fails where its first part fails, or its second part after a first one that
succeeded. Needed where the error itself is described, not only that there is one. -/
theorem bind_eq_error_iff {x : Except ε α} {f : α → Except ε β} {e : ε} :
    x >>= f = .error e ↔ x = .error e ∨ ∃ a, x = .ok a ∧ f a = .error e := by
  cases x with
  | error e' => simp [bind, Except.bind]
  | ok a => simp [bind, Except.bind]

theorem map_eq_ok_iff {x : Except ε α} {f : α → β} {b : β} :
    x.map f = .ok b ↔ ∃ a, x = .ok a ∧ f a = b := by
  cases x with
  | error e => simp [Except.map]
  | ok a => simp [Except.map]

theorem map_eq_error_iff {x : Except ε α} {f : α → β} {e : ε} :
    x.map f = .error e ↔ x = .error e := by
  cases x with
  | error e' => simp [Except.map]
  | ok a => simp [Except.map]

theorem mapError_eq_ok_iff {x : Except ε α} {f : ε → ε'} {a : α} :
    x.mapError f = .ok a ↔ x = .ok a := by
  cases x with
  | error e => simp [Except.mapError]
  | ok a => simp [Except.mapError]

/-- With another type of errors, an operation reports the image of what it reported before. -/
theorem mapError_eq_error_iff {x : Except ε α} {f : ε → ε'} {e : ε'} :
    x.mapError f = .error e ↔ ∃ cause, x = .error cause ∧ f cause = e := by
  cases x with
  | error e => simp [Except.mapError]
  | ok a => simp [Except.mapError]

/-- An operation that reports plan errors may stand among operations that report any `Error`; this
and the next two lemmas say that the lifting does not change a success. -/
theorem liftM_plan_eq_ok_iff {x : Except PlanError α} {a : α} :
    (liftM x : Except Error α) = .ok a ↔ x = .ok a := mapError_eq_ok_iff

theorem liftM_graph_eq_ok_iff {x : Except GraphError α} {a : α} :
    (liftM x : Except Error α) = .ok a ↔ x = .ok a := mapError_eq_ok_iff

theorem liftM_bijection_eq_ok_iff {x : Except BijectionError α} {a : α} :
    (liftM x : Except Error α) = .ok a ↔ x = .ok a := mapError_eq_ok_iff

theorem liftM_plan_ok_bind {a : α} {f : α → Except Error β} :
    (liftM (.ok a : Except PlanError α) : Except Error α) >>= f = f a := rfl

theorem liftM_plan_error_bind {cause : PlanError} {f : α → Except Error β} :
    (liftM (.error cause : Except PlanError α) : Except Error α) >>= f = .error (.plan cause) := rfl

/-- There is only one result with the fact that it is the result. This is what lets proofs forget
about `attached` when they take a success apart. -/
theorem attached_eq_ok {x : Except ε α} (a : {a // x = .ok a}) : attached x = .ok a := by
  obtain ⟨a, rfl⟩ := a
  rfl

/-- The counterpart of `attached_eq_ok` for an error. -/
theorem attached_eq_error {x : Except ε α} {e : ε} (h : x = .error e) : attached x = .error e := by
  subst h
  rfl

/-- A success that passes a check. -/
theorem exists_ok_of_any {x : Except ε α} {check : α → Bool} (h : x.toOption.any check = true) :
    ∃ a, x = .ok a ∧ check a = true := by
  cases x with
  | error e => cases h
  | ok a => exact ⟨a, rfl, h⟩

/-! ### Passes through lists -/

/-- Lists of one length have members at the same places. -/
theorem exists_getElem?_of_length_eq {xs : List α} {ys : List β} (h : xs.length = ys.length)
    {i : Nat} {x : α} (hx : xs[i]? = some x) : ∃ y, ys[i]? = some y := by
  obtain ⟨hi, -⟩ := List.getElem?_eq_some_iff.1 hx
  exact ⟨_, List.getElem?_eq_getElem (h ▸ hi)⟩

/-- Two lists are related member by member if they are so place by place. -/
theorem forall₂_iff_getElem? {R : α → β → Prop} {xs : List α} {ys : List β} :
    List.Forall₂ R xs ys ↔ xs.length = ys.length ∧
      ∀ (i : Nat) (x : α) (y : β), xs[i]? = some x → ys[i]? = some y → R x y := by
  rw [List.forall₂_iff_get]
  refine and_congr_right fun hlength => ⟨fun h i x y hx hy => ?_, fun h i hx hy => ?_⟩
  · obtain ⟨hi, rfl⟩ := List.getElem?_eq_some_iff.1 hx
    obtain ⟨hi', rfl⟩ := List.getElem?_eq_some_iff.1 hy
    exact h i hi hi'
  · exact h i _ _ (List.getElem?_eq_getElem hx) (List.getElem?_eq_getElem hy)

section

variable {R : α → β → Prop} {xs : List α} {ys : List β} {i : Nat} {x : α} {y : β}

theorem rel_of_forall₂ (h : List.Forall₂ R xs ys) (hx : xs[i]? = some x) (hy : ys[i]? = some y) :
    R x y :=
  (forall₂_iff_getElem?.1 h).2 i x y hx hy

theorem exists_right_of_forall₂ (h : List.Forall₂ R xs ys) (hx : xs[i]? = some x) :
    ∃ y, ys[i]? = some y ∧ R x y := by
  obtain ⟨y, hy⟩ := exists_getElem?_of_length_eq h.length_eq hx
  exact ⟨y, hy, rel_of_forall₂ h hx hy⟩

theorem exists_left_of_forall₂ (h : List.Forall₂ R xs ys) (hy : ys[i]? = some y) :
    ∃ x, xs[i]? = some x ∧ R x y := by
  obtain ⟨x, hx⟩ := exists_getElem?_of_length_eq h.length_eq.symm hy
  exact ⟨x, hx, rel_of_forall₂ h hx hy⟩

end

theorem mapM_cons_eq_ok_iff {f : α → Except ε β} {x : α} {xs : List α} {ys : List β} :
    (x :: xs).mapM f = .ok ys ↔ ∃ y ys', f x = .ok y ∧ xs.mapM f = .ok ys' ∧ ys = y :: ys' := by
  simp only [List.mapM_cons, bind_eq_ok_iff, pure, Except.pure, Except.ok.injEq]
  constructor
  · rintro ⟨y, hy, ys', hys', rfl⟩
    exact ⟨y, ys', hy, hys', rfl⟩
  · rintro ⟨y, ys', hy, hys', rfl⟩
    exact ⟨y, hy, ys', hys', rfl⟩

/-- Going through a list succeeds if it succeeds at every member. -/
theorem mapM_eq_ok_iff {f : α → Except ε β} {xs : List α} {ys : List β} :
    xs.mapM f = .ok ys ↔ List.Forall₂ (fun x y => f x = .ok y) xs ys := by
  induction xs generalizing ys with
  | nil => cases ys <;> simp [pure, Except.pure]
  | cons x xs ih =>
      rw [mapM_cons_eq_ok_iff, List.forall₂_cons_left_iff]
      simp only [ih]

/-- `mapM_eq_ok_iff` for operations that fail without a reason. -/
theorem mapM_eq_some_iff {f : α → Option β} {xs : List α} {ys : List β} :
    xs.mapM f = some ys ↔ List.Forall₂ (fun x y => f x = some y) xs ys := by
  induction xs generalizing ys with
  | nil => cases ys <;> simp
  | cons x xs ih =>
      rw [List.forall₂_cons_left_iff]
      simp only [List.mapM_cons, Option.bind_eq_bind, Option.bind_eq_some_iff, Option.pure_def,
        Option.some.injEq, ih]
      constructor
      · rintro ⟨y, hy, ys', hys', rfl⟩
        exact ⟨y, ys', hy, hys', rfl⟩
      · rintro ⟨y, ys', hy, hys', rfl⟩
        exact ⟨y, hy, ys', hys', rfl⟩

/-- A pass through a list gives some list if the operation gives something at every member. -/
theorem exists_mapM_eq_some {f : α → Option β} {xs : List α}
    (h : ∀ x ∈ xs, ∃ y, f x = some y) : ∃ ys, xs.mapM f = some ys := by
  induction xs with
  | nil => exact ⟨[], rfl⟩
  | cons x xs ih =>
      obtain ⟨y, hy⟩ := h x (by simp)
      obtain ⟨ys, hys⟩ := ih fun x' hx' => h x' (by simp [hx'])
      exact ⟨y :: ys, by simp [hy, hys]⟩

/-- Two passes one after the other, in one go: whichever fails, and wherever, there is no result. -/
theorem mapM_bind_eq {γ : Type} {f : α → Option β} {g : β → Option γ} (xs : List α) :
    xs.mapM (fun x => (f x).bind g) = (xs.mapM f).bind (·.mapM g) := by
  induction xs with
  | nil => rfl
  | cons x xs ih =>
      simp only [List.mapM_cons, ih]
      cases f x with
      | none => rfl
      | some y =>
          cases xs.mapM f with
          -- here `f` fails at a later member, so that it does not matter what `g` does at this one
          | none => cases hy : g y <;> simp [hy]
          | some ys => simp

/-- Going through a list where nothing fails. -/
theorem mapM_eq_ok_map {f : α → Except ε β} {g : α → β} {xs : List α}
    (h : ∀ x ∈ xs, f x = .ok (g x)) : xs.mapM f = .ok (xs.map g) := by
  rw [mapM_eq_ok_iff, List.forall₂_map_right_iff, List.forall₂_same]
  exact h

/-- Going through a list fails at the first member at which it fails. -/
theorem mapM_cons_eq_error_iff {f : α → Except ε β} {x : α} {xs : List α} {e : ε} :
    (x :: xs).mapM f = .error e ↔ f x = .error e ∨ ∃ y, f x = .ok y ∧ xs.mapM f = .error e := by
  simp [List.mapM_cons, bind_eq_error_iff, pure, Except.pure]

/-- The error of a pass is the error at one of the members. -/
theorem exists_mem_of_mapM_eq_error {f : α → Except ε β} {xs : List α} {e : ε}
    (h : xs.mapM f = .error e) : ∃ x ∈ xs, f x = .error e := by
  induction xs with
  | nil => cases h
  | cons x xs ih =>
      rcases mapM_cons_eq_error_iff.1 h with hx | ⟨-, -, hxs⟩
      · exact ⟨x, List.mem_cons_self, hx⟩
      · obtain ⟨x', hx', herror⟩ := ih hxs
        exact ⟨x', List.mem_cons_of_mem _ hx', herror⟩

/-- A pass succeeds exactly if the operation does at every member. Where only success matters, this
spares the list of results that `mapM_eq_ok_iff` names. -/
theorem exists_mapM_eq_ok_iff {f : α → Except ε β} {xs : List α} :
    (∃ ys, xs.mapM f = .ok ys) ↔ ∀ x ∈ xs, ∃ y, f x = .ok y := by
  induction xs with
  | nil => simp [pure, Except.pure]
  | cons x xs ih =>
      rw [List.forall_mem_cons, ← ih]
      simp only [mapM_cons_eq_ok_iff]
      constructor
      · rintro ⟨_, y, ys, hy, hys, -⟩
        exact ⟨⟨y, hy⟩, ys, hys⟩
      · rintro ⟨⟨y, hy⟩, ys, hys⟩
        exact ⟨_, y, ys, hy, hys, rfl⟩

/-- Steps that are taken for the members of a list fail at the first member at which one fails. -/
theorem foldlM_eq_error_iff {σ : Type} {f : σ → α → Except ε σ} {s : σ} {xs : List α} {e : ε} :
    xs.foldlM f s = .error e ↔ ∃ before x after s', xs = before ++ x :: after ∧
      before.foldlM f s = .ok s' ∧ f s' x = .error e := by
  constructor
  · intro h
    -- the first member that fails splits the list; the induction carries the state in front of it
    induction xs generalizing s with
    | nil => cases h
    | cons x xs ih =>
        rw [List.foldlM_cons, bind_eq_error_iff] at h
        rcases h with hx | ⟨s₁, hx, hxs⟩
        · exact ⟨[], x, xs, s, rfl, rfl, hx⟩
        · obtain ⟨before, y, after, s', rfl, hbefore, hy⟩ := ih hxs
          refine ⟨x :: before, y, after, s', rfl, ?_, hy⟩
          rw [List.foldlM_cons, bind_eq_ok_iff]
          exact ⟨s₁, hx, hbefore⟩
  · rintro ⟨before, x, after, s', rfl, hbefore, hx⟩
    rw [List.foldlM_append, hbefore]
    exact bind_eq_error_iff.2 (.inr ⟨s', rfl, bind_eq_error_iff.2 (.inl hx)⟩)

/-- Lifting the error of every part is lifting that of the whole. -/
theorem mapM_liftM_plan {f : α → Except PlanError β} (xs : List α) :
    xs.mapM (fun x => (liftM (f x) : Except Error β)) = liftM (xs.mapM f) := by
  induction xs with
  | nil => rfl
  | cons x xs ih =>
      rw [List.mapM_cons, List.mapM_cons, ih]
      cases f x with
      | error cause => rfl
      | ok y => cases xs.mapM f <;> rfl

/-! ### Changed results -/

/-- Another result in the place of a result, and another error in the place of an error. -/
def mapBoth (r : ε → ε') (f : α → β) : Except ε α → Except ε' β
  | .ok a => .ok (f a)
  | .error e => .error (r e)

section

variable {α' β' : Type} {r : ε → ε'} {f : α → α'}

/-- `mapBoth` neither makes a success of an error nor an error of a success. -/
theorem exists_mapBoth_eq_ok_iff {x : Except ε α} :
    (∃ a', mapBoth r f x = .ok a') ↔ ∃ a, x = .ok a := by
  cases x with
  | error e => simp [mapBoth]
  | ok a => simp [mapBoth]

/-- If the first part of a sequence is changed by `mapBoth`, and the second part for every result of
the first, so is the sequence. This is the step by which a renamed encoder is compared with the
encoder, line by line. -/
theorem bind_eq_mapBoth {x : Except ε α} {x' : Except ε' α'} {g : α → Except ε β}
    {g' : α' → Except ε' β'} {h : β → β'} (hx : x' = mapBoth r f x)
    (hg : ∀ a, g' (f a) = mapBoth r h (g a)) : x' >>= g' = mapBoth r h (x >>= g) := by
  subst hx
  cases x with
  | error e => rfl
  | ok a => exact hg a

theorem eq_ok_of_eq_mapBoth {x : Except ε α} {x' : Except ε' α'} {a : α}
    (hx : x' = mapBoth r f x) (ha : x = .ok a) : x' = .ok (f a) := by
  rw [hx, ha, mapBoth]

/-- The fact about a result becomes one about the changed result. -/
theorem attached_eq_mapBoth {x : Except ε α} {x' : Except ε' α'} (hx : x' = mapBoth r f x) :
    attached x' = mapBoth r (fun a => ⟨f a.1, eq_ok_of_eq_mapBoth hx a.2⟩) (attached x) := by
  subst hx
  cases x <;> rfl

/-- The step for a pass through a list whose members are changed, too. -/
theorem mapM_map_eq_mapBoth {g : α → Except ε β} {g' : α' → Except ε' β'} {h : β → β'}
    {xs : List α} (hg : ∀ x ∈ xs, g' (f x) = mapBoth r h (g x)) :
    (xs.map f).mapM g' = mapBoth r (List.map h) (xs.mapM g) := by
  induction xs with
  | nil => rfl
  | cons x xs ih =>
      obtain ⟨hx, hxs⟩ := List.forall_mem_cons.1 hg
      rw [List.map_cons, List.mapM_cons, List.mapM_cons]
      exact bind_eq_mapBoth hx fun y => bind_eq_mapBoth (ih hxs) fun ys => rfl

theorem mapM_map_eq_mapBoth_id {g : α → Except ε β} {g' : α' → Except ε' β} {xs : List α}
    (hg : ∀ x ∈ xs, g' (f x) = mapBoth r id (g x)) :
    (xs.map f).mapM g' = mapBoth r id (xs.mapM g) := by
  rw [mapM_map_eq_mapBoth hg, List.map_id_fun]

end

end PlanOrbits
