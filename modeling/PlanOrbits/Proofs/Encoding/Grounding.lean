import Mathlib.Data.List.Perm.Subperm
import PlanOrbits.Proofs.Encoding.Layout

/-!
# Ground literals

A literal whose arguments are bound to constants, with constants in the place of its
variables. Symmetries of a problem are permutations of constants, and they act on ground
literals by renaming. `perm_of_getElem?` turns a permutation of places into one of lists.
-/

namespace PlanOrbits

/-- A literal of constants. -/
structure GroundLiteral where
  predicate : String
  positive : Bool
  args : List Constant
  deriving DecidableEq

/-- The ground literal with other constants. -/
def GroundLiteral.rename (π : Constant → Constant) (g : GroundLiteral) : GroundLiteral :=
  { g with args := g.args.map π }

/-- The ground literal of a literal, if all its arguments are bound. -/
def Substitution.ground? (s : Substitution) (l : Literal) : Option GroundLiteral :=
  (l.atom.args.mapM (s[·]?)).map fun args => ⟨l.atom.predicate, l.positive, args⟩

/-- The ground literal of `l` has its predicate, its sign and, place by place, the constants its
arguments are bound to. -/
theorem ground?_eq_some_iff {s : Substitution} {l : Literal} {g : GroundLiteral} :
    s.ground? l = some g ↔ g.predicate = l.atom.predicate ∧ g.positive = l.positive ∧
      List.Forall₂ (fun v c => s[v]? = some c) l.atom.args g.args := by
  rw [Substitution.ground?, Option.map_eq_some_iff]
  simp only [mapM_eq_some_iff]
  constructor
  · rintro ⟨args, hargs, rfl⟩
    exact ⟨rfl, rfl, hargs⟩
  · rintro ⟨hpredicate, hpositive, hargs⟩
    refine ⟨g.args, hargs, ?_⟩
    rw [← hpredicate, ← hpositive]

/-- A literal has a ground literal as soon as every argument is bound. -/
theorem exists_ground?_eq_some {s : Substitution} {l : Literal}
    (h : ∀ v ∈ l.atom.args, ∃ c, s[v]? = some c) : ∃ g, s.ground? l = some g := by
  obtain ⟨args, hargs⟩ := exists_mapM_eq_some h
  exact ⟨_, Option.map_eq_some_iff.2 ⟨args, hargs, rfl⟩⟩

/-- If `l'` is of the kind of `l` and its arguments are bound to the images of the constants that
those of `l` are bound to, its ground literal is the renamed one. This carries a symmetry of places
over to the constants. -/
theorem ground?_rename {s : Substitution} {l l' : Literal} {g : GroundLiteral}
    {π : Constant → Constant} (hpredicate : l'.atom.predicate = l.atom.predicate)
    (hpositive : l'.positive = l.positive) (harity : l'.arity = l.arity)
    (hargs : ∀ (j : Nat) (v v' : Variable), l.atom.args[j]? = some v → l'.atom.args[j]? = some v' →
      ∃ c, s[v]? = some c ∧ s[v']? = some (π c))
    (hg : s.ground? l = some g) : s.ground? l' = some (g.rename π) := by
  obtain ⟨hgpredicate, hgpositive, hgargs⟩ := ground?_eq_some_iff.1 hg
  obtain ⟨hlength, hgargs⟩ := forall₂_iff_getElem?.1 hgargs
  refine ground?_eq_some_iff.2 ⟨hgpredicate.trans hpredicate.symm, hgpositive.trans hpositive.symm,
    forall₂_iff_getElem?.2 ⟨?_, fun j v' c' hv' hc' => ?_⟩⟩
  · rw [GroundLiteral.rename, List.length_map, ← hlength]
    exact harity
  · -- place by place: the argument of `l` at this place, the constant it is bound to, its image
    obtain ⟨v, hv⟩ := exists_getElem?_of_length_eq harity hv'
    obtain ⟨c, hc, hπ⟩ := hargs j v v' hv hv'
    rw [GroundLiteral.rename, List.getElem?_map, Option.map_eq_some_iff] at hc'
    obtain ⟨c₀, hc₀, rfl⟩ := hc'
    have hbound := hgargs j _ c₀ hv hc₀
    rw [hc, Option.some.injEq] at hbound
    rw [hπ, hbound]

/-- If `ys` has at each place what `xs` has at the image of the place, and different places have
different images, then `ys` is a permutation of `xs`. Counting places this way keeps the
multiplicity of literals that occur twice. -/
theorem perm_of_getElem? {α : Type} {xs ys : List α} {f : Nat → Nat}
    (hlength : ys.length = xs.length) (hlt : ∀ i < xs.length, f i < xs.length)
    (hinj : ∀ i < xs.length, ∀ j < xs.length, f i = f j → i = j)
    (h : ∀ i < xs.length, ys[i]? = xs[f i]?) : ys.Perm xs := by
  -- as many different places as there are places are all of them
  have hplaces : ((List.range xs.length).map f).Perm (List.range xs.length) := by
    have hnodup : ((List.range xs.length).map f).Nodup :=
      List.Nodup.map_on (fun i hi j hj => hinj i (List.mem_range.1 hi) j (List.mem_range.1 hj))
        List.nodup_range
    refine (List.subperm_of_subset hnodup fun k hk => ?_).perm_of_length_le (by simp)
    obtain ⟨i, hi, rfl⟩ := List.mem_map.1 hk
    exact List.mem_range.2 (hlt i (List.mem_range.1 hi))
  have hmembers : ∀ zs : List α, (List.range zs.length).filterMap (zs[·]?) = zs := by
    intro zs
    induction zs with
    | nil => rfl
    | cons z zs ih =>
        rw [List.length_cons, List.range_succ_eq_map, List.filterMap_cons, List.filterMap_map]
        simpa [Function.comp_def] using ih
  have hperm := hplaces.filterMap (xs[·]?)
  rw [List.filterMap_map, hmembers] at hperm
  rw [← hmembers ys, hlength]
  rw [List.filterMap_congr fun i hi => h i (List.mem_range.1 hi)]
  exact hperm

end PlanOrbits
