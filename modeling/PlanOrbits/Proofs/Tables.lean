import Mathlib.Data.List.Induction
import Mathlib.Data.List.Nodup
import PlanOrbits.Plan.Literal

/-!
# Tables that are filled entry by entry

A list of entries is made into a table by one insertion after the other. Of the entries with one
key the last one counts (`getElem?_foldl_insert`); where the keys differ, every entry counts
(`getElem?_foldl_insert_of_nodup`) and the table is as large as the list (`size_foldl_insert`).
The entries of a table, listed in the order of their keys, give the table back
(`foldl_insert_toList`).

So it is with substitutions and their bindings. The order of the keys is that of the variables,
by name and then by type (`Variable.compare_eq_lt_iff`).
-/

namespace PlanOrbits

open Std (ExtTreeMap TransOrd LawfulEqOrd)

section

variable {α β γ : Type} [DecidableEq α]

/-- Among entries whose keys differ the last one with a key is the only one. -/
theorem getLast?_filter_eq_some_iff {key : γ → α} {xs : List γ} (hnodup : (xs.map key).Nodup)
    {k : α} {x : γ} :
    (xs.filter (key · == k)).getLast? = some x ↔ x ∈ xs ∧ key x = k := by
  have hmem : ∀ y, y ∈ xs.filter (key · == k) ↔ y ∈ xs ∧ key y = k := by simp
  constructor
  · intro h
    exact (hmem x).1 (List.mem_of_getLast? h)
  · intro h
    have hne : xs.filter (key · == k) ≠ [] := List.ne_nil_of_mem ((hmem x).2 h)
    obtain ⟨hlast, hkey⟩ := (hmem _).1 (List.getLast_mem hne)
    rw [List.getLast?_eq_some_getLast hne,
      List.inj_on_of_nodup_map hnodup hlast h.1 (hkey.trans h.2.symm)]

variable [Ord α] [TransOrd α] [LawfulEqOrd α] (key : γ → α) (value : γ → β)

/-- Of the entries with one key the last one counts. -/
theorem getElem?_foldl_insert (xs : List γ) (k : α) :
    (xs.foldl (fun m x => m.insert (key x) (value x)) (∅ : ExtTreeMap α β))[k]? =
      (xs.filter (key · == k)).getLast?.map value := by
  induction xs using List.reverseRecOn with
  | nil => simp
  | append_singleton xs x ih =>
      rw [List.foldl_append, List.foldl_cons, List.foldl_nil, ExtTreeMap.getElem?_insert, ih,
        List.filter_append]
      by_cases hk : key x = k
      · simp [hk]
      · simp [hk]

/-- A table of entries whose keys differ has each of them. -/
theorem getElem?_foldl_insert_of_nodup {xs : List γ} (hnodup : (xs.map key).Nodup) {k : α}
    {v : β} :
    (xs.foldl (fun m x => m.insert (key x) (value x)) (∅ : ExtTreeMap α β))[k]? = some v ↔
      ∃ x ∈ xs, key x = k ∧ value x = v := by
  simp only [getElem?_foldl_insert, Option.map_eq_some_iff, getLast?_filter_eq_some_iff hnodup,
    and_assoc]

/-- A table of entries whose keys differ has as many. -/
theorem size_foldl_insert {xs : List γ} (hnodup : (xs.map key).Nodup) :
    (xs.foldl (fun m x => m.insert (key x) (value x)) (∅ : ExtTreeMap α β)).size = xs.length := by
  induction xs using List.reverseRecOn with
  | nil => rfl
  | append_singleton xs x ih =>
      rw [List.map_append, List.map_singleton, List.nodup_append] at hnodup
      obtain ⟨hxs, -, hne⟩ := hnodup
      -- the key of the last entry is not in the table yet, for the keys are all different
      have hnew : ¬(xs.foldl (fun m x => m.insert (key x) (value x))
          (∅ : ExtTreeMap α β)).contains (key x) = true := by
        rw [ExtTreeMap.contains_eq_isSome_getElem?, Option.isSome_iff_exists]
        rintro ⟨v, hv⟩
        obtain ⟨y, hy, hkey, -⟩ := (getElem?_foldl_insert_of_nodup key value hxs).1 hv
        exact hne _ (List.mem_map_of_mem hy) _ (List.mem_singleton.2 rfl) hkey
      rw [List.foldl_append, List.foldl_cons, List.foldl_nil, ExtTreeMap.size_insert, if_neg hnew,
        ih hxs, List.length_append, List.length_singleton]

/-- A table is made of its own entries. -/
theorem foldl_insert_toList (m : ExtTreeMap α β) :
    m.toList.foldl (fun m x => m.insert x.1 x.2) (∅ : ExtTreeMap α β) = m := by
  have hnodup : (m.toList.map Prod.fst).Nodup := by
    rw [ExtTreeMap.map_fst_toList_eq_keys]
    exact ExtTreeMap.nodup_keys
  refine ExtTreeMap.ext_getElem? fun k => Option.ext fun v => ?_
  rw [getElem?_foldl_insert_of_nodup Prod.fst Prod.snd hnodup]
  constructor
  · rintro ⟨⟨k, v⟩, hmem, rfl, rfl⟩
    exact ExtTreeMap.mem_toList_iff_getElem?_eq_some.1 hmem
  · intro hv
    exact ⟨(k, v), ExtTreeMap.mem_toList_iff_getElem?_eq_some.2 hv, rfl, rfl⟩

end

/-! ### Variables -/

/-- The variable comes before the other by its name or, if the names are the same, by its type. -/
def Variable.Precedes (v w : Variable) : Prop :=
  v.name < w.name ∨ v.name = w.name ∧ v.type.text < w.type.text

/-- What it means that a variable comes first in the order of keys, spelled out for the documents of
substitutions. -/
theorem Variable.compare_eq_lt_iff {v w : Variable} : compare v w = .lt ↔ v.Precedes w := by
  have hcompare : compare v w =
      (compare v.name w.name).then (compare v.type.text w.type.text) := rfl
  have htext : ∀ {s t : String}, compare s t = .lt ↔ s < t := compareOfLessAndEq_eq_lt
  rw [hcompare, Ordering.then_eq_lt, htext, htext, LawfulEqOrd.compare_eq_iff_eq, Precedes]

/-! ### Substitutions -/

namespace Substitution

variable {s : Substitution} {b : Binding}

/-- The bindings of a substitution are what its table holds, and nothing else. -/
theorem mem_bindings : b ∈ s.bindings ↔ s[b.var]? = some b.constant := by
  rw [← ExtTreeMap.mem_toList_iff_getElem?_eq_some, bindings, List.mem_map]
  constructor
  · rintro ⟨⟨v, c⟩, hmem, rfl⟩
    exact hmem
  · intro hmem
    exact ⟨_, hmem, rfl⟩

/-- The bindings stand in the order of their variables, each of which has one. -/
theorem pairwise_bindings (s : Substitution) :
    s.bindings.Pairwise fun b b' => b.var.Precedes b'.var := by
  rw [bindings, List.pairwise_map]
  exact ExtTreeMap.ordered_keys_toList.imp Variable.compare_eq_lt_iff.1

/-- No variable is bound twice. This is what makes a substitution readable from its own bindings in
any order. -/
theorem nodup_map_var_bindings (s : Substitution) : (s.bindings.map (·.var)).Nodup := by
  rw [bindings, List.map_map]
  exact ExtTreeMap.map_fst_toList_eq_keys (t := s) ▸ ExtTreeMap.nodup_keys

/-- A substitution is made of its own bindings. -/
theorem ofBindings_bindings (s : Substitution) : ofBindings s.bindings = s := by
  rw [ofBindings, bindings, List.foldl_map]
  exact foldl_insert_toList s

/-- Of the bindings of a variable the last one counts. -/
theorem getElem?_ofBindings (bs : List Binding) (v : Variable) :
    (ofBindings bs)[v]? = (bs.filter (·.var == v)).getLast?.map (·.constant) :=
  getElem?_foldl_insert Binding.var Binding.constant bs v

/-- What is bound in the end are the last bindings of the variables. -/
theorem mem_bindings_ofBindings {bs : List Binding} :
    b ∈ (ofBindings bs).bindings ↔ (bs.filter (·.var == b.var)).getLast? = some b := by
  rw [mem_bindings, getElem?_ofBindings, Option.map_eq_some_iff]
  constructor
  · rintro ⟨b', hlast, hconstant⟩
    have hvar : b'.var = b.var := by
      simpa using (List.mem_filter.1 (List.mem_of_getLast? hlast)).2
    cases b
    cases b'
    -- two bindings with the same variable and the same constant are the same
    simp_all
  · intro hlast
    exact ⟨b, hlast, rfl⟩

end Substitution

end PlanOrbits
