import Mathlib.Data.Finset.Card
import Mathlib.Data.List.Destutter
import Mathlib.Data.List.Sort
import Mathlib.Order.Hom.Set
import PlanOrbits.Graph.Tables
import PlanOrbits.Proofs.Graph.Cells
import PlanOrbits.Proofs.Tables

/-!
# Identifiers and their vertices

A renumbering gives vertices to the identifiers that it lists and to no others, and leads back from
each vertex to its identifier (`dense_eq_ok_iff`). Both ways keep the order
(`lt_iff_of_dense`). What it lists is all that there is to it: identifiers that are listed in
another order, or more often, get the same vertices (`ofIds_eq_ofIds`).

Sorting and dropping repetitions makes the list of the renumbering, and the table of the
vertices says the same as a search in this list (`IdTables.ofIds_eq`, `vertexOf_tables`). So what
is true of the one form is true of the other, and both are numberings (`IsNumbering`).
-/

namespace PlanOrbits

namespace Renumbering

variable {r r' : Renumbering} {ids ids' : List Nat} {id v w : Nat}

/-! ### What is listed -/

/-- A renumbering lists the identifiers it was made from. -/
theorem mem_ofIds : id ∈ (ofIds ids).ids ↔ id ∈ ids := by
  rw [ofIds, List.mem_toArray, mem_sortDistinct]

/-- Ascending lists have no repetitions. -/
theorem nodup_ids (r : Renumbering) : r.ids.toList.Nodup := r.ascending.imp Nat.ne_of_lt

/-- There is one way to list identifiers in ascending order, so that a renumbering is determined by
its members. -/
theorem eq_of_mem_iff (h : ∀ id, id ∈ r.ids ↔ id ∈ r'.ids) : r = r' := by
  have hperm : r.ids.toList.Perm r'.ids.toList := by
    refine (List.perm_ext_iff_of_nodup r.nodup_ids r'.nodup_ids).2 fun id => ?_
    rw [Array.mem_toList_iff, Array.mem_toList_iff, h]
  have hlist : r.ids.toList = r'.ids.toList :=
    hperm.eq_of_pairwise (fun a b _ _ hab hba => absurd hab (Nat.lt_asymm hba)) r.ascending
      r'.ascending
  cases r
  cases r'
  congr 1
  exact Array.toList_inj.1 hlist

/-- The order of the identifiers does not matter, nor how often they are there. -/
theorem ofIds_eq_ofIds (h : ∀ id, id ∈ ids ↔ id ∈ ids') : ofIds ids = ofIds ids' :=
  eq_of_mem_iff fun id => by rw [mem_ofIds, mem_ofIds, h]

/-- There are as many vertices as different identifiers. -/
theorem size_ofIds (ids : List Nat) : (ofIds ids).size = ids.dedup.length := by
  have hperm : (ofIds ids).ids.toList.Perm ids.dedup := by
    refine (List.perm_ext_iff_of_nodup (nodup_ids _) (List.nodup_dedup ids)).2 fun id => ?_
    rw [Array.mem_toList_iff, mem_ofIds, List.mem_dedup]
  rw [size, ← Array.length_toList, hperm.length_eq]

/-- As many are numbered as are listed if they are distinct, and only then. This is the test by
which repeated identifiers are found. -/
theorem size_ofIds_eq_length_iff : (ofIds ids).size = ids.length ↔ ids.Nodup := by
  rw [size_ofIds, ← List.dedup_eq_self]
  exact ⟨(List.dedup_sublist ids).eq_of_length, congrArg List.length⟩

/-! ### Vertices -/

/-- The list ascends, place by place. -/
theorem getElem_lt_getElem {i j : Nat} (hi : i < r.ids.size) (hj : j < r.ids.size) (h : i < j) :
    r.ids[i] < r.ids[j] := by
  have hlt := List.pairwise_iff_getElem.1 r.ascending i j hi hj h
  rwa [Array.getElem_toList, Array.getElem_toList] at hlt

/-- An identifier is found at the place where it stands, for it stands nowhere else. -/
theorem idxOf?_eq_some_iff : r.ids.idxOf? id = some v ↔ r.ids[v]? = some id := by
  rw [Array.idxOf?_eq_map_finIdxOf?_val, Option.map_eq_some_iff, Array.getElem?_eq_some_iff]
  constructor
  · rintro ⟨i, hi, rfl⟩
    exact ⟨i.isLt, (Array.finIdxOf?_eq_some_iff.1 hi).1⟩
  · rintro ⟨hv, hid⟩
    refine ⟨⟨v, hv⟩, Array.finIdxOf?_eq_some_iff.2 ⟨hid, fun i hi heq => ?_⟩, rfl⟩
    -- the search stops at the first place, and an identifier stands at one place only
    exact absurd (heq.trans hid.symm) (Nat.ne_of_lt (getElem_lt_getElem i.isLt hv hi))

/-- The vertex of an identifier is the place at which it is listed: the two ways are inverse to each
other. -/
theorem dense_eq_ok_iff : r.dense id = .ok v ↔ r.external? v = some id := by
  rw [external?, ← idxOf?_eq_some_iff, dense]
  cases r.ids.idxOf? id with
  | none => simp
  | some w => simp

/-- Exactly the listed identifiers have vertices. -/
theorem exists_dense_iff : (∃ v, r.dense id = .ok v) ↔ id ∈ r.ids := by
  simp only [dense_eq_ok_iff, external?, Array.mem_iff_getElem?]

/-- All others are reported, under their own number. -/
theorem dense_eq_error_iff {cause : GraphError} :
    r.dense id = .error cause ↔ id ∉ r.ids ∧ cause = .unknownId id := by
  rw [← exists_dense_iff, dense]
  cases r.ids.idxOf? id with
  | none => simp [eq_comm]
  | some w => simp

/-- Every number below the size is the vertex of an identifier. -/
theorem lt_size_iff : v < r.size ↔ ∃ id, r.dense id = .ok v := by
  simp only [dense_eq_ok_iff, external?, Array.getElem?_eq_some_iff, size]
  exact ⟨fun h => ⟨_, h, rfl⟩, fun ⟨_, h, _⟩ => h⟩

/-- Different identifiers have different vertices, and one identifier has one vertex. -/
theorem eq_iff_of_dense {a b : Nat} (ha : r.dense a = .ok v) (hb : r.dense b = .ok w) :
    v = w ↔ a = b := by
  constructor
  · rintro rfl
    rw [dense_eq_ok_iff] at ha hb
    exact Option.some.inj (ha.symm.trans hb)
  · rintro rfl
    exact Except.ok.inj (ha.symm.trans hb)

/-- Higher identifiers have higher vertices, and conversely, as both lists ascend. -/
theorem lt_iff_of_dense {a b : Nat} (ha : r.dense a = .ok v) (hb : r.dense b = .ok w) :
    v < w ↔ a < b := by
  have hlt : ∀ {v w a b : Nat}, r.dense a = .ok v → r.dense b = .ok w → v < w → a < b := by
    intro v w a b ha hb hvw
    rw [dense_eq_ok_iff, external?, Array.getElem?_eq_some_iff] at ha hb
    obtain ⟨hv, rfl⟩ := ha
    obtain ⟨hw, rfl⟩ := hb
    exact getElem_lt_getElem hv hw hvw
  refine ⟨hlt ha hb, fun hab => ?_⟩
  rcases Nat.lt_trichotomy v w with h | h | h
  · exact h
  · exact absurd ((eq_iff_of_dense ha hb).1 h) (Nat.ne_of_lt hab)
  · exact absurd (hlt hb ha h) (Nat.lt_asymm hab)

end Renumbering

/-! ### Tables -/

/-- The tables of a renumbering. -/
def Renumbering.tables (r : Renumbering) : IdTables := .ofAscending r.ids.toList

namespace IdTables

variable {r : Renumbering}

/-- To sort a list and to keep one of equal neighbours, as the tables are made, is to list what it
holds in order. -/
theorem sort_destutter (ids : List Nat) :
    ids.mergeSort.destutter (· ≠ ·) = (Renumbering.ofIds ids).ids.toList := by
  have hsorted : ids.mergeSort.Pairwise (· ≤ ·) := List.pairwise_mergeSort' (· ≤ ·) ids
  rw [hsorted.destutter_eq_dedup]
  have hperm : ids.mergeSort.dedup.Perm (Renumbering.ofIds ids).ids.toList := by
    refine (List.perm_ext_iff_of_nodup (List.nodup_dedup _)
      (Renumbering.nodup_ids _)).2 fun id => ?_
    rw [List.mem_dedup, List.mem_mergeSort]
    exact (Array.mem_toList_iff.trans Renumbering.mem_ofIds).symm
  refine hperm.eq_of_pairwise (fun a b _ _ hab hba => Nat.le_antisymm hab hba)
    (hsorted.sublist (List.dedup_sublist _)) ?_
  exact (Renumbering.ofIds ids).ascending.imp Nat.le_of_lt

/-- The tables of a list of identifiers are the tables of its renumbering. -/
theorem ofIds_eq (ids : List Nat) : ofIds ids = (Renumbering.ofIds ids).tables :=
  congrArg ofAscending (sort_destutter ids)

/-- A search in the table of vertices finds what the search in the list finds, and reports the same
error. -/
theorem vertexOf_tables (r : Renumbering) (id : Nat) : r.tables.vertexOf id = r.dense id := by
  have hkeys : (r.ids.toList.zipIdx.map Prod.fst).Nodup := by
    rw [List.zipIdx_map_fst]
    exact r.nodup_ids
  -- no identifier is listed twice, so no entry of the table is overwritten
  have hentry : ∀ v, r.tables.dense[id]? = some v ↔ r.dense id = .ok v := by
    intro v
    rw [Renumbering.tables, ofAscending,
      getElem?_foldl_insert_of_nodup Prod.fst Prod.snd hkeys, Renumbering.dense_eq_ok_iff,
      Renumbering.external?, ← Array.getElem?_toList]
    constructor
    · rintro ⟨⟨_, _⟩, hmem, rfl, rfl⟩
      exact List.mem_zipIdx_iff_getElem?.1 hmem
    · intro hid
      exact ⟨(id, v), List.mem_zipIdx_iff_getElem?.2 hid, rfl, rfl⟩
  rw [vertexOf]
  cases htable : r.tables.dense[id]? with
  | some v => exact ((hentry v).1 htable).symm
  | none =>
      refine (Renumbering.dense_eq_error_iff.2 ⟨?_, rfl⟩).symm
      rw [← Renumbering.exists_dense_iff]
      rintro ⟨v, hv⟩
      rw [← hentry, htable] at hv
      cases hv

theorem idOf?_tables (r : Renumbering) (v : Nat) : r.tables.idOf? v = r.external? v := rfl

theorem size_tables (r : Renumbering) : r.tables.size = r.size := rfl

/-- Tables tell their renumbering, as the second table is its list. -/
theorem tables_inj {r r' : Renumbering} : r.tables = r'.tables ↔ r = r' := by
  refine ⟨fun h => Renumbering.eq_of_mem_iff fun id => ?_, congrArg _⟩
  have hids : r.ids.toList.toArray = r'.ids.toList.toArray := congrArg IdTables.external h
  rw [Array.toArray_toList, Array.toArray_toList] at hids
  rw [hids]

end IdTables

/-! ### Numberings -/

/-- The identifiers have the numbers below `size`, a higher identifier a higher number, and the
numbers lead back to them. Nothing else has a number. -/
structure IsNumbering (ids : List Nat) (size : Nat) (vertexOf : Nat → Except GraphError Nat)
    (idOf? : Nat → Option Nat) : Prop where
  count : size = ids.toFinset.card
  numbered : ∀ id, (∃ v, vertexOf id = .ok v) ↔ id ∈ ids
  refused : ∀ id cause, vertexOf id = .error cause ↔ id ∉ ids ∧ cause = .unknownId id
  ascending : ∀ a b v w, vertexOf a = .ok v → vertexOf b = .ok w → (v < w ↔ a < b)
  onto : ∀ v, v < size ↔ ∃ id ∈ ids, vertexOf id = .ok v
  idOf_vertexOf : ∀ id ∈ ids, ∃ v, vertexOf id = .ok v ∧ idOf? v = some id
  vertexOf_idOf : ∀ v < size, ∃ id, idOf? v = some id ∧ vertexOf id = .ok v
  unnumbered : ∀ v, idOf? v = none ↔ size ≤ v

namespace IsNumbering

variable {ids : List Nat} {size : Nat} {vertexOf : Nat → Except GraphError Nat}
  {idOf? : Nat → Option Nat}

/-- To number identifiers is to map them to an initial segment and to keep their order. The map is
strictly increasing and reaches every number below the size, and its inverse is the way back. -/
theorem exists_orderIso (h : IsNumbering ids size vertexOf idOf?) :
    ∃ e : {id // id ∈ ids} ≃o Fin size,
      (∀ id : {id // id ∈ ids}, vertexOf id = .ok (e id).val) ∧
      ∀ v : Fin size, idOf? v = some (e.symm v).val := by
  have hvertex : ∀ id : {id // id ∈ ids}, ∃ v : Fin size, vertexOf id = .ok v.val := by
    rintro ⟨id, hid⟩
    obtain ⟨v, hv⟩ := (h.numbered id).2 hid
    exact ⟨⟨v, (h.onto v).2 ⟨id, hid, hv⟩⟩, hv⟩
  choose f hf using hvertex
  have hmono : StrictMono f := fun a b hab => (h.ascending _ _ _ _ (hf a) (hf b)).2 hab
  have hsurjective : Function.Surjective f := by
    intro v
    obtain ⟨id, hid, hv⟩ := (h.onto v).1 v.isLt
    exact ⟨⟨id, hid⟩, Fin.ext (Except.ok.inj ((hf ⟨id, hid⟩).symm.trans hv))⟩
  -- the way back of the isomorphism has to be compared with `idOf?`
  let e := hmono.orderIsoOfSurjective f hsurjective
  refine ⟨e, hf, fun v => ?_⟩
  obtain ⟨w, hw, hid⟩ := h.idOf_vertexOf _ (e.symm v).property
  have hv : vertexOf (e.symm v).val = .ok v.val := by
    rw [hf]
    exact congrArg (fun v : Fin size => Except.ok v.val) (e.apply_symm_apply v)
  obtain rfl : w = v.val := Except.ok.inj (hw.symm.trans hv)
  exact hid

end IsNumbering

namespace Renumbering

/-- The searched list is a numbering, clause by clause from the lemmas above. -/
theorem isNumbering_ofIds (ids : List Nat) :
    IsNumbering ids (ofIds ids).size (ofIds ids).dense (ofIds ids).external? where
  count := by rw [size_ofIds, List.card_toFinset]
  numbered := fun id => exists_dense_iff.trans mem_ofIds
  refused := fun id cause => by rw [dense_eq_error_iff, mem_ofIds]
  ascending := fun _ _ _ _ => lt_iff_of_dense
  onto := fun v => by
    rw [lt_size_iff]
    refine exists_congr fun id => (and_iff_right_of_imp fun hv => ?_).symm
    exact mem_ofIds.1 (exists_dense_iff.1 ⟨v, hv⟩)
  idOf_vertexOf := fun id hid => by
    obtain ⟨v, hv⟩ := exists_dense_iff.2 (mem_ofIds.2 hid)
    exact ⟨v, hv, dense_eq_ok_iff.1 hv⟩
  vertexOf_idOf := fun v hv => by
    obtain ⟨id, hid⟩ := lt_size_iff.1 hv
    exact ⟨id, dense_eq_ok_iff.1 hid, hid⟩
  unnumbered := fun v => by rw [external?, Array.getElem?_eq_none_iff, Renumbering.size]

/-- Two lists give one renumbering exactly if they hold the same identifiers. -/
theorem ofIds_eq_ofIds_iff {ids ids' : List Nat} :
    ofIds ids = ofIds ids' ↔ ids.toFinset = ids'.toFinset := by
  simp only [Finset.ext_iff, List.mem_toFinset]
  refine ⟨fun h id => ?_, ofIds_eq_ofIds⟩
  rw [← mem_ofIds, h, mem_ofIds]

end Renumbering

/-- Identifiers in any order and with repetitions are numbered from zero on in ascending order, as
many as there are distinct ones, and their numbers lead back to them. The numbering is an
isomorphism of orders between the identifiers and an initial segment, and only the set of the
identifiers matters. All this holds of the two tables as well as of the list that is searched. -/
theorem IdTables.ofIds_orderIso (ids : List Nat) :
    IsNumbering ids (ofIds ids).size (ofIds ids).vertexOf (ofIds ids).idOf? ∧
    (∃ e : {id // id ∈ ids} ≃o Fin (ofIds ids).size,
      (∀ id : {id // id ∈ ids}, (ofIds ids).vertexOf id = .ok (e id).val) ∧
      ∀ v : Fin (ofIds ids).size, (ofIds ids).idOf? v = some (e.symm v).val) ∧
    (∀ ids', ofIds ids = ofIds ids' ↔ ids.toFinset = ids'.toFinset) ∧
    IsNumbering ids (Renumbering.ofIds ids).size (Renumbering.ofIds ids).dense
      (Renumbering.ofIds ids).external? ∧
    ∀ ids', Renumbering.ofIds ids = Renumbering.ofIds ids' ↔ ids.toFinset = ids'.toFinset := by
  have hnumbering := Renumbering.isNumbering_ofIds ids
  have htables : IsNumbering ids (ofIds ids).size (ofIds ids).vertexOf (ofIds ids).idOf? := by
    have hvertexOf : (Renumbering.ofIds ids).tables.vertexOf = (Renumbering.ofIds ids).dense :=
      funext (vertexOf_tables _)
    rw [ofIds_eq, hvertexOf]
    exact hnumbering
  refine ⟨htables, htables.exists_orderIso, fun ids' => ?_, hnumbering, fun ids' =>
    Renumbering.ofIds_eq_ofIds_iff⟩
  rw [ofIds_eq, ofIds_eq, tables_inj, Renumbering.ofIds_eq_ofIds_iff]

end PlanOrbits
