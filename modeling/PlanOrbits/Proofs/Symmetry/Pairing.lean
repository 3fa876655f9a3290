import PlanOrbits.Proofs.Symmetry.Involution

/-!
# Lists exchanged place by place

`Relabelling.pairing` writes for each place of two lists both members, each as the image of the
other. Where a member is repeated the later place counts, and it counts on each side by itself:
one place may have the last word on one side and not on the other.

* What is written agrees with every place exactly if equal members stand opposite of equal
  members (`IsOneToOne`).
* What is written is an involution exactly if the last places are the same on both sides
  (`RepeatsAlike`), which is less: of the places 1-3, 1-4 and 2-3 the last two count on both
  sides, and the first one is forgotten.

Both hold for sides that have no member in common (`Apart`).
-/

namespace PlanOrbits

open Std (ExtTreeMap)

section

variable {α β : Type} {pairs : List (α × β)}

/-- Equal members of one side stand opposite of equal members of the other. -/
def IsOneToOne (pairs : List (α × β)) : Prop :=
  ∀ p ∈ pairs, ∀ q ∈ pairs, p.1 = q.1 ↔ p.2 = q.2

/-- A member is repeated further down exactly if the member opposite of it is. -/
def RepeatsAlike : List (α × β) → Prop
  | [] => True
  | p :: pairs => (p.1 ∈ pairs.map Prod.fst ↔ p.2 ∈ pairs.map Prod.snd) ∧ RepeatsAlike pairs

/-- The two sides have no member in common. -/
def Apart (pairs : List (α × α)) : Prop := ∀ p ∈ pairs, ∀ q ∈ pairs, p.1 ≠ q.2

instance [DecidableEq α] [DecidableEq β] : Decidable (IsOneToOne pairs) :=
  inferInstanceAs (Decidable (∀ p ∈ pairs, ∀ q ∈ pairs, p.1 = q.1 ↔ p.2 = q.2))

instance RepeatsAlike.decidable [DecidableEq α] [DecidableEq β] :
    (pairs : List (α × β)) → Decidable (RepeatsAlike pairs)
  | [] => inferInstanceAs (Decidable True)
  | p :: pairs =>
      have := RepeatsAlike.decidable pairs
      inferInstanceAs (Decidable
        ((p.1 ∈ pairs.map Prod.fst ↔ p.2 ∈ pairs.map Prod.snd) ∧ RepeatsAlike pairs))

theorem IsOneToOne.of_cons {p : α × β} (h : IsOneToOne (p :: pairs)) : IsOneToOne pairs :=
  fun q hq r hr => h q (List.mem_cons_of_mem p hq) r (List.mem_cons_of_mem p hr)

theorem Apart.of_cons {pairs : List (α × α)} {p : α × α} (h : Apart (p :: pairs)) :
    Apart pairs :=
  fun q hq r hr => h q (List.mem_cons_of_mem p hq) r (List.mem_cons_of_mem p hr)

theorem Apart.not_mem_snd {pairs : List (α × α)} {a : α} (h : Apart pairs)
    (ha : a ∈ pairs.map Prod.fst) : a ∉ pairs.map Prod.snd := by
  intro ha'
  obtain ⟨p, hp, rfl⟩ := List.mem_map.1 ha
  obtain ⟨q, hq, heq⟩ := List.mem_map.1 ha'
  exact h p hp q hq heq.symm

/-- If equal members stand opposite of equal members, they are repeated together. -/
theorem IsOneToOne.repeatsAlike (h : IsOneToOne pairs) : RepeatsAlike pairs := by
  induction pairs with
  | nil => trivial
  | cons p pairs ih =>
      refine ⟨?_, ih h.of_cons⟩
      simp only [List.mem_map]
      constructor
      · rintro ⟨q, hq, heq⟩
        exact ⟨q, hq, (h q (List.mem_cons_of_mem p hq) p List.mem_cons_self).1 heq⟩
      · rintro ⟨q, hq, heq⟩
        exact ⟨q, hq, (h q (List.mem_cons_of_mem p hq) p List.mem_cons_self).2 heq⟩

/-- Lists without repetitions are matched, since each member has its own place. -/
theorem isOneToOne_zip {as : List α} {bs : List β} (has : as.Nodup) (hbs : bs.Nodup) :
    IsOneToOne (as.zip bs) := by
  intro p hp q hq
  obtain ⟨i, hi⟩ := List.mem_iff_getElem?.1 hp
  obtain ⟨j, hj⟩ := List.mem_iff_getElem?.1 hq
  rw [List.getElem?_zip_eq_some] at hi hj
  obtain ⟨hia, hib⟩ := hi
  obtain ⟨hja, hjb⟩ := hj
  constructor
  · intro heq
    have hlt := (List.getElem?_eq_some_iff.1 hia).1
    obtain rfl : i = j := (List.getElem?_inj hlt has).1 (by rw [hia, hja, heq])
    exact Option.some.inj (hib.symm.trans hjb)
  · intro heq
    have hlt := (List.getElem?_eq_some_iff.1 hib).1
    obtain rfl : i = j := (List.getElem?_inj hlt hbs).1 (by rw [hib, hjb, heq])
    exact Option.some.inj (hia.symm.trans hja)

end

namespace Relabelling

variable {role : Role} {pairs : List (Occurrence role × Occurrence role)}
  {p : Occurrence role × Occurrence role} {o : Occurrence role}

/-! ### What is written for a list of pairs -/

/-- The relabelling with all pairs exchanged, one after the other. -/
def exchanges (pairs : List (Occurrence role × Occurrence role)) : Relabelling role :=
  pairs.foldl (fun m p => m.exchange p.1 p.2) ∅

theorem pairing_eq (as bs : List (Occurrence role)) : pairing as bs = exchanges (as.zip bs) := rfl

@[simp] theorem exchanges_nil : exchanges ([] : List (Occurrence role × Occurrence role)) = ∅ :=
  rfl

/-- What later pairs write stays; the first pair only counts for occurrences that they do not write.
-/
theorem getElem?_exchanges_cons : (exchanges (p :: pairs))[o]? =
    (exchanges pairs)[o]?.or
      (if p.2 = o then some p.1 else if p.1 = o then some p.2 else none) := by
  -- a fold from any relabelling writes over it what it writes from the empty one
  have hfold : ∀ (pairs : List (Occurrence role × Occurrence role)) (m : Relabelling role),
      (pairs.foldl (fun m p => m.exchange p.1 p.2) m)[o]? = (exchanges pairs)[o]?.or m[o]? := by
    intro pairs
    induction pairs with
    | nil => simp
    | cons q pairs ih =>
        intro m
        rw [exchanges, List.foldl_cons, List.foldl_cons, ih, ih (exchange ∅ q.1 q.2),
          Option.or_assoc, getElem?_exchange, getElem?_exchange]
        congr 1
        split
        · rfl
        · split
          · rfl
          · simp
  rw [exchanges, List.foldl_cons, hfold, getElem?_exchange, ExtTreeMap.getElem?_empty]

/-- The keys are the members of the two sides, whatever is overwritten. -/
theorem mem_exchanges :
    o ∈ exchanges pairs ↔ o ∈ pairs.map Prod.fst ∨ o ∈ pairs.map Prod.snd := by
  induction pairs with
  | nil => simp
  | cons p pairs ih =>
      rw [ExtTreeMap.mem_iff_isSome_getElem?] at ih ⊢
      rw [getElem?_exchanges_cons, Option.isSome_or, Bool.or_eq_true, ih, List.map_cons,
        List.map_cons, List.mem_cons, List.mem_cons]
      by_cases hsnd : p.2 = o
      · simp [hsnd]
      · by_cases hfst : p.1 = o
        · simp [hsnd, hfst]
        · simp [hsnd, hfst, Ne.symm hsnd, Ne.symm hfst]

theorem image_exchanges_cons_of_mem (h : o ∈ exchanges pairs) :
    (exchanges (p :: pairs)).image o = (exchanges pairs).image o := by
  obtain ⟨o', ho'⟩ := Option.isSome_iff_exists.1 (ExtTreeMap.mem_iff_isSome_getElem?.1 h)
  have hget : (exchanges (p :: pairs))[o]? = some o' := by
    rw [getElem?_exchanges_cons, ho', Option.some_or]
  rw [image_of_getElem? ho', image_of_getElem? hget]

theorem image_exchanges_cons_of_not_mem (h : o ∉ exchanges pairs) :
    (exchanges (p :: pairs)).image o = if p.2 = o then p.1 else if p.1 = o then p.2 else o := by
  have hget : (exchanges (p :: pairs))[o]? =
      if p.2 = o then some p.1 else if p.1 = o then some p.2 else none := by
    rw [getElem?_exchanges_cons, ExtTreeMap.getElem?_eq_none h, Option.none_or]
  rw [image, ExtTreeMap.getD_eq_getD_getElem?, hget]
  split
  · rfl
  · split <;> rfl

theorem image_exchanges_of_not_mem (h : o ∉ exchanges pairs) : (exchanges pairs).image o = o :=
  image_of_getElem?_none (ExtTreeMap.getElem?_eq_none h)

/-- The image of a member stands opposite of it at some place, namely the last one that has it. -/
theorem exists_image_exchanges_eq (hapart : Apart pairs) :
    (o ∈ pairs.map Prod.fst → ∃ q ∈ pairs, q.1 = o ∧ (exchanges pairs).image o = q.2) ∧
      (o ∈ pairs.map Prod.snd → ∃ q ∈ pairs, q.2 = o ∧ (exchanges pairs).image o = q.1) := by
  induction pairs with
  | nil => simp
  | cons p pairs ih =>
      obtain ⟨hleft, hright⟩ := ih hapart.of_cons
      have hp : p ∈ p :: pairs := List.mem_cons_self
      by_cases hmem : o ∈ exchanges pairs
      · rw [image_exchanges_cons_of_mem hmem]
        rw [mem_exchanges] at hmem
        constructor
        · intro ho
          -- a member of the left side is none of the right side
          rcases hmem with hfst | hsnd
          · obtain ⟨q, hq, hqo⟩ := hleft hfst
            exact ⟨q, List.mem_cons_of_mem p hq, hqo⟩
          · exact absurd (List.mem_cons_of_mem p.2 hsnd) (hapart.not_mem_snd ho)
        · intro ho
          rcases hmem with hfst | hsnd
          · exact absurd ho (hapart.not_mem_snd (List.mem_cons_of_mem p.1 hfst))
          · obtain ⟨q, hq, hqo⟩ := hright hsnd
            exact ⟨q, List.mem_cons_of_mem p hq, hqo⟩
      · rw [image_exchanges_cons_of_not_mem hmem]
        rw [mem_exchanges, not_or] at hmem
        constructor
        · intro ho
          rw [List.map_cons, List.mem_cons, or_iff_left hmem.1] at ho
          subst ho
          exact ⟨p, hp, rfl, by rw [if_neg (Ne.symm (hapart p hp p hp)), if_pos rfl]⟩
        · intro ho
          rw [List.map_cons, List.mem_cons, or_iff_left hmem.2] at ho
          subst ho
          exact ⟨p, hp, rfl, if_pos rfl⟩

/-- The image of a key is a key. -/
theorem image_exchanges_mem (hapart : Apart pairs) (h : o ∈ exchanges pairs) :
    (exchanges pairs).image o ∈ exchanges pairs := by
  rw [mem_exchanges] at h ⊢
  obtain ⟨hleft, hright⟩ := exists_image_exchanges_eq hapart (o := o)
  rcases h with hfst | hsnd
  · obtain ⟨q, hq, -, heq⟩ := hleft hfst
    exact .inr (List.mem_map.2 ⟨q, hq, heq.symm⟩)
  · obtain ⟨q, hq, -, heq⟩ := hright hsnd
    exact .inl (List.mem_map.2 ⟨q, hq, heq.symm⟩)

/-! ### Where it agrees with every place, and where it undoes itself -/

/-- The relabelling keeps every place if and only if no member would have to go to two others. -/
theorem image_exchanges_iff_isOneToOne (hapart : Apart pairs) :
    (∀ p ∈ pairs, (exchanges pairs).image p.1 = p.2 ∧ (exchanges pairs).image p.2 = p.1) ↔
      IsOneToOne pairs := by
  constructor
  · intro h p hp q hq
    obtain ⟨hp₁, hp₂⟩ := h p hp
    obtain ⟨hq₁, hq₂⟩ := h q hq
    constructor
    · intro heq
      rw [← hp₁, ← hq₁, heq]
    · intro heq
      rw [← hp₂, ← hq₂, heq]
  · intro h p hp
    constructor
    · obtain ⟨q, hq, heq, himage⟩ := (exists_image_exchanges_eq hapart).1 (List.mem_map_of_mem hp)
      rw [himage, (h q hq p hp).1 heq]
    · obtain ⟨q, hq, heq, himage⟩ := (exists_image_exchanges_eq hapart).2 (List.mem_map_of_mem hp)
      rw [himage, (h q hq p hp).2 heq]

/-- Each end of an exchange is a key of the later pairs only on its own side, as the sides have
nothing in common. -/
theorem fst_mem_exchanges_iff (hapart : Apart (p :: pairs)) :
    p.1 ∈ exchanges pairs ↔ p.1 ∈ pairs.map Prod.fst := by
  rw [mem_exchanges]
  exact or_iff_left fun h =>
    hapart.not_mem_snd List.mem_cons_self (List.mem_cons_of_mem p.2 h)

theorem snd_mem_exchanges_iff (hapart : Apart (p :: pairs)) :
    p.2 ∈ exchanges pairs ↔ p.2 ∈ pairs.map Prod.snd := by
  rw [mem_exchanges]
  exact or_iff_right fun h =>
    hapart.not_mem_snd (List.mem_cons_of_mem p.1 h) List.mem_cons_self

theorem image_exchanges_cons_fst (hapart : Apart (p :: pairs)) (h : p.1 ∉ exchanges pairs) :
    (exchanges (p :: pairs)).image p.1 = p.2 := by
  have hne : p.2 ≠ p.1 := Ne.symm (hapart p List.mem_cons_self p List.mem_cons_self)
  rw [image_exchanges_cons_of_not_mem h, if_neg hne, if_pos rfl]

theorem image_exchanges_cons_snd (h : p.2 ∉ exchanges pairs) :
    (exchanges (p :: pairs)).image p.2 = p.1 := by
  rw [image_exchanges_cons_of_not_mem h, if_pos rfl]

/-- One more exchange in front of others gives a relabelling that undoes itself if and only if the
others give one and they overwrite both of its ends or neither. If they overwrote one, it would go
elsewhere while the other end still led to it. -/
theorem involutive_exchanges_cons_iff (hapart : Apart (p :: pairs)) :
    (∀ o, (exchanges (p :: pairs)).image ((exchanges (p :: pairs)).image o) = o) ↔
      (p.1 ∈ pairs.map Prod.fst ↔ p.2 ∈ pairs.map Prod.snd) ∧
        ∀ o, (exchanges pairs).image ((exchanges pairs).image o) = o := by
  have hkey : ∀ o ∈ exchanges pairs, (exchanges (p :: pairs)).image
      ((exchanges (p :: pairs)).image o) = (exchanges pairs).image ((exchanges pairs).image o) :=
    fun o ho => by
      rw [image_exchanges_cons_of_mem ho,
        image_exchanges_cons_of_mem (image_exchanges_mem hapart.of_cons ho)]
  rw [← fst_mem_exchanges_iff hapart, ← snd_mem_exchanges_iff hapart]
  constructor
  · intro h
    refine ⟨⟨fun hmem => ?_, fun hmem => ?_⟩, fun o => ?_⟩
    · -- the second end would lead to the first, and this to a member of the others
      by_contra hnot
      have hback := h p.2
      rw [image_exchanges_cons_snd hnot, image_exchanges_cons_of_mem hmem] at hback
      exact hnot (hback ▸ image_exchanges_mem hapart.of_cons hmem)
    · by_contra hnot
      have hback := h p.1
      rw [image_exchanges_cons_fst hapart hnot, image_exchanges_cons_of_mem hmem] at hback
      exact hnot (hback ▸ image_exchanges_mem hapart.of_cons hmem)
    · by_cases ho : o ∈ exchanges pairs
      · rw [← hkey o ho, h o]
      · rw [image_exchanges_of_not_mem ho, image_exchanges_of_not_mem ho]
  · rintro ⟨hboth, h⟩ o
    by_cases ho : o ∈ exchanges pairs
    · rw [hkey o ho, h o]
    · by_cases ho₂ : p.2 = o
      · subst ho₂
        rw [image_exchanges_cons_snd ho, image_exchanges_cons_fst hapart (mt hboth.1 ho)]
      · by_cases ho₁ : p.1 = o
        · subst ho₁
          rw [image_exchanges_cons_fst hapart ho, image_exchanges_cons_snd (mt hboth.2 ho)]
        · have hfix : (exchanges (p :: pairs)).image o = o := by
            rw [image_exchanges_cons_of_not_mem ho, if_neg ho₂, if_neg ho₁]
          rw [hfix, hfix]

/-- The relabelling undoes itself if and only if the last places of members are the same on both
sides, by induction on the pairs. -/
theorem isInvolution_exchanges_iff (hapart : Apart pairs) :
    isInvolution (exchanges pairs) = true ↔ RepeatsAlike pairs := by
  rw [isInvolution_iff]
  induction pairs with
  | nil =>
      refine iff_of_true (fun o => ?_) trivial
      rw [image_exchanges_of_not_mem (by simp), image_exchanges_of_not_mem (by simp)]
  | cons p pairs ih =>
      rw [involutive_exchanges_cons_iff hapart, ih hapart.of_cons, RepeatsAlike]

end Relabelling

end PlanOrbits
