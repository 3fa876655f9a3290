import Mathlib.Data.Set.Finite.List
import PlanOrbits.Proofs.Encoding.Layout
import PlanOrbits.Proofs.Permutation.Images
import PlanOrbits.Proofs.Symmetry.Involution

/-!
# What is accepted as a symmetry

`ofAutomorphism?` goes through the moved points once and writes into two relabellings. Since no
vertex is a head of both roles, the relabelling of a role is what a pass over the heads of this
role writes, `Permutation.restrict?`, whatever is written into the other one
(`ofAutomorphism?_eq`). So all that follows is about one role.

`Permutation.restrict?` goes through the moved points in ascending order and writes for
each moved head both its image and the way back. A head on a cycle is written to twice,
once from its origin and once from itself, and the later write stays. So the relabelling
follows the permutation only where it descends to the head from a lower point; elsewhere
it goes the way back (`map_image_of_restrict?`).

The check for an involution then accepts every permutation that goes up and down in turn
on the moved heads (`isInvolution_iff_alternates`). Exchanges in pairs do so, but so does a
cycle such as 0, 2, 1, 3. A permutation is treated as it should be exactly if it
exchanges the heads in pairs or is not accepted (`agrees_iff`).
-/

namespace PlanOrbits

open Std (ExtTreeMap)

namespace Permutation

variable {role : Role} (s : Permutation) (heads : ExtTreeMap Nat (Occurrence role))

/-! ### Heads and their images -/

/-- No occurrence stands at two heads. -/
def Distinct (heads : ExtTreeMap Nat (Occurrence role)) : Prop :=
  ∀ (v w : Nat) (o : Occurrence role), heads[v]? = some o → heads[w]? = some o → v = w

/-- Heads go to heads. -/
def Closed : Prop := ∀ v ∈ heads, s.image v ∈ heads

/-- Moved heads go up and down in turn. -/
def Alternates : Prop :=
  ∀ v ∈ heads, s.image v ≠ v → (v < s.image v ↔ s.image (s.image v) < s.image v)

/-- Heads go to heads, up and down in turn. -/
structure Zigzags : Prop where
  closed : s.Closed heads
  alternates : s.Alternates heads

/-- The heads are exchanged in pairs or stay where they are. -/
def Exchanges : Prop := ∀ v ∈ heads, s.image (s.image v) = v

/-- The relabelling does with the occurrence at every head what the permutation does. -/
def Follows (m : Relabelling role) : Prop :=
  ∀ (v : Nat) (o : Occurrence role), heads[v]? = some o →
    heads[s.image v]? = some (m.image o)

variable {s heads}

theorem exists_getElem?_of_mem {v : Nat} (h : v ∈ heads) : ∃ o, heads[v]? = some o :=
  ⟨_, ExtTreeMap.getElem?_eq_some_getElem h⟩

theorem mem_of_getElem? {v : Nat} {o : Occurrence role} (h : heads[v]? = some o) : v ∈ heads := by
  rw [ExtTreeMap.mem_iff_isSome_getElem?, h]
  rfl

/-- Heads that go to heads come from heads: the permutation maps the heads, of which there are
finitely many, to themselves without merging any. -/
theorem Closed.exists_image_eq (h : s.Closed heads) {v : Nat} (hv : v ∈ heads) :
    ∃ w ∈ heads, s.image w = v := by
  have hfinite : {v | v ∈ heads}.Finite := by
    refine (List.finite_toSet heads.keys).subset fun v (hv : v ∈ heads) => ?_
    exact ExtTreeMap.mem_keys.2 hv
  have hbij := (hfinite.injOn_iff_bijOn_of_mapsTo h).1 s.image_injective.injOn
  exact hbij.surjOn hv

/-! ### One point, and the points below a bound -/

/-- What is written for a moved point if the heads of only one role count. -/
def restrictStep (s : Permutation) (heads : ExtTreeMap Nat (Occurrence role))
    (m : Relabelling role) (v : Nat) : Option (Relabelling role) :=
  match heads[v]? with
  | none => some m
  | some origin => (heads[s.image v]?).map (m.exchange origin)

/-- The relabelling of the occurrences at the moved heads of one role. It is `none` if a head
is moved to a vertex that is no head of this role. -/
def restrict? (s : Permutation) (heads : ExtTreeMap Nat (Occurrence role)) :
    Option (Relabelling role) :=
  s.movedPoints.foldlM (s.restrictStep heads) ∅

/-- What is written for the moved points below a bound. -/
def restrictBelow (s : Permutation) (heads : ExtTreeMap Nat (Occurrence role)) (t : Nat) :
    Option (Relabelling role) :=
  ((List.range t).filter fun v => s.image v != v).foldlM (s.restrictStep heads) ∅

theorem restrict?_eq : s.restrict? heads = s.restrictBelow heads s.size := rfl

/-- One more point: it is skipped if it is fixed, and handed to `restrictStep` if it is moved. -/
theorem restrictBelow_succ (t : Nat) : s.restrictBelow heads (t + 1) =
    (s.restrictBelow heads t).bind fun m =>
      if s.image t = t then some m else s.restrictStep heads m t := by
  rw [restrictBelow, List.range_succ, List.filter_append, List.foldlM_append, ← restrictBelow]
  by_cases h : s.image t = t
  · simp [h]
  · simp [h]

/-- The restriction succeeds only if heads go to heads. By induction on the bound: `restrictStep`
fails at a head whose image is no head. -/
theorem closed_of_restrict? {m : Relabelling role} (h : s.restrict? heads = some m) :
    s.Closed heads := by
  have hbelow : ∀ t m, s.restrictBelow heads t = some m →
      ∀ v < t, v ∈ heads → s.image v ∈ heads := by
    intro t
    induction t with
    | zero =>
        intro m _ v hv
        omega
    | succ t ih =>
        intro m hm v hv hmem
        rw [restrictBelow_succ, Option.bind_eq_some_iff] at hm
        obtain ⟨m', hm', hstep⟩ := hm
        rcases Nat.lt_succ_iff_lt_or_eq.1 hv with hv | rfl
        · exact ih m' hm' v hv hmem
        · split at hstep
          · rename_i hfix
            rwa [hfix]
          · obtain ⟨o, ho⟩ := exists_getElem?_of_mem hmem
            rw [restrictStep, ho] at hstep
            obtain ⟨o', ho', -⟩ := Option.map_eq_some_iff.1 hstep
            exact mem_of_getElem? ho'
  intro v hv
  by_cases hlt : v < s.size
  · exact hbelow s.size m (restrict?_eq ▸ h) v hlt hv
  · rwa [s.image_of_size_le (Nat.le_of_not_lt hlt)]

/-- The last entry written for the occurrence at the image of `w` when the moved points
below `t` are done: that at `w` if `w` was done last, and that at the image of the image if
the image was. -/
def lastWrite (s : Permutation) (heads : ExtTreeMap Nat (Occurrence role)) (t w : Nat) :
    Option (Occurrence role) :=
  if w < t ∧ (s.image w < w ∨ t ≤ s.image w) then heads[w]?
  else if s.image w < t then heads[s.image (s.image w)]? else none

/-- The point `t` writes for itself and for its image, and so changes the last write of these two
only. -/
theorem lastWrite_succ {t w : Nat} (hw : w ≠ t) (hu : s.image w ≠ t) :
    s.lastWrite heads (t + 1) w = s.lastWrite heads t w := by
  have hw' : w < t + 1 ↔ w < t := by omega
  have hu' : s.image w < t + 1 ↔ s.image w < t := by omega
  have hle : t + 1 ≤ s.image w ↔ t ≤ s.image w := by omega
  simp only [lastWrite, hw', hu', hle]

/-- What stands in the relabelling when the moved points below `t` are done. -/
structure Written (s : Permutation) (heads : ExtTreeMap Nat (Occurrence role)) (t : Nat)
    (m : Relabelling role) : Prop where
  moved : ∀ w ∈ heads, s.image w ≠ w → ∀ o, heads[s.image w]? = some o →
    m[o]? = s.lastWrite heads t w
  other : ∀ o, (∀ w, heads[w]? = some o → s.image w = w) → m[o]? = none

section

variable (hdistinct : Distinct heads) {t : Nat} {m : Relabelling role}

/-- The invariant is kept by a point that is no moved head, as such a point writes nothing. -/
theorem Written.skip (h : s.Written heads t m) (ht : t ∈ heads → s.image t = t) :
    s.Written heads (t + 1) m where
  moved := by
    intro w hw hne o ho
    have hwt : w ≠ t := fun heq => hne (heq ▸ ht (heq ▸ hw))
    have hut : s.image w ≠ t := by
      intro heq
      have hfix := ht (heq ▸ mem_of_getElem? ho)
      rw [← heq] at hfix
      exact hne (s.image_injective hfix)
    rw [h.moved w hw hne o ho, lastWrite_succ hwt hut]
  other := h.other

include hdistinct

/-- The invariant is kept by a moved head, which is written at its image, and its image at it. -/
theorem Written.exchange (h : s.Written heads t m) (hne : s.image t ≠ t)
    {origin target : Occurrence role} (horigin : heads[t]? = some origin)
    (htarget : heads[s.image t]? = some target) :
    s.Written heads (t + 1) (m.exchange origin target) where
  moved := by
    intro w hw hmoved o ho
    rw [Relabelling.getElem?_exchange]
    -- `o` is the occurrence at the image of `w`: it is written if `w` is the point or if
    -- its image is
    by_cases hback : target = o
    · subst hback
      have heq := s.image_injective (hdistinct _ _ _ htarget ho)
      subst heq
      rw [if_pos rfl, lastWrite, if_pos (by omega), horigin]
    · have hwt : w ≠ t := by
        rintro rfl
        rw [htarget, Option.some.injEq] at ho
        exact hback ho
      rw [if_neg hback]
      by_cases hforth : origin = o
      · subst hforth
        have heq := hdistinct _ _ _ horigin ho
        rw [if_pos rfl, lastWrite, if_neg (by omega), if_pos (by omega), ← heq, htarget]
      · have hut : s.image w ≠ t := by
          intro heq
          rw [heq, horigin, Option.some.injEq] at ho
          exact hforth ho
        rw [if_neg hforth, h.moved w hw hmoved o ho, lastWrite_succ hwt hut]
  other := by
    intro o ho
    have htarget' : target ≠ o := fun heq =>
      hne (s.image_injective (ho _ (heq ▸ htarget)))
    have horigin' : origin ≠ o := fun heq => hne (ho _ (heq ▸ horigin))
    rw [Relabelling.getElem?_exchange, if_neg htarget', if_neg horigin', h.other o ho]

/-- The run lemma: if heads go to heads, all points below a bound are gone through, and the
invariant holds of what was written. By induction on the bound, with `Written.skip` or
`Written.exchange` at each point. -/
theorem exists_restrictBelow (hclosed : s.Closed heads) (t : Nat) :
    ∃ m, s.restrictBelow heads t = some m ∧ s.Written heads t m := by
  -- `Written` is the invariant that one more point carries on
  induction t with
  | zero =>
      refine ⟨∅, rfl, ?_, ?_⟩
      · intro w _ _ o _
        simp [lastWrite]
      · intro o _
        simp
  | succ t ih =>
      obtain ⟨m, hm, hwritten⟩ := ih
      rw [restrictBelow_succ, hm, Option.bind_some]
      by_cases hfix : s.image t = t
      · exact ⟨m, if_pos hfix, hwritten.skip fun _ => hfix⟩
      · rw [if_neg hfix, restrictStep]
        cases horigin : heads[t]? with
        | none =>
            refine ⟨m, rfl, hwritten.skip fun hmem => ?_⟩
            obtain ⟨o, ho⟩ := exists_getElem?_of_mem hmem
            rw [horigin] at ho
            cases ho
        | some origin =>
            obtain ⟨target, htarget⟩ :=
              exists_getElem?_of_mem (hclosed t (mem_of_getElem? horigin))
            exact ⟨m.exchange origin target, by rw [htarget]; rfl,
              hwritten.exchange hdistinct hfix horigin htarget⟩

/-! ### The whole restriction -/

theorem written_of_restrict? (h : s.restrict? heads = some m) : s.Written heads s.size m := by
  obtain ⟨m', hm', hwritten⟩ := exists_restrictBelow hdistinct (closed_of_restrict? h) s.size
  rw [← restrict?_eq, h, Option.some.injEq] at hm'
  rwa [hm']

/-- What the relabelling does with the occurrence at the image of a head `w`: where the permutation
goes down from `w`, it goes back to `w`, and else it goes on to the next head. -/
theorem map_image_of_restrict? (h : s.restrict? heads = some m) {w : Nat} (hw : w ∈ heads) :
    (heads[s.image w]?).map m.image =
      if s.image w < w then heads[w]? else heads[s.image (s.image w)]? := by
  have hwritten := written_of_restrict? hdistinct h
  have hclosed := closed_of_restrict? h
  obtain ⟨ow, how⟩ := exists_getElem?_of_mem hw
  obtain ⟨ou, hou⟩ := exists_getElem?_of_mem (hclosed w hw)
  obtain ⟨ox, hox⟩ := exists_getElem?_of_mem (hclosed _ (hclosed w hw))
  rw [hou, Option.map_some]
  by_cases hfix : s.image w = w
  · have hnone : m[ou]? = none := hwritten.other ou fun v hv => by
      rw [hdistinct v _ ou hv hou, hfix, hfix]
    rw [Relabelling.image_of_getElem?_none hnone, if_neg (by omega),
      congrArg s.image hfix, hou]
  · have hlt := lt_size_of_image_ne hfix
    have himage := s.image_lt_size_iff.2 hlt
    have hget := hwritten.moved w hw hfix ou hou
    rw [lastWrite] at hget
    -- going down, `w` has its turn after its image and writes last; going up, the image does
    by_cases hdown : s.image w < w
    · rw [if_pos ⟨hlt, .inl hdown⟩, how] at hget
      rw [Relabelling.image_of_getElem? hget, if_pos hdown, how]
    · rw [if_neg (by omega), if_pos himage, hox] at hget
      rw [Relabelling.image_of_getElem? hget, if_neg hdown, hox]

/-- The relabelling is empty if and only if no head is moved. This is the test by which
`ofAutomorphism?` refuses a permutation that moves no head. -/
theorem isEmpty_of_restrict?_iff (h : s.restrict? heads = some m) :
    m.isEmpty = true ↔ ∀ v ∈ heads, s.image v = v := by
  have hwritten := written_of_restrict? hdistinct h
  have hclosed := closed_of_restrict? h
  rw [ExtTreeMap.isEmpty_iff]
  constructor
  · rintro rfl v hv
    by_contra hfix
    have himage := s.image_lt_size_iff.2 (lt_size_of_image_ne hfix)
    obtain ⟨ov, hov⟩ := exists_getElem?_of_mem hv
    obtain ⟨ou, hou⟩ := exists_getElem?_of_mem (hclosed v hv)
    obtain ⟨ox, hox⟩ := exists_getElem?_of_mem (hclosed _ (hclosed v hv))
    have hget := hwritten.moved v hv hfix ou hou
    rw [ExtTreeMap.getElem?_empty, lastWrite, if_pos himage, hov, hox] at hget
    split at hget <;> cases hget
  · intro hfix
    refine ExtTreeMap.ext_getElem? fun o => ?_
    rw [hwritten.other o fun w hw => hfix w (mem_of_getElem? hw), ExtTreeMap.getElem?_empty]

/-- If the relabelling undoes itself, the permutation goes up and down in turn: two moves up in a
row would take an occurrence two heads further. -/
theorem alternates_of_isInvolution (h : s.restrict? heads = some m)
    (hinv : isInvolution m = true) : s.Alternates heads := by
  have hclosed := closed_of_restrict? h
  rw [Relabelling.isInvolution_iff] at hinv
  intro w hw hmoved
  have hu := hclosed w hw
  have hx := hclosed _ hu
  obtain ⟨ow, how⟩ := exists_getElem?_of_mem hw
  obtain ⟨ou, hou⟩ := exists_getElem?_of_mem hu
  obtain ⟨ox, hox⟩ := exists_getElem?_of_mem hx
  obtain ⟨oy, hoy⟩ := exists_getElem?_of_mem (hclosed _ hx)
  have himage := map_image_of_restrict? hdistinct h hw
  have himage' := map_image_of_restrict? hdistinct h hu
  rw [hou, how, hox, Option.map_some] at himage
  rw [hox, hou, hoy, Option.map_some] at himage'
  constructor
  · intro hup
    by_contra hdown
    -- up twice: the occurrence at the image goes on twice and comes back only on a pair
    rw [if_neg (by omega), Option.some.injEq] at himage
    rw [if_neg hdown, Option.some.injEq] at himage'
    have hback := hinv ou
    rw [himage, himage'] at hback
    have hcycle := s.image_injective (hdistinct _ _ ou (hback ▸ hoy) hou)
    omega
  · intro hdown
    by_contra hup
    -- down twice: the occurrence at the image of the image goes back twice
    rw [if_pos (by omega), Option.some.injEq] at himage
    rw [if_pos hdown, Option.some.injEq] at himage'
    have hback := hinv ox
    rw [himage', himage] at hback
    have hcycle := hdistinct _ _ ox (hback ▸ how) hox
    omega

/-- Conversely, if the permutation goes up and down in turn, the relabelling goes on at one head and
back from the next. -/
theorem isInvolution_of_alternates (h : s.restrict? heads = some m)
    (halternates : s.Alternates heads) : isInvolution m = true := by
  have hclosed := closed_of_restrict? h
  rw [Relabelling.isInvolution_iff]
  intro o
  by_cases hhead : ∃ u : Nat, heads[u]? = some o
  · obtain ⟨u, hou⟩ := hhead
    obtain ⟨w, hw, rfl⟩ := hclosed.exists_image_eq (mem_of_getElem? hou)
    have himage := map_image_of_restrict? hdistinct h hw
    rw [hou, Option.map_some] at himage
    by_cases hfix : s.image w = w
    · rw [if_neg (by omega), congrArg s.image hfix, hou, Option.some.injEq] at himage
      rw [himage, himage]
    · by_cases hdown : s.image w < w
      · -- the occurrence goes back, and from there on again since the move before went up
        obtain ⟨ow, how⟩ := exists_getElem?_of_mem hw
        rw [if_pos hdown, how, Option.some.injEq] at himage
        obtain ⟨w', hw', rfl⟩ := hclosed.exists_image_eq hw
        have hne : s.image w' ≠ w' := fun heq => hfix (by rw [heq, heq])
        have hup := (halternates w' hw' hne).2 hdown
        have himage' := map_image_of_restrict? hdistinct h hw'
        rw [how, if_neg (by omega), hou, Option.map_some, Option.some.injEq] at himage'
        rw [himage, himage']
      · -- the occurrence goes on, and from there back since the next move goes down
        have hu := mem_of_getElem? hou
        obtain ⟨ox, hox⟩ := exists_getElem?_of_mem (hclosed _ hu)
        rw [if_neg hdown, hox, Option.some.injEq] at himage
        have hdown' := (halternates w hw hfix).1 (by omega)
        have himage' := map_image_of_restrict? hdistinct h hu
        rw [hox, if_pos hdown', hou, Option.map_some, Option.some.injEq] at himage'
        rw [himage, himage']
  · have hnone : m[o]? = none := (written_of_restrict? hdistinct h).other o fun w hw =>
      absurd ⟨w, hw⟩ hhead
    rw [Relabelling.image_of_getElem?_none hnone, Relabelling.image_of_getElem?_none hnone]

/-- The relabelling undoes itself, as `ofMaps?` checks, if and only if the permutation goes up and
down in turn on the moved heads. -/
theorem isInvolution_iff_alternates (h : s.restrict? heads = some m) :
    isInvolution m = true ↔ s.Alternates heads :=
  ⟨alternates_of_isInvolution hdistinct h, isInvolution_of_alternates hdistinct h⟩

/-- A relabelling that undoes itself does what the permutation does if and only if the permutation
exchanges heads in pairs. -/
theorem follows_iff_exchanges (h : s.restrict? heads = some m) (hinv : isInvolution m = true) :
    s.Follows heads m ↔ s.Exchanges heads := by
  have hclosed := closed_of_restrict? h
  rw [Relabelling.isInvolution_iff] at hinv
  constructor
  · intro hfollows v hv
    obtain ⟨o, ho⟩ := exists_getElem?_of_mem hv
    have htwice := hfollows _ _ (hfollows v o ho)
    rw [hinv] at htwice
    exact hdistinct _ _ o htwice ho
  · -- the way back and the way on lead to the same head, so the direction does not matter
    intro hexchanges v o ho
    obtain ⟨w, hw, rfl⟩ := hclosed.exists_image_eq (mem_of_getElem? ho)
    have himage := map_image_of_restrict? hdistinct h hw
    rw [hexchanges w hw, ite_self, ho, Option.map_some] at himage
    rw [hexchanges w hw, himage]

/-- The restriction of a permutation is a relabelling that undoes itself if and only if `Zigzags`
holds, a condition on the permutation and the heads alone. -/
theorem exists_restrict?_iff_zigzags :
    (∃ m, s.restrict? heads = some m ∧ isInvolution m = true) ↔ s.Zigzags heads := by
  constructor
  · rintro ⟨m, hm, hinv⟩
    exact ⟨closed_of_restrict? hm, (isInvolution_iff_alternates hdistinct hm).1 hinv⟩
  · rintro ⟨hclosed, halternates⟩
    obtain ⟨m, hm, -⟩ := exists_restrictBelow hdistinct hclosed s.size
    exact ⟨m, hm, (isInvolution_iff_alternates hdistinct hm).2 halternates⟩

end

end Permutation

open Permutation

/-- In a plan whose bracket repeats no literal every occurrence stands at one head, so that the
table of heads is `Distinct`. -/
theorem PartialPlan.Encodes.eq_of_occurrence? {p : PartialPlan} {e : PlanEncoding}
    (henc : p.Encodes e) (role : Role) (hnodup : (p.literals role).Nodup) {v w : Nat}
    {o : Occurrence role} (hv : e.occurrence? role v = some o)
    (hw : e.occurrence? role w = some o) : v = w := by
  obtain ⟨i, l, hl, rfl, rfl⟩ := (henc.occurrence role v o).1 hv
  obtain ⟨j, l', hl', rfl, heq⟩ := (henc.occurrence role w _).1 hw
  rw [Occurrence.mk.injEq] at heq
  obtain ⟨hi, hget⟩ := List.getElem?_eq_some_iff.1 hl
  obtain ⟨hj, hget'⟩ := List.getElem?_eq_some_iff.1 hl'
  have hij : i = j := hnodup.getElem_inj_iff.1 ((hget.trans heq.2).trans hget'.symm)
  rw [hij]

namespace CausalSymmetry

variable {p : PartialPlan} {e : PlanEncoding} {s : Permutation}

/-- The symmetry sends the occurrence at every head to that at the image of the head. -/
structure Agrees (c : CausalSymmetry) (s : Permutation) (e : PlanEncoding) : Prop where
  producer : ∀ v o, e.producers[v]? = some o → e.producers[s.image v]? = some (c.producer o)
  consumer : ∀ v o, e.consumers[v]? = some o → e.consumers[s.image v]? = some (c.consumer o)

/-- The one pass over the moved points writes into the relabelling of each role what a pass for
this role alone writes. A point that is a head of one role is no head of the other, so that the
step of the other role does nothing there. -/
theorem foldlM_exchangeHead (vs : List Nat) (m : Relabelling .producer)
    (m' : Relabelling .consumer) : vs.foldlM (exchangeHead s e) (m, m') =
      (vs.foldlM (s.restrictStep e.producers) m).bind fun producers =>
        (vs.foldlM (s.restrictStep e.consumers) m').map fun consumers =>
          (producers, consumers) := by
  induction vs generalizing m m' with
  | nil => rfl
  | cons v vs ih =>
      rw [List.foldlM_cons, List.foldlM_cons, List.foldlM_cons, exchangeHead, restrictStep,
        restrictStep]
      cases hproducer : e.producers[v]? with
      | some origin =>
          have hconsumer : e.consumers[v]? = none :=
            ExtTreeMap.getElem?_eq_none (e.disjoint v (mem_of_getElem? hproducer))
          rw [hconsumer]
          cases e.producers[s.image v]? with
          | none => rfl
          | some target => exact ih _ _
      | none =>
          cases e.consumers[v]? with
          | none => exact ih _ _
          | some origin =>
              cases e.consumers[s.image v]? with
              | none =>
                  -- the pass fails, whatever a pass over the heads of producers may give
                  exact (Option.bind_fun_none _).symm
              | some target => exact ih _ _

theorem ofAutomorphism?_eq (s : Permutation) (e : PlanEncoding) : ofAutomorphism? s e =
    (s.restrict? e.producers).bind fun producers =>
      (s.restrict? e.consumers).bind fun consumers =>
        if producers.isEmpty && consumers.isEmpty then none
        else ofMaps? producers consumers := by
  rw [ofAutomorphism?, foldlM_exchangeHead, ← restrict?, ← restrict?]
  cases s.restrict? e.producers with
  | none => rfl
  | some producers => cases s.restrict? e.consumers <;> rfl

theorem ofAutomorphism?_eq_some_iff {c : CausalSymmetry} : ofAutomorphism? s e = some c ↔
    s.restrict? e.producers = some c.producers ∧ s.restrict? e.consumers = some c.consumers ∧
      ¬(c.producers.isEmpty = true ∧ c.consumers.isEmpty = true) := by
  simp only [ofAutomorphism?_eq, Option.bind_eq_some_iff]
  constructor
  · rintro ⟨producers, hproducers, consumers, hconsumers, h⟩
    split at h
    · cases h
    · rename_i hempty
      obtain ⟨rfl, rfl, -, -⟩ := ofMaps?_eq_some_iff.1 h
      exact ⟨hproducers, hconsumers, by rwa [Bool.and_eq_true] at hempty⟩
  · rintro ⟨hproducers, hconsumers, hempty⟩
    refine ⟨_, hproducers, _, hconsumers, ?_⟩
    rw [if_neg (by rwa [Bool.and_eq_true]), ofMaps?, dif_pos c.involutive]

section

variable (hproducers : Distinct e.producers) (hconsumers : Distinct e.consumers)

include hproducers hconsumers

/-- A permutation is accepted as a symmetry if and only if it goes up and down in turn on the heads
of both roles and moves some head. -/
theorem exists_ofAutomorphism?_iff : (∃ c, ofAutomorphism? s e = some c) ↔
    (s.Zigzags e.producers ∧ s.Zigzags e.consumers) ∧
      ¬((∀ v ∈ e.producers, s.image v = v) ∧ ∀ v ∈ e.consumers, s.image v = v) := by
  simp only [ofAutomorphism?_eq_some_iff, ← exists_restrict?_iff_zigzags hproducers,
    ← exists_restrict?_iff_zigzags hconsumers]
  constructor
  · rintro ⟨c, hm, hm', hempty⟩
    rw [isEmpty_of_restrict?_iff hproducers hm, isEmpty_of_restrict?_iff hconsumers hm'] at hempty
    have hinv := c.involutive
    rw [Bool.and_eq_true] at hinv
    exact ⟨⟨⟨_, hm, hinv.1⟩, ⟨_, hm', hinv.2⟩⟩, hempty⟩
  · rintro ⟨⟨⟨m, hm, hinv⟩, ⟨m', hm', hinv'⟩⟩, hmoved⟩
    rw [← isEmpty_of_restrict?_iff hproducers hm,
      ← isEmpty_of_restrict?_iff hconsumers hm'] at hmoved
    exact ⟨⟨m, m', by rw [hinv, hinv', Bool.and_self]⟩, hm, hm', hmoved⟩

/-- An accepted symmetry does with the occurrences what the permutation does with the heads if and
only if the permutation exchanges heads in pairs. -/
theorem agrees_iff_exchanges {c : CausalSymmetry} (h : ofAutomorphism? s e = some c) :
    c.Agrees s e ↔ s.Exchanges e.producers ∧ s.Exchanges e.consumers := by
  obtain ⟨hm, hm', -⟩ := ofAutomorphism?_eq_some_iff.1 h
  have hinv := c.involutive
  rw [Bool.and_eq_true] at hinv
  rw [← follows_iff_exchanges hproducers hm hinv.1, ← follows_iff_exchanges hconsumers hm' hinv.2]
  exact ⟨fun h => ⟨h.producer, h.consumer⟩, fun h => ⟨h.1, h.2⟩⟩

end

/-- What is accepted agrees with the permutation exactly if this exchanges the heads in
pairs, or if it is not accepted, because some head goes to what is no head of its role, or
two moves of a head in a row both go up or both go down. -/
theorem agrees_iff (hvalid : p.validate = .ok ()) (hinit : p.init.postconditions.Nodup)
    (hgoal : p.goal.preconditions.Nodup) (hencode : p.encode = .ok e) (s : Permutation) :
    (∀ c, ofAutomorphism? s e = some c → c.Agrees s e) ↔
      (s.Exchanges e.producers ∧ s.Exchanges e.consumers) ∨
        ¬(s.Zigzags e.producers ∧ s.Zigzags e.consumers) := by
  have henc := PartialPlan.encodes_of_encode hvalid hencode
  have hproducers : Distinct e.producers := fun v w o hv hw =>
    henc.eq_of_occurrence? .producer hinit hv hw
  have hconsumers : Distinct e.consumers := fun v w o hv hw =>
    henc.eq_of_occurrence? .consumer hgoal hv hw
  constructor
  · intro hagrees
    by_cases hzigzags : s.Zigzags e.producers ∧ s.Zigzags e.consumers
    · refine .inl ?_
      -- a permutation that fixes all heads exchanges them in pairs in the trivial way
      by_cases hfixed : (∀ v ∈ e.producers, s.image v = v) ∧ ∀ v ∈ e.consumers, s.image v = v
      · refine ⟨fun v hv => ?_, fun v hv => ?_⟩
        · rw [hfixed.1 v hv, hfixed.1 v hv]
        · rw [hfixed.2 v hv, hfixed.2 v hv]
      · obtain ⟨c, hc⟩ := (exists_ofAutomorphism?_iff hproducers hconsumers).2 ⟨hzigzags, hfixed⟩
        exact (agrees_iff_exchanges hproducers hconsumers hc).1 (hagrees c hc)
    · exact .inr hzigzags
  · intro h c hc
    rw [agrees_iff_exchanges hproducers hconsumers hc]
    rcases h with hexchanges | hnot
    · exact hexchanges
    · exact absurd ((exists_ofAutomorphism?_iff hproducers hconsumers).1 ⟨c, hc⟩).1 hnot

/-! ### A cycle of four places -/

namespace FourCycle

def place : TypeName := .ofSpelling "place"

/-- Four places are marked at the start, and nothing else is said. -/
def plan : PartialPlan where
  domain := ⟨"places", [place], [⟨"marked", [place]⟩], []⟩
  problem := ⟨"four-places", [⟨"a", place⟩, ⟨"b", place⟩, ⟨"c", place⟩, ⟨"d", place⟩]⟩
  init := ⟨"init", ["?a", "?b", "?c", "?d"].map (⟨·, place⟩), [],
    ["?a", "?b", "?c", "?d"].map fun v => ⟨⟨"marked", [⟨v, place⟩]⟩, true⟩⟩
  goal := ⟨"goal", [], [], []⟩
  steps := []
  substitution := .ofBindings <| [("?a", "a"), ("?b", "b"), ("?c", "c"), ("?d", "d")].map
    fun (v, c) => ⟨⟨v, place⟩, ⟨c, place⟩⟩

/-- The first place goes to the third, the second to the fourth, the third to the second,
and the fourth to the first. The heads, which are 6, 8, 10 and 12, go 6, 10, 8, 12. -/
def cycle : Permutation where
  images := #[2, 3, 1, 0, 4, 5, 10, 11, 12, 13, 8, 9, 6, 7]
  bounded := by decide
  nodup := by decide

theorem validate_plan : plan.validate = .ok () := by decide +kernel

end FourCycle

theorem agrees_iff_fourCycle : ∃ e, FourCycle.plan.validate = .ok () ∧
    FourCycle.plan.init.postconditions.Nodup ∧ FourCycle.plan.goal.preconditions.Nodup ∧
      FourCycle.plan.encode = .ok e ∧
        ((∀ c, ofAutomorphism? FourCycle.cycle e = some c → c.Agrees FourCycle.cycle e) ↔
          (FourCycle.cycle.Exchanges e.producers ∧ FourCycle.cycle.Exchanges e.consumers) ∨
            ¬(FourCycle.cycle.Zigzags e.producers ∧ FourCycle.cycle.Zigzags e.consumers)) := by
  have hinit : FourCycle.plan.init.postconditions.Nodup := by decide
  have hgoal : FourCycle.plan.goal.preconditions.Nodup := by decide
  obtain ⟨e, hencode, -⟩ := exists_ok_of_any
    (show FourCycle.plan.encode.toOption.any (fun _ => true) = true by decide +kernel)
  exact ⟨e, FourCycle.validate_plan, hinit, hgoal, hencode,
    agrees_iff FourCycle.validate_plan hinit hgoal hencode FourCycle.cycle⟩

/-- The cycle of four places is an automorphism, and something is accepted for it. But this
exchanges the first place with the fourth and the second with the third. -/
theorem not_agrees_fourCycle : ∃ e c, FourCycle.plan.validate = .ok () ∧
    FourCycle.plan.init.postconditions.Nodup ∧ FourCycle.plan.goal.preconditions.Nodup ∧
      FourCycle.plan.encode = .ok e ∧ e.graph.isAutomorphism FourCycle.cycle.images = true ∧
        ofAutomorphism? FourCycle.cycle e = some c ∧ ¬c.Agrees FourCycle.cycle e := by
  have hinit : FourCycle.plan.init.postconditions.Nodup := by decide
  have hgoal : FourCycle.plan.goal.preconditions.Nodup := by decide
  obtain ⟨e, hencode, hcheck⟩ := exists_ok_of_any (show FourCycle.plan.encode.toOption.any (fun e =>
      e.graph.isAutomorphism FourCycle.cycle.images &&
        (ofAutomorphism? FourCycle.cycle e).any fun c =>
          e.producers[6]?.any fun o => decide (e.producers[10]? ≠ some (c.producer o))) = true by
    decide +kernel)
  simp only [Bool.and_eq_true, Option.any_eq_true, decide_eq_true_eq] at hcheck
  obtain ⟨haut, c, hc, o, ho, hne⟩ := hcheck
  exact ⟨e, c, FourCycle.validate_plan, hinit, hgoal, hencode, haut, hc,
    fun h => hne (h.producer 6 o ho)⟩

end CausalSymmetry

end PlanOrbits
