import PlanOrbits.Detection.Report
import PlanOrbits.Json.Printer
import PlanOrbits.Proofs.Checked
import PlanOrbits.Proofs.Symmetry.Involution

/-!
# Documents of symmetries

A symmetry is written as two lists of pairs, one for each role, in which every key has one pair and
the keys ascend. It is read from any two lists of pairs, with several pairs for one key in any
order. The last pair of a key counts (`Pairs.Sends`), and two keys are one if their types differ in
the spelling only, since types are brought into normal form before pairs are compared.

Reading is to decode the pairs of all symmetries and then to check each symmetry
(`CausalSymmetry.ofJson?_list_eq`). The check is passed if the pairs that count lead back where they
come from (`Pairs.IsSelfInverse`), and so the lists that are accepted are told by their pairs alone
(`exists_mapM_ofPairs?_iff`).
-/

namespace PlanOrbits

open Std (ExtTreeMap TransOrd LawfulEqOrd)

/-! ### Pairs -/

/-- Pairs of a key and its image. -/
abbrev Pairs (α : Type) := List (α × α)

namespace Pairs

variable {α : Type} {pairs listed listed' : Pairs α} {a b : α}

/-- The last pair with the key `a` leads to `b`. -/
def Sends (pairs : Pairs α) (a b : α) : Prop :=
  ∃ before after, pairs = before ++ (a, b) :: after ∧ ∀ pair ∈ after, pair.1 ≠ a

/-- The image of every key is a key, and the key is its image. -/
def IsSelfInverse (pairs : Pairs α) : Prop := ∀ a b, pairs.Sends a b → pairs.Sends b a

/-- The pairs that count, in the order of their keys. -/
structure IsListing [Ord α] (pairs listed : Pairs α) : Prop where
  ascending : listed.Pairwise fun x y => compare x.1 y.1 = .lt
  mem : ∀ a b, (a, b) ∈ listed ↔ pairs.Sends a b

/-- To look for the last pair with a key is to look for the first one from behind. -/
theorem lookup_reverse_eq_some_iff [DecidableEq α] :
    pairs.reverse.lookup a = some b ↔ pairs.Sends a b := by
  rw [List.lookup_eq_some_iff]
  constructor
  · rintro ⟨after, before, heq, h⟩
    refine ⟨before.reverse, after.reverse, ?_, fun pair hpair => ?_⟩
    · rw [← List.reverse_reverse pairs, heq]
      simp
    · exact Ne.symm (bne_iff_ne.1 (h pair (List.mem_reverse.1 hpair)))
  · rintro ⟨before, after, rfl, h⟩
    refine ⟨after.reverse, before.reverse, by simp, fun pair hpair => ?_⟩
    exact bne_iff_ne.2 (Ne.symm (h pair (List.mem_reverse.1 hpair)))

/-- There is one list that has each counting pair once, in the order of the keys. -/
theorem IsListing.unique [Ord α] [TransOrd α] (h : pairs.IsListing listed)
    (h' : pairs.IsListing listed') : listed = listed' := by
  have hnodup : ∀ {xs : Pairs α}, xs.Pairwise (fun x y => compare x.1 y.1 = .lt) → xs.Nodup := by
    refine fun hascending => hascending.imp fun {x y} hlt heq => ?_
    subst heq
    simp at hlt
  have hmem : ∀ pair, pair ∈ listed ↔ pair ∈ listed' := fun (a, b) => by rw [h.mem, h'.mem]
  refine ((List.perm_ext_iff_of_nodup (hnodup h.ascending) (hnodup h'.ascending)).2
    hmem).eq_of_pairwise (fun x y _ _ hxy hyx => ?_) h.ascending h'.ascending
  exact absurd hyx (Std.OrientedCmp.not_lt_of_lt hxy)

end Pairs

namespace Relabelling

variable {role : Role} {pairs : Pairs (Occurrence role)} {a b : Occurrence role}

/-- The map that is made of pairs holds the pairs that count. -/
theorem getElem?_ofPairs_eq_some_iff : (ofPairs pairs)[a]? = some b ↔ pairs.Sends a b := by
  rw [getElem?_ofPairs, Pairs.lookup_reverse_eq_some_iff]

/-- The map that is made of pairs undoes itself if and only if the pairs that count do. -/
theorem isInvolution_ofPairs_iff : isInvolution (ofPairs pairs) = true ↔ pairs.IsSelfInverse := by
  rw [isInvolution_iff_getElem?]
  refine forall_congr' fun a => forall_congr' fun b => ?_
  rw [getElem?_ofPairs_eq_some_iff, getElem?_ofPairs_eq_some_iff]
  refine imp_congr_right fun hab => or_iff_left ?_
  -- an image that is no key would have to be its own key
  rintro ⟨hnone, rfl⟩
  rw [getElem?_ofPairs_eq_some_iff.2 hab] at hnone
  cases hnone

theorem isListing_toList_ofPairs : pairs.IsListing (ofPairs pairs).toList where
  ascending := ExtTreeMap.ordered_keys_toList
  mem _ _ := ExtTreeMap.mem_toList_iff_getElem?_eq_some.trans getElem?_ofPairs_eq_some_iff

end Relabelling

namespace CausalSymmetry

variable {text : String} {j : Json} {s : CausalSymmetry} {ss : List CausalSymmetry}

/-! ### Symmetries from pairs -/

/-- Pairs of producers and pairs of consumers. -/
abbrev PairLists := Pairs Producer × Pairs Consumer

/-- The symmetry of pairs, if there is one. -/
def ofPairs? (lists : PairLists) : Option CausalSymmetry :=
  ofMaps? (.ofPairs lists.1) (.ofPairs lists.2)

/-- The pairs of both roles undo themselves. -/
def AreSelfInverse (lists : PairLists) : Prop := lists.1.IsSelfInverse ∧ lists.2.IsSelfInverse

/-- The pairs that count of both roles, in the order of their keys. -/
def AreListings (lists listed : PairLists) : Prop :=
  lists.1.IsListing listed.1 ∧ lists.2.IsListing listed.2

/-- The pairs of a symmetry. -/
def pairLists (s : CausalSymmetry) : PairLists := (s.producers.toList, s.consumers.toList)

/-- Two lists of pairs make a symmetry if both undo themselves. -/
theorem exists_ofPairs?_iff {lists : PairLists} :
    (∃ s, ofPairs? lists = some s) ↔ AreSelfInverse lists := by
  rw [AreSelfInverse, ← Relabelling.isInvolution_ofPairs_iff,
    ← Relabelling.isInvolution_ofPairs_iff, ← Bool.and_eq_true, ofPairs?, ofMaps?]
  split <;> simp [*]

theorem areListings_of_ofPairs? {lists : PairLists} (h : ofPairs? lists = some s) :
    AreListings lists s.pairLists := by
  obtain ⟨hproducers, hconsumers, -⟩ := ofMaps?_eq_some_iff.1 h
  rw [pairLists, hproducers, hconsumers]
  exact ⟨Relabelling.isListing_toList_ofPairs, Relabelling.isListing_toList_ofPairs⟩

/-- A symmetry is the symmetry of its own pairs. -/
theorem ofPairs?_pairLists (s : CausalSymmetry) : ofPairs? s.pairLists = some s := by
  rw [ofPairs?, pairLists, Relabelling.ofPairs_toList, Relabelling.ofPairs_toList, ofMaps?,
    dif_pos s.involutive]

/-- There is a symmetry for each of several pairs of lists if all of them undo themselves; one that
does not is enough for none. -/
theorem exists_mapM_ofPairs?_iff {lists : List PairLists} :
    (∃ ss, lists.mapM ofPairs? = some ss) ↔ ∀ l ∈ lists, AreSelfInverse l := by
  constructor
  · rintro ⟨ss, hss⟩ l hl
    obtain ⟨i, hi⟩ := List.getElem?_of_mem hl
    obtain ⟨s, -, hs⟩ := exists_right_of_forall₂ (mapM_eq_some_iff.1 hss) hi
    exact exists_ofPairs?_iff.1 ⟨s, hs⟩
  · exact fun h => exists_mapM_eq_some fun l hl => exists_ofPairs?_iff.2 (h l hl)

/-! ### Documents -/

/-- The lists of pairs in the document of a list of symmetries. -/
def pairListsOfJson? : Json → Option (List PairLists)
  | .array items => items.mapM pairsOfJson?
  | _ => none

/-- The document of lists of pairs. -/
def documents (lists : List PairLists) : Json := .array (lists.map fun l => document l.1 l.2)

/-- The text is a document of the lists of pairs. -/
def Holds (text : String) (lists : List PairLists) : Prop :=
  (Json.parse? text).bind pairListsOfJson? = some lists

theorem toJson_list_eq (ss : List CausalSymmetry) : toJson ss = documents (ss.map pairLists) := by
  change Json.array (ss.map toJson) = _
  rw [documents, List.map_map]
  rfl

/-- Symmetries are read by decoding the pairs of all of them and then checking each one. -/
theorem ofJson?_list_eq (j : Json) :
    (ofJson? j : Option (List CausalSymmetry)) =
      (pairListsOfJson? j).bind (·.mapM ofPairs?) := by
  cases j with
  | array items =>
      have hitem : (ofJson? : Json → Option CausalSymmetry) = fun item =>
          (pairsOfJson? item).bind ofPairs? := funext ofJson?_eq
      change items.mapM ofJson? = _
      rw [hitem, mapM_bind_eq]
      rfl
  | _ => rfl

theorem isSpelled_documents (lists : List PairLists) : (documents lists).IsSpelled := by
  refine .array fun item hitem => ?_
  obtain ⟨l, -, rfl⟩ := List.mem_map.1 hitem
  exact Json.isSpelled_record (by simp [isSpelled_toJson])

/-- Every list of pairs has a text, in which it is held. -/
theorem holds_documents (lists : List PairLists) : Holds (documents lists).pretty lists := by
  rw [Holds, Json.parse?_pretty (isSpelled_documents lists), Option.bind_some, documents,
    pairListsOfJson?, mapM_eq_some_iff, List.forall₂_map_left_iff, List.forall₂_same]
  exact fun l _ => pairsOfJson?_document l.1 l.2

/-! ### Reading -/

/-- A text is read as symmetries if it holds pairs that make them. -/
theorem listOfText_eq_ok_iff : listOfText text = .ok ss ↔
    ∃ lists, Holds text lists ∧ lists.mapM ofPairs? = some ss := by
  have hread : readJson? (List CausalSymmetry) text =
      ((Json.parse? text).bind pairListsOfJson?).bind (·.mapM ofPairs?) := by
    rw [readJson?, funext ofJson?_list_eq, Option.bind_assoc]
  simp only [Holds, ← Option.bind_eq_some_iff, ← hread, listOfText]
  cases readJson? (List CausalSymmetry) text <;> simp

/-- A text holds at most one list of pairs, so that these can be looked at instead of the text. -/
theorem Holds.listOfText_eq_ok_iff {lists : List PairLists} (h : Holds text lists) :
    listOfText text = .ok ss ↔ lists.mapM ofPairs? = some ss := by
  rw [CausalSymmetry.listOfText_eq_ok_iff]
  constructor
  · rintro ⟨lists', h', hss⟩
    obtain rfl : lists' = lists := Option.some.inj (h'.symm.trans h)
    exact hss
  · exact fun hss => ⟨lists, h, hss⟩

theorem listOfText_eq_error_iff :
    listOfText text = .error .notSymmetries ↔ ¬∃ ss, listOfText text = .ok ss := by
  unfold listOfText
  split <;> simp

/-- What is written for accepted pairs are the pairs that count, in the order of their keys,
whichever way they are listed. -/
theorem toJson_of_mapM_ofPairs? {lists listed : List PairLists} (h : lists.mapM ofPairs? = some ss)
    (hlisted : List.Forall₂ AreListings lists listed) : toJson ss = documents listed := by
  have hlists : ∀ {l l' l'' : PairLists}, AreListings l l' → AreListings l l'' → l' = l'' :=
    fun h h' => Prod.ext (h.1.unique h'.1) (h.2.unique h'.2)
  -- symmetry by symmetry: there is only one listing of the pairs of each
  have hpairs : ss.map pairLists = listed := by
    have hss := mapM_eq_some_iff.1 h
    clear h
    induction hss generalizing listed with
    | nil => exact (List.forall₂_nil_left_iff.1 hlisted).symm
    | cons hs _ ih =>
        obtain ⟨l, ls, hl, hls, rfl⟩ := List.forall₂_cons_left_iff.1 hlisted
        rw [List.map_cons, ih hls, hlists (areListings_of_ofPairs? hs) hl]
  rw [toJson_list_eq, hpairs]

/-- Symmetries are read back from the text of their document. A text is read as symmetries exactly
if it holds lists of pairs and all of these undo themselves, where of the pairs with one key the
last counts. One list that does not spoils them all. What is written for the symmetries are the
pairs that count, each once and in the order of the keys. -/
theorem listOfText_reads_involutions :
    (∀ ss : List CausalSymmetry, listOfText (toJson ss).pretty = .ok ss) ∧
    (∀ lists, Holds (documents lists).pretty lists) ∧
    (∀ text, (∃ ss, listOfText text = .ok ss) ↔
      ∃ lists, Holds text lists ∧ ∀ l ∈ lists, AreSelfInverse l) ∧
    ∀ text lists, Holds text lists →
      ((∃ ss, listOfText text = .ok ss) ↔ ∀ l ∈ lists, AreSelfInverse l) ∧
      (listOfText text = .error .notSymmetries ↔ ∃ l ∈ lists, ¬AreSelfInverse l) ∧
      ∀ ss, listOfText text = .ok ss →
        List.Forall₂ (fun l s => AreListings l s.pairLists) lists ss ∧
        ∀ listed, List.Forall₂ AreListings lists listed →
          (toJson ss).pretty = (documents listed).pretty := by
  have hread : ∀ {text lists}, Holds text lists →
      ((∃ ss, listOfText text = .ok ss) ↔ ∀ l ∈ lists, AreSelfInverse l) := by
    intro text lists h
    simp only [h.listOfText_eq_ok_iff, exists_mapM_ofPairs?_iff]
  refine ⟨fun ss => ?_, holds_documents, fun text => ?_, fun text lists h => ⟨hread h, ?_,
    fun ss hss => ⟨?_, fun listed hlisted => ?_⟩⟩⟩
  -- a written list of symmetries holds their own pair lists, which make the same symmetries
  · rw [toJson_list_eq, (holds_documents _).listOfText_eq_ok_iff, mapM_eq_some_iff,
      List.forall₂_map_left_iff, List.forall₂_same]
    exact fun s _ => s.ofPairs?_pairLists
  · simp only [listOfText_eq_ok_iff, ← exists_mapM_ofPairs?_iff]
    rw [exists_comm]
    simp only [exists_and_left]
  -- a text that holds pair lists fails for no other reason
  · rw [listOfText_eq_error_iff, hread h]
    simp only [not_forall, exists_prop]
  · rw [h.listOfText_eq_ok_iff, mapM_eq_some_iff] at hss
    exact hss.imp fun _ _ => areListings_of_ofPairs?
  · rw [toJson_of_mapM_ofPairs? (h.listOfText_eq_ok_iff.1 hss) hlisted]

/-- A condition on a room. -/
def inRoom (room : String) : Producer :=
  ⟨"init", ⟨⟨"at", [⟨room, .ofSpelling "room"⟩]⟩, true⟩⟩

/-- A symmetry with one pair, whose key and image are two spellings of one condition. Arrays stand
in the places of records. -/
def twoSpellings : String :=
  "[[[[[\"init\",[[\"at\",[[\"a\",\"room\"]]],true]]," ++
    "[\"init\",[[\"at\",[[\"a\",\" Room\"]]],true]]]],[]]]"

/-- A key with its type spelled in two ways is one key, and the last of its pairs counts. With a
further pair behind them that leads elsewhere there is no symmetry. -/
theorem listOfText_reads_involutions_twoSpellings :
    (∃ s, listOfText twoSpellings = .ok [s] ∧
      (toJson [s]).pretty = (documents [([(inRoom "a", inRoom "a")], [])]).pretty) ∧
    listOfText (documents [([(inRoom "a", inRoom "a"), (inRoom "a", inRoom "b")], [])]).pretty =
      .error .notSymmetries := by
  obtain ⟨-, hholds, -, hread⟩ := listOfText_reads_involutions
  constructor
  · have hspellings : Holds twoSpellings [([(inRoom "a", inRoom "a")], [])] := by
      unfold Holds
      decide +kernel
    obtain ⟨haccepted, -, hwritten⟩ := hread _ _ hspellings
    obtain ⟨ss, hss⟩ := haccepted.2 fun l hl => by
      rw [List.mem_singleton.1 hl]
      exact ⟨Relabelling.isInvolution_ofPairs_iff.1 (by decide +kernel),
        Relabelling.isInvolution_ofPairs_iff.1 (by decide +kernel)⟩
    obtain ⟨hlists, htext⟩ := hwritten ss hss
    obtain ⟨s, _, -, hnil, rfl⟩ := List.forall₂_cons_left_iff.1 hlists
    obtain rfl := List.forall₂_nil_left_iff.1 hnil
    exact ⟨s, hss, htext _ (.cons ⟨Relabelling.isListing_toList_ofPairs,
      Relabelling.isListing_toList_ofPairs⟩ .nil)⟩
  · refine (hread _ _ (hholds _)).2.1.2 ⟨_, List.mem_cons_self, fun h => ?_⟩
    have hinvolution := Relabelling.isInvolution_ofPairs_iff.2 h.1
    revert hinvolution
    decide +kernel

end CausalSymmetry

end PlanOrbits
