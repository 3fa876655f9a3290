import Mathlib.Logic.Relation
import PlanOrbits.Proofs.Checked
import PlanOrbits.Proofs.Transcript.Commands
import PlanOrbits.Proofs.Transcript.Reader

/-!
# Lines that the reader passes over

An engine prints more than generators, the group order and orbits, and some engines repeat
their input. Two kinds of lines leave the stage of a reader as it is: before the group order
those that neither open nor continue a generator (`IsNoise`), behind it those about processor
time. So they may stand anywhere in their part, also between the lines of one generator
(`feedAll_insert`), and every line of the commands is of the first kind
(`isNoise_of_mem_commandLines`).

A reader that never sees the group order says how many lines it was fed. What is reported
under the same family and code is therefore compared by `outcome`.
-/

namespace PlanOrbits.Transcript

open Text (isBlank)

/-- What is read, with the family and the code of an error in its place. -/
def outcome (read : Except TranscriptError Transcript) : Except (Family × String) Transcript :=
  read.mapError fun e => (e.diagnostic.family, e.diagnostic.code)

/-- The line neither names the group order nor opens or continues a generator. -/
def IsNoise (line : List Char) : Prop :=
  Text.contains groupOrderMarker line = false ∧ line.head? ≠ some '(' ∧
    line.head?.any isBlank = false

instance (line : List Char) : Decidable (IsNoise line) :=
  inferInstanceAs (Decidable (_ ∧ _ ∧ _))

/-- The second list of lines is the first with one line more, which is noise before the first
line that names the group order, and is about processor time behind it. -/
inductive NoiseInserted : List (List Char) → List (List Char) → Prop
  | before {xs ys : List (List Char)} {line : List Char}
      (hxs : ∀ x ∈ xs, Text.contains groupOrderMarker x = false) (hline : IsNoise line) :
      NoiseInserted (xs ++ ys) (xs ++ line :: ys)
  | behind {xs ys : List (List Char)} {line : List Char}
      (hxs : ∃ x ∈ xs, Text.contains groupOrderMarker x = true)
      (hline : Text.contains timeMarker line = true) :
      NoiseInserted (xs ++ ys) (xs ++ line :: ys)

/-- The lists of lines come from each other by inserting and deleting such lines. -/
def SameButNoise : List (List Char) → List (List Char) → Prop := Relation.EqvGen NoiseInserted

variable {s s' : Stage} {line : List Char} {xs ys : List (List Char)}

/-! ### Which part of a transcript a reader is in -/

/-- The reader has come behind the group order. -/
def Stage.isBehind : Stage → Bool
  | .generators .. => false
  | .orbits .. => true

/-- After a line the reader is behind the group order if it was so before or the line names the
group order. -/
theorem isBehind_of_feed (h : s.feed line = .ok s') :
    s'.isBehind = (s.isBehind || Text.contains groupOrderMarker line) := by
  cases s with
  | generators complete pending =>
      rw [Stage.feed] at h
      split at h
      · rename_i hmarker
        obtain ⟨_, -, h⟩ := bind_eq_ok_iff.1 h
        obtain ⟨_, -, h⟩ := bind_eq_ok_iff.1 h
        cases h
        rw [hmarker]
        rfl
      · -- whatever else the line is, the reader stays among the generators
        rename_i hmarker
        rw [Bool.not_eq_true] at hmarker
        rw [hmarker]
        split at h
        · obtain ⟨_, -, h⟩ := bind_eq_ok_iff.1 h
          cases h
          rfl
        · split at h
          · cases h
            rfl
          · cases h
            rfl
  | orbits complete order listing =>
      rw [Stage.feed] at h
      split at h
      · cases h
        rfl
      · cases h
        rfl

/-- `isBehind_of_feed` for several lines. -/
theorem isBehind_of_feedAll (h : s.feedAll xs = .ok s') :
    s'.isBehind = (s.isBehind || xs.any (Text.contains groupOrderMarker)) := by
  induction xs generalizing s with
  | nil =>
      cases h
      rw [List.any_nil, Bool.or_false]
  | cons line xs ih =>
      rw [Stage.feedAll, List.foldlM_cons] at h
      obtain ⟨next, hnext, h⟩ := bind_eq_ok_iff.1 h
      rw [ih h, isBehind_of_feed hnext, List.any_cons, Bool.or_assoc]

/-! ### One line more -/

/-- Among the generators a line of noise changes nothing. -/
theorem feed_noise (hs : s.isBehind = false) (hline : IsNoise line) : s.feed line = .ok s := by
  obtain ⟨hmarker, hopen, hblank⟩ := hline
  cases s with
  | generators complete pending =>
      rw [Stage.feed, if_neg (by simp [hmarker]), if_neg (by simpa using hopen),
        if_neg (by simp [hblank])]
      rfl
  | orbits complete order listing => cases hs

/-- Among the orbits a line about processor time changes nothing. -/
theorem feed_time (hs : s.isBehind = true) (hline : Text.contains timeMarker line = true) :
    s.feed line = .ok s := by
  cases s with
  | generators complete pending => cases hs
  | orbits complete order listing =>
      rw [Stage.feed, if_pos hline]
      rfl

/-- A line that changes nothing at the stage where it stands may be left out. -/
theorem feedAll_insert (h : ∀ s', s.feedAll xs = .ok s' → s'.feed line = .ok s') :
    s.feedAll (xs ++ line :: ys) = s.feedAll (xs ++ ys) := by
  cases hxs : s.feedAll xs with
  | error e =>
      -- the first error is kept, so that no line behind it is read
      have hstop : ∀ zs, s.feedAll (xs ++ zs) = .error e := by
        intro zs
        rw [Stage.feedAll, List.foldlM_append]
        exact congrArg (· >>= Stage.feedAll zs) hxs
      rw [hstop, hstop]
  | ok s' => rw [feedAll_append hxs, feedAll_append hxs, feedAll_cons (h s' hxs)]

/-- The reader comes to the same stage, or to the same error, with the inserted line and without it.
Where the line stands, `isBehind_of_feedAll` tells by the lines in front. -/
theorem feedAll_of_noiseInserted (h : NoiseInserted xs ys) :
    Stage.feedAll ys (.generators [] none) = Stage.feedAll xs (.generators [] none) := by
  cases h with
  | before hxs hline =>
      refine feedAll_insert fun s' hfeed => feed_noise ?_ hline
      rw [isBehind_of_feedAll hfeed, Stage.isBehind, Bool.false_or, List.any_eq_false]
      intro x hx
      rw [hxs x hx]
      exact Bool.false_ne_true
  | behind hxs hline =>
      refine feedAll_insert fun s' hfeed => feed_time ?_ hline
      rw [isBehind_of_feedAll hfeed, Stage.isBehind, Bool.false_or, List.any_eq_true]
      exact hxs

/-! ### Any number of lines more -/

/-- What a reader says depends on its stage alone, but for the count of lines in the details of an
error, which `outcome` leaves out. -/
theorem outcome_finish {r r' : Reader} (h : r.stage = r'.stage) :
    outcome r.finish = outcome r'.finish := by
  rw [Reader.finish, Reader.finish, h]
  cases r'.stage with
  | error e => rfl
  | ok s =>
      cases s with
      | generators complete pending => rfl
      | orbits complete order listing => rfl

theorem outcome_ofLines_of_feedAll
    (h : Stage.feedAll xs (.generators [] none) = Stage.feedAll ys (.generators [] none)) :
    outcome (ofLines xs) = outcome (ofLines ys) := by
  refine outcome_finish ?_
  rw [stage_foldl_feed, stage_foldl_feed]
  exact h

theorem outcome_ofLines (h : SameButNoise xs ys) : outcome (ofLines xs) = outcome (ofLines ys) := by
  induction h with
  | rel xs ys hinserted =>
      exact outcome_ofLines_of_feedAll (feedAll_of_noiseInserted hinserted).symm
  | refl xs => rfl
  | symm xs ys _ ih => exact ih.symm
  | trans xs ys zs _ _ ih ih' => exact ih.trans ih'

/-! ### The commands as noise -/

/-- A line of the commands is noise: it starts with no blank and no parenthesis, and it does not
have the letter `r`, which the marker of the group order has. -/
theorem isNoise_of_mem_commandLines {g : ColoredGraph} (hline : line ∈ g.commandLines) :
    IsNoise line := by
  refine ⟨?_, fun hopen => ?_, ColoredGraph.isBlank_head?_of_mem_commandLines hline⟩
  · have hr : 'r' ∉ line :=
      ColoredGraph.not_mem_of_mem_commandLines hline (by decide) (by decide)
    exact Text.contains_eq_false_of_not_mem (by decide) hr
  · have hparen : '(' ∉ line :=
      ColoredGraph.not_mem_of_mem_commandLines hline (by decide) (by decide)
    exact hparen (List.mem_of_mem_head? hopen)

/-- Lines of noise in front of a transcript can be taken away one by one. -/
theorem sameButNoise_append (hxs : ∀ x ∈ xs, IsNoise x) (ys : List (List Char)) :
    SameButNoise (xs ++ ys) ys := by
  induction xs with
  | nil => exact .refl ys
  | cons line xs ih =>
      obtain ⟨hline, hxs⟩ := List.forall_mem_cons.1 hxs
      have hinserted : NoiseInserted ([] ++ (xs ++ ys)) ([] ++ line :: (xs ++ ys)) :=
        .before (fun x hx => absurd hx List.not_mem_nil) hline
      exact .trans _ _ _ (.symm _ _ (.rel _ _ hinserted)) (ih hxs)

/-- Inserting and deleting noise does not change what is read, or the family and the code of
the error. So an engine may repeat the commands before it answers. -/
theorem outcome_eq_of_noise :
    (∀ xs ys, SameButNoise xs ys → outcome (ofLines xs) = outcome (ofLines ys)) ∧
      ∀ (g : ColoredGraph) (text : String),
        outcome (parse (g.commands ++ text)) = outcome (parse text) := by
  refine ⟨fun xs ys => outcome_ofLines, fun g text => ?_⟩
  rw [parse, parse, String.toList_append, ColoredGraph.lines_commands_append]
  exact outcome_ofLines (sameButNoise_append (fun line => isNoise_of_mem_commandLines) _)

/-- A line of noise stands between a generator and its continuation, and a line with the time that
was used among the orbits; both can be left out. -/
theorem outcome_eq_of_noise_continuation :
    outcome (ofLines ["(0 1)".toList, "level 2:".toList, " (2 3)".toList,
        "grpsize=2;".toList, "0:1;".toList, "cpu time = 0.01".toList, "2:3;".toList]) =
      .ok { generators := [[[0, 1], [2, 3]]], groupOrder := 2, orbits := [[0, 1], [2, 3]] } := by
  have hlevel : NoiseInserted
      (["(0 1)".toList] ++ [" (2 3)".toList, "grpsize=2;".toList, "0:1;".toList, "2:3;".toList])
      (["(0 1)".toList] ++ "level 2:".toList ::
        [" (2 3)".toList, "grpsize=2;".toList, "0:1;".toList, "2:3;".toList]) :=
    .before (by decide) (by decide)
  have htime : NoiseInserted
      (["(0 1)".toList, "level 2:".toList, " (2 3)".toList, "grpsize=2;".toList,
        "0:1;".toList] ++ ["2:3;".toList])
      (["(0 1)".toList, "level 2:".toList, " (2 3)".toList, "grpsize=2;".toList,
        "0:1;".toList] ++ "cpu time = 0.01".toList :: ["2:3;".toList]) :=
    .behind (by decide) (by decide)
  have hsame := Relation.EqvGen.trans _ _ _ (.rel _ _ hlevel) (.rel _ _ htime)
  refine (outcome_eq_of_noise.1 _ _ hsame).symm.trans ?_
  decide +kernel

end PlanOrbits.Transcript
