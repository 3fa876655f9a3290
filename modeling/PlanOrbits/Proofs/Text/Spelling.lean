import Mathlib.Data.List.Forall2
import Mathlib.Data.List.Induction
import PlanOrbits.Proofs.Text.Decimal
import PlanOrbits.Proofs.Text.Pieces

/-!
# Tokens and blanks

A list of tokens is written as the texts of the tokens one behind the other, with blanks
wherever one likes, and at least one where two numbers would become one. `Spells` says that
a text is such a writing. Readers that go by lines take the text apart and put it together
again; none of this changes the tokens:

* a text is still a writing of its tokens when blanks at its ends are dropped (`Spells.trim`);
* every line of a text writes a part of the tokens (`Spells.lines`);
* writings of two lists make up a writing of both, if no numbers meet (`Spells.append`);
* at each token the text can be cut in two (`Spells.split`).
-/

namespace PlanOrbits.Text

/-! ### Numbers that meet -/

/-- Do the end of one text and the start of another make one number? -/
def Meets (xs ys : List Char) : Prop :=
  xs.getLast?.any isDigit = true ∧ ys.head?.any isDigit = true

instance (xs ys : List Char) : Decidable (Meets xs ys) := inferInstanceAs (Decidable (_ ∧ _))

theorem not_meets_cons {xs ys : List Char} {c : Char} (h : isDigit c = false) :
    ¬Meets xs (c :: ys) := by
  intro hmeets
  have hc : isDigit c = true := hmeets.2
  rw [h] at hc
  cases hc

/-- Whether texts meet depends on the end of the first one only. -/
theorem Meets.append_left {ys zs : List Char} (h : Meets ys zs) (xs : List Char) :
    Meets (xs ++ ys) zs := by
  obtain ⟨hlast, hhead⟩ := h
  refine ⟨?_, hhead⟩
  rw [List.getLast?_append]
  cases hc : ys.getLast? with
  | none =>
      rw [hc] at hlast
      cases hlast
  | some c =>
      rw [hc] at hlast
      exact hlast

/-- Whether texts meet depends on the start of the second one only. -/
theorem Meets.append_right {xs ys : List Char} (h : Meets xs ys) (zs : List Char) :
    Meets xs (ys ++ zs) := by
  obtain ⟨hlast, hhead⟩ := h
  refine ⟨hlast, ?_⟩
  cases ys with
  | nil => cases hhead
  | cons y ys => exact hhead

/-- Two decimal texts meet, since the end of one and the start of the other are digits; so a blank
has to stand between two numbers. -/
theorem meets_decimal (v w : Nat) : Meets (decimal v) (decimal w) := by
  obtain ⟨c, cs, hcs, hc⟩ := exists_decimal_eq_cons w
  constructor
  · rw [List.getLast?_eq_some_getLast decimal_ne_nil]
    exact isDigit_of_mem_decimal (List.getLast_mem _)
  · rw [hcs]
    exact hc

/-- If a decimal text does not meet what follows, no digit follows, and a reader of digits stops at
its end. -/
theorem isDigit_of_not_meets_decimal {v : Nat} {cs : List Char} (h : ¬Meets (decimal v) cs) :
    ∀ c ∈ cs.head?, isDigit c = false := by
  intro c hc
  rw [Bool.eq_false_iff]
  intro hdigit
  refine h ⟨(meets_decimal v v).1, ?_⟩
  rw [hc]
  exact hdigit

/-! ### Writings of tokens -/

/-- The text of a token has characters, and none of them is a blank. -/
def IsSolid (cs : List Char) : Prop := cs ≠ [] ∧ ∀ c ∈ cs, isBlank c = false

theorem isSolid_singleton {c : Char} (h : isBlank c = false) : IsSolid [c] :=
  ⟨List.cons_ne_nil c [], List.forall_mem_singleton.2 h⟩

theorem isSolid_decimal (v : Nat) : IsSolid (decimal v) :=
  ⟨decimal_ne_nil, fun _ hc => isBlank_of_isDigit (isDigit_of_mem_decimal hc)⟩

variable {τ : Type} {text : τ → List Char}

/-- The text consists of the texts of the tokens, with blanks between them. -/
inductive Spells (text : τ → List Char) : List τ → List Char → Prop
  | done : Spells text [] []
  | blank {ts c cs} : isBlank c = true → Spells text ts cs → Spells text ts (c :: cs)
  | token {t ts cs} : ¬Meets (text t) cs → Spells text ts cs →
      Spells text (t :: ts) (text t ++ cs)

namespace Spells

variable {ts us : List τ} {xs ys cs : List Char} {c : Char}

theorem append (h : Spells text ts xs) (h' : Spells text us ys) (hmeets : ¬Meets xs ys) :
    Spells text (ts ++ us) (xs ++ ys) := by
  induction h with
  | done => exact h'
  | @blank ts c xs hc _ ih => exact .blank hc (ih fun h => hmeets (h.append_left [c]))
  | @token t ts xs hnot _ ih =>
      rw [List.append_assoc]
      refine .token ?_ (ih fun h => hmeets (h.append_left _))
      -- what follows the token is the rest of the first text or, if this is empty, the second
      cases xs with
      | nil => rwa [List.append_nil] at hmeets
      | cons x xs => exact hnot

/-- Every character of a writing is a blank or belongs to the text of a token. -/
theorem isBlank_or_mem (h : Spells text ts cs) (hc : c ∈ cs) :
    isBlank c = true ∨ ∃ t ∈ ts, c ∈ text t := by
  induction h with
  | done => cases hc
  | blank hblank _ ih =>
      rcases List.mem_cons.1 hc with rfl | hc
      · exact .inl hblank
      · exact ih hc
  | token _ _ ih =>
      rcases List.mem_append.1 hc with hc | hc
      · exact .inr ⟨_, List.mem_cons_self, hc⟩
      · rcases ih hc with hblank | ⟨t, ht, hc⟩
        · exact .inl hblank
        · exact .inr ⟨t, List.mem_cons_of_mem _ ht, hc⟩

theorem not_mem (h : Spells text ts cs) (hblank : isBlank c = false)
    (hts : ∀ t ∈ ts, c ∉ text t) : c ∉ cs := by
  intro hc
  rcases h.isBlank_or_mem hc with hc | ⟨t, ht, hc⟩
  · rw [hblank] at hc
    cases hc
  · exact hts t ht hc

/-- The text of a token stands between a writing of the tokens before it and a writing of those
behind it. -/
theorem split {t : τ} (h : Spells text (ts ++ t :: us) cs) :
    ∃ xs ys, cs = xs ++ (text t ++ ys) ∧ Spells text ts xs ∧ Spells text us ys := by
  generalize hall : ts ++ t :: us = all at h
  induction h generalizing ts with
  | done => cases ts <;> cases hall
  | blank hc _ ih =>
      obtain ⟨xs, ys, rfl, hxs, hys⟩ := ih hall
      exact ⟨_ :: xs, ys, rfl, .blank hc hxs, hys⟩
  | @token t' ts' cs hnot hcs ih =>
      cases ts with
      | nil =>
          rw [List.nil_append, List.cons.injEq] at hall
          obtain ⟨rfl, rfl⟩ := hall
          exact ⟨[], cs, rfl, .done, hcs⟩
      | cons t'' ts =>
          rw [List.cons_append, List.cons.injEq] at hall
          obtain ⟨rfl, hall⟩ := hall
          obtain ⟨xs, ys, rfl, hxs, hys⟩ := ih hall
          exact ⟨text t'' ++ xs, ys, (List.append_assoc _ _ _).symm,
            .token (fun h => hnot (h.append_right _)) hxs, hys⟩

/-! ### Blanks at the ends -/

section

variable (hsolid : ∀ t, IsSolid (text t))

include hsolid

/-- An empty text writes no tokens, as the text of a token is not empty. -/
theorem eq_nil_of_nil (h : Spells text ts []) : ts = [] := by
  generalize hall : ([] : List Char) = all at h
  cases h with
  | done => rfl
  | blank => cases hall
  | @token t ts rest _ _ => exact absurd (List.append_eq_nil_iff.1 hall.symm).1 (hsolid t).1

/-- A blank in front belongs to no token and can be dropped. -/
theorem of_blank_cons (h : Spells text ts (c :: cs)) (hc : isBlank c = true) :
    Spells text ts cs := by
  generalize hall : c :: cs = all at h
  cases h with
  | done => cases hall
  | blank _ h =>
      cases hall
      exact h
  | @token t ts rest _ _ =>
      obtain ⟨x, xs, htext⟩ := List.exists_cons_of_ne_nil (hsolid t).1
      rw [htext, List.cons_append, List.cons.injEq] at hall
      have hx := (hsolid t).2 x (htext ▸ List.mem_cons_self)
      rw [← hall.1, hc] at hx
      cases hx

/-- A blank at the end can be dropped as well. The induction is on the writing, which is built from
the front. -/
theorem of_append_blank (h : Spells text ts (cs ++ [c])) (hc : isBlank c = true) :
    Spells text ts cs := by
  generalize hall : cs ++ [c] = all at h
  induction h generalizing cs with
  | done => exact absurd hall (by simp)
  | blank hblank h ih =>
      cases cs with
      | nil =>
          cases hall
          exact h
      | cons x cs =>
          rw [List.cons_append, List.cons.injEq] at hall
          rw [hall.1]
          exact .blank hblank (ih hall.2)
  | @token t ts rest hnot _ ih =>
      rcases List.eq_nil_or_concat rest with rfl | ⟨rest, d, rfl⟩
      · -- the last character would belong to the token
        have hmem : c ∈ text t := by
          rw [List.append_nil] at hall
          rw [← hall]
          simp
        rw [(hsolid t).2 c hmem] at hc
        cases hc
      · rw [List.concat_eq_append, ← List.append_assoc] at hall
        obtain ⟨rfl, hd⟩ := List.append_inj' hall rfl
        rw [List.concat_eq_append] at hnot
        refine .token (fun h => hnot (h.append_right _)) (ih ?_)
        rw [List.concat_eq_append, hd]

/-- All blanks in front can be dropped, one after the other. -/
theorem trimStart (h : Spells text ts cs) : Spells text ts (Text.trimStart cs) := by
  induction cs with
  | nil => exact h
  | cons c cs ih =>
      rw [Text.trimStart, List.dropWhile_cons]
      split
      · rename_i hc
        exact ih (of_blank_cons hsolid h hc)
      · exact h

theorem trimEnd (h : Spells text ts cs) : Spells text ts (Text.trimEnd cs) := by
  induction cs using List.reverseRecOn with
  | nil => exact h
  | append_singleton cs c ih =>
      rw [Text.trimEnd, List.reverse_append, List.reverse_singleton, List.singleton_append,
        List.dropWhile_cons]
      split
      · rename_i hc
        exact ih (of_append_blank hsolid h hc)
      · rw [List.reverse_cons, List.reverse_reverse]
        exact h

/-- Blanks at both ends belong to no token. -/
theorem trim (h : Spells text ts cs) : Spells text ts (Text.trim cs) :=
  trimEnd hsolid (trimStart hsolid h)

/-- A carriage return is a blank, so a line without it writes the same tokens. -/
theorem dropReturn (h : Spells text ts cs) : Spells text ts (Text.dropReturn cs) := by
  rcases dropReturn_cases cs with heq | heq
  · rwa [heq]
  · rw [heq] at h
    exact of_append_blank hsolid h (by decide)

end

end Spells

/-! ### Pieces and lines -/

/-- The texts write the tokens, each of them a part. -/
inductive SpellsAll (text : τ → List Char) : List τ → List (List Char) → Prop
  | nil : SpellsAll text [] []
  | cons {ts us cs css} : Spells text ts cs → SpellsAll text us css →
      SpellsAll text (ts ++ us) (cs :: css)

namespace SpellsAll

variable {ts us : List τ} {css css' : List (List Char)}

theorem map {f : List Char → List Char}
    (hf : ∀ {ts cs}, Spells text ts cs → Spells text ts (f cs)) (h : SpellsAll text ts css) :
    SpellsAll text ts (css.map f) := by
  induction h with
  | nil => exact .nil
  | cons hcs _ ih => exact .cons (hf hcs) ih

/-- No text has a character that is neither a blank nor in a token. -/
theorem not_mem {c : Char} (h : SpellsAll text ts css) (hblank : isBlank c = false)
    (htext : ∀ t, c ∉ text t) : ∀ cs ∈ css, c ∉ cs := by
  induction h with
  | nil =>
      intro cs hcs
      cases hcs
  | cons hcs _ ih => exact List.forall_mem_cons.2 ⟨hcs.not_mem hblank fun t _ => htext t, ih⟩

theorem append (h : SpellsAll text ts css) (h' : SpellsAll text us css') :
    SpellsAll text (ts ++ us) (css ++ css') := by
  induction h with
  | nil => exact h'
  | cons hcs _ ih =>
      rw [List.append_assoc]
      exact .cons hcs ih

theorem of_cons {cs : List Char} (h : SpellsAll text ts (cs :: css)) :
    ∃ us vs, ts = us ++ vs ∧ Spells text us cs ∧ SpellsAll text vs css := by
  cases h with
  | cons hcs hcss => exact ⟨_, _, rfl, hcs, hcss⟩

theorem of_append (h : SpellsAll text ts (css ++ css')) :
    ∃ us vs, ts = us ++ vs ∧ SpellsAll text us css ∧ SpellsAll text vs css' := by
  induction css generalizing ts with
  | nil => exact ⟨[], ts, rfl, .nil, h⟩
  | cons cs css ih =>
      obtain ⟨first, rest, rfl, hcs, hrest⟩ := h.of_cons
      obtain ⟨us, vs, rfl, hus, hvs⟩ := ih hrest
      exact ⟨first ++ us, vs, (List.append_assoc _ _ _).symm, .cons hcs hus, hvs⟩

theorem of_singleton {cs : List Char} (h : SpellsAll text ts [cs]) : Spells text ts cs := by
  obtain ⟨us, vs, rfl, hcs, hnil⟩ := h.of_cons
  cases hnil
  rwa [List.append_nil]

theorem singleton {cs : List Char} (h : Spells text ts cs) : SpellsAll text ts [cs] := by
  rw [← List.append_nil ts]
  exact .cons h .nil

end SpellsAll

namespace Spells

variable {ts : List τ} {cs : List Char} (hsolid : ∀ t, IsSolid (text t))

include hsolid

/-- If every separator is a blank, the pieces of a text write the tokens of the text, each piece a
part of them: no token has a separator in its text. -/
theorem pieces {isSep : Char → Bool} (hblank : ∀ c, isSep c = true → isBlank c = true)
    (h : Spells text ts cs) : SpellsAll text ts (Text.pieces isSep cs) := by
  induction h with
  | done => exact .singleton .done
  | @blank ts c cs hc _ ih =>
      by_cases hsep : isSep c = true
      · rw [pieces_cons_of_sep hsep]
        exact .cons .done ih
      · have hother : ∀ d ∈ [c], isSep d = false := by simpa using hsep
        obtain ⟨first, rest, hpieces, heq⟩ := exists_pieces_append hother cs
        rw [List.singleton_append] at heq
        rw [hpieces] at ih
        rw [heq]
        cases ih with
        | cons hfirst hrest => exact .cons (.blank hc hfirst) hrest
  | @token t ts cs hnot _ ih =>
      have hsep : ∀ c ∈ text t, isSep c = false := by
        intro c hc
        rw [Bool.eq_false_iff]
        intro hsep
        have hnot := (hsolid t).2 c hc
        rw [hblank c hsep] at hnot
        cases hnot
      obtain ⟨first, rest, hpieces, heq⟩ := exists_pieces_append hsep cs
      rw [hpieces] at ih
      rw [heq]
      -- the first piece starts as the rest of the text does, unless it is empty
      have hfirst : ¬Meets (text t) first := by
        intro hmeets
        cases hhead : first.head? with
        | none =>
            have hdigit := hmeets.2
            rw [hhead] at hdigit
            cases hdigit
        | some d =>
            refine hnot ⟨hmeets.1, ?_⟩
            rw [head?_of_pieces hpieces hhead, ← hhead]
            exact hmeets.2
      cases ih with
      | cons hpart hrest => exact .cons (.token hfirst hpart) hrest

theorem pieces_newline (h : Spells text ts cs) :
    SpellsAll text ts (Text.pieces (· == '\n') cs) := by
  refine h.pieces hsolid fun c hc => ?_
  rw [beq_iff_eq.1 hc]
  decide

/-- The lines of a text write the tokens of the text, each line a part of them. -/
theorem lines (h : Spells text ts cs) : SpellsAll text ts (Text.lines cs) := by
  have hpieces := h.pieces_newline hsolid
  rw [Text.lines]
  rcases List.eq_nil_or_concat (Text.pieces (· == '\n') cs) with hnil | ⟨css, last, hcss⟩
  · exact absurd hnil (pieces_ne_nil _ _)
  · rw [hcss, List.concat_eq_append] at hpieces ⊢
    obtain ⟨us, vs, rfl, hus, hvs⟩ := hpieces.of_append
    rw [List.dropLast_concat, List.getLast?_concat]
    refine (hus.map fun h => h.dropReturn hsolid).append ?_
    -- an empty line at the end is none, and it writes nothing
    cases last with
    | nil =>
        rw [eq_nil_of_nil hsolid hvs.of_singleton]
        exact .nil
    | cons c last => exact hvs

end Spells

/-! ### Words -/

/-- Behind a token that would meet all that follow there stands a blank, or nothing. -/
theorem Spells.head_isBlank {ts : List τ} {xs cs : List Char} (h : Spells text ts cs)
    (hmeets : ∀ t ∈ ts, Meets xs (text t)) (hnot : ¬Meets xs cs) :
    ∀ c ∈ cs.head?, isBlank c = true := by
  cases h with
  | done =>
      intro c hc
      cases hc
  | blank hc _ =>
      intro d hd
      cases hd
      exact hc
  | token _ _ => exact absurd ((hmeets _ List.mem_cons_self).append_right _) hnot

/-- If any two of the tokens would meet, as numbers do, then the words of a writing are the texts of
its tokens. -/
theorem Spells.words {ts : List τ} {cs : List Char} (hsolid : ∀ t, IsSolid (text t))
    (hmeets : ∀ t ∈ ts, ∀ u ∈ ts, Meets (text t) (text u)) (h : Spells text ts cs) :
    Text.words cs = ts.map text := by
  induction h with
  | done => rfl
  | blank hc _ ih => rw [words_cons_of_isBlank hc, ih hmeets]
  | @token t ts cs hnot hcs ih =>
      have hblank := hcs.head_isBlank
        (fun u hu => hmeets t List.mem_cons_self u (List.mem_cons_of_mem _ hu)) hnot
      have hts := ih fun t ht u hu =>
        hmeets t (List.mem_cons_of_mem _ ht) u (List.mem_cons_of_mem _ hu)
      rw [words_append (hsolid t).1 (hsolid t).2 hblank, hts, List.map_cons]

end PlanOrbits.Text
