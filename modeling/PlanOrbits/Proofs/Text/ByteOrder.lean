import Mathlib.Data.String.Basic
import PlanOrbits.Bytes.Chars

/-!
# The order of texts

Texts are compared character by character, by the numbers of the characters. Written out in
UTF-8 they are in the same order byte by byte (`lt_iff_ofText_lt`): the first byte of a
character tells how many bytes there are, longer encodings begin with higher bytes, and among
those of one length the first byte that differs decides.
-/

namespace PlanOrbits.Text

/-- The bytes of a lower character are lower, whatever follows either of them. The four lengths of
an encoding are compared by their first bytes, and encodings of one length byte by byte. -/
theorem utf8EncodeChar_append_lt {c d : Char} (h : c < d) (xs ys : List UInt8) :
    String.utf8EncodeChar c ++ xs < String.utf8EncodeChar d ++ ys := by
  have hlt : c.val.toNat < d.val.toNat := h
  have hd : d.val.toNat < 0x110000 := by
    have hvalid := d.valid
    simp only [UInt32.isValidChar, Nat.isValidChar] at hvalid
    omega
  simp only [String.utf8EncodeChar]
  generalize c.val.toNat = m at *
  generalize d.val.toNat = n at *
  -- a case for each pair of lengths; no number in a byte is cut off
  split_ifs <;>
    simp only [List.cons_append, List.nil_append, List.cons_lt_cons_iff,
      UInt8.lt_iff_toNat_lt, ← UInt8.toNat_inj, UInt8.toNat_ofNat'] <;>
    simp (disch := omega) only [Nat.mod_eq_of_lt] <;> omega

/-- The order of texts follows, by induction on how one list of characters is less than the other.
-/
theorem flatMap_utf8EncodeChar_lt {cs ds : List Char} (h : cs < ds) :
    cs.flatMap String.utf8EncodeChar < ds.flatMap String.utf8EncodeChar := by
  induction h with
  | nil =>
      -- the empty text is less than any other, since no character has an empty encoding
      rename_i d ds
      have hne : d.utf8Size ≠ 0 := by
        have := d.utf8Size_pos
        omega
      rw [List.flatMap_nil, List.flatMap_cons]
      cases hbytes : String.utf8EncodeChar d with
      | nil => exact absurd (by rw [← String.length_utf8EncodeChar, hbytes]; rfl) hne
      | cons b bs => exact List.nil_lt_cons b _
  | rel hcd => exact utf8EncodeChar_append_lt hcd _ _
  | cons _ ih =>
      rw [List.flatMap_cons, List.flatMap_cons]
      exact List.append_left_lt ih

theorem ofText_eq (s : String) : Bytes.ofText s = s.toList.flatMap String.utf8EncodeChar := by
  rw [Bytes.ofText, String.toUTF8, ← String.utf8Encode_toList, List.utf8Encode,
    List.data_toByteArray]

/-- Texts are in the order of their bytes, in which the source compares names. Both orders are
total, so one direction is enough. -/
theorem lt_iff_ofText_lt {s t : String} : s < t ↔ Bytes.ofText s < Bytes.ofText t := by
  have hmono : ∀ s t : String, s < t → Bytes.ofText s < Bytes.ofText t := by
    intro s t h
    rw [ofText_eq, ofText_eq]
    exact flatMap_utf8EncodeChar_lt (String.lt_iff_toList_lt.1 h)
  refine ⟨hmono s t, fun h => ?_⟩
  rcases lt_trichotomy s t with hlt | rfl | hgt
  · exact hlt
  · exact absurd h (List.lt_irrefl _)
  · exact absurd h (List.lt_asymm (hmono t s hgt))

end PlanOrbits.Text
