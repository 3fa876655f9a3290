import PlanOrbits.Causal.Occurrence
import PlanOrbits.Plan.Basic
import PlanOrbits.Proofs.Json.Text
import PlanOrbits.Proofs.Tables
import PlanOrbits.Proofs.Text.NormalForm

/-!
# Documents that are read back

`FaithfulJson` is the property of a type that its documents are read back as the
values they were written from. It passes from the parts of a value to the value: to
lists and pairs, and to records with the help of `Record.bind_record`. There are two
places with content: a type is normalised when it is read, which must not change it,
and a substitution is made anew of the list of its bindings. So a plan is read back
from its document (`plan_reads_back`).

A natural number is written in its decimal digits, which are a spelling that the text of a number
can have (`Numeral.isSpelled_ofNat`). It is read back if it is a word of 64 bits
(`ofJson?_toJson_nat`). Colours are words of 32 bits, so that they always are.

`SpelledJson` is the property of a type that the text of a document of a value can be read.
-/

namespace PlanOrbits

open Text (decimal isDigit wordLimit)

/-- Reading the document of a value gives the value. -/
class FaithfulJson (α : Type) [ToJson α] [OfJson α] : Prop where
  ofJson?_toJson : ∀ a : α, ofJson? (toJson a) = some a

export FaithfulJson (ofJson?_toJson)

attribute [simp] FaithfulJson.ofJson?_toJson

/-! ### Plain values -/

instance : FaithfulJson Bool := ⟨fun _ => rfl⟩

instance : FaithfulJson String := ⟨fun _ => rfl⟩

/-- A list is read back if its members are, by induction on the list. -/
theorem ofJson?_toJson_list {α : Type} [ToJson α] [OfJson α] {xs : List α}
    (h : ∀ x ∈ xs, ofJson? (toJson x) = some x) : ofJson? (toJson xs) = some xs := by
  change (xs.map toJson).mapM ofJson? = some xs
  induction xs with
  | nil => rfl
  | cons x xs ih =>
      obtain ⟨hx, hxs⟩ := List.forall_mem_cons.1 h
      rw [List.map_cons, List.mapM_cons, hx, ih hxs]
      rfl

/-- A pair, which is written as a list of two, is read back if its parts are. -/
theorem ofJson?_toJson_prod {α β : Type} [ToJson α] [ToJson β] [OfJson α] [OfJson β] {a : α} {b : β}
    (ha : ofJson? (toJson a) = some a) (hb : ofJson? (toJson b) = some b) :
    ofJson? (toJson (a, b)) = some (a, b) := by
  change (do return (← ofJson? (toJson a), ← ofJson? (toJson b))) = some (a, b)
  simp [ha, hb]

instance {α : Type} [ToJson α] [OfJson α] [FaithfulJson α] : FaithfulJson (List α) where
  ofJson?_toJson _ := ofJson?_toJson_list fun x _ => ofJson?_toJson x

instance {α β : Type} [ToJson α] [ToJson β] [OfJson α] [OfJson β] [FaithfulJson α]
    [FaithfulJson β] : FaithfulJson (α × β) where
  ofJson?_toJson p := ofJson?_toJson_prod (ofJson?_toJson p.1) (ofJson?_toJson p.2)

/-! ### Records -/

namespace Record

/-- Fields that all have names are all taken. -/
theorem namedFields?_map_some (fields : List (String × Json)) :
    namedFields? (fields.map fun (name, value) => (some name, value)) = some fields := by
  unfold namedFields?
  induction fields with
  | nil => rfl
  | cons field fields ih =>
      rw [List.map_cons, List.mapM_cons, ih]
      rfl

/-- The fields written for a record are the fields read from it, in the order in which they were
written. -/
theorem ofJson?_record {names : List String} {fields : List (String × Json)}
    (hnames : fields.map Prod.fst = names) (hnodup : names.Nodup) :
    ofJson? names (Json.record fields) = some { positional := false, fields } := by
  have hall : fields.filter (fun (name, _) => names.contains name) = fields := by
    rw [List.filter_eq_self]
    rintro ⟨name, value⟩ hmem
    rw [List.contains_iff_mem, ← hnames]
    exact List.mem_map_of_mem hmem
  simp only [Json.record, ofJson?, namedFields?_map_some, Option.bind_eq_bind, Option.bind_some]
  rw [hall, hnames, if_pos hnodup]

/-- What is made of a document written for a record is made of the fields of the record. The
instances below use it with the reader of the fields as `f`. -/
theorem bind_record {α : Type} {names : List String} {fields : List (String × Json)}
    {make : Record → Option α} (hnames : fields.map Prod.fst = names) (hnodup : names.Nodup) :
    (ofJson? names (Json.record fields) >>= make) = make { positional := false, fields } := by
  rw [ofJson?_record hnames hnodup]
  rfl

end Record

/-! ### Decimal digits -/

namespace Numeral

/-- The digits of a number are those of its decimal text. -/
theorem whole_ofNat (n : Nat) : (ofNat n).whole = (decimal n).map fun c => c.toNat - '0'.toNat :=
  Text.filterMap_digit? fun _ => Text.isDigit_of_mem_decimal

/-- A number is what the digits of its decimal text denote. -/
theorem toNat?_ofNat (n : Nat) : (ofNat n).toNat? = some n := by
  have hvalue : Text.number (ofNat n).whole = n := by
    rw [whole_ofNat]
    exact Text.valueFrom_decimal n
  unfold toNat?
  rw [if_neg (by simp [ofNat]), hvalue]

/-- There is at least one digit, and each is below ten. -/
theorem areDigits_whole_ofNat (n : Nat) : AreDigits (ofNat n).whole := by
  constructor
  · rw [whole_ofNat, ne_eq, List.map_eq_nil_iff]
    exact Text.decimal_ne_nil
  · intro d hd
    obtain ⟨c, -, hc⟩ := List.mem_filterMap.1 hd
    exact Text.digit?_lt hc

/-- If the first digit is zero, it is the only one: with several digits the number would be smaller
than any number that needs as many. -/
theorem length_whole_ofNat {n : Nat} (h : (ofNat n).whole.head? = some 0) :
    (ofNat n).whole.length = 1 := by
  rcases Nat.eq_zero_or_pos n with rfl | hpos
  · rfl
  · rw [whole_ofNat] at h ⊢
    obtain ⟨c, cs, hcons, -⟩ := Text.exists_decimal_eq_cons n
    have hle := Text.pow_length_decimal_le (Nat.ne_of_gt hpos)
    have hvalue := Text.valueFrom_decimal n
    have hdigits : ∀ c ∈ cs, isDigit c = true := fun c hc =>
      Text.isDigit_of_mem_decimal (hcons ▸ List.mem_cons_of_mem _ hc)
    rw [hcons] at h hle hvalue
    rw [List.map_cons, List.head?_cons, Option.some.injEq] at h
    rw [Text.valueFrom_cons, h] at hvalue
    have hlt := Text.valueFrom_lt hdigits (10 * 0 + 0)
    simp only [List.length_cons, Nat.add_sub_cancel] at hle
    omega

/-- The decimal text of a number is a spelling that it may have in a document. -/
theorem isSpelled_ofNat (n : Nat) : (ofNat n).IsSpelled where
  whole := areDigits_whole_ofNat n
  noLeadingZero := length_whole_ofNat
  fraction := nofun
  exponent := nofun

end Numeral

/-! ### Reading numbers -/

/-- A word is read back; a larger number is refused by the reader. -/
theorem ofJson?_toJson_nat {n : Nat} (h : n < wordLimit) : ofJson? (toJson n) = some n := by
  change (Numeral.ofNat n).toNat?.filter (· < wordLimit) = some n
  rw [Numeral.toNat?_ofNat, Option.filter_some, if_pos (decide_eq_true h)]

instance : FaithfulJson UInt32 where
  ofJson?_toJson n := by
    have hsize : n.toNat < UInt32.size := n.toNat_lt
    have hword : n.toNat < wordLimit := Nat.lt_trans hsize (by decide)
    change ((ofJson? (toJson n.toNat) : Option Nat).filter (· < UInt32.size)).map Nat.toUInt32 = _
    rw [ofJson?_toJson_nat hword, Option.filter_some, if_pos (decide_eq_true hsize),
      Option.map_some, Nat.toUInt32_eq, UInt32.ofNat_toNat]

/-! ### Documents with a text -/

/-- The documents of the values can be read from their text. -/
class SpelledJson (α : Type) [ToJson α] : Prop where
  isSpelled_toJson : ∀ a : α, (toJson a).IsSpelled

export SpelledJson (isSpelled_toJson)

instance : SpelledJson Nat := ⟨fun n => .number (Numeral.isSpelled_ofNat n)⟩

instance : SpelledJson UInt32 := ⟨fun n => isSpelled_toJson n.toNat⟩

instance : SpelledJson Bool := ⟨.bool⟩

instance : SpelledJson String := ⟨fun text => .string (some text)⟩

instance {α : Type} [ToJson α] [SpelledJson α] : SpelledJson (List α) where
  isSpelled_toJson xs := by
    refine .array fun j hj => ?_
    obtain ⟨x, -, rfl⟩ := List.mem_map.1 hj
    exact isSpelled_toJson x

instance {α β : Type} [ToJson α] [ToJson β] [SpelledJson α] [SpelledJson β] :
    SpelledJson (α × β) where
  isSpelled_toJson := by
    rintro ⟨a, b⟩
    refine .array fun j hj => ?_
    simp only [List.mem_cons, List.not_mem_nil, or_false] at hj
    rcases hj with rfl | rfl
    · exact isSpelled_toJson a
    · exact isSpelled_toJson b

/-- A record has a text if its fields have, as field names are plain. -/
theorem Json.isSpelled_record {fields : List (String × Json)}
    (h : ∀ field ∈ fields, field.2.IsSpelled) : (Json.record fields).IsSpelled := by
  refine .object fun field hfield => ?_
  obtain ⟨field, hmem, rfl⟩ := List.mem_map.1 hfield
  exact h field hmem

/-! ### The vocabulary of plans -/

/-- A type is in normal form, which reading it does not change: the normal form of a normal form is
itself. -/
theorem TypeName.ofSpelling_text (type : TypeName) : ofSpelling type.text = type := by
  obtain ⟨text, spelling, rfl⟩ := type
  simp only [ofSpelling, Text.normalName_normalName]

instance : FaithfulJson TypeName where
  ofJson?_toJson type := congrArg some type.ofSpelling_text

instance : FaithfulJson Constant where
  ofJson?_toJson c := by
    refine (Record.bind_record ?_ ?_).trans ?_
    · rfl
    · decide
    · simp [Record.required, List.lookup_cons]

instance : FaithfulJson Variable where
  ofJson?_toJson v := by
    refine (Record.bind_record ?_ ?_).trans ?_
    · rfl
    · decide
    · simp [Record.required, List.lookup_cons]

instance : FaithfulJson Predicate where
  ofJson?_toJson q := by
    refine (Record.bind_record ?_ ?_).trans ?_
    · rfl
    · decide
    · simp [Record.required, Record.withDefault, List.lookup_cons]

instance : FaithfulJson Atom where
  ofJson?_toJson a := by
    refine (Record.bind_record ?_ ?_).trans ?_
    · rfl
    · decide
    · simp [Record.required, Record.withDefault, List.lookup_cons]

instance : FaithfulJson Literal where
  ofJson?_toJson l := by
    refine (Record.bind_record ?_ ?_).trans ?_
    · rfl
    · decide
    · simp [Record.required, List.lookup_cons]

instance {role : Role} : FaithfulJson (Occurrence role) where
  ofJson?_toJson o := by
    refine (Record.bind_record ?_ ?_).trans ?_
    · rfl
    · decide
    · simp [Record.required, List.lookup_cons]

instance : SpelledJson TypeName := ⟨fun type => isSpelled_toJson type.text⟩

instance : SpelledJson Variable where
  isSpelled_toJson v := Json.isSpelled_record (by simp [isSpelled_toJson])

instance : SpelledJson Atom where
  isSpelled_toJson a := Json.isSpelled_record (by simp [isSpelled_toJson])

instance : SpelledJson Literal where
  isSpelled_toJson l := Json.isSpelled_record (by simp [isSpelled_toJson])

instance {role : Role} : SpelledJson (Occurrence role) where
  isSpelled_toJson o := Json.isSpelled_record (by simp [isSpelled_toJson])

instance : FaithfulJson Operator where
  ofJson?_toJson op := by
    refine (Record.bind_record ?_ ?_).trans ?_
    · rfl
    · decide
    · simp [Record.required, Record.withDefault, List.lookup_cons]

instance : FaithfulJson Binding where
  ofJson?_toJson b := by
    refine (Record.bind_record ?_ ?_).trans ?_
    · rfl
    · decide
    · simp [Record.required, List.lookup_cons]

/-- A substitution is written as the list of its bindings and read as one is. -/
instance : FaithfulJson Substitution where
  ofJson?_toJson s := by
    change (ofJson? (toJson s.bindings)).map Substitution.ofBindings = some s
    rw [ofJson?_toJson, Option.map_some, Substitution.ofBindings_bindings]

instance : FaithfulJson Domain where
  ofJson?_toJson d := by
    refine (Record.bind_record ?_ ?_).trans ?_
    · rfl
    · decide
    · simp [Record.required, Record.withDefault, List.lookup_cons]

instance : FaithfulJson Problem where
  ofJson?_toJson q := by
    refine (Record.bind_record ?_ ?_).trans ?_
    · rfl
    · decide
    · simp [Record.required, Record.withDefault, List.lookup_cons]

instance : FaithfulJson PartialPlan where
  ofJson?_toJson p := by
    refine (Record.bind_record ?_ ?_).trans ?_
    · rfl
    · decide
    · simp [Record.required, Record.withDefault, List.lookup_cons]

/-! ### Plans -/

/-- A plan is read back from its document; its types and its substitution are, in particular,
since a name in normal form is its own normal form and since a substitution is made of its own
bindings. A substitution is read from any document of a list of bindings, in which a variable is
bound to the constant of its last binding. It is written again as the last bindings, in the order
of the variables. -/
theorem plan_reads_back :
    (∀ p : PartialPlan, ofJson? (toJson p) = some p) ∧
    (∀ spelling, TypeName.ofSpelling (TypeName.ofSpelling spelling).text = .ofSpelling spelling) ∧
    (∀ s : Substitution, Substitution.ofBindings s.bindings = s ∧
      toJson s = toJson s.bindings) ∧
    (∀ j : Json, (ofJson? j : Option Substitution) =
      (ofJson? j : Option (List Binding)).map Substitution.ofBindings) ∧
    ∀ bs : List Binding, let s := Substitution.ofBindings bs
      (ofJson? (toJson bs) : Option Substitution) = some s ∧
      (∀ v, s[v]? = (bs.filter (·.var == v)).getLast?.map (·.constant)) ∧
      s.bindings.Pairwise (fun b b' => b.var.Precedes b'.var) ∧
      ∀ b, b ∈ s.bindings ↔ (bs.filter (·.var == b.var)).getLast? = some b := by
  refine ⟨fun p => ofJson?_toJson p, fun spelling => TypeName.ofSpelling_text _,
    fun s => ⟨s.ofBindings_bindings, rfl⟩, fun j => rfl, fun bs => ⟨?_, ?_, ?_, ?_⟩⟩
  · change (ofJson? (toJson bs)).map Substitution.ofBindings = _
    rw [ofJson?_toJson, Option.map_some]
  · exact Substitution.getElem?_ofBindings bs
  · exact Substitution.pairwise_bindings _
  · exact fun b => Substitution.mem_bindings_ofBindings

end PlanOrbits
