import TopicDirectory.Json.Fields
import TopicDirectory.Proofs.Json.RoundTrip

/-!
# Strings, integers and fields in JSON

The values of strings, integers, lists of strings and named fields can be written, and what they
stand for is read from them again (`int?_ofInt`, `strings?_ofStrings`, `named?_ofFields`).
-/

namespace TopicDirectory.Json

/-! ## They can be written -/

theorem wellFormed_ofString (s : String) : (ofString s).WellFormed := by
  rw [ofString, WellFormed]
  exact Text.wellFormed_ofString s

theorem wellFormed_ofInt (i : Int) : (ofInt i).WellFormed := by
  rw [ofInt, WellFormed]
  exact Numeral.wellFormed_ofInt i

theorem wellFormedItems_iff {items : List Json} :
    WellFormedItems items ↔ ∀ j ∈ items, j.WellFormed := by
  induction items with
  | nil => simp [WellFormedItems]
  | cons j js ih => simp [WellFormedItems, ih]

theorem wellFormed_ofStrings (ss : List String) : (ofStrings ss).WellFormed := by
  rw [ofStrings, WellFormed, wellFormedItems_iff]
  intro j hj
  obtain ⟨s, -, rfl⟩ := List.mem_map.1 hj
  exact wellFormed_ofString s

theorem wellFormed_ofFields {fs : List (String × Json)} (h : ∀ f ∈ fs, f.2.WellFormed) :
    (ofFields fs).WellFormed := by
  rw [ofFields, WellFormed]
  induction fs with
  | nil => rw [List.map_nil, WellFormedMembers]; exact trivial
  | cons f fs ih =>
    rw [List.map_cons, WellFormedMembers, WellFormedMember]
    exact ⟨⟨Text.wellFormed_ofString f.1, h f List.mem_cons_self⟩,
      ih fun g hg => h g (List.mem_cons_of_mem _ hg)⟩

/-! ## They are read back -/

@[simp] theorem string?_ofString (s : String) : (ofString s).string? = some s :=
  Text.string?_ofString s

@[simp] theorem int?_ofInt (i : Int) : (ofInt i).int? = some i := by
  show (Numeral.ofInt i).int? = some i
  simp only [Numeral.int?, Numeral.ofInt, Decimal.value_digits]
  rcases Int.lt_or_le i 0 with h | h
  · have hne : i.natAbs ≠ 0 := by omega
    simp only [h, decide_true, if_true, hne, if_false]
    congr 1
    omega
  · have hnot : ¬ i < 0 := by omega
    simp only [hnot, decide_false, Bool.false_eq_true, if_false]
    congr 1
    omega

theorem natBelow?_ofInt {bound n : Nat} (h : n < bound) : (ofInt n).natBelow? bound = some n := by
  rw [natBelow?, int?_ofInt]
  exact if_pos h

@[simp] theorem strings?_ofStrings (ss : List String) : (ofStrings ss).strings? = some ss := by
  show (ss.map ofString).mapM string? = some ss
  induction ss with
  | nil => rfl
  | cons s ss ih => simp [List.map_cons, ih]

/-- A digit is written as one octet, without an escape. -/
theorem digit_eq_octet {c : Char} (h : c.isDigit = true) :
    String.utf8EncodeChar c = [ascii c] ∧ isPlain (ascii c) = true ∧ Char.ofUInt8 (ascii c) = c := by
  have hall : ∀ m : Fin 10, String.utf8EncodeChar (Nat.digitChar m) = [ascii (Nat.digitChar m)] ∧
      isPlain (ascii (Nat.digitChar m)) = true ∧
      Char.ofUInt8 (ascii (Nat.digitChar m)) = Nat.digitChar m := by decide
  obtain ⟨m, rfl⟩ := exists_digitChar h
  exact hall m

/-- A text of digits is read as it is written. -/
theorem unescaped?_ofString {cs : List Char} (h : ∀ c ∈ cs, c.isDigit = true) :
    Text.unescaped? (.ofString (String.ofList cs)) = some cs := by
  rw [Text.ofString, Utf8.encode_ofList, Text.unescaped?]
  induction cs with
  | nil => rfl
  | cons c cs ih =>
    obtain ⟨hoctet, hplain, hback⟩ := digit_eq_octet (h c List.mem_cons_self)
    rw [List.flatMap_cons, hoctet, List.map_append, List.mapM_append,
      ih fun d hd => h d (List.mem_cons_of_mem _ hd)]
    simp [hplain, hback]

/-- The members of a written object have the names of its fields. -/
theorem named?_ofFields (fs : List (String × Json)) :
    named? (fs.map fun f => (Text.ofString f.1, f.2)) = some fs := by
  induction fs with
  | nil => rfl
  | cons f fs ih =>
    rw [named?] at ih ⊢
    simp [List.map_cons, ih]

/-- The fields of a written object are those that its members give. -/
theorem fields?_ofFields (names : List String) (fs : List (String × Json)) :
    (ofFields fs).fields? names = names.mapM (unique? fs) := by
  rw [ofFields, fields?, named?_ofFields]
  rfl

end TopicDirectory.Json
