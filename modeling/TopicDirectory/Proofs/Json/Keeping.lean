import TopicDirectory.Proofs.Json.Values

/-!
# Values that can be kept

What is read before it is known what it has to be is kept (`keepable`): its strings have to be text
and its numbers have to fit into a double.  So it is with strings, with integers of 64 bits, and
with the lists and objects of such values.
-/

namespace TopicDirectory.Json

/-! ## Numbers -/

namespace Numeral

theorem le_ofDigitChars (ds : List Char) (n : Nat) : n ≤ Nat.ofDigitChars 10 ds n := by
  induction ds generalizing n with
  | nil => exact Nat.le_refl n
  | cons d ds ih =>
    rw [Nat.ofDigitChars_cons]
    exact Nat.le_trans (by omega) (ih _)

/-- All the digits of a number of 64 bits are leading ones. -/
theorem leading_eq {ds : List Char} {n : Nat} (h : Nat.ofDigitChars 10 ds n < UInt64.size) :
    leading n ds = (Nat.ofDigitChars 10 ds n, []) := by
  induction ds generalizing n with
  | nil => rfl
  | cons d ds ih =>
    have hfirst : Decimal.value [d] + 10 * n = 10 * n + (d.toNat - '0'.toNat) := by
      rw [Decimal.value, Nat.ofDigitChars_cons, Nat.ofDigitChars_nil]
      omega
    rw [Nat.ofDigitChars_cons] at h ⊢
    rw [leading, hfirst, if_pos (Nat.lt_of_le_of_lt (le_ofDigitChars ds _) h), ih h]

theorem scaled_ofInt {i : Int} (h : i.natAbs < UInt64.size) : (ofInt i).scaled = (i.natAbs, 0) := by
  have hvalue : Nat.ofDigitChars 10 (Decimal.digits i.natAbs) 0 = i.natAbs := Decimal.value_digits _
  have hwhole : leading 0 (ofInt i).whole = (i.natAbs, []) := by
    rw [ofInt, leading_eq (by rw [hvalue]; exact h), hvalue]
  rw [scaled, hwhole]
  rfl

/-- Rounding to 53 bits does not double a number. -/
theorem nearest53_le (n : Nat) : nearest53 n ≤ 2 * n := by
  rcases Nat.eq_zero_or_pos n with rfl | hpos
  · decide
  · have hunit : Nat.pow 2 (n.log2 - 52) ≤ n :=
      Nat.le_trans (Nat.pow_le_pow_right (by decide) (Nat.sub_le _ _))
        (Nat.log2_self_le (Nat.pos_iff_ne_zero.1 hpos))
    have hlow : n / Nat.pow 2 (n.log2 - 52) * Nat.pow 2 (n.log2 - 52) ≤ n := Nat.div_mul_le_self _ _
    rw [nearest53]
    split
    · rw [Nat.add_mul]
      omega
    · omega

/-- An integer of 64 bits fits into a double. -/
theorem fitsDouble_ofInt {i : Int} (h : i.natAbs < UInt64.size) : (ofInt i).fitsDouble = true := by
  have hone : nearest53 (Nat.pow 10 (0 : Int).toNat) = 1 := by decide
  have hnear := nearest53_le i.natAbs
  have hsize : 2 * UInt64.size < Nat.pow 2 1024 - Nat.pow 2 970 := by decide +kernel
  have hlt : nearest53 i.natAbs * nearest53 (Nat.pow 10 (0 : Int).toNat)
      < Nat.pow 2 1024 - Nat.pow 2 970 := by
    rw [hone]
    omega
  rw [fitsDouble, scaled_ofInt h]
  dsimp only
  rw [decide_eq_true hlt]
  simp

end Numeral

/-! ## Values -/

theorem keepable_ofString (depth : Nat) (s : String) : (ofString s).keepable depth = true := by
  rw [ofString, keepable.eq_def]
  simp

theorem keepable_ofInt (depth : Nat) {i : Int} (h : i.natAbs < UInt64.size) :
    (ofInt i).keepable depth = true := by
  rw [ofInt, keepable.eq_def]
  exact Numeral.fitsDouble_ofInt h

theorem keepable_ofStrings (depth : Nat) (ss : List String) :
    (ofStrings ss).keepable (depth + 1) = true := by
  rw [ofStrings, keepable.eq_def]
  show keepableItems depth (ss.map ofString) = true
  induction ss with
  | nil => rw [List.map_nil, keepableItems]
  | cons s ss ih => rw [List.map_cons, keepableItems, keepable_ofString, ih]; rfl

theorem keepable_ofFields {depth : Nat} {fs : List (String × Json)}
    (h : ∀ f ∈ fs, f.2.keepable depth = true) : (ofFields fs).keepable (depth + 1) = true := by
  rw [ofFields, keepable.eq_def]
  show keepableMembers depth (fs.map fun f => (Text.ofString f.1, f.2)) = true
  induction fs with
  | nil => rw [List.map_nil, keepableMembers]
  | cons f fs ih =>
    rw [List.map_cons, keepableMembers, keepableMember, h f List.mem_cons_self,
      ih fun g hg => h g (List.mem_cons_of_mem _ hg)]
    simp

end TopicDirectory.Json
