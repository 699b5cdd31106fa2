import Mathlib.Data.List.Induction
import TopicDirectory.Endpoint

/-!
# How endpoints are spelled

The number of a port may be written with a plus sign and with zeros in front (`Decimal.padded`), and
an endpoint is read from exactly those texts that spell its port in one of these ways
(`Endpoint.ofText?_eq_some_iff`).  `Endpoint.text` is the spelling with neither.
-/

namespace TopicDirectory

namespace Decimal

/-- The digits of a number, perhaps after a plus sign, and after some zeros. -/
def padded (plus : Bool) (zeros n : Nat) : List Char :=
  (if plus then ['+'] else []) ++ (List.replicate zeros '0' ++ digits n)

theorem value_concat (ds : List Char) (c : Char) :
    value (ds ++ [c]) = 10 * value ds + (c.toNat - '0'.toNat) := by
  rw [value, Nat.ofDigitChars_append, Nat.ofDigitChars_cons, Nat.ofDigitChars_nil]
  rfl

theorem digits_of_lt {n : Nat} (h : n < 10) : digits n = [Nat.digitChar n] :=
  Nat.toDigits_of_lt_base h

theorem digits_of_pos {m d : Nat} (hm : 0 < m) (hd : d < 10) :
    digits (10 * m + d) = digits m ++ [Nat.digitChar d] := by
  have hdiv : (10 * m + d) / 10 = m := by omega
  have hmod : (10 * m + d) % 10 = d := by omega
  rw [digits, Nat.toDigits_of_base_le (by decide) (by omega), hdiv, hmod]
  rfl

/-- A digit is the character of its number. -/
theorem digitChar_of_isDigit {c : Char} (h : c.isDigit = true) :
    c.toNat - '0'.toNat < 10 ∧ Nat.digitChar (c.toNat - '0'.toNat) = c := by
  obtain ⟨hlow, hhigh⟩ : 48 ≤ c.toNat ∧ c.toNat ≤ 57 := by
    simpa [Char.isDigit, UInt32.le_iff_toNat_le] using h
  have hzero : '0'.toNat = 48 := rfl
  have hlt : c.toNat - '0'.toNat < 10 := by omega
  refine ⟨hlt, Char.toNat_inj.1 ?_⟩
  rw [Nat.toNat_digitChar_of_lt_ten hlt]
  omega

/-- A row of digits is what its number is written with, after some zeros. -/
theorem eq_padded_of_digits {ds : List Char} (hne : ds ≠ []) (hdigits : ∀ c ∈ ds, c.isDigit = true) :
    ∃ k, ds = List.replicate k '0' ++ digits (value ds) := by
  induction ds using List.reverseRecOn with
  | nil => exact absurd rfl hne
  | append_singleton ds c ih =>
    obtain ⟨hd, hc⟩ := digitChar_of_isDigit (hdigits c (by simp))
    rw [value_concat]
    generalize c.toNat - '0'.toNat = d at hd hc
    subst hc
    by_cases hnil : ds = []
    · subst hnil
      refine ⟨0, ?_⟩
      have hvalue : 10 * value [] + d = d := Nat.zero_add d
      rw [hvalue, digits_of_lt hd]
      rfl
    · obtain ⟨k, hk⟩ := ih hnil fun c hc => hdigits c (List.mem_append_left _ hc)
      rcases Nat.eq_zero_or_pos (value ds) with hzero | hpos
      · -- all digits so far are zeros
        have hzeros : ds = List.replicate (k + 1) '0' := by
          rw [hk, hzero, List.replicate_succ']
          rfl
        refine ⟨k + 1, ?_⟩
        rw [hzero, Nat.mul_zero, Nat.zero_add, digits_of_lt hd, ← hzeros]
      · refine ⟨k, ?_⟩
        rw [digits_of_pos hpos hd, ← List.append_assoc, ← hk]

theorem value_replicate_append (k : Nat) (ds : List Char) :
    value (List.replicate k '0' ++ ds) = value ds := by
  induction k with
  | zero => rfl
  | succ k ih =>
    rw [List.replicate_succ, List.cons_append, value, Nat.ofDigitChars_cons]
    exact ih

theorem isDigit_of_mem_zeros {k n : Nat} {c : Char}
    (h : c ∈ List.replicate k '0' ++ digits n) : c.isDigit = true := by
  rcases List.mem_append.1 h with h | h
  · rw [(List.mem_replicate.1 h).2]
    rfl
  · exact isDigit_of_mem_digits h

theorem row?_eq_some_iff {cs : List Char} {n : Nat} :
    row? cs = some n ↔ ∃ k, cs = List.replicate k '0' ++ digits n := by
  rw [row?]
  constructor
  · intro h
    split at h
    · rename_i hrow
      obtain rfl := Option.some.inj h
      exact eq_padded_of_digits hrow.1 (List.all_eq_true.1 hrow.2)
    · cases h
  · rintro ⟨k, rfl⟩
    have hne : List.replicate k '0' ++ digits n ≠ [] := by simp [digits_ne_nil]
    have hdigits : (List.replicate k '0' ++ digits n).all Char.isDigit = true :=
      List.all_eq_true.2 fun _ hc => isDigit_of_mem_zeros hc
    rw [if_pos ⟨hne, hdigits⟩, value_replicate_append, value_digits]

/-- A number is read from its spellings, and from nothing else. -/
theorem nat?_eq_some_iff {cs : List Char} {n : Nat} :
    nat? cs = some n ↔ ∃ plus zeros, cs = padded plus zeros n := by
  constructor
  · intro h
    rw [nat?.eq_def] at h
    split at h
    · obtain ⟨k, rfl⟩ := row?_eq_some_iff.1 h
      exact ⟨true, k, rfl⟩
    · obtain ⟨k, rfl⟩ := row?_eq_some_iff.1 h
      exact ⟨false, k, rfl⟩
  · rintro ⟨plus, k, rfl⟩
    have hrow : row? (List.replicate k '0' ++ digits n) = some n := row?_eq_some_iff.2 ⟨k, rfl⟩
    cases plus with
    | true => exact hrow
    | false =>
      show nat? (List.replicate k '0' ++ digits n) = some n
      rw [nat?.eq_def]
      split
      · rename_i heq
        have hplus : '+'.isDigit = true := isDigit_of_mem_zeros (k := k) (n := n) (by simp [heq])
        exact absurd hplus (by decide)
      · exact hrow

end Decimal

namespace Endpoint

/-- The text of an endpoint with its port spelled in one of the ways in which a number can be. -/
def spelled (e : Endpoint) (plus : Bool) (zeros : Nat) : String :=
  String.ofList (scheme ++ (e.host.toList ++ ':' :: Decimal.padded plus zeros e.port.toNat))

theorem spelled_false_zero (e : Endpoint) : e.spelled false 0 = e.text := rfl

theorem cutAtLast?_eq_some_iff {mark : Char} {cs front back : List Char} :
    cutAtLast? mark cs = some (front, back) ↔ cs = front ++ mark :: back ∧ mark ∉ back := by
  have hsplit : cs.reverse.takeWhile (· ≠ mark) ++ cs.reverse.dropWhile (· ≠ mark) = cs.reverse :=
    List.takeWhile_append_dropWhile
  rw [cutAtLast?]
  constructor
  · intro h
    cases hdrop : cs.reverse.dropWhile (· ≠ mark) with
    | nil =>
      rw [hdrop] at h
      cases h
    | cons c rest =>
      rw [hdrop] at h hsplit
      cases h
      have hhead := List.head?_dropWhile_not (· ≠ mark) cs.reverse
      rw [hdrop] at hhead
      obtain rfl : c = mark := by simpa using hhead
      constructor
      · have hcs := congrArg List.reverse hsplit
        rw [List.reverse_reverse, List.reverse_append, List.reverse_cons, List.append_assoc] at hcs
        exact hcs.symm
      · intro hmem
        have hne := List.all_takeWhile (p := (· ≠ c)) (l := cs.reverse)
        exact absurd rfl (of_decide_eq_true (List.all_eq_true.1 hne c (List.mem_reverse.1 hmem)))
  · rintro ⟨rfl, hback⟩
    have hne : ∀ c ∈ back.reverse, decide (c ≠ mark) = true := by
      intro c hc
      apply decide_eq_true
      rintro rfl
      exact hback (List.mem_reverse.1 hc)
    have hreverse : (front ++ mark :: back).reverse = back.reverse ++ mark :: front.reverse := by simp
    rw [hreverse, List.dropWhile_append_of_pos hne, List.takeWhile_append_of_pos hne]
    simp

theorem port?_eq_some_iff {cs : List Char} {p : UInt16} :
    port? cs = some p ↔ Decimal.nat? cs = some p.toNat := by
  rw [port?]
  constructor
  · intro h
    obtain ⟨n, hn, hp⟩ := Option.bind_eq_some_iff.1 h
    split at hp
    · rename_i hlt
      obtain rfl := Option.some.inj hp
      rw [hn, UInt16.toNat_ofNat_of_lt' hlt]
    · cases hp
  · intro h
    rw [h, Option.bind_some, if_pos p.toNat_lt_size, UInt16.ofNat_toNat]

/-- An endpoint is read from its spellings, and from nothing else. -/
theorem ofText?_eq_some_iff {s : String} {e : Endpoint} :
    ofText? s = some e ↔ isHost e.host.toList = true ∧ ∃ plus zeros, s = e.spelled plus zeros := by
  have hport (port : List Char) :
      port? port = some e.port ↔ ∃ plus zeros, port = Decimal.padded plus zeros e.port.toNat :=
    port?_eq_some_iff.trans Decimal.nat?_eq_some_iff
  rw [ofText?, ofChars?]
  constructor
  · intro h
    obtain ⟨rest, hrest, h⟩ := Option.bind_eq_some_iff.1 h
    obtain ⟨⟨host, port⟩, hcut, h⟩ := Option.bind_eq_some_iff.1 h
    dsimp only at h
    split at h
    · rename_i hhost
      obtain ⟨number, hnumber, h⟩ := Option.bind_eq_some_iff.1 h
      obtain rfl := Option.some.inj h
      rw [after?_eq_some_iff] at hrest
      obtain ⟨rfl, -⟩ := cutAtLast?_eq_some_iff.1 hcut
      obtain ⟨plus, zeros, rfl⟩ := (hport port).1 hnumber
      rw [String.toList_ofList]
      refine ⟨hhost, plus, zeros, ?_⟩
      rw [spelled, String.toList_ofList, ← hrest, String.ofList_toList]
    · cases h
  · rintro ⟨hhost, plus, zeros, rfl⟩
    have hnumber : port? (Decimal.padded plus zeros e.port.toNat) = some e.port :=
      (hport _).2 ⟨plus, zeros, rfl⟩
    have hcolon : ':' ∉ Decimal.padded plus zeros e.port.toNat := by
      intro hmem
      rcases List.mem_append.1 hmem with hmem | hmem
      · cases plus <;> simp at hmem
      · exact absurd (Decimal.isDigit_of_mem_zeros hmem) (by decide)
    have hcut := cutAtLast?_eq_some_iff.2
      ⟨(rfl : e.host.toList ++ ':' :: Decimal.padded plus zeros e.port.toNat = _), hcolon⟩
    rw [spelled, String.toList_ofList, after?_eq_some_iff.2 rfl, Option.bind_eq_bind,
      Option.bind_some, hcut, Option.bind_eq_bind, Option.bind_some]
    simp [hhost, hnumber]

end Endpoint

end TopicDirectory
