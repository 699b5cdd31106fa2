/-!
# Decimal numbers

Numbers as rows of ASCII digits.  `nat?` and `int?` read the number texts that ids, ports and codes
are sent as: any number of leading zeros, and one sign where it makes sense.
-/

namespace TopicDirectory.Decimal

/-- The digits of a number, without leading zeros. -/
def digits (n : Nat) : List Char := Nat.toDigits 10 n

/-- The number that a row of digits stands for; the empty row stands for 0. -/
def value (ds : List Char) : Nat := Nat.ofDigitChars 10 ds 0

@[simp] theorem value_digits (n : Nat) : value (digits n) = n :=
  Nat.ofDigitChars_ten_toDigits

/-- A nonempty row of digits. -/
def row? (cs : List Char) : Option Nat :=
  if cs ≠ [] ∧ cs.all Char.isDigit then some (value cs) else none

/-- A natural number: digits, with a plus sign allowed in front. -/
def nat? : List Char → Option Nat
  | '+' :: cs => row? cs
  | cs => row? cs

/-- An integer: digits, with a sign allowed in front. -/
def int? : List Char → Option Int
  | '-' :: cs => (row? cs).map fun n => -(n : Int)
  | '+' :: cs => (row? cs).map Int.ofNat
  | cs => (row? cs).map Int.ofNat

theorem digits_ne_nil (n : Nat) : digits n ≠ [] := Nat.toDigits_ne_nil

theorem isDigit_of_mem_digits {n : Nat} {c : Char} (h : c ∈ digits n) : c.isDigit = true :=
  Nat.isDigit_of_mem_toDigits (by decide) (by decide) h

/-- Only the number 0 is written with a zero in front. -/
theorem digits_of_head_zero {n : Nat} (h : (digits n).head? = some '0') : digits n = ['0'] := by
  induction n using Nat.strongRecOn with
  | _ n ih =>
    rcases Nat.lt_or_ge n 10 with hlt | hge
    · rw [digits, Nat.toDigits_of_lt_base hlt] at h ⊢
      simpa using h
    · have hhead : (digits (n / 10)).head? = some '0' := by
        rw [digits, Nat.toDigits_of_base_le (by decide) hge, List.head?_append] at h
        cases hq : digits (n / 10) with
        | nil => exact absurd hq (digits_ne_nil _)
        | cons c cs =>
          rw [digits] at hq
          simpa [hq] using h
      have hzero := ih (n / 10) (by omega) hhead
      have hvalue : value (digits (n / 10)) = 0 := by rw [hzero]; rfl
      rw [value_digits] at hvalue
      omega

@[simp] theorem row?_digits (n : Nat) : row? (digits n) = some n := by
  have h : (digits n).all Char.isDigit = true :=
    List.all_eq_true.2 fun _ hc => isDigit_of_mem_digits hc
  simp [row?, digits_ne_nil, h]

@[simp] theorem nat?_digits (n : Nat) : nat? (digits n) = some n := by
  unfold nat?
  split
  · rename_i cs h
    have := isDigit_of_mem_digits (n := n) (c := '+') (by simp [h])
    simp [Char.isDigit] at this
  · simp

end TopicDirectory.Decimal
