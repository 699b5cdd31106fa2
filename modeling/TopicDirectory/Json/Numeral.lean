import TopicDirectory.Text.Decimal

/-!
# Number texts of JSON

A numeral keeps the digits as they are written, so that it can be decided later what the number has
to be: `int?` accepts what is written as an integer, `fitsDouble` what a double can hold.
-/

namespace TopicDirectory.Json

/-- A number as written: sign, digits before and after the point, sign and digits of the
exponent. -/
structure Numeral where
  negative : Bool
  whole : List Char
  fraction : Option (List Char)
  exponent : Option (Bool × List Char)
deriving DecidableEq, Repr

namespace Numeral

/-- The digits after a point, if there is one, and what follows them. -/
def fraction? : List Char → Option (Option (List Char) × List Char)
  | '.' :: cs =>
    let ds := cs.takeWhile Char.isDigit
    if ds = [] then none else some (some ds, cs.dropWhile Char.isDigit)
  | cs => some (none, cs)

/-- An exponent up to the end of the text, or the end itself. -/
def exponent? : List Char → Option (Option (Bool × List Char))
  | [] => some none
  | c :: cs =>
    if c ≠ 'e' ∧ c ≠ 'E' then none
    else
      let (negative, ds) := match cs with
        | '-' :: ds => (true, ds)
        | '+' :: ds => (false, ds)
        | ds => (false, ds)
      if ds ≠ [] ∧ ds.all Char.isDigit then some (some (negative, ds)) else none

/-- The numeral without its sign: no digit comes before a first zero. -/
def unsigned? (negative : Bool) (cs : List Char) : Option Numeral :=
  let whole := cs.takeWhile Char.isDigit
  if whole = [] ∨ (whole.head? = some '0' ∧ whole ≠ ['0']) then none
  else do
    let (fraction, rest) ← fraction? (cs.dropWhile Char.isDigit)
    let exponent ← exponent? rest
    return { negative, whole, fraction, exponent }

/-- Reads a whole text as a numeral. -/
def ofText? : List Char → Option Numeral
  | '-' :: cs => unsigned? true cs
  | cs => unsigned? false cs

/-- The numeral of an integer. -/
def ofInt (n : Int) : Numeral :=
  { negative := decide (n < 0), whole := Decimal.digits n.natAbs, fraction := none,
    exponent := none }

/-- The text of a numeral. -/
def text (n : Numeral) : List Char :=
  (if n.negative then ['-'] else []) ++ n.whole
    ++ (match n.fraction with | none => [] | some ds => '.' :: ds)
    ++ (match n.exponent with
        | none => []
        | some (negative, ds) => 'e' :: ((if negative then ['-'] else []) ++ ds))

/-- The integer that is written: neither point nor exponent, and no sign before a zero. -/
def int? (n : Numeral) : Option Int :=
  match n.fraction, n.exponent with
  | none, none =>
    let m := Decimal.value n.whole
    if n.negative then (if m = 0 then none else some (-(m : Int))) else some m
  | _, _ => none

/-! ### Range of a double -/

/-- The number of as many leading digits as 64 bits can hold, and the digits left over. -/
def leading (n : Nat) : List Char → Nat × List Char
  | [] => (n, [])
  | d :: ds =>
    let m := Decimal.value [d] + 10 * n
    if m < UInt64.size then leading m ds else (n, d :: ds)

/-- Significand and decimal exponent, digits that do not fit into the significand left out. -/
def scaled (n : Numeral) : Nat × Int :=
  let (m, wholeLeft) := leading 0 n.whole
  let fraction := n.fraction.getD []
  let (m, fractionLeft) := leading m fraction
  let shift : Int := wholeLeft.length - (fraction.length - fractionLeft.length : Nat)
  match n.exponent with
  | none => (m, shift)
  | some (false, ds) => (m, shift + Decimal.value ds)
  | some (true, ds) => (m, shift - Decimal.value ds)

/-- The nearest number of 53 significant bits, the even one of two. -/
def nearest53 (n : Nat) : Nat :=
  let unit := Nat.pow 2 (n.log2 - 52)
  let low := n / unit
  let rest := n % unit
  if unit < 2 * rest ∨ (unit = 2 * rest ∧ low % 2 = 1) then (low + 1) * unit else low * unit

/-- Whether the product of significand and power of ten, each rounded to a double, stays below the
numbers that round to infinity. -/
def fitsDouble (n : Numeral) : Bool :=
  match n.scaled with
  | (m, e) =>
    m == 0 || decide (e < 0) ||
      (decide (e ≤ 308) &&
        decide (nearest53 m * nearest53 (Nat.pow 10 e.toNat) < Nat.pow 2 1024 - Nat.pow 2 970))

end Numeral

end TopicDirectory.Json
