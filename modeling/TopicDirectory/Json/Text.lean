import TopicDirectory.Text.Utf8

/-!
# Strings of JSON

A string is kept as it is written, octet by octet and escape by escape.  `string?` is the text it
stands for: escapes may spell UTF-16 surrogates only in pairs, and the whole has to be UTF-8.
`ofString` writes a text with as few escapes as the format allows, and `string?_ofString` says that
it is read back.
-/

namespace TopicDirectory.Json

/-- A part of a written string: an octet that stands for itself, or an escaped UTF-16 unit. -/
inductive Piece
  | octet (b : UInt8)
  | unit (u : UInt16)
deriving DecidableEq, Repr

/-- What stands between the quotes of a string. -/
abbrev Text := List Piece

/-- The octet of an ASCII character. -/
abbrev ascii (c : Char) : UInt8 := c.toUInt8

/-- Whether an octet can stand for itself in a string. -/
def isPlain (b : UInt8) : Bool := 0x20 ≤ b && b ≠ ascii '"' && b ≠ ascii '\\'

namespace Text

/-- A string as it is written: quote, backslash and control characters are escaped. -/
def ofString (s : String) : Text :=
  (Utf8.encode s).map fun b => if isPlain b then .octet b else .unit b.toUInt16

/-- Whether a unit is the first half of a surrogate pair. -/
def isHigh (u : UInt16) : Bool := 0xd800 ≤ u && u < 0xdc00

/-- Whether a unit is the second half of a surrogate pair. -/
def isLow (u : UInt16) : Bool := 0xdc00 ≤ u && u < 0xe000

/-- The character that a surrogate pair spells. -/
def ofPair (high low : UInt16) : Char :=
  Char.ofNat (0x10000 + (high.toNat - 0xd800) * 0x400 + (low.toNat - 0xdc00))

/-- The octets of a written string put after those of `out`, which are in reverse. -/
def octetsOnto (out : List UInt8) : Text → Option (List UInt8)
  | [] => some out.reverse
  | .octet b :: ps => octetsOnto (b :: out) ps
  | .unit u :: ps =>
    if isLow u then none
    else if isHigh u then
      match ps with
      | .unit v :: qs =>
        if isLow v then octetsOnto ((String.utf8EncodeChar (ofPair u v)).reverse ++ out) qs
        else none
      | _ => none
    else octetsOnto ((String.utf8EncodeChar (Char.ofNat u.toNat)).reverse ++ out) ps

/-- The string that is written, if it is one. -/
def string? (t : Text) : Option String := (octetsOnto [] t).bind Utf8.decode?

/-- The characters of a text without escapes. -/
def unescaped? (t : Text) : Option (List Char) :=
  t.mapM fun
    | .octet b => some (Char.ofUInt8 b)
    | .unit _ => none

/-! ### Writing -/

/-- A lower-case hexadecimal digit. -/
def hexDigit (n : Nat) : UInt8 := ascii (Nat.digitChar (n % 16))

/-- The escape of a unit: a letter where the format has one, else four hexadecimal digits. -/
def escape (u : UInt16) : List UInt8 :=
  ascii '\\' ::
    match u.toNat with
    | 0x08 => [ascii 'b']
    | 0x09 => [ascii 't']
    | 0x0a => [ascii 'n']
    | 0x0c => [ascii 'f']
    | 0x0d => [ascii 'r']
    | 0x22 => [ascii '"']
    | 0x5c => [ascii '\\']
    | n => ascii 'u' :: [n / 0x1000, n / 0x100, n / 0x10, n].map hexDigit

/-- The octets of a piece. -/
def renderPiece : Piece → List UInt8
  | .octet b => [b]
  | .unit u => escape u

/-- The string between its quotes. -/
def render (t : Text) : List UInt8 :=
  ascii '"' :: (t.flatMap renderPiece ++ [ascii '"'])

/-! ### Reading back -/

private theorem octetsOnto_ofOctets (bs out : List UInt8) :
    octetsOnto out (bs.map fun b => if isPlain b then .octet b else .unit b.toUInt16)
      = some (out.reverse ++ bs) := by
  induction bs generalizing out with
  | nil => simp [octetsOnto]
  | cons b bs ih =>
    by_cases h : isPlain b
    · simp [h, octetsOnto, ih]
    · have hb : b < 0x80 := by
        simp only [isPlain, Bool.and_eq_true, decide_eq_true_eq, not_and, Classical.not_not] at h
        by_cases h1 : (0x20 : UInt8) ≤ b
        · by_cases h2 : b = ascii '"'
          · subst h2; decide
          · have := h (by simp [h1, h2]); subst this; decide
        · have := UInt8.not_le.1 h1
          exact UInt8.lt_trans this (by decide)
      have hn : b.toNat < 0x80 := by simpa [UInt8.lt_iff_toNat_lt] using hb
      have hlow : isLow b.toUInt16 = false := by
        simp [isLow, UInt16.le_iff_toNat_le]; omega
      have hhigh : isHigh b.toUInt16 = false := by
        simp [isHigh, UInt16.le_iff_toNat_le]; omega
      have henc : String.utf8EncodeChar (Char.ofNat b.toNat) = [b] := by
        have : ∀ n : Fin 128, String.utf8EncodeChar (Char.ofNat n) = [UInt8.ofNat n] := by decide
        simpa using this ⟨b.toNat, hn⟩
      simp only [List.map_cons, h]
      rw [octetsOnto.eq_def]
      simp only [Bool.false_eq_true, if_false, hlow, hhigh]
      rw [ih]
      simp [henc]

@[simp] theorem string?_ofString (s : String) : string? (ofString s) = some s := by
  simp [string?, ofString, octetsOnto_ofOctets]

end Text

end TopicDirectory.Json
