import TopicDirectory.Json.Text

/-!
# Tokens of JSON

The scanner takes one octet at a time (`Scan.step`), so scanning a text in two parts is scanning it
at once (`Scan.run_append`).  A run of octets outside strings that holds neither blanks nor marks is
one bare token, whatever it spells; what it means is for the reader to say.
-/

namespace TopicDirectory.Json

/-- A mark, a string, or a run of other octets. -/
inductive Token
  | openObject
  | closeObject
  | openArray
  | closeArray
  | comma
  | colon
  | string (t : Text)
  | bare (octets : List UInt8)
deriving DecidableEq, Repr

/-- The four octets that may stand between tokens. -/
def isSpace (b : UInt8) : Bool :=
  b = ascii ' ' || b = ascii '\t' || b = ascii '\n' || b = ascii '\x0d'

/-- The token of a mark. -/
def mark? (b : UInt8) : Option Token :=
  if b = ascii '\x7b' then some .openObject
  else if b = ascii '\x7d' then some .closeObject
  else if b = ascii '[' then some .openArray
  else if b = ascii ']' then some .closeArray
  else if b = ascii ',' then some .comma
  else if b = ascii ':' then some .colon
  else none

/-- The unit that a letter stands for after a backslash. -/
def shortEscape? (b : UInt8) : Option UInt16 :=
  if b = ascii '"' ∨ b = ascii '\\' ∨ b = ascii '/' then some b.toUInt16
  else if b = ascii 'b' then some 0x08
  else if b = ascii 'f' then some 0x0c
  else if b = ascii 'n' then some 0x0a
  else if b = ascii 'r' then some 0x0d
  else if b = ascii 't' then some 0x09
  else none

/-- The value of a hexadecimal digit of either case. -/
def hexValue? (b : UInt8) : Option Nat :=
  if ascii '0' ≤ b ∧ b ≤ ascii '9' then some (b.toNat - 0x30)
  else if ascii 'a' ≤ b ∧ b ≤ ascii 'f' then some (b.toNat - 0x57)
  else if ascii 'A' ≤ b ∧ b ≤ ascii 'F' then some (b.toNat - 0x37)
  else none

/-- Where the scanner is; what it has seen of a token is in reverse. -/
inductive Mode
  | between
  | bare (seen : List UInt8)
  | quoted (seen : List Piece)
  | escaped (seen : List Piece)
  | hex (seen : List Piece) (bits left : Nat)
deriving DecidableEq, Repr

/-- The tokens found so far, last first, and where the scanner is. -/
structure Scan where
  tokens : List Token
  mode : Mode
deriving DecidableEq, Repr

namespace Scan

/-- Nothing read yet. -/
def start : Scan := ⟨[], .between⟩

/-- Takes an octet that is in no token yet. -/
def begin (tokens : List Token) (b : UInt8) : Scan :=
  if isSpace b then ⟨tokens, .between⟩
  else if b = ascii '"' then ⟨tokens, .quoted []⟩
  else match mark? b with
    | some t => ⟨t :: tokens, .between⟩
    | none => ⟨tokens, .bare [b]⟩

/-- Whether an octet ends a bare token. -/
def delimits (b : UInt8) : Bool := isSpace b || b = ascii '"' || (mark? b).isSome

/-- Takes one octet; `none` if no text goes on like this. -/
def step (s : Scan) (b : UInt8) : Option Scan :=
  match s.mode with
  | .between => some (begin s.tokens b)
  | .bare seen =>
    if delimits b then some (begin (.bare seen.reverse :: s.tokens) b)
    else some { s with mode := .bare (b :: seen) }
  | .quoted seen =>
    if b = ascii '"' then some ⟨.string seen.reverse :: s.tokens, .between⟩
    else if b = ascii '\\' then some { s with mode := .escaped seen }
    else if b < 0x20 then none
    else some { s with mode := .quoted (.octet b :: seen) }
  | .escaped seen =>
    if b = ascii 'u' then some { s with mode := .hex seen 0 3 }
    else (shortEscape? b).map fun u => { s with mode := .quoted (.unit u :: seen) }
  | .hex seen bits left =>
    (hexValue? b).map fun d =>
      let bits := bits * 16 + d
      match left with
      | 0 => { s with mode := .quoted (.unit (UInt16.ofNat bits) :: seen) }
      | left + 1 => { s with mode := .hex seen bits left }

/-- Takes octets one after the other. -/
def run (s : Scan) (octets : List UInt8) : Option Scan := octets.foldlM step s

/-- The tokens of a text that has come to its end, unless a string is still open. -/
def finish? (s : Scan) : Option (List Token) :=
  match s.mode with
  | .between => some s.tokens.reverse
  | .bare seen => some (.bare seen.reverse :: s.tokens).reverse
  | _ => none

theorem run_append (s : Scan) (front back : List UInt8) :
    s.run (front ++ back) = (s.run front).bind fun t => t.run back := by
  simp [run, List.foldlM_append]

end Scan

/-- The tokens of a text. -/
def tokens? (octets : List UInt8) : Option (List Token) :=
  (Scan.start.run octets).bind Scan.finish?

end TopicDirectory.Json
