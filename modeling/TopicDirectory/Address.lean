import TopicDirectory.Text.Decimal

/-!
# Addresses

The address that a host stands for.  A literal, four numbers with dots between them or eight groups
in brackets, is an address as it stands (`ofLiteral?`); any other host has to be looked up
(`ofName?`), which takes its time even if it is a number in another notation.
-/

namespace TopicDirectory

/-- The address of a machine: 32 bits, or eight groups of 16 bits. -/
inductive Address
  | short (bits : UInt32)
  | long (groups : List UInt16)
deriving DecidableEq, Repr

namespace Address

/-! ### Short addresses -/

/-- The number whose digits to the base 256 are given. -/
def ofOctets (octets : List Nat) : Nat := octets.foldl (fun n o => n * 256 + o) 0

/-- One of four numbers with dots between them: no leading zeros, below 256. -/
def octet? (cs : List Char) : Option Nat :=
  (Decimal.row? cs).bind fun n =>
    if n < 256 ∧ cs = Decimal.digits n then some n else none

@[simp] theorem octet?_digits {n : Nat} (h : n < 256) : octet? (Decimal.digits n) = some n := by
  simp [octet?, h]

/-- Four numbers with dots between them. -/
def dotted? (cs : List Char) : Option UInt32 := do
  let octets ← (cs.splitOn '.').mapM octet?
  if octets.length = 4 then return UInt32.ofNat (ofOctets octets) else none

/-- The value of a digit to a base of at most 16. -/
def digit? (base : Nat) (c : Char) : Option Nat :=
  let v := if c.isDigit then c.toNat - '0'.toNat
    else if c.toLower.isLower then c.toLower.toNat - 'a'.toNat + 10
    else base
  if v < base then some v else none

/-- The number that digits to a base stand for. -/
def ofDigits? (base : Nat) (cs : List Char) : Option Nat :=
  (cs.mapM (digit? base)).map fun ds => ds.foldl (fun n d => n * base + d) 0

/-- A number that says its base: hexadecimal after `0x`, octal after `0`, else decimal. -/
def number? : List Char → Option Nat
  | ['0', 'x'] | ['0', 'X'] | [] => none
  | '0' :: 'x' :: cs | '0' :: 'X' :: cs => ofDigits? 16 cs
  | '0' :: cs => ofDigits? 8 cs
  | cs => ofDigits? 10 cs

/-- One to four numbers with dots between them, of which the last fills what the others leave. -/
def loose? (cs : List Char) : Option UInt32 := do
  let ns ← (cs.splitOn '.').mapM number?
  let last ← ns.getLast?
  let front := ns.dropLast
  if front.length < 4 ∧ front.all (· < 256) ∧ last < Nat.pow 256 (4 - front.length) then
    return UInt32.ofNat (ofOctets front * Nat.pow 256 (4 - front.length) + last)
  else none

/-! ### Long addresses -/

/-- One to four hexadecimal digits. -/
def group? (cs : List Char) : Option UInt16 :=
  if cs.length ≤ 4 ∧ cs ≠ [] then (ofDigits? 16 cs).map UInt16.ofNat else none

/-- The two groups of a short address. -/
def halves (bits : UInt32) : List UInt16 :=
  [UInt16.ofNat (bits.toNat / 65536), UInt16.ofNat bits.toNat]

/-- Groups with colons between them, none for no characters. -/
def groups? (cs : List Char) : Option (List UInt16) :=
  if cs = [] then some [] else (cs.splitOn ':').mapM group?

/-- Groups of which the last two may be written as a short address. -/
def lastGroups? (cs : List Char) : Option (List UInt16) :=
  match (cs.splitOn ':').getLast?.bind dotted? with
  | some bits =>
    let front := (cs.splitOn ':').dropLast
    (front.mapM group?).map fun gs => gs ++ halves bits
  | none => groups? cs

/-- What stands before and after the first two colons in a row. -/
def cutAtGap? : List Char → Option (List Char × List Char)
  | ':' :: ':' :: cs => some ([], cs)
  | c :: cs => (cutAtGap? cs).map fun (front, back) => (c :: front, back)
  | [] => none

/-- Eight groups, or fewer with two colons in the place of those that are zero. -/
def long? (cs : List Char) : Option (List UInt16) := do
  match cutAtGap? cs with
  | some (front, back) =>
    let front ← groups? front
    let back ← lastGroups? back
    if front.length + back.length < 8 then
      return front ++ List.replicate (8 - front.length - back.length) 0 ++ back
    else none
  | none =>
    let gs ← lastGroups? cs
    if gs.length = 8 then return gs else none

/-! ### Hosts -/

/-- The address of a host that is an address as it stands. -/
def ofLiteral? (cs : List Char) : Option Address :=
  match cs, cs.getLast? with
  | '[' :: rest, some ']' => (long? rest.dropLast).map long
  | _, _ => (dotted? cs).map short

/-- The machine itself. -/
def localhost : Address := .short 0x7F000001

/-- The address that a host has when it is looked up: the machine knows its own name, in letters of
either case, and numbers in any notation. -/
def ofName? (cs : List Char) : Option Address :=
  if cs.map Char.toLower = "localhost".toList then some localhost
  else match loose? cs with
    | some bits => some (.short bits)
    | none => (long? cs).map long

/-- The address of a host. -/
def ofHost? (host : String) : Option Address :=
  match ofLiteral? host.toList with
  | some a => some a
  | none => ofName? host.toList

/-! ### Written addresses -/

/-- Four numbers with dots between them. -/
def dottedText (bits : UInt32) : String :=
  let n := bits.toNat
  ".".intercalate ([n / 16777216, n / 65536 % 256, n / 256 % 256, n % 256].map fun o =>
    String.ofList (Decimal.digits o))

/-- Hexadecimal groups with colons between them. -/
def groupsText (gs : List UInt16) : String :=
  ":".intercalate (gs.map fun g => String.ofList (Nat.toDigits 16 g.toNat))

/-- The position and the length of the first among the longest runs of zeros, for groups that start
at a position. -/
def longestGap (position : Nat) : List UInt16 → Nat × Nat
  | [] => (position, 0)
  | g :: gs =>
    let run := (g :: gs).takeWhile (· = 0)
    let rest := longestGap (position + 1) gs
    if rest.2 ≤ run.length then (position, run.length) else rest

/-- The shortest way to write groups: two colons for a run of zeros, and a short address after the
groups that mark one. -/
def longText (gs : List UInt16) : String :=
  match gs with
  | [0, 0, 0, 0, 0, 0xFFFF, high, low] =>
    "::ffff:" ++ dottedText (UInt32.ofNat (high.toNat * 65536 + low.toNat))
  | _ =>
    let (position, length) := longestGap 0 gs
    if length < 2 then groupsText gs
    else groupsText (gs.take position) ++ "::" ++ groupsText (gs.drop (position + length))

/-- An address as it stands before a port. -/
def text : Address → String
  | short bits => dottedText bits
  | long gs => "[" ++ longText gs ++ "]"

end Address

end TopicDirectory
