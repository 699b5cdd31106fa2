import TopicDirectory.Link.Fault
import TopicDirectory.Text.Blank
import TopicDirectory.Text.Decimal

/-!
# Endpoints

Where a party can be reached: a host and a port, written `tcp://host:port`.  The port stands after
the last colon, so a host may hold colons; it may hold neither slashes nor blanks.
-/

namespace TopicDirectory

/-- A host and a port; the host `*` stands for every interface. -/
structure Endpoint where
  host : String
  port : UInt16
deriving DecidableEq, Repr, Inhabited

namespace Endpoint

/-- What every written endpoint begins with. -/
def scheme : List Char := ['t', 'c', 'p', ':', '/', '/']

/-- A host and a port with a colon between them. -/
def hostAndPort (host : List Char) (port : UInt16) : List Char :=
  host ++ ':' :: Decimal.digits port.toNat

/-- The characters of a written endpoint. -/
def chars (e : Endpoint) : List Char := scheme ++ hostAndPort e.host.toList e.port

/-- The written form of an endpoint. -/
def text (e : Endpoint) : String := String.ofList e.chars

/-- What follows `front` in a text that begins with it. -/
def after? : List Char → List Char → Option (List Char)
  | [], cs => some cs
  | _ :: _, [] => none
  | f :: fs, c :: cs => if f = c then after? fs cs else none

/-- What stands before and after the last `mark`. -/
def cutAtLast? (mark : Char) (cs : List Char) : Option (List Char × List Char) :=
  match cs.reverse.dropWhile (· ≠ mark) with
  | [] => none
  | _ :: front => some (front.reverse, (cs.reverse.takeWhile (· ≠ mark)).reverse)

/-- Whether the characters can be a host. -/
def isHost (cs : List Char) : Bool :=
  !cs.isEmpty && !cs.contains '/' && !cs.any Blank.isBlank

/-- The number of a port: digits of a number below 2^16, with a plus sign allowed in front. -/
def port? (cs : List Char) : Option UInt16 :=
  (Decimal.nat? cs).bind fun n => if n < UInt16.size then some (UInt16.ofNat n) else none

/-- Reads the characters of an endpoint. -/
def ofChars? (cs : List Char) : Option Endpoint := do
  let rest ← after? scheme cs
  let (host, port) ← cutAtLast? ':' rest
  if isHost host then
    let port ← port? port
    return ⟨String.ofList host, port⟩
  else none

/-- Reads a written endpoint. -/
def ofText? (s : String) : Option Endpoint := ofChars? s.toList

/-- Reads a written endpoint and says so if it cannot be read. -/
def read (s : String) : Except Link.Fault Endpoint :=
  match ofText? s with
  | some e => .ok e
  | none => .error (.invalidEndpoint s)

/-- The host of an interface to listen at. -/
def bindHost (e : Endpoint) : String := if e.host = "*" then "0.0.0.0" else e.host

/-- The host to call. -/
def callHost (e : Endpoint) : String := if e.host = "*" then "127.0.0.1" else e.host

/-- The address to listen at. -/
def bindAddress (e : Endpoint) : String := String.ofList (hostAndPort e.bindHost.toList e.port)

/-- The address to call. -/
def callAddress (e : Endpoint) : String := String.ofList (hostAndPort e.callHost.toList e.port)

theorem after?_eq_some_iff {front cs rest : List Char} :
    after? front cs = some rest ↔ cs = front ++ rest := by
  induction front generalizing cs with
  | nil => simp [after?]
  | cons f fs ih =>
    cases cs with
    | nil => simp [after?]
    | cons c cs =>
      by_cases h : f = c
      · simp [after?, h, ih]
      · simp [after?, h, Ne.symm h]

@[simp] theorem port?_digits (p : UInt16) : port? (Decimal.digits p.toNat) = some p := by
  simp [port?, UInt16.toNat_lt_size]

end Endpoint

end TopicDirectory
