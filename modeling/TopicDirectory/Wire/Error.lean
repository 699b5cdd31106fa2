import TopicDirectory.Text.Utf8
import TopicDirectory.Wire.Value

/-!
# Faults of frames

Why a frame is not what its reader asked for, and the wording of each fault.
-/

namespace TopicDirectory.Wire

/-- Why a frame cannot be used. -/
inductive Fault
  | emptyFrame
  | unknownHeader (header : UInt8)
  | unexpectedKind (expected actual : Kind)
  | invalidId (text : String)
  | missingId
  | unknownRefusal (text : String)
  | unexpectedLabel (label : String)
  | undecodable
deriving DecidableEq, Repr

/-- The two hexadecimal digits of an octet. -/
def hexOctet (b : UInt8) : String :=
  String.ofList [Nat.digitChar (b.toNat / 16), Nat.digitChar (b.toNat % 16)]

/-- The wording of a fault. -/
def Fault.message : Fault → String
  | emptyFrame => "empty frame"
  | unknownHeader header => "unknown command header 0x" ++ hexOctet header
  | unexpectedKind expected actual =>
    "unexpected value: expected " ++ expected.tag ++ ", got " ++ actual.tag
  | invalidId text => "invalid publisher id: " ++ text
  | missingId => "update without publisher id"
  | unknownRefusal text => "unknown error code: " ++ text
  | unexpectedLabel label => "unexpected label: " ++ label
  | undecodable => "decode error"

/-- Reads a value and says so if it cannot be read. -/
def Value.decode (octets : List UInt8) : Except Fault Value :=
  match Value.decode? octets with
  | some v => .ok v
  | none => .error .undecodable

/-- The text that a value carries. -/
def Value.asText : Value → Except Fault String
  | text s => .ok s
  | v => .error (.unexpectedKind .text v.kind)

/-- The snapshot that a value carries. -/
def Value.asDirectory : Value → Except Fault Snapshot
  | directory s => .ok s
  | v => .error (.unexpectedKind .directory v.kind)

/-- Reads the octets of a snapshot. -/
def decodeSnapshot (octets : List UInt8) : Except Fault Snapshot :=
  Value.decode octets >>= Value.asDirectory

/-- The octets of a snapshot. -/
def encodeSnapshot (s : Snapshot) : List UInt8 := (Value.directory s).encode

end TopicDirectory.Wire
