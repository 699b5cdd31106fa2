import TopicDirectory.Text.Blank
import TopicDirectory.Wire.Error

/-!
# Commands

What the directory can be asked for.  A command frame is one header octet and, for all but the
request for a snapshot, one encoded value.
-/

namespace TopicDirectory.Wire

/-- A command to the directory. -/
inductive Command
  | register (candidate : Record)
  | deregister (id : UInt32)
  | snapshot
  | setTopics (id : UInt32) (topics : List String)
deriving DecidableEq

namespace Command

/-- The octet with which the frame of a command begins. -/
def header : Command → UInt8
  | register _ => 0x01
  | deregister _ => 0x02
  | snapshot => 0x03
  | setTopics _ _ => 0x04

/-- The value that a command carries: a candidate goes without its id, new topics as a record of
nothing else than the id and the topics. -/
def payload? : Command → Option Value
  | register candidate => some (.record { candidate with id := none })
  | deregister id => some (.text (String.ofList (Decimal.digits id.toNat)))
  | snapshot => none
  | setTopics id topics => some (.record { id := some id, topics })

/-- The frame of a command. -/
def encode (c : Command) : List UInt8 :=
  c.header :: match c.payload? with
    | none => []
    | some v => v.encode

/-- Reads an id: digits of a number below 2^32, blanks allowed around them. -/
def id? (s : String) : Option UInt32 :=
  (Decimal.nat? (Blank.trim s.toList)).bind fun n =>
    if n < UInt32.size then some (UInt32.ofNat n) else none

/-- The record that a value carries. -/
def recordOf : Value → Except Fault Record
  | .record r => .ok r
  | v => .error (.unexpectedKind .record v.kind)

/-- Reads a command frame; what follows the header of a request for a snapshot does not matter. -/
def decode : List UInt8 → Except Fault Command
  | [] => .error .emptyFrame
  | header :: payload =>
    if header = 0x01 then do
      let r ← recordOf (← Value.decode payload)
      return .register r
    else if header = 0x02 then do
      let s ← (← Value.decode payload).asText
      match id? s with
      | some id => return .deregister id
      | none => .error (.invalidId s)
    else if header = 0x03 then .ok .snapshot
    else if header = 0x04 then do
      let r ← recordOf (← Value.decode payload)
      match r.id with
      | some id => return .setTopics id r.topics
      | none => .error .missingId
    else .error (.unknownHeader header)

end Command

end TopicDirectory.Wire
