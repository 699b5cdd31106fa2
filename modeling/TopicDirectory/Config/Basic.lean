import TopicDirectory.Json.Fields
import TopicDirectory.Json.Reader

/-!
# Configurations

What the settings of a directory and of its callers have in common: the ports by which they find one
another, the reading of a file of JSON, and the faults such a file can have.
-/

namespace TopicDirectory.Config

/-- The port at which a directory takes commands, unless another is set. -/
def commandPort : UInt16 := 5555

/-- The port at which a directory gives out snapshots, unless another is set. -/
def broadcastPort : UInt16 := 5556

/-- The largest frame that is taken, unless another limit is set. -/
def messageSize : UInt64 := 16 * 1024 * 1024

/-- What is wrong with the value of a setting. -/
inductive Invalid
  | emptyBindHost
  | samePorts
  | zeroMessageSize
  | zeroBroadcastCapacity
  | emptyDirectoryHost
  | zeroPort
  | zeroTimeout
  | zeroSize
deriving DecidableEq, Repr

/-- The wording of a wrong value. -/
def Invalid.message : Invalid → String
  | emptyBindHost => "bind_host cannot be empty"
  | samePorts => "command_port and broadcast_port must differ"
  | zeroMessageSize => "max_message_size cannot be 0"
  | zeroBroadcastCapacity => "broadcast_capacity cannot be 0"
  | emptyDirectoryHost => "directory_host cannot be empty"
  | zeroPort => "directory ports cannot be 0"
  | zeroTimeout => "request_timeout_ms cannot be 0"
  | zeroSize => "max_message_size and publish_capacity cannot be 0"

/-- Why a configuration cannot be used. -/
inductive Fault
  | unreadable
  | malformed
  | invalid (cause : Invalid)
deriving DecidableEq, Repr

/-- The wording of a fault. -/
def Fault.message : Fault → String
  | unreadable => "I/O error"
  | malformed => "Parse error"
  | invalid cause => "Invalid value: " ++ cause.message

/-- Reads a number of 16 bits. -/
def port? (j : Json) : Option UInt16 := (j.natBelow? UInt16.size).map UInt16.ofNat

/-- Reads a number of 64 bits. -/
def size? (j : Json) : Option UInt64 := (j.natBelow? UInt64.size).map UInt64.ofNat

/-- What a file holds that `read` reads; the file is `none` if it is not there, and it has to be
UTF-8. -/
def load {α : Type} (read : Json → Option α) (file : Option (List UInt8)) : Except Fault α :=
  match file with
  | none => .error .unreadable
  | some octets =>
    if (Utf8.decode? octets).isNone then .error .unreadable
    else match (Json.parse? octets).bind read with
      | none => .error .malformed
      | some c => .ok c

/-- Nothing if there is no wrong value, else the fault. -/
def checked : Option Invalid → Except Fault Unit
  | none => .ok ()
  | some cause => .error (.invalid cause)

end TopicDirectory.Config
