import TopicDirectory.Config.Basic
import TopicDirectory.Endpoint
import TopicDirectory.Json.Printer

/-!
# Settings of a directory

They are kept in a file of JSON, in which any of them may be left out.
-/

namespace TopicDirectory.Config

/-- The settings of a directory. -/
structure Server where
  bindHost : String := "*"
  commandPort : UInt16 := commandPort
  broadcastPort : UInt16 := broadcastPort
  messageSize : UInt64 := messageSize
  broadcastCapacity : UInt64 := 64
deriving DecidableEq, Repr, Inhabited

namespace Server

/-- The names of the settings, in the order in which they are written. -/
def fieldNames : List String :=
  ["bind_host", "command_port", "broadcast_port", "max_message_size", "broadcast_capacity"]

/-- The settings as they are saved. -/
def toJson (c : Server) : Json :=
  .ofFields [("bind_host", .ofString c.bindHost), ("command_port", .ofInt c.commandPort.toNat),
    ("broadcast_port", .ofInt c.broadcastPort.toNat),
    ("max_message_size", .ofInt c.messageSize.toNat),
    ("broadcast_capacity", .ofInt c.broadcastCapacity.toNat)]

/-- Reads settings; one left out takes its default. -/
def ofJson? (j : Json) : Option Server := do
  let default : Server := {}
  match ← j.fields? fieldNames with
  | [bindHost, commandPort, broadcastPort, messageSize, broadcastCapacity] =>
    return {
      bindHost := ← Json.fieldOr default.bindHost Json.string? bindHost
      commandPort := ← Json.fieldOr default.commandPort port? commandPort
      broadcastPort := ← Json.fieldOr default.broadcastPort port? broadcastPort
      messageSize := ← Json.fieldOr default.messageSize size? messageSize
      broadcastCapacity := ← Json.fieldOr default.broadcastCapacity size? broadcastCapacity }
  | _ => none

/-- The text that is saved. -/
def save (c : Server) : List UInt8 := c.toJson.renderLines 0

/-- The settings that a file holds. -/
def load (file : Option (List UInt8)) : Except Fault Server := Config.load ofJson? file

/-- Where commands are taken. -/
def commandEndpoint (c : Server) : Endpoint := ⟨c.bindHost, c.commandPort⟩

/-- Where snapshots are given out. -/
def broadcastEndpoint (c : Server) : Endpoint := ⟨c.bindHost, c.broadcastPort⟩

/-- What keeps the settings from being used, if anything does. -/
def invalid? (c : Server) : Option Invalid :=
  if c.bindHost = "" then some .emptyBindHost
  else if c.commandPort ≠ 0 ∧ c.commandPort = c.broadcastPort then some .samePorts
  else if c.messageSize = 0 then some .zeroMessageSize
  else if c.broadcastCapacity = 0 then some .zeroBroadcastCapacity
  else none

/-- Whether the settings can be used. -/
def validate (c : Server) : Except Fault Unit := checked c.invalid?

end Server

end TopicDirectory.Config
