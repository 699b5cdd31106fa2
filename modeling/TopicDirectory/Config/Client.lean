import TopicDirectory.Config.Basic
import TopicDirectory.Endpoint
import TopicDirectory.Json.Printer

/-!
# Settings of the parties that call a directory
-/

namespace TopicDirectory.Config

/-- The settings of a publisher, an observer or a subscriber. -/
structure Client where
  directoryHost : String := "127.0.0.1"
  commandPort : UInt16 := commandPort
  broadcastPort : UInt16 := broadcastPort
  timeoutMs : UInt64 := 5000
  messageSize : UInt64 := messageSize
  publishCapacity : UInt64 := 1024
deriving DecidableEq, Repr, Inhabited

namespace Client

/-- The names of the settings, in the order in which they are written. -/
def fieldNames : List String :=
  ["directory_host", "command_port", "broadcast_port", "request_timeout_ms", "max_message_size",
    "publish_capacity"]

/-- The settings as they are written. -/
def toJson (c : Client) : Json :=
  .ofFields [("directory_host", .ofString c.directoryHost),
    ("command_port", .ofInt c.commandPort.toNat),
    ("broadcast_port", .ofInt c.broadcastPort.toNat),
    ("request_timeout_ms", .ofInt c.timeoutMs.toNat),
    ("max_message_size", .ofInt c.messageSize.toNat),
    ("publish_capacity", .ofInt c.publishCapacity.toNat)]

/-- Reads settings; one left out takes its default. -/
def ofJson? (j : Json) : Option Client := do
  let default : Client := {}
  match ← j.fields? fieldNames with
  | [directoryHost, commandPort, broadcastPort, timeoutMs, messageSize, publishCapacity] =>
    return {
      directoryHost := ← Json.fieldOr default.directoryHost Json.string? directoryHost
      commandPort := ← Json.fieldOr default.commandPort port? commandPort
      broadcastPort := ← Json.fieldOr default.broadcastPort port? broadcastPort
      timeoutMs := ← Json.fieldOr default.timeoutMs size? timeoutMs
      messageSize := ← Json.fieldOr default.messageSize size? messageSize
      publishCapacity := ← Json.fieldOr default.publishCapacity size? publishCapacity }
  | _ => none

/-- The settings that a file holds. -/
def load (file : Option (List UInt8)) : Except Fault Client := Config.load ofJson? file

/-- Where the directory takes commands. -/
def commandEndpoint (c : Client) : Endpoint := ⟨c.directoryHost, c.commandPort⟩

/-- Where the directory gives out snapshots. -/
def broadcastEndpoint (c : Client) : Endpoint := ⟨c.directoryHost, c.broadcastPort⟩

/-- What keeps the settings from being used, if anything does. -/
def invalid? (c : Client) : Option Invalid :=
  if c.directoryHost = "" then some .emptyDirectoryHost
  else if c.commandPort = 0 ∨ c.broadcastPort = 0 then some .zeroPort
  else if c.timeoutMs = 0 then some .zeroTimeout
  else if c.messageSize = 0 ∨ c.publishCapacity = 0 then some .zeroSize
  else none

/-- Whether the settings can be used. -/
def validate (c : Client) : Except Fault Unit := checked c.invalid?

end Client

end TopicDirectory.Config
