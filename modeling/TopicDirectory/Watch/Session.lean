import TopicDirectory.Scenario.Callers

/-!
# A watch tool beside a directory

The tool watches a directory of its own, which takes command frames from one caller; the ports are
those at which a directory is looked for.
-/

namespace TopicDirectory.Watch

open Scenario (Play)

/-- The name of the directory among the parties. -/
def directoryName : String := "directory"

/-- The name of the tool among the parties. -/
def toolName : String := "tool"

/-- Starts the directory and the tool, and connects the caller. -/
def openSession (clock : String) (line : List String) : Play (Option Network.Plug) := do
  match ← Scenario.startServer directoryName {} with
  | .error _ => return none
  | .ok server =>
    Scenario.startTool toolName clock line
    Play.settle
    match ← Play.useNetwork fun n => n.reach ⟨"127.0.0.1", server.commandPort⟩ with
    | .error _ => return none
    | .ok plug => return some plug

/-- Hands octets of the caller to the directory; its answers are of no interest. -/
def take (plug : Network.Plug) (octets : List UInt8) : Play Unit := do
  Play.modifyNetwork fun n =>
    let l := n.link plug
    n.setLink plug { toHost := l.toHost.write octets, toGuest := { l.toGuest with unread := [] } }
  Play.settle

/-- The lines shown and the lines said on the side since they were last read. -/
def news (count : Nat) : Play (List String × List String) := do
  let output ← Scenario.readTool toolName false count
  let notices ← Scenario.readTool toolName true count
  return (output, notices)

end TopicDirectory.Watch
