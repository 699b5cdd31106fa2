import TopicDirectory.CommandLine
import TopicDirectory.Config.Server

/-!
# The command line of the directory server

The settings come from a file, if one is named, and else from the options.
-/

namespace TopicDirectory.Serve

/-- The name and version that the server reports. -/
def version : String := "ripple-directory-server 0.1.0"

/-- The options of the server; it takes no arguments. -/
def grammar : CommandLine.Grammar where
  options :=
    [CommandLine.port "command-port" (some 'p'), CommandLine.port "broadcast-port" none,
      CommandLine.text "bind" (some 'b'),
      ⟨"config", some 'c', some fun path => path ≠ ""⟩, CommandLine.text "log-level" none]
  arguments := 0

/-- The settings that the options give. -/
def ofOptions (g : CommandLine.Given) : Config.Server :=
  let default : Config.Server := {}
  { default with
    bindHost := (g.value? "bind").getD default.bindHost
    commandPort := ((g.value? "command-port").bind CommandLine.port?).getD default.commandPort
    broadcastPort :=
      ((g.value? "broadcast-port").bind CommandLine.port?).getD default.broadcastPort }

/-- The settings of a command line; `files` gives the contents of a file that can be read. -/
def settings (files : String → Option (List UInt8)) (g : CommandLine.Given) :
    Except Config.Fault Config.Server :=
  match g.value? "config" with
  | some path => Config.Server.load (files path)
  | none => .ok (ofOptions g)

/-- What is said when the server has stopped. -/
def farewell (snapshots octets : UInt64) : String :=
  "Directory server stopped (" ++ String.ofList (Decimal.digits snapshots.toNat) ++ " snapshots, "
    ++ String.ofList (Decimal.digits octets.toNat) ++ " bytes broadcast)"

end TopicDirectory.Serve
