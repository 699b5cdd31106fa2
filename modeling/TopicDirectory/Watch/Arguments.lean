import TopicDirectory.CommandLine
import TopicDirectory.Config.Client

/-!
# The command line of the watch tool
-/

namespace TopicDirectory.Watch

/-- The name and version that the tool reports. -/
def version : String := "ripple-echo 0.1.0"

/-- What the tool is asked to watch, and how it shows it. -/
structure Arguments where
  topic : Option String := none
  host : String := "127.0.0.1"
  commandPort : UInt16 := Config.commandPort
  broadcastPort : UInt16 := Config.broadcastPort
  json : Bool := false
  /-- How many messages or snapshots are shown; 0 sets no bound. -/
  count : UInt64 := 0
  quiet : Bool := false
deriving DecidableEq, Repr

namespace Arguments

/-- The options of the tool and its one argument, the topic. -/
def grammar : CommandLine.Grammar where
  options :=
    [CommandLine.text "host" (some 'H'), CommandLine.port "command-port" (some 'p'),
      CommandLine.port "broadcast-port" none, CommandLine.flag "json" none,
      CommandLine.count "count" (some 'n'), CommandLine.flag "no-color" none,
      CommandLine.flag "quiet" (some 'q')]
  arguments := 1

/-- The arguments that a command line gives. -/
def ofGiven (g : CommandLine.Given) : Arguments :=
  let default : Arguments := {}
  { topic := g.arguments.head?
    host := (g.value? "host").getD default.host
    commandPort := ((g.value? "command-port").bind CommandLine.port?).getD default.commandPort
    broadcastPort := ((g.value? "broadcast-port").bind CommandLine.port?).getD default.broadcastPort
    json := g.has "json"
    count := ((g.value? "count").bind CommandLine.count?).getD default.count
    quiet := g.has "quiet" }

/-- The settings for calling the directory. -/
def config (a : Arguments) : Config.Client :=
  { directoryHost := a.host, commandPort := a.commandPort, broadcastPort := a.broadcastPort }

end Arguments

end TopicDirectory.Watch
