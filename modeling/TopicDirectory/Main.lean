import TopicDirectory.Serve.Arguments
import TopicDirectory.Serve.Session
import TopicDirectory.Watch.Session

/-!
# The program

`serve` runs a directory for one caller, whose frames come on standard input and whose answers go to
standard output.  `watch` runs the watch tool beside a directory that takes its frames from standard
input, and shows what the tool shows.
-/

namespace TopicDirectory.Main

/-- How many octets are read at a time. -/
def portion : USize := 4096

/-- Says something on the side. -/
def say (text : String) : IO Unit := do (← IO.getStderr).putStrLn text

/-- Serves the caller until it has ended or the directory has left it. -/
partial def serveOn (s : Directory.Server) : IO Directory.Server := do
  let octets ← (← IO.getStdin).read portion
  if octets.isEmpty || Serve.hasLeft s then return s
  let (answers, s) := Serve.take s octets.data.toList
  let out ← IO.getStdout
  out.write ⟨answers.toArray⟩
  out.flush
  serveOn s

/-- The contents of a file, if it can be read. -/
def contents? (path : String) : IO (Option (List UInt8)) := do
  try return some (← IO.FS.readBinFile path).data.toList
  catch _ => return none

/-- Runs a directory with the settings that were given. -/
def serveGiven (g : CommandLine.Given) : IO UInt32 := do
  let file ← match g.value? "config" with
    | some path => contents? path
    | none => pure none
  match Serve.settings (fun _ => file) g >>= fun c => c.validate.map fun _ => c with
  | .error fault =>
    say ("Error: " ++ fault.message)
    return 1
  | .ok c =>
    let s ← serveOn (Serve.openSession c)
    let sent := s.state.broadcaster.statistics
    say (Serve.farewell sent.snapshots sent.octets)
    return 0

/-- Shows what is new, and gives the exit code once the tool has ended. -/
def show? (w : Scenario.World) : IO (Option UInt32 × Scenario.World) := do
  match (Watch.news 4096).run w with
  | none => return (some 1, w)
  | some ((output, notices), w) =>
    output.forM IO.println
    notices.forM say
    let exit := (w.tools.get? Watch.toolName).bind fun t => t.watch.bind (·.exit)
    return (exit.map UInt32.ofNat, w)

/-- Watches until the tool or the caller has ended. -/
partial def watchOn (plug : Network.Plug) (w : Scenario.World) : IO UInt32 := do
  let (exit, w) ← show? w
  match exit with
  | some code => return code
  | none =>
    let octets ← (← IO.getStdin).read portion
    let move := if octets.isEmpty then Scenario.interruptTool Watch.toolName
      else Watch.take plug octets.data.toList
    match move.run w with
    | some ((), w) => watchOn plug w
    | none => return 1

/-- Runs the watch tool. -/
def watchGiven (line : List String) : IO UInt32 := do
  match (Watch.openSession "now" line).run {} with
  | some (some plug, w) => watchOn plug w
  | _ => return 1

/-- Ends a program whose command line asks for nothing to be run. -/
def answerUsage (version : String) : CommandLine.Reading → IO UInt32
  | .version => do
    IO.println version
    return 0
  | .help => return 0
  | _ => do
    say "error: unusable command line"
    return 2

/-- Runs the program that the first word names. -/
def run (line : List String) : IO UInt32 := do
  match line with
  | "serve" :: line =>
    match CommandLine.read Serve.grammar line with
    | .given g => serveGiven g
    | r => answerUsage Serve.version r
  | "watch" :: line =>
    match CommandLine.read Watch.Arguments.grammar line with
    | .given _ => watchGiven line
    | r => answerUsage Watch.version r
  | _ => answerUsage Serve.version .fault

end TopicDirectory.Main

/-- The program. -/
def main (line : List String) : IO UInt32 := TopicDirectory.Main.run line
