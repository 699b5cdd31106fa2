import TopicDirectory.Scenario.Servers

/-!
# Moves of those who call a directory

Clients, publishers, subscribers, observers and watch tools, each under its name.
-/

namespace TopicDirectory.Scenario

open Client (Call Error)
open Play

/-! ### Clients -/

/-- Connects a client. -/
def connectClient (name : String) (c : Config.Client) : Play (Except Error Unit) := do
  let before := (← get).clients.get? name
  match ← useNetwork fun n => n.dial c with
  | .error e => return .error e
  | .ok line =>
    modify fun w => { w with clients := w.clients.put name line }
    match before with
    | some old => modifyNetwork fun n => n.hangUp old.plug
    | none => pure ()
    return .ok ()

/-- Makes a call of a client. -/
def performCall {α : Type} (name : String) (c : Call α) : Play (Except Error α) := do
  let line ← find World.clients name
  let (result, line) ← useNetwork fun n =>
    let (result, line, n) := n.perform line c
    ((result, line), n)
  modify fun w => { w with clients := w.clients.put name line }
  return result

/-! ### Publishers -/

/-- Makes a publisher. -/
def newPublisher (name : String) (p : Client.Publisher) : Play Client.Publisher := do
  let before := (← get).publishers.get? name
  modify fun w => { w with publishers := w.publishers.put name { publisher := p } }
  match before with
  | some old => modifyNetwork fun n => (old.release n).2
  | none => pure ()
  return p

/-- Lets a publisher make a move, and gives its result and the publisher afterwards. -/
def movePublisher {α : Type} (name : String)
    (move : Network.Publishing → Network → α × Network.Publishing × Network) :
    Play (α × Client.Publisher) := do
  let p ← find World.publishers name
  let (a, p) ← useNetwork fun n =>
    let (a, p, n) := move p n
    ((a, p), n)
  modify fun w => { w with publishers := w.publishers.put name p }
  return (a, p.publisher)

/-- Registers a publisher. -/
def registerPublisher (name : String) : Play (Except Error UInt32 × Client.Publisher) :=
  movePublisher name fun p n => p.register n

/-- Declares other topics of a publisher. -/
def declareTopics (name : String) (topics : List String) :
    Play (Except Error Unit × Client.Publisher) :=
  movePublisher name fun p n => p.setTopics n topics

/-- Deregisters a publisher. -/
def deregisterPublisher (name : String) : Play (Except Error Unit × Client.Publisher) :=
  movePublisher name fun p n => p.deregister n

/-- Sends a message on a topic. -/
def publishText (name topic text : String) : Play (Except Error Unit) := do
  let p ← find World.publishers name
  useNetwork fun n => p.publish n topic text

/-! ### Subscribers -/

/-- Connects a subscriber. -/
def connectSubscriber (name : String) (c : Config.Client) (publisher : Record)
    (topics : List String) : Play (Except Error Client.Subscriber) := do
  let before := (← get).subscribers.get? name
  match ← useNetwork fun n => Network.Subscribing.connect n c publisher topics with
  | .error e => return .error e
  | .ok s =>
    modify fun w => { w with subscribers := w.subscribers.put name s }
    match before with
    | some old => modifyNetwork fun n => n.hangUp old.inlet
    | none => pure ()
    return .ok s.subscriber

/-- Waits for the next message of a subscriber; there is no result if none comes. -/
def receiveMessage (name : String) : Play (Option (Except Error (String × String))) := do
  let s ← find World.subscribers name
  useNetwork s.receive

/-- Drops a subscriber. -/
def dropSubscriber (name : String) : Play Unit := do
  let s ← find World.subscribers name
  modifyNetwork fun n => n.hangUp s.inlet
  modify fun w => { w with subscribers := w.subscribers.erase name }

/-! ### Observers -/

/-- The observer of a number, and what it has on the network. -/
def observing (i : Nat) : Play Network.Observing := do
  match (← get).network.observers[i]? with
  | some o => return o
  | none => failure

/-- The observer under a name. -/
def observerOf (name : String) : Play Client.Observer := do
  return (← observing (← find World.observers name)).observer

/-- Lets an observer leave its connections. -/
def releaseObserver (i : Nat) : Play Unit := do
  let o ← observing i
  modifyNetwork fun n =>
    let (o, n) := o.release n
    n.setObserver i o

/-- Makes an observer. -/
def newObserver (name : String) (c : Config.Client) : Play Client.Observer := do
  let before := (← get).observers.get? name
  let o : Network.Observing := { observer := { config := c } }
  let i ← useNetwork fun n => n.addObserver o
  modify fun w => { w with observers := w.observers.put name i }
  match before with
  | some old => releaseObserver old
  | none => pure ()
  return o.observer

/-- Lets an observer make a move. -/
def moveObserver {α : Type} (i : Nat)
    (move : Network.Observing → Network → α × Network.Observing × Network) : Play α := do
  let o ← observing i
  useNetwork fun n =>
    let (a, o, n) := move o n
    (a, n.setObserver i o)

/-- Connects an observer. -/
def connectObserver (name : String) : Play (Except Error Unit × Client.Observer) := do
  let result ← moveObserver (← find World.observers name) fun o n => o.connect n
  return (result, ← observerOf name)

/-- Disconnects an observer, and waits for its listener unless that has stopped by itself; the
listener reads no more. -/
def disconnectObserver (name : String) : Play (Except Error Unit × Client.Observer) := do
  let listening := (← observerOf name).listening
  let result ← moveObserver (← find World.observers name) fun o n => o.disconnect n
  if listening then modifyNetwork Network.turn
  return (result, ← observerOf name)

/-- Whether a wait for an observer is over: it holds a snapshot that is new enough, or its listener
has stopped. -/
def waitOver (generation : Option UInt64) (o : Client.Observer) : Bool :=
  !o.listening ||
    match generation, o.snapshot? with
    | some g, some s => g ≤ s.generation
    | _, _ => false

/-- Waits for an observer. -/
def awaitObserver (name : String) (generation : Option UInt64) : Play Client.Observer := do
  let o ← observerOf name
  if waitOver generation o then return o
  settle
  observerOf name

/-- Drops an observer without disconnecting it. -/
def dropObserver (name : String) : Play Unit := do
  releaseObserver (← find World.observers name)
  modify fun w => { w with observers := w.observers.erase name }

/-! ### Watch tools -/

/-- Starts a watch tool by a command line; it begins when somebody waits. -/
def startTool (name : String) (clock : String) (line : List String) : Play Unit := do
  let before := (← get).tools.get? name
  let tool : Tool := match CommandLine.read Watch.Arguments.grammar line with
    | .given g => { watch := some (.new clock (.ofGiven g)), usage := .given g }
    | usage => { watch := none, usage }
  modify fun w => { w with tools := w.tools.put name tool }
  match before with
  | some { watch := some old, .. } => modifyNetwork fun n => (old.interrupt n).2
  | _ => pure ()

/-- Reads so many lines of what a tool shows, or of what it says on the side. -/
def readTool (name : String) (notices : Bool) (count : Nat) : Play (List String) := do
  settle
  let t ← find World.tools name
  match t.watch with
  | none => return []
  | some w =>
    let lines := if notices then w.notices.drop t.noticesRead else w.output.drop t.outputRead
    let read := lines.take count
    let t := if notices then { t with noticesRead := t.noticesRead + read.length }
      else { t with outputRead := t.outputRead + read.length }
    modify fun w => { w with tools := w.tools.put name t }
    return read

/-- Interrupts a tool. -/
def interruptTool (name : String) : Play Unit := do
  let t ← find World.tools name
  modify fun w => w.changeTool name t Watch.interrupt

/-- How a tool ends. -/
inductive Ended
  | exit (code : Nat) (output notices : List String)
  | usage (r : CommandLine.Reading)
  | running

/-- Waits for the end of a tool, and gives the lines that have not been read. -/
def awaitTool (name : String) : Play Ended := do
  settle
  let t ← find World.tools name
  match t.watch with
  | none => return .usage t.usage
  | some w =>
    match w.exit with
    | none => return .running
    | some code => return .exit code (w.output.drop t.outputRead) (w.notices.drop t.noticesRead)

/-! ### Addresses -/

/-- The port of a feed or of a registered publisher. -/
def World.portOf? (w : World) (name : String) : Option UInt16 :=
  match w.feeds.get? name with
  | some post => some post.port
  | none => (w.publishers.get? name).bind fun p => p.feed.map (·.2)

/-- The settings of a caller that finds the commands at a server or a script, and the broadcasts
at a server or a feed. -/
def World.callerConfig (w : World) (server script feed : Option String) (c : Config.Client) :
    Config.Client :=
  let server := server.bind w.servers.get?
  let script := script.bind w.scripts.get?
  let feed := feed.bind w.feeds.get?
  let c := match server with
    | some s => { c with commandPort := s.commandPort, broadcastPort := s.broadcastPort }
    | none => c
  let c := match script with
    | some s => { c with commandPort := s.port }
    | none => c
  match feed with
  | some f => { c with broadcastPort := f.port }
  | none => c

end TopicDirectory.Scenario
