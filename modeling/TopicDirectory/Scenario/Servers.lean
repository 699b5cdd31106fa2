import TopicDirectory.Scenario.World

/-!
# Moves with servers, feeds and scripts

Each move is a `Play`: it changes the world and has a result, or fails if it names nobody.  A move
that waits for others lets turns pass; one that only hands something in, or is refused at once, does
not.  Whoever comes under a name that is in use takes the place of the one before, who is told to
stop.
-/

namespace TopicDirectory.Scenario

/-- A move in a world. -/
abbrev Play (α : Type) := StateT World Option α

namespace Play

/-- Whoever is under a name. -/
def find {α : Type} (table : World → Table α) (name : String) : Play α := do
  match (table (← get)).get? name with
  | some v => return v
  | none => failure

/-- Changes the network. -/
def modifyNetwork (change : Network → Network) : Play Unit :=
  modify fun w => { w with network := change w.network }

/-- Uses the network. -/
def useNetwork {α : Type} (use : Network → α × Network) : Play α := do
  let w ← get
  let (a, network) := use w.network
  set { w with network }
  return a

/-- Waits until everybody has dealt with what has come. -/
def settle : Play Unit := modify World.settle

/-- Tells the station to stop that was under a name before. -/
def stopBefore (before : Option Nat) : Play Unit :=
  match before with
  | some station => modifyNetwork fun n => n.stop station
  | none => return ()

end Play

open Play

/-! ### Servers -/

/-- Starts a server. -/
def startServer (name : String) (c : Config.Server) :
    Play (Except Directory.StartError Network.Launched) := do
  let before := (← get).servers.get? name
  match ← useNetwork fun n => n.launch c with
  | .error e => return .error e
  | .ok server =>
    modify fun w => { w with servers := w.servers.put name server }
    stopBefore (before.map (·.station))
    return .ok server

/-- The directory of a server. -/
def directoryOf (name : String) : Play Directory.Server := do
  let server ← find World.servers name
  match (← get).network.directory? server.station with
  | some d => return d
  | none => failure

/-- The state of a server when it has dealt with every request; there is nothing to wait for once
it has stopped. -/
def serverState (name : String) : Play Directory.Server := do
  if (← directoryOf name).running then settle
  directoryOf name

/-- Stops a server and waits until it has stopped. -/
def stopServer (name : String) : Play Directory.Server := do
  let server ← find World.servers name
  if (← directoryOf name).running then
    modifyNetwork fun n => (n.stop server.station).turn
  directoryOf name

/-- How the start of a server by a command line ends. -/
inductive Started
  | listening (host : String)
  | failed (e : Directory.StartError)
  | usage (r : CommandLine.Reading)

/-- How a server starts by a command line. -/
def startBy (name : String) (files : String → Option (List UInt8)) (line : List String) :
    Play Started := do
  match CommandLine.read Serve.grammar line with
  | .given g =>
    match Serve.settings files g with
    | .error fault => return .failed (.config fault)
    | .ok c =>
      match ← startServer name c with
      | .error e => return .failed e
      | .ok _ =>
        let host := c.commandEndpoint.bindHost
        return .listening (((Address.ofHost? host).map Address.text).getD host)
  | usage => return .usage usage

/-- Starts a server by a command line, and waits until it listens or has ended. -/
def startServerBy (name : String) (files : String → Option (List UInt8)) (line : List String) :
    Play Started := do
  let started ← startBy name files line
  settle
  return started

/-- Stops a server that was started by a command line, and waits until it has ended. -/
def interruptServer (name : String) : Play Directory.Server := do
  settle
  let s ← stopServer name
  settle
  return s

/-- What a new connection to the commands of a server is answered that writes octets and then closes
its writing side. -/
def rawExchange (name : String) (octets : List UInt8) : Play (List (List UInt8)) := do
  let server ← find World.servers name
  match ← useNetwork fun n => n.reach ⟨"127.0.0.1", server.commandPort⟩ with
  | .error _ => return []
  | .ok plug =>
    useNetwork fun n =>
      let l := n.link plug
      let n := n.setLink plug { l with toHost := (l.toHost.write octets).close }
      let n := n.waitFor fun n => (n.link plug).toGuest.closed
      let (frames, n) := n.readAt plug Exchange.Playback.drain
      (frames, n.hangUp plug)

/-! ### Scripts -/

/-- Starts a host that gives scripted answers. -/
def startScript (name : String) (answers : List Exchange.Answer) :
    Play (Except Link.Fault Unit) := do
  let before := (← get).scripts.get? name
  let desk := { host := { limit := 1048576 }, state := { answers } }
  match ← useNetwork fun n => n.listen ⟨"127.0.0.1", 0⟩ .commands (.scripted desk) with
  | .error fault => return .error fault
  | .ok (station, port) =>
    modify fun w => { w with scripts := w.scripts.put name ⟨station, port⟩ }
    stopBefore (before.map (·.station))
    return .ok ()

/-- The requests that a script has seen. -/
def scriptSeen (name : String) : Play (List (List UInt8)) := do
  let post ← find World.scripts name
  match (← get).network.stations[post.station]? with
  | some (.scripted d) => return d.state.seen
  | _ => failure

/-! ### Feeds -/

/-- Starts a station that gives out messages. -/
def startFeed (name : String) (e : Endpoint) (s : Network.Station) :
    Play (Except Link.Fault Unit) := do
  let before := (← get).feeds.get? name
  match ← useNetwork fun n => n.listen e .broadcasts s with
  | .error fault => return .error fault
  | .ok (station, port) =>
    modify fun w => { w with feeds := w.feeds.put name ⟨station, port⟩ }
    stopBefore (before.map (·.station))
    return .ok ()

/-- The station of a feed. -/
def stationOf (name : String) : Play (Post × Network.Station) := do
  let post ← find World.feeds name
  match (← get).network.stations[post.station]? with
  | some s => return (post, s)
  | none => failure

/-- Sends a message and says for how many it is kept. -/
def sendMessage (name : String) (m : Message) : Play Nat := do
  let (post, s) ← stationOf name
  match s.feed? with
  | none => failure
  | some f =>
    let (count, f) := f.send m
    modifyNetwork fun n => n.modify post.station fun s => s.withFeed f
    return count

/-- The number of attachments of a feed. -/
def attachedNow (name : String) : Play Nat := do
  match (← stationOf name).2.feed? with
  | none => failure
  | some f => return f.count

/-- Waits for so many attachments, and says how many there are. -/
def awaitAttached (name : String) (count : Nat) : Play Nat := do
  if (← attachedNow name) = count then return count
  settle
  attachedNow name

/-- Tells a feed to stop. -/
def stopFeed (name : String) : Play Unit := do
  let post ← find World.feeds name
  modifyNetwork fun n => n.stop post.station

/-- Sends a snapshot: for how many observers it is kept, and the broadcaster afterwards. -/
def publishSnapshot (name : String) (s : Snapshot) : Play (Nat × Directory.Broadcaster) := do
  match ← stationOf name with
  | (post, .broadcaster b) =>
    let (count, b) := b.publish s
    modifyNetwork fun n => n.modify post.station fun _ => .broadcaster b
    return (count, b)
  | _ => failure

end TopicDirectory.Scenario
