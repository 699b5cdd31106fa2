import TopicDirectory.Config.Server
import TopicDirectory.Directory.Broadcaster
import TopicDirectory.Directory.Dispatch
import TopicDirectory.Exchange.Host

/-!
# The directory server

One loop owns the registry: it takes a request, carries it out, hands its answer over, and if the
registry has changed it broadcasts the new snapshot and publishes it to those who run the server.
-/

namespace TopicDirectory.Directory

open Exchange (Answer Desk Host)

/-- What the loop owns: the registry, the broadcaster, and the snapshot it published last. -/
structure State where
  registry : Registry := {}
  broadcaster : Broadcaster
  published : Snapshot := {}
deriving DecidableEq

/-- Deals with one request in full. -/
def respond (s : State) (request : List UInt8) : Answer × State :=
  let outcome := dispatch s.registry request
  (.reply outcome.reply.encode,
    match outcome.changed with
    | none => s
    | some registry =>
      { registry
        broadcaster := (s.broadcaster.publish registry.snapshot).2
        published := registry.snapshot })

/-- A server: the host of its command connections and what its loop owns. -/
abbrev Server := Desk State

namespace Server

/-- A server that has just been started. -/
def new (c : Config.Server) : Server :=
  { host := { limit := c.messageSize.toNat }
    state := { broadcaster := .new c.messageSize.toNat c.broadcastCapacity.toNat } }

/-- Whether the loop is running. -/
def running (s : Server) : Bool := s.host.listening

/-- The feed of the snapshots. -/
def feed (s : Server) : Feed := s.state.broadcaster.feed

/-- Replaces the feed of the snapshots. -/
def withFeed (s : Server) (f : Feed) : Server :=
  { s with state.broadcaster.feed := f }

/-- Learns on which connections something has come. -/
def look (s : Server) : Server :=
  let s : Server := Desk.look s
  s.withFeed s.feed.look

/-- Takes steps of the host, at most `fuel` times; the feed delivers what there is before each. -/
def run : Nat → Server → Server
  | 0, s => s
  | fuel + 1, s =>
    let s := s.withFeed s.feed.work
    match Desk.next? respond s with
    | some s => run fuel s
    | none => s

/-- A turn: takes the steps that can be taken on the connections that were taken in, then takes in
who has called, or leaves everybody if it was told to stop. -/
def turn (s : Server) : Server :=
  let s := run (s.host.workload + 1) s
  let s : Server := { s with host := if s.host.listening then s.host.takeIn else s.host.close }
  s.withFeed s.feed.turn

/-- Takes in everybody who has called, and takes steps until none can be taken. -/
def settle (s : Server) : Server := s.look.turn.look.turn

/-- The server after it was told to stop; requests that are still in the queue come to nothing. -/
def stop (s : Server) : Server :=
  let s : Server := { s with host := s.host.stop }
  s.withFeed s.feed.stop

end Server

/-- Why a server does not start. -/
inductive StartError
  | config (fault : Config.Fault)
  | bind (endpoint : Endpoint) (fault : Link.Fault)
deriving DecidableEq, Repr

/-- The wording of an error. -/
def StartError.message : StartError → String
  | config fault => "Configuration error: " ++ fault.message
  | bind endpoint fault => "Bind error: " ++ endpoint.text ++ ": " ++ fault.message

end TopicDirectory.Directory
