import TopicDirectory.Directory.Server
import TopicDirectory.Exchange.Script

/-!
# Stations

The parties of a network that others can call.  Each has up to two sides: one that takes commands
and one that gives out messages.
-/

namespace TopicDirectory.Network

open Exchange (Desk Script)

/-- What is to be had at a port. -/
inductive Side
  | commands
  | broadcasts
deriving DecidableEq, Repr

/-- A party that can be called. -/
inductive Station
  | directory (s : Directory.Server)
  | scripted (d : Desk Script)
  | feed (f : Feed)
  | broadcaster (b : Directory.Broadcaster)

namespace Station

/-- The feed of a station, if it gives out messages. -/
def feed? : Station → Option Feed
  | directory s => some s.feed
  | scripted _ => none
  | feed f => some f
  | broadcaster b => some b.feed

/-- The station with another feed. -/
def withFeed (f : Feed) : Station → Station
  | directory s => directory (s.withFeed f)
  | scripted d => scripted d
  | feed _ => feed f
  | broadcaster b => broadcaster { b with feed := f }

/-- The host of a station, if it takes commands. -/
def host? : Station → Option Exchange.Host
  | directory s => some s.host
  | scripted d => some d.host
  | feed _ | broadcaster _ => none

/-- The station with another host. -/
def withHost (h : Exchange.Host) : Station → Station
  | directory s => directory { s with host := h }
  | scripted d => scripted { d with host := h }
  | s => s

/-- Calls one side of a station and gives the number of the connection. -/
def call? (s : Station) : Side → Option (Station × Nat)
  | .commands => s.host?.map fun h => (s.withHost h.call.1, h.call.2)
  | .broadcasts => s.feed?.map fun f => (s.withFeed f.call.1, f.call.2)

/-- A connection of one side. -/
def link? (s : Station) : Side → Nat → Option Link
  | .commands, i => s.host?.bind fun h => h.peers[i]?.map (·.link)
  | .broadcasts, i => s.feed?.bind fun f => f.attachments[i]?.map (·.link)

/-- The station with a connection changed. -/
def modifyLink (s : Station) (change : Link → Link) : Side → Nat → Station
  | .commands, i =>
    match s.host? with
    | some h => s.withHost
        { h with peers := h.peers.modify i fun p => { p with link := change p.link } }
    | none => s
  | .broadcasts, i =>
    match s.feed? with
    | some f => s.withFeed
        { f with attachments := f.attachments.modify i fun a => { a with link := change a.link } }
    | none => s

/-- Learns on which connections something has come. -/
def look : Station → Station
  | directory s => directory s.look
  | scripted d => scripted d.look
  | feed f => feed f.look
  | broadcaster b => broadcaster { b with feed := b.feed.look }

/-- Takes a turn. -/
def turn : Station → Station
  | directory s => directory s.turn
  | scripted d => scripted (d.turn Script.respond)
  | feed f => feed f.turn
  | broadcaster b => broadcaster { b with feed := b.feed.turn }

/-- The station after it was told to stop; it leaves everybody at its next turn. -/
def stop : Station → Station
  | directory s => directory s.stop
  | scripted d => scripted { d with host := d.host.stop }
  | feed f => feed f.stop
  | broadcaster b => broadcaster { b with feed := b.feed.stop }

/-- Whether the station goes on. -/
def listening (s : Station) : Bool :=
  s.host?.all (·.listening) && s.feed?.all (·.listening)

end Station

end TopicDirectory.Network
