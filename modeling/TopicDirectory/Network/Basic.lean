import TopicDirectory.Endpoint
import TopicDirectory.Network.Guest

/-!
# Networks

Stations, the ports at which they can be called, and the observers at work in the background.  A
station binds a port of its choice or a free one; a port leads to the same station at every address.
Stations that have stopped keep their number, so that what was sent to a caller before can still be
read.
-/

namespace TopicDirectory

/-- A bound port: its number, the station behind it, and what is to be had there. -/
structure Network.Door where
  port : UInt16
  station : Nat
  side : Network.Side
deriving DecidableEq, Repr

/-- The least port that is given out to a station that leaves the choice to the network. -/
def Network.firstFree : UInt16 := 32768

/-- The greatest port that is given out. -/
def Network.lastFree : UInt16 := 60999

/-- Stations and observers by number, bound ports, and the free port that is given out next. -/
structure Network where
  stations : List Network.Station := []
  observers : List Network.Observing := []
  doors : List Network.Door := []
  nextPort : UInt16 := 49152

namespace Network

open Link (Fault)

/-! ### Ports -/

/-- The door at a port. -/
def door? (n : Network) (port : UInt16) : Option Door := n.doors.find? fun d => d.port = port

/-- The port given out after `port`: the ports in use for this go round. -/
def portAfter (port : UInt16) : UInt16 :=
  if firstFree ≤ port ∧ port < lastFree then port + 1 else firstFree

/-- The first free port from `port` on; `fuel` bounds how many bound ports are passed over. -/
def freePort (n : Network) : Nat → UInt16 → UInt16
  | 0, port => port
  | fuel + 1, port => if (n.door? port).isSome then freePort n fuel (portAfter port) else port

/-- Opens a door to one side of a station, at a free port if 0 is asked for, and gives the port.  A
port that was asked for by number does not move the one that is given out next. -/
def openDoor (n : Network) (wanted : UInt16) (station : Nat) (side : Side) :
    Except Fault (UInt16 × Network) :=
  let port := if wanted = 0 then n.freePort n.doors.length n.nextPort else wanted
  if (n.door? port).isSome then .error (.system .addressInUse)
  else .ok (port, { n with
    doors := ⟨port, station, side⟩ :: n.doors
    nextPort := if wanted = 0 then portAfter port else n.nextPort })

/-! ### Stations -/

/-- Adds a station without a port and gives its number. -/
def add (n : Network) (s : Station) : Nat × Network :=
  (n.stations.length, { n with stations := n.stations ++ [s] })

/-- The network with a station changed. -/
def modify (n : Network) (i : Nat) (change : Station → Station) : Network :=
  { n with stations := n.stations.modify i change }

/-- The network after a station was told to stop. -/
def stop (n : Network) (i : Nat) : Network := n.modify i Station.stop

/-! ### Connections -/

/-- Calls the station behind a port. -/
def call? (n : Network) (port : UInt16) : Option (Plug × Network) := do
  let d ← n.door? port
  let (s, i) ← (← n.stations[d.station]?).call? d.side
  return (⟨d.station, d.side, i⟩, n.modify d.station fun _ => s)

/-- The connection at a plug; a plug without one is like a connection that was closed. -/
def link (n : Network) (p : Plug) : Link :=
  (n.stations[p.station]?.bind fun s => s.link? p.side p.number).getD
    ⟨{ closed := true }, { closed := true }⟩

/-- The network with the connection at a plug replaced. -/
def setLink (n : Network) (p : Plug) (l : Link) : Network :=
  n.modify p.station fun s => s.modifyLink (fun _ => l) p.side p.number

/-- The network after the caller has left a connection. -/
def hangUp (n : Network) (p : Plug) : Network := n.setLink p (n.link p).close

/-- Takes what `read` takes from the pipe to the caller. -/
def readAt {α : Type} (n : Network) (p : Plug) (read : Pipe → α × Pipe) : α × Network :=
  let l := n.link p
  let (a, rest) := read l.toGuest
  (a, n.setLink p { l with toGuest := rest })

end Network

end TopicDirectory
