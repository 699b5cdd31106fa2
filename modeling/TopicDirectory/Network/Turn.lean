import TopicDirectory.Address
import TopicDirectory.Network.Basic

/-!
# Turns

Nobody on a network works until somebody waits.  Who waits lets `turn`s pass: in a turn every
observer and every station deals with what it had learnt of and with what it was told to do, and
then learns what has come in the meantime.  The one who waits goes on as soon as what it waits for
has come, so others may have learnt of things that they have not dealt with yet.
-/

namespace TopicDirectory.Network

open Link (Fault)

/-! ### Observers -/

namespace Observing

/-- Lets the listener read what has come; a listener that stops leaves the subscription. -/
def listen (o : Observing) (n : Network) : Observing × Network :=
  match o.inlet with
  | none => (o, n)
  | some inlet =>
    let (observer, n) := n.readAt inlet o.observer.listen
    if observer.listening then ({ o with observer }, n)
    else ({ o with observer, inlet := none }, n.hangUp inlet)

/-- Learns whether something has come. -/
def look (o : Observing) (n : Network) : Observing :=
  match o.inlet with
  | none => { o with heard := false }
  | some inlet =>
    let p := (n.link inlet).toGuest
    { o with heard := !p.unread.isEmpty || p.closed }

end Observing

/-- Adds an observer and gives its number. -/
def addObserver (n : Network) (o : Observing) : Nat × Network :=
  (n.observers.length, { n with observers := n.observers ++ [o] })

/-- The network with an observer replaced. -/
def setObserver (n : Network) (i : Nat) (o : Observing) : Network :=
  { n with observers := n.observers.set i o }

/-- Lets an observer read what it has learnt of. -/
def letListen (n : Network) (i : Nat) : Network :=
  match n.observers[i]? with
  | none => n
  | some o =>
    if o.heard then
      let (o, n) := o.listen n
      n.setObserver i o
    else n

/-! ### Turns -/

/-- Lets every observer read what it has learnt of, and every station take a turn; the doors of a
station that has stopped are gone. -/
def work (n : Network) : Network :=
  let n := (List.range n.observers.length).foldl letListen n
  let stations := n.stations.map Station.turn
  { n with
    stations
    doors := n.doors.filter fun d => stations[d.station]?.any Station.listening }

/-- Lets everybody learn what has come. -/
def look (n : Network) : Network :=
  { n with
    stations := n.stations.map Station.look
    observers := n.observers.map fun o => o.look n }

/-- A turn. -/
def turn (n : Network) : Network := n.work.look

/-- Lets turns pass until something has come about, but not more than so many. -/
def waitWithin : Nat → (Network → Bool) → Network → Network
  | 0, _, n => n
  | turns + 1, done, n =>
    let n := n.turn
    if done n then n else waitWithin turns done n

/-- More turns than it takes until what one party has set going has reached every other. -/
def patience : Nat := 8

/-- Waits until something has come about, or nothing more will come. -/
def waitFor (done : Network → Bool) (n : Network) : Network := waitWithin patience done n

/-- Waits until nothing more will come. -/
def settle (n : Network) : Network := waitFor (fun _ => false) n

/-! ### Names -/

/-- Finds out whether a host has an address, which takes its time unless it is one. -/
def lookUp (n : Network) (host : String) : Bool × Network :=
  if (Address.ofLiteral? host.toList).isSome then (true, n)
  else ((Address.ofHost? host).isSome, n.settle)

/-- Binds an endpoint to one side of a station and gives the port. -/
def bind (n : Network) (e : Endpoint) (station : Nat) (side : Side) :
    Except Fault UInt16 × Network :=
  let (known, n) := n.lookUp e.bindHost
  if known then
    match n.openDoor e.port station side with
    | .error fault => (.error fault, n)
    | .ok (port, n) => (.ok port, n)
  else (.error (.system .noSuchHost), n)

/-- Adds a station that listens at an endpoint with one side; gives its number and port. -/
def listen (n : Network) (e : Endpoint) (side : Side) (s : Station) :
    Except Fault (Nat × UInt16) × Network :=
  let (i, n) := n.add s
  match n.bind e i side with
  | (.error fault, n) => (.error fault, n.stop i)
  | (.ok port, n) => (.ok (i, port), n)

/-- Calls an endpoint and waits for the connection. -/
def reach (n : Network) (e : Endpoint) : Except Fault Plug × Network :=
  let (known, n) := n.lookUp e.callHost
  if known then
    match n.call? e.port with
    | none => (.error (.system .refused), n)
    | some (plug, n) =>
      let n := n.turn
      if (n.link plug).toHost.closed then (.error (.system .reset), n) else (.ok plug, n)
  else (.error (.system .noSuchHost), n)

end TopicDirectory.Network
