import TopicDirectory.Client.Observer
import TopicDirectory.Client.Publisher
import TopicDirectory.Client.Subscriber
import TopicDirectory.Network.Calls

/-!
# Publishers, observers and subscribers on a network

The moves of the parties that call a directory, with the bindings, connections and exchanges that
they need.  Whoever fails part of the way leaves the connections made until then.
-/

namespace TopicDirectory.Network

open Client (Call Error)

/-! ### Publishers -/

/-- A publisher, and the line to the directory and the feed that it has while it is registered. -/
structure Publishing where
  publisher : Client.Publisher
  line : Option Line := none
  feed : Option (Nat × UInt16) := none
deriving DecidableEq, Repr

namespace Publishing

/-- Binds a feed and registers it. -/
def register (p : Publishing) (n : Network) : Except Error UInt32 × Publishing × Network :=
  let c := p.publisher.config
  match p.publisher.registerFault? with
  | some e => (.error e, p, n)
  | none =>
    let feed := Feed.new c.messageSize.toNat c.publishCapacity.toNat
    match n.listen ⟨p.publisher.bindHost, 0⟩ .broadcasts (.feed feed) with
    | (.error fault, n) => (.error (.link fault), p, n)
    | (.ok (station, port), n) =>
      let address := (Endpoint.mk p.publisher.bindHost port).text
      match n.dial c with
      | (.error e, n) => (.error e, p, n.stop station)
      | (.ok line, n) =>
        let (outcome, line, n) := n.perform line (Call.register (p.publisher.candidate address))
        match p.publisher.register address outcome with
        | (.error e, publisher) =>
          (.error e, { p with publisher }, (n.hangUp line.plug).stop station)
        | (.ok id, publisher) => (.ok id, ⟨publisher, some line, some (station, port)⟩, n)

/-- Sends a message on a topic. -/
def publish (p : Publishing) (n : Network) (topic text : String) : Except Error Unit × Network :=
  match p.publisher.message topic text, p.feed with
  | .error e, _ => (.error e, n)
  | .ok _, none => (.ok (), n)
  | .ok m, some (station, _) =>
    (.ok (), n.modify station fun s =>
      match s.feed? with
      | some f => s.withFeed (f.send m).2
      | none => s)

/-- Declares other topics. -/
def setTopics (p : Publishing) (n : Network) (topics : List String) :
    Except Error Unit × Publishing × Network :=
  match p.publisher.id?, p.line with
  | some id, some line =>
    let (outcome, line, n) := n.perform line (Call.setTopics id topics)
    let (result, publisher) := p.publisher.setTopics topics outcome
    (result, { p with publisher, line := some line }, n)
  | _, _ => (.error .notRegistered, p, n)

/-- Leaves the line and the feed. -/
def release (p : Publishing) (n : Network) : Publishing × Network :=
  let n := match p.line with
    | some line => n.hangUp line.plug
    | none => n
  let n := match p.feed with
    | some (station, _) => n.stop station
    | none => n
  ({ p with line := none, feed := none }, n)

/-- Deregisters for good; nothing happens unless the publisher is registered. -/
def deregister (p : Publishing) (n : Network) : Except Error Unit × Publishing × Network :=
  match p.publisher.id?, p.line with
  | some id, some line =>
    let (outcome, line, n) := n.perform line (Call.deregister id)
    let (result, publisher) := p.publisher.deregister outcome
    let (p, n) := { p with publisher, line := some line : Publishing }.release n
    (result, p, n)
  | _, _ => (.ok (), p, n)

end Publishing

/-! ### Observers -/

namespace Observing

/-- Subscribes to the snapshots, then asks for the current one. -/
def connect (o : Observing) (n : Network) : Except Error Unit × Observing × Network :=
  let c := o.observer.config
  match o.observer.connectFault? with
  | some e => (.error e, o, n)
  | none =>
    match n.subscribe c.broadcastEndpoint [Directory.label] c.messageSize.toNat with
    | (.error fault, n) => (.error (.link fault), o, n)
    | (.ok inlet, n) =>
      match n.dial c with
      | (.error e, n) => (.error e, o, n.hangUp inlet)
      | (.ok line, n) =>
        let (outcome, line, n) := n.perform line Call.snapshot
        match o.observer.connect outcome with
        | (.error e, observer) =>
          (.error e, { o with observer }, (n.hangUp inlet).hangUp line.plug)
        | (.ok (), observer) =>
          (.ok (), { o with observer, inlet := some inlet, line := some line }, n)

/-- Leaves the subscription and the line. -/
def release (o : Observing) (n : Network) : Observing × Network :=
  let n := match o.inlet with
    | some inlet => n.hangUp inlet
    | none => n
  let n := match o.line with
    | some line => n.hangUp line.plug
    | none => n
  ({ o with inlet := none, line := none, heard := false }, n)

/-- Disconnects. -/
def disconnect (o : Observing) (n : Network) : Except Error Unit × Observing × Network :=
  let (result, observer) := o.observer.disconnect
  let (o, n) := { o with observer : Observing }.release n
  (result, o, n)

end Observing

/-! ### Subscribers -/

/-- A subscriber and its subscription. -/
structure Subscribing where
  subscriber : Client.Subscriber
  inlet : Plug
deriving DecidableEq, Repr

namespace Subscribing

/-- Subscribes to topics of a publisher. -/
def connect (n : Network) (c : Config.Client) (publisher : Record) (topics : List String) :
    Except Error Subscribing × Network :=
  let limit := c.messageSize.toNat
  match Client.Subscriber.endpoint publisher topics with
  | .error e => (.error e, n)
  | .ok e =>
    match n.subscribe e topics limit with
    | (.error fault, n) => (.error (.link fault), n)
    | (.ok inlet, n) => (.ok ⟨⟨limit, publisher, topics⟩, inlet⟩, n)

/-- Takes the next message, if it has come. -/
def take (s : Subscribing) (n : Network) : Option (Except Error (String × String)) × Network :=
  n.readAt s.inlet s.subscriber.receive

/-- Takes the next message, and waits for it unless it has come; there is no result if none comes.
-/
def receive (s : Subscribing) (n : Network) :
    Option (Except Error (String × String)) × Network :=
  match s.take n with
  | (some result, n) => (some result, n)
  | (none, n) => s.take (n.waitFor fun n => (s.take n).1.isSome)

end Subscribing

end TopicDirectory.Network
