import TopicDirectory.Client.Error
import TopicDirectory.Config.Client
import TopicDirectory.Directory.Broadcaster
import TopicDirectory.Link.Frame

/-!
# Observers

An observer holds a copy of the directory.  Once it is connected a listener takes the snapshots
that are broadcast; it passes over those that are not newer than the copy, and over payloads that
cannot be read, and stops at a label that is not that of snapshots or when the connection is lost.
Every snapshot that the observer comes to hold is handed to its owner, in order (`handed`).
-/

namespace TopicDirectory.Client

open Link (Fault)

/-- The listener of a connected observer: the copy it holds, and whether it goes on. -/
structure Listener where
  held : Snapshot
  running : Bool := true
deriving DecidableEq

/-- What a listener reads from the broadcast. -/
inductive Heard
  | snapshot (s : Snapshot)
  | unreadable (fault : Wire.Fault)
  | foreign (label : String)
  | lost (fault : Fault)
deriving DecidableEq

namespace Heard

/-- What a payload of the label of snapshots says. -/
def ofPayload (payload : List UInt8) : Heard :=
  match Wire.decodeSnapshot payload with
  | .ok s => snapshot s
  | .error fault => unreadable fault

/-- Takes the next message: `none` if more octets have to come first.  A foreign label is taken
without the payload that follows it. -/
def next (limit : Nat) (p : Pipe) : Option (Heard × Pipe) := do
  match ← Frame.expect limit p with
  | (.error fault, rest) => return (lost fault, rest)
  | (.ok label, rest) =>
    if label = Utf8.encode Directory.label then
      match ← Frame.expect limit rest with
      | (.error fault, rest) => return (lost fault, rest)
      | (.ok payload, rest) => return (ofPayload payload, rest)
    else return (foreign (Utf8.decodeLossy label), rest)

end Heard

namespace Listener

/-- What a listener does with what it has read, and the snapshot it hands over, if any. -/
def hear (l : Listener) : Heard → Listener × Option Snapshot
  | .snapshot s =>
    if l.held.generation < s.generation then ({ l with held := s }, some s) else (l, none)
  | .unreadable _ => (l, none)
  | .foreign _ | .lost _ => ({ l with running := false }, none)

/-- Reads on while there is something to read, at most `fuel` times; the snapshots that are handed
over come with the listener. -/
def run (limit : Nat) : Nat → Listener → Pipe → (Listener × List Snapshot) × Pipe
  | 0, l, p => ((l, []), p)
  | fuel + 1, l, p =>
    if l.running then
      match Heard.next limit p with
      | none => ((l, []), p)
      | some (heard, p) =>
        let (l, s) := l.hear heard
        let ((l, ss), p) := run limit fuel l p
        ((l, s.toList ++ ss), p)
    else ((l, []), p)

/-- Reads whatever has come; everything read but the end of the connection takes four octets. -/
def listen (limit : Nat) (l : Listener) (p : Pipe) : (Listener × List Snapshot) × Pipe :=
  run limit (p.unread.length + 1) l p

end Listener

/-- An observer: its listener while it is connected, and the snapshots handed over so far. -/
structure Observer where
  config : Config.Client
  listener : Option Listener := none
  handed : List Snapshot := []
deriving DecidableEq

namespace Observer

/-- What keeps the observer from connecting, if anything does. -/
def connectFault? (o : Observer) : Option Error :=
  if o.listener.isSome then some .alreadyConnected
  else o.config.invalid?.map fun cause => .config (.invalid cause)

/-- Connects, given what subscribing and asking the directory for its snapshot came to. -/
def connect (o : Observer) (outcome : Except Error Snapshot) : Except Error Unit × Observer :=
  match o.connectFault?, outcome with
  | some e, _ => (.error e, o)
  | none, .error e => (.error e, o)
  | none, .ok s => (.ok (), { o with listener := some { held := s }, handed := o.handed ++ [s] })

/-- Disconnects. -/
def disconnect (o : Observer) : Except Error Unit × Observer :=
  if o.listener.isSome then (.ok (), { o with listener := none })
  else (.error .notConnected, o)

/-- The copy that a connected observer holds. -/
def snapshot? (o : Observer) : Option Snapshot := o.listener.map (·.held)

/-- Whether the listener goes on. -/
def listening (o : Observer) : Bool := o.listener.any (·.running)

/-- Lets the listener read what has come on the broadcast connection. -/
def listen (o : Observer) (p : Pipe) : Observer × Pipe :=
  match o.listener with
  | none => (o, p)
  | some l =>
    let ((l, ss), p) := l.listen o.config.messageSize.toNat p
    ({ o with listener := some l, handed := o.handed ++ ss }, p)

end Observer

end TopicDirectory.Client
