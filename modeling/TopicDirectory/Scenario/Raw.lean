import TopicDirectory.Exchange.Script
import TopicDirectory.Feed.Subscription

/-!
# Conversations with parties of any behaviour

One caller or one host of this library, and on the other side of the connection a party that sends
octets of any kind.
-/

namespace TopicDirectory.Scenario

open Exchange (Playback)

/-- What a subscription came to: the greeting that the other party read, whether the subscription
was admitted, and what can be read from it. -/
structure Greeted where
  greeting : Option (List UInt8)
  result : Except Link.Fault Unit
  inlet : Pipe

/-- Greets a party that reads one frame, writes octets, and closes unless it is to be silent. -/
def greet (limit : Nat) (stems : List String) (octets : List UInt8) (silent : Bool) : Greeted :=
  match Subscription.greet limit {} stems with
  | .error fault => ⟨none, .error fault, {}⟩
  | .ok l =>
    let (p, l) := Playback.react { portions := [some octets] } l
    let l := if silent then l else l.close
    let (result, l) := Subscription.admitted limit l
    ⟨p.seen.head?, result, l.toGuest⟩

/-- What a party has read from a feed: the frames, whether it saw the end, and for how many
attachments each message was kept. -/
structure Attached where
  frames : List (List UInt8)
  ended : Bool
  kept : List Nat

/-- Sends messages one after the other without a wait. -/
def sendAll (f : Feed) : List Message → List Nat × Feed
  | [] => ([], f)
  | m :: ms =>
    let (count, f) := f.send m
    let (counts, f) := sendAll f ms
    (count :: counts, f)

/-- The pipe to the only attachment of a feed. -/
def onlyInlet (f : Feed) : Pipe :=
  match f.attachments with
  | a :: _ => a.link.toGuest
  | [] => {}

/-- Attaches a party that writes octets, and closes its writing side if `halfClosed`.  If it is
admitted, `messages` and then `last` are sent at once, and it reads up to the payload of the last.
-/
def attach (limit capacity : Nat) (octets : List UInt8) (halfClosed : Bool)
    (messages : Option (List Message)) (last : Message) : Attached :=
  let toHost : Pipe := { unread := octets, closed := halfClosed }
  let f := { Feed.new limit capacity with attachments := [{ link := { toHost } }] }.settle
  let (admitted, inlet) := Playback.drain (onlyInlet f)
  match messages, admitted with
  | none, _ | _, [] => ⟨admitted, inlet.closed, []⟩
  | some messages, _ :: _ =>
    let (kept, f) := sendAll f messages
    let f := (f.send last).2.settle
    let (frames, _) := Playback.drain (onlyInlet f)
    let upToLast := frames.takeWhile (· ≠ last.payload)
    ⟨upToLast, upToLast.length = frames.length, kept⟩

end TopicDirectory.Scenario
