import TopicDirectory.Client.Calls
import TopicDirectory.Config.Client
import TopicDirectory.Feed.Subscription
import TopicDirectory.Network.Turn

/-!
# Calls through a network

Connections to the commands of a directory, and subscriptions to a feed.  What has not come after
the longest wait does not come in time.
-/

namespace TopicDirectory.Network

open Client (Call Error)
open Link (Fault)

/-- Makes a request and waits for its answer. -/
def request (n : Network) (line : Line) (octets : List UInt8) :
    Except Fault (List UInt8) × Line × Network :=
  match line.caller.post (n.link line.plug) octets with
  | (.error fault, caller, l) => (.error fault, { line with caller }, n.setLink line.plug l)
  | (.ok (), caller, l) =>
    let answered (n : Network) : Bool :=
      (Frame.expect caller.limit (n.link line.plug).toGuest).isSome
    let n := (n.setLink line.plug l).waitFor answered
    let (result, caller, l) := caller.collect (n.link line.plug)
    (result, { line with caller }, n.setLink line.plug l)

/-- Makes a call and reads its answer. -/
def perform {α : Type} (n : Network) (line : Line) (c : Call α) :
    Except Error α × Line × Network :=
  let (result, line, n) := n.request line c.request
  (c.result result, line, n)

/-- Connects to the commands of the configured directory. -/
def dial (n : Network) (c : Config.Client) : Except Error Line × Network :=
  match c.validate with
  | .error fault => (.error (.config fault), n)
  | .ok () =>
    match n.reach c.commandEndpoint with
    | (.error fault, n) => (.error (.link fault), n)
    | (.ok plug, n) => (.ok ⟨plug, { limit := c.messageSize.toNat }⟩, n)

/-- Subscribes to a feed. -/
def subscribe (n : Network) (e : Endpoint) (stems : List String) (limit : Nat) :
    Except Fault Plug × Network :=
  match n.reach e with
  | (.error fault, n) => (.error fault, n)
  | (.ok plug, n) =>
    match Subscription.greet limit (n.link plug) stems with
    | .error fault => (.error fault, n.hangUp plug)
    | .ok l =>
      let answered (n : Network) : Bool := (Frame.expect limit (n.link plug).toGuest).isSome
      let n := (n.setLink plug l).waitFor answered
      match Subscription.admitted limit (n.link plug) with
      | (.ok (), l) => (.ok plug, n.setLink plug l)
      | (.error fault, _) => (.error fault, n.hangUp plug)

end TopicDirectory.Network
