import TopicDirectory.Client.Observer
import TopicDirectory.Exchange.Caller
import TopicDirectory.Network.Station

/-!
# Guests

What those who call the stations of a network hold: a plug for every connection, a line for
requests, and an observer with its two connections.
-/

namespace TopicDirectory.Network

/-- The caller's end of a connection: the station called, the side, and the number there. -/
structure Plug where
  station : Nat
  side : Side
  number : Nat
deriving DecidableEq, Repr

/-- A connection for requests. -/
structure Line where
  plug : Plug
  caller : Exchange.Caller
deriving DecidableEq, Repr

/-- An observer, its subscription and its line to the directory while it is connected, and whether
its listener has learnt that something has come. -/
structure Observing where
  observer : Client.Observer
  inlet : Option Plug := none
  line : Option Line := none
  heard : Bool := false
deriving DecidableEq

end TopicDirectory.Network
