import TopicDirectory.Network.Turn

/-!
# Starting directories on a network
-/

namespace TopicDirectory.Network

open Directory (StartError)

/-- Where a directory can be found on a network. -/
structure Launched where
  station : Nat
  commandPort : UInt16
  broadcastPort : UInt16
deriving DecidableEq, Repr

/-- Starts a directory with its two ports; if one of them cannot be had, it keeps neither. -/
def launch (n : Network) (c : Config.Server) : Except StartError Launched × Network :=
  match c.validate with
  | .error fault => (.error (.config fault), n)
  | .ok () =>
    match n.listen c.commandEndpoint .commands (.directory (.new c)) with
    | (.error fault, n) => (.error (.bind c.commandEndpoint fault), n)
    | (.ok (station, commandPort), n) =>
      match n.bind c.broadcastEndpoint station .broadcasts with
      | (.error fault, n) => (.error (.bind c.broadcastEndpoint fault), n.stop station)
      | (.ok broadcastPort, n) => (.ok ⟨station, commandPort, broadcastPort⟩, n)

/-- The directory of a station. -/
def directory? (n : Network) (station : Nat) : Option Directory.Server :=
  match n.stations[station]? with
  | some (.directory s) => some s
  | _ => none

end TopicDirectory.Network
