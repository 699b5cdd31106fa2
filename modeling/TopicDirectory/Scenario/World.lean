import TopicDirectory.Network.Launch
import TopicDirectory.Network.Parties
import TopicDirectory.Serve.Arguments
import TopicDirectory.Watch.Run

/-!
# Worlds

A network together with the parties of a scenario, each under a name.  Watch tools are programs of
their own: they work while somebody waits for longer than the network needs, and `settle` plays
rounds until what one party has set going has reached every other.
-/

namespace TopicDirectory.Scenario

/-- Values under names, in the order in which the names came. -/
abbrev Table (α : Type) := List (String × α)

namespace Table

variable {α : Type}

/-- The value under a name. -/
def get? (t : Table α) (name : String) : Option α := t.lookup name

/-- The table with a value put under a name, in place of one that is there. -/
def put (t : Table α) (name : String) (v : α) : Table α :=
  if (t.get? name).isSome then t.map fun e => if e.1 = name then (name, v) else e
  else t ++ [(name, v)]

/-- The table without a name. -/
def erase (t : Table α) (name : String) : Table α := t.filter fun e => e.1 ≠ name

end Table

/-- A station that has one port. -/
structure Post where
  station : Nat
  port : UInt16
deriving DecidableEq, Repr

/-- A watch tool that was started, and how many of its lines have been read; there is no tool behind
a command line that it could not use. -/
structure Tool where
  watch : Option Watch
  usage : CommandLine.Reading
  outputRead : Nat := 0
  noticesRead : Nat := 0

/-- A network and the parties of a scenario. -/
structure World where
  network : Network := {}
  servers : Table Network.Launched := []
  clients : Table Network.Line := []
  scripts : Table Post := []
  feeds : Table Post := []
  publishers : Table Network.Publishing := []
  subscribers : Table Network.Subscribing := []
  observers : Table Nat := []
  tools : Table Tool := []

namespace World

/-- Changes the tool under a name. -/
def changeTool (w : World) (name : String) (t : Tool)
    (change : Watch → Network → Watch × Network) : World :=
  match t.watch with
  | none => w
  | some watch =>
    let (watch, network) := change watch w.network
    { w with network, tools := w.tools.put name { t with watch := some watch } }

/-- Lets every tool deal with what has come. -/
def letToolsWork (w : World) : World :=
  w.tools.foldl (fun w (name, t) => w.changeTool name t Watch.advance) w

/-- Lets every party deal with what has come. -/
def round (w : World) : World := { w with network := w.network.settle }.letToolsWork

/-- Plays so many rounds. -/
def rounds : Nat → World → World
  | 0, w => w
  | n + 1, w => rounds n w.round

/-- Waits until nothing is left to do: what a station has set going goes to a tool and from there
back to stations, and no further. -/
def settle (w : World) : World :=
  if w.tools.isEmpty then { w with network := w.network.settle } else rounds 4 w

end World

end TopicDirectory.Scenario
