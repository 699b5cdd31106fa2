import TopicDirectory.Feed.Basic
import TopicDirectory.Wire.Error

/-!
# Broadcasting snapshots

Snapshots go to the observers of a directory as messages of one label, and it is counted how many
went out and how long they were.
-/

namespace TopicDirectory.Directory

/-- The label of the messages that carry snapshots. -/
def label : String := "DIR"

/-- What was broadcast so far. -/
structure Statistics where
  snapshots : UInt64 := 0
  octets : UInt64 := 0
  encodeErrors : UInt64 := 0
deriving DecidableEq, Repr

/-- A feed of snapshots. -/
structure Broadcaster where
  feed : Feed
  statistics : Statistics := {}
deriving DecidableEq, Repr

namespace Broadcaster

/-- A broadcaster without observers. -/
def new (limit capacity : Nat) : Broadcaster := { feed := .new limit capacity }

/-- Sends a snapshot and says for how many observers it is kept. -/
def publish (b : Broadcaster) (s : Snapshot) : Nat × Broadcaster :=
  let payload := Wire.encodeSnapshot s
  let (n, feed) := b.feed.send ⟨label, payload⟩
  (n, { feed, statistics := { b.statistics with
    snapshots := b.statistics.snapshots + 1
    octets := b.statistics.octets + UInt64.ofNat payload.length } })

end Broadcaster

end TopicDirectory.Directory
