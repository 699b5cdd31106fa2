import TopicDirectory.Proofs.Service.Serving
import TopicDirectory.Wire.Command

/-!
# The directory is linearizable

Any number of clients call one directory at the same time, and their requests, the answers, the queue
and the loop get in each other's way in any order.  All the same the calls come to what they would
have come to one after the other, in an order that agrees with that in which they were made
(`linearizable_run`).
-/

namespace TopicDirectory.Service

/-- **The directory is linearizable.**  Whatever moves are made after its start, and in whatever
order, the log is that of one run of the directory, and its registry is what that run leaves.  This
is so for every client whose frames can be read again, as the four octets of their length hold it,
whatever the others write. -/
theorem linearizable_run (c : Config.Server) (ms : List Move) :
    Linearizable (Framed ((new c).run ms)) ((new c).run ms).log ∧
      ((new c).run ms).server.state.registry = registryAfter ((new c).run ms).log := by
  have hsane : Sane ((new c).run ms) := (sane_new c).run ms
  have horderly : ∀ i, Framed ((new c).run ms) i → Orderly i ((new c).run ms).log := by
    intro i hframed
    exact ((tracks_new c i).run (sane_new c) hframed).orderly
  exact ⟨.of_orderly horderly hsane.replies, hsane.registry⟩

/-- Two clients call at the same time for one address, and the one that comes second gives up and
leaves. -/
def sampleMoves : List Move :=
  let request := (Wire.Command.register ⟨none, "tcp://h:1", "p", ["t"]⟩).encode
  [.join 200, .join 300, .accept 1, .accept 0, .issue 0 request, .issue 1 request, .read 1, .read 0,
    .enqueue 0, .enqueue 1, .dispatch, .dispatch, .write 0, .broadcast, .collect 0, .dispatch,
    .issue 0 (Wire.Command.deregister 0).encode, .timeOut 1, .write 1, .read 0, .enqueue 0, .dispatch,
    .write 0, .hangUp 1, .broadcast, .collect 0]

theorem linearizable_run_sampleMoves :
    (∀ i < ((new {}).run sampleMoves).clients.length, Framed ((new {}).run sampleMoves) i) ∧
      (Linearizable (Framed ((new {}).run sampleMoves)) ((new {}).run sampleMoves).log ∧
        ((new {}).run sampleMoves).server.state.registry
          = registryAfter ((new {}).run sampleMoves).log) ∧
      ((new {}).run sampleMoves).log.length = 8 :=
  ⟨by decide +kernel, linearizable_run {} sampleMoves, by decide +kernel⟩

end TopicDirectory.Service
