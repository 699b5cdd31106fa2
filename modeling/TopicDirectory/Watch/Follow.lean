import TopicDirectory.Snapshot

/-!
# Following publishers

Which publishers of a topic are followed after a snapshot: those followed before that declare the
topic still and have not finished go on, the others are stopped, and every other publisher that
declares the topic is followed anew.
-/

namespace TopicDirectory.Watch

variable {τ σ : Type}

/-- Whether a follower goes on after a snapshot. -/
def goesOn (finished : τ → Bool) (s : Snapshot) (topic : String) (id : UInt32) (t : τ) : Bool :=
  (s.get? id).any (fun r => r.hasTopic topic) && !finished t

/-- The followers that go on after a snapshot. -/
def kept (finished : τ → Bool) (followers : IdMap τ) (s : Snapshot) (topic : String) : IdMap τ :=
  followers.filter (goesOn finished s topic)

/-- The followers that do not go on. -/
def dropped (finished : τ → Bool) (followers : IdMap τ) (s : Snapshot) (topic : String) : List τ :=
  (followers.filter fun id t => !goesOn finished s topic id t).values

/-- Follows a publisher, unless it has no id or is followed already. -/
def begin (start : Record → σ → τ × σ) (acc : IdMap τ × σ) (r : Record) : IdMap τ × σ :=
  match r.id with
  | none => acc
  | some id =>
    if acc.1.contains id then acc
    else
      let (t, world) := start r acc.2
      (acc.1.insert id t, world)

/-- The followers after a snapshot; stopping and starting them changes the world. -/
def follow (finished : τ → Bool) (stop : τ → σ → σ) (start : Record → σ → τ × σ)
    (followers : IdMap τ) (s : Snapshot) (topic : String) (world : σ) : IdMap τ × σ :=
  let world := (dropped finished followers s topic).foldl (fun world t => stop t world) world
  (s.withTopic topic).foldl (begin start) (kept finished followers s topic, world)

end TopicDirectory.Watch
