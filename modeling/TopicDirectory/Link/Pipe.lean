/-!
# Connections

A connection is two pipes, one in either direction.  What is written to a pipe is read from it in
the same order; once it is closed nothing is added to it, and what is in it can still be read.
-/

namespace TopicDirectory

/-- One direction of a connection: the octets on their way, and whether no more will come. -/
structure Pipe where
  unread : List UInt8 := []
  closed : Bool := false
deriving DecidableEq, Repr, Inhabited

namespace Pipe

/-- Adds octets, unless the pipe is closed. -/
def write (p : Pipe) (octets : List UInt8) : Pipe :=
  if p.closed then p else { p with unread := p.unread ++ octets }

/-- Says that no more will come. -/
def close (p : Pipe) : Pipe := { p with closed := true }

@[simp] theorem unread_write (p : Pipe) (octets : List UInt8) :
    (p.write octets).unread = if p.closed then p.unread else p.unread ++ octets := by
  unfold write; split <;> rfl

@[simp] theorem closed_write (p : Pipe) (octets : List UInt8) :
    (p.write octets).closed = p.closed := by
  unfold write; split <;> rfl

end Pipe

/-- A connection between the party that was called, the host, and the caller, its guest. -/
structure Link where
  toHost : Pipe := {}
  toGuest : Pipe := {}
deriving DecidableEq, Repr, Inhabited

/-- The connection after one of the parties has left it. -/
def Link.close (l : Link) : Link := ⟨l.toHost.close, l.toGuest.close⟩

end TopicDirectory
