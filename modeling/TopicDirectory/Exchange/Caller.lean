import TopicDirectory.Link.Frame

/-!
# Making requests

A caller writes a request and takes the next frame of the connection for its answer.  After any
failure a late answer could be taken for the answer to another request, so a caller that has failed
once refuses every further request (`broken`).
-/

namespace TopicDirectory.Exchange

open Link (Fault)

/-- The calling side of an exchange. -/
structure Caller where
  limit : Nat
  broken : Bool := false
deriving DecidableEq, Repr

namespace Caller

/-- The caller after a failure. -/
def fail (c : Caller) : Caller := { c with broken := true }

/-- Writes a request. -/
def post (c : Caller) (l : Link) (request : List UInt8) : Except Fault Unit × Caller × Link :=
  if c.broken then (.error .closed, c, l)
  else match Frame.write c.limit request with
    | .error fault => (.error fault, c.fail, l)
    | .ok frame =>
      if l.toHost.closed then (.error (.system .reset), c.fail, l)
      else (.ok (), c, { l with toHost := l.toHost.write frame })

/-- Takes the answer to the request that was written, when its time has come or run out. -/
def collect (c : Caller) (l : Link) : Except Fault (List UInt8) × Caller × Link :=
  match Frame.expect c.limit l.toGuest with
  | none => (.error .timeout, c.fail, l)
  | some (.ok reply, rest) => (.ok reply, c, { l with toGuest := rest })
  | some (.error fault, rest) => (.error fault, c.fail, { l with toGuest := rest })

/-- A caller that has failed writes nothing. -/
theorem post_of_broken {c : Caller} (h : c.broken = true) (l : Link) (request : List UInt8) :
    c.post l request = (.error .closed, c, l) := by
  simp [post, h]

end Caller

end TopicDirectory.Exchange
