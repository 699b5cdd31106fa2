import TopicDirectory.Directory.Server
import TopicDirectory.Proofs.Service.Log

/-!
# A directory and whoever writes to it

A running directory, any number of guests that write octets to it and take octets from it, and a log
of the requests that were dealt with (`Reception`).  A guest need not wait for the reply to one
request before it writes the next one, nor write whole frames at a time; the host takes its steps at
any time in between.  Whatever one of them can do next is a `Move`, and one that is not possible
changes nothing.
-/

namespace TopicDirectory

open Directory (Server)
open Exchange (Action Desk Peer)

namespace Reception

/-- What a guest has written and what it has taken, and whether it has done nothing else with its
connection. -/
structure Guest where
  sent : List UInt8 := []
  got : List UInt8 := []
  steady : Bool := true
deriving DecidableEq

/-- A request that was dealt with, the guest whose it was, and the reply to it. -/
structure Deal where
  guest : Nat
  request : List UInt8
  reply : List UInt8
deriving DecidableEq

end Reception

/-- A directory, its guests by the number of their peer, and what was dealt with. -/
structure Reception where
  server : Server
  guests : List Reception.Guest := []
  log : List Reception.Deal := []

namespace Reception

/-- What can be done next. -/
inductive Move
  /-- A guest connects. -/
  | call
  /-- A guest writes octets. -/
  | send (i : Nat) (octets : List UInt8)
  /-- A guest takes octets that have come, so many at most. -/
  | take (i n : Nat)
  /-- A guest does something else with its connection, and leaves it in some state. -/
  | stray (i : Nat) (l : Link)
  /-- The directory takes a step. -/
  | serve (a : Action)
  /-- Something becomes of the feed of the snapshots. -/
  | feed (f : Feed)

/-- A directory that has just been started. -/
def new (c : Config.Server) : Reception := { server := .new c }

/-- What a guest does. -/
def act (r : Reception) (i : Nat) (f : Guest → Link → Guest × Link) : Reception :=
  match r.guests[i]?, r.server.host.peers[i]? with
  | some g, some p =>
    { r with
      server.host := r.server.host.set i { p with link := (f g p.link).2 }
      guests := r.guests.set i (f g p.link).1 }
  | _, _ => r

/-- Writes octets. -/
def Guest.send (octets : List UInt8) (g : Guest) (l : Link) : Guest × Link :=
  ({ g with sent := g.sent ++ octets }, { l with toHost := l.toHost.write octets })

/-- Takes octets that have come. -/
def Guest.take (n : Nat) (g : Guest) (l : Link) : Guest × Link :=
  ({ g with got := g.got ++ l.toGuest.unread.take n },
    { l with toGuest.unread := l.toGuest.unread.drop n })

/-- What was taken and what was not are together what had come. -/
theorem Guest.got_take (n : Nat) (g : Guest) (l : Link) :
    (g.take n l).1.got ++ (g.take n l).2.toGuest.unread = g.got ++ l.toGuest.unread := by
  show g.got ++ l.toGuest.unread.take n ++ l.toGuest.unread.drop n = _
  rw [List.append_assoc, List.take_append_drop]

/-- Does something else with the connection. -/
def Guest.stray (l : Link) (g : Guest) (_ : Link) : Guest × Link := ({ g with steady := false }, l)

/-- What is dealt with in a step of the directory. -/
def dealt (s : Server) : Action → List Deal
  | .dispatch =>
    match s.host.queue with
    | [] => []
    | (i, request) :: _ => [⟨i, request, (Directory.dispatch s.state.registry request).reply.encode⟩]
  | _ => []

/-- A step of the directory. -/
def serve (r : Reception) (a : Action) : Reception :=
  match Desk.step? Directory.respond r.server a with
  | some server => { r with server, log := r.log ++ dealt r.server a }
  | none => r

/-- Makes a move, if it can be made. -/
def step (r : Reception) : Move → Reception
  | .call => { r with server.host := r.server.host.call.1, guests := r.guests ++ [{}] }
  | .send i octets => r.act i (Guest.send octets)
  | .take i n => r.act i (Guest.take n)
  | .stray i l => r.act i (Guest.stray l)
  | .serve a => r.serve a
  | .feed f => { r with server := r.server.withFeed f }

/-- Makes moves one after the other. -/
def run (r : Reception) (ms : List Move) : Reception := ms.foldl step r

/-- What was dealt with of a guest's requests, in order. -/
def deals (r : Reception) (i : Nat) : List Deal := r.log.filter fun d => d.guest = i

theorem dealt_of_ne (s : Server) (a : Action) (h : a ≠ .dispatch) : dealt s a = [] := by
  cases a with
  | dispatch => exact absurd rfl h
  | _ => rfl

end Reception

end TopicDirectory
