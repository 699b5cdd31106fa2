import TopicDirectory.Directory.Server
import TopicDirectory.Exchange.Caller
import TopicDirectory.Proofs.Service.Log

/-!
# A directory among its clients

A running directory, any number of clients that call it, each over a connection of its own, and a
log of what happens to their calls (`Service`).  Whatever one of the parties can do next is a `Move`,
and moves can be made in any order; one that is not possible changes nothing.

The loop of the directory deals with a request in two moves: `dispatch` carries the request out and
hands the answer over, and if the registry has changed the new snapshot is `due` until `broadcast`
gives it out.  Together they are what the loop does with a request (`step?_dispatch`).  The host of
the connections takes its other steps at any time in between, and so do the clients, the feed and
those who are attached to it.
-/

namespace TopicDirectory

open Directory (Server dispatch)
open Exchange (Caller Desk Host Peer)

namespace Service

/-- A client: its caller, and whether one of its calls is under way. -/
structure Client where
  caller : Caller
  waiting : Bool := false
deriving DecidableEq

namespace Client

/-- Makes a call, unless another one is under way. -/
def issue (t : Ticket) (request : List UInt8) (c : Client) (l : Link) :
    Client × Link × List Event :=
  if c.waiting then (c, l, [])
  else
    let (result, caller, l) := c.caller.post l request
    (⟨caller, result.isOk⟩, l, [.issued t request])

/-- Ends the call that is under way with the answer that has come, or without one. -/
def collect (t : Ticket) (c : Client) (l : Link) : Client × Link × List Event :=
  if c.waiting then
    match c.caller.collect l with
    | (.ok reply, caller, l) => (⟨caller, false⟩, l, [.returned t reply])
    | (.error _, caller, l) => (⟨caller, false⟩, l, [])
  else (c, l, [])

/-- Gives up the call that is under way because its time has run out. -/
def timeOut (c : Client) (l : Link) : Client × Link × List Event :=
  if c.waiting then (⟨c.caller.fail, false⟩, l, []) else (c, l, [])

/-- Leaves the connection. -/
def hangUp (c : Client) (l : Link) : Client × Link × List Event :=
  (⟨c.caller.fail, false⟩, l.close, [])

end Client

end Service

/-- A directory, whether a snapshot is due to be broadcast, the clients by the number of their peer,
and what has happened to their calls. -/
structure Service where
  server : Server
  due : Bool := false
  clients : List Service.Client := []
  log : List Service.Event := []

namespace Service

/-- What can be done next. -/
inductive Move
  /-- A client connects. -/
  | join (limit : Nat)
  /-- A client makes a call. -/
  | issue (i : Nat) (request : List UInt8)
  /-- A client takes the answer, or finds that there is none. -/
  | collect (i : Nat)
  /-- A client's time runs out. -/
  | timeOut (i : Nat)
  /-- A client leaves. -/
  | hangUp (i : Nat)
  /-- The host takes in a client. -/
  | accept (i : Nat)
  /-- The host reads what a client has written. -/
  | read (i : Nat)
  /-- The host puts the request of a client into the queue. -/
  | enqueue (i : Nat)
  /-- The host writes an answer. -/
  | write (i : Nat)
  /-- The loop deals with the oldest request of the queue and hands over the answer. -/
  | dispatch
  /-- The loop broadcasts the snapshot that is due. -/
  | broadcast
  /-- Somebody calls the feed of the snapshots. -/
  | attach
  /-- The feed takes a step. -/
  | feed (a : Feed.Action)
  /-- Somebody who is attached to the feed does something with the connection. -/
  | attend (j : Nat) (l : Link)

/-- What a client does. -/
def act (s : Service) (i : Nat) (f : Client → Link → Client × Link × List Event) : Service :=
  match s.clients[i]?, s.server.host.peers[i]? with
  | some c, some p =>
    let (c, link, events) := f c p.link
    { s with
      server.host := s.server.host.set i { p with link }
      clients := s.clients.set i c
      log := s.log ++ events }
  | _, _ => s

/-- A step of the host. -/
def serve (s : Service) (f : Host → Option Host) : Service :=
  match f s.server.host with
  | some host => { s with server.host := host }
  | none => s

/-- What the feed, or somebody attached to it, does. -/
def attend (s : Service) (f : Feed → Option Feed) : Service :=
  match f s.server.feed with
  | some feed => { s with server := s.server.withFeed feed }
  | none => s

/-- The directory with the oldest request of its queue dealt with. -/
def dispatch (s : Service) : Service :=
  if s.due then s
  else
    match s.server.host.take? with
    | none => s
    | some ((i, request), host) =>
      let outcome := Directory.dispatch s.server.state.registry request
      let reply := outcome.reply.encode
      { s with
        server.host := host.hand i (.reply reply)
        server.state.registry := outcome.registry s.server.state.registry
        due := outcome.changed.isSome
        log := s.log ++ [.dispatched ⟨i, (deals s.log i).length⟩ request reply] }

/-- The directory with the snapshot that is due given out. -/
def broadcast (s : Service) : Service :=
  if s.due then
    let snapshot := s.server.state.registry.snapshot
    { s with
      server.state.broadcaster := (s.server.state.broadcaster.publish snapshot).2
      server.state.published := snapshot
      due := false }
  else s

/-- Makes a move, if it can be made. -/
def step (s : Service) : Move → Service
  | .join limit =>
    { s with
      server.host := s.server.host.call.1
      clients := s.clients ++ [{ caller := { limit } }] }
  | .issue i request => s.act i (Client.issue ⟨i, (asks s.log i).length⟩ request)
  | .collect i => s.act i (Client.collect ⟨i, (asks s.log i).length - 1⟩)
  | .timeOut i => s.act i Client.timeOut
  | .hangUp i => s.act i Client.hangUp
  | .accept i => s.serve (·.accept? i)
  | .read i => s.serve (·.read? i)
  | .enqueue i => s.serve (·.enqueue? i)
  | .write i => s.serve (·.write? i)
  | .dispatch => s.dispatch
  | .broadcast => s.broadcast
  | .attach => s.attend fun f => some f.call.1
  | .feed a => s.attend (·.step? a)
  | .attend j l => s.attend fun f => f.attachments[j]?.map fun a => f.set j { a with link := l }

/-- Makes moves one after the other. -/
def run (s : Service) (ms : List Move) : Service := ms.foldl step s

/-- A directory that has just been started. -/
def new (c : Config.Server) : Service := { server := .new c }

/-- The two moves of the loop are what the loop does with a request. -/
theorem step?_dispatch {s : Service} (hdue : s.due = false)
    (hlistening : s.server.host.listening = true) :
    s.dispatch.broadcast.server
      = (s.server.step? Directory.respond .dispatch).getD s.server := by
  rw [dispatch, Desk.step?, hdue, if_pos hlistening]
  cases htake : s.server.host.take? with
  | none => simp [broadcast, hdue]
  | some taken =>
    obtain ⟨⟨i, request⟩, host⟩ := taken
    cases hchanged : (Directory.dispatch s.server.state.registry request).changed with
    | none => simp [broadcast, Directory.respond, Directory.Outcome.registry, hchanged]
    | some r => simp [broadcast, Directory.respond, Directory.Outcome.registry, hchanged]

end Service

end TopicDirectory
