import TopicDirectory.Directory.Server

/-!
# A directory with one caller

The caller's octets come portion by portion, and after each portion the directory has given every
answer it can give.
-/

namespace TopicDirectory.Serve

open Directory (Server)

/-- A directory that its one caller has just called. -/
def openSession (c : Config.Server) : Server :=
  let s := Server.new c
  { s with host := s.host.call.1 }

/-- Changes the connection of the caller. -/
def changeLink (change : Link → Link) (s : Server) : Server :=
  { s with host.peers := s.host.peers.modify 0 fun p => { p with link := change p.link } }

/-- What the directory has written to the caller. -/
def written (s : Server) : List UInt8 :=
  match s.host.peers with
  | p :: _ => p.link.toGuest.unread
  | [] => []

/-- The answers to a portion of octets, and the directory afterwards. -/
def take (s : Server) (octets : List UInt8) : List UInt8 × Server :=
  let arrive (l : Link) : Link := { l with toHost := l.toHost.write octets }
  let s := (changeLink arrive s : Server).settle
  (written s, changeLink (fun l => { l with toGuest.unread := [] }) s)

/-- Whether the directory has left its caller. -/
def hasLeft (s : Server) : Bool := s.host.peers.all fun p => p.phase = .gone

end TopicDirectory.Serve
