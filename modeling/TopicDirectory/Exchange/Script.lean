import TopicDirectory.Exchange.Caller
import TopicDirectory.Exchange.Host

/-!
# Parties that follow a script

Stand-ins for the hosts that callers and subscribers have to cope with.  A `Script` answers the
requests of an exchange one after the other; a `Playback` writes octets of any kind, one portion for
each frame that it reads.
-/

namespace TopicDirectory.Exchange

/-- The answers still to be given, and the requests seen so far. -/
structure Script where
  answers : List Answer
  seen : List (List UInt8) := []
deriving DecidableEq, Repr

/-- Gives the next answer; when there is none left, requests are refused. -/
def Script.respond (s : Script) (request : List UInt8) : Answer × Script :=
  match s.answers with
  | [] => (.refuse, { s with seen := s.seen ++ [request] })
  | a :: answers => (a, ⟨answers, s.seen ++ [request]⟩)

/-- The portions still to be written, of which `none` stands for silence, the frames seen so far,
and whether the party has fallen silent. -/
structure Playback where
  portions : List (Option (List UInt8))
  seen : List (List UInt8) := []
  silent : Bool := false
deriving DecidableEq, Repr

namespace Playback

/-- The largest frame that is read. -/
def limit : Nat := UInt32.size

/-- Reads one frame, if there is one, and writes the next portion; with no portion left the
connection is closed. -/
def react (p : Playback) (l : Link) : Playback × Link :=
  if p.silent then (p, l)
  else match Frame.read limit l.toHost with
    | none => (p, l)
    | some (.ok (some frame), rest) =>
      let l := { l with toHost := rest }
      let seen := p.seen ++ [frame]
      match p.portions with
      | [] => ({ p with seen }, l.close)
      | some octets :: portions =>
        ({ p with portions, seen }, { l with toGuest := l.toGuest.write octets })
      | none :: portions => ({ portions, seen, silent := true }, l)
    | some (_, _) => (p, l.close)

/-- Takes at most `fuel` frames from a pipe. -/
def drainWithin : Nat → Pipe → List (List UInt8) × Pipe
  | 0, p => ([], p)
  | fuel + 1, p =>
    match Frame.read limit p with
    | some (.ok (some frame), rest) =>
      let (frames, rest) := drainWithin fuel rest
      (frame :: frames, rest)
    | _ => ([], p)

/-- Takes every frame that has come. -/
def drain (p : Pipe) : List (List UInt8) × Pipe := drainWithin p.unread.length p

/-- The requests of one caller answered by the playback. -/
def converse : Playback → Caller → Link → List (List UInt8) →
    List (Except Link.Fault (List UInt8)) × Playback
  | p, _, _, [] => ([], p)
  | p, c, l, request :: requests =>
    match c.post l request with
    | (.error fault, c, l) =>
      let (results, p) := converse p c l requests
      (.error fault :: results, p)
    | (.ok (), c, l) =>
      let (p, l) := p.react l
      let (result, c, l) := c.collect l
      let (results, p) := converse p c l requests
      (result :: results, p)

end Playback

end TopicDirectory.Exchange
