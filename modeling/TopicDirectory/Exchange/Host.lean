import TopicDirectory.Link.Frame

/-!
# Answering requests

The host of an exchange takes requests from any number of peers into one queue and answers them
one by one.  Every atomic step that can be taken is an `Action`; a peer's next request is read
only after the answer to the one before has been written (`Phase`), so requests and answers
alternate on each connection whatever the order of the steps.  A host learns only by and by what has
come on its connections (`look`); in a `turn` it takes the steps that what it has learnt allows.
-/

namespace TopicDirectory.Exchange

/-- Where the exchange with a peer stands. -/
inductive Phase
  /-- The host has not taken the connection in yet. -/
  | calling
  /-- The next request has not come yet. -/
  | reading
  /-- A request has been read and waits for room in the queue. -/
  | holding (request : List UInt8)
  /-- A request is in the queue or in hand. -/
  | waiting
  /-- The answer has been handed over and not been written yet. -/
  | answering (reply : List UInt8)
  /-- The host has left the connection. -/
  | gone
deriving DecidableEq, Repr

/-- A connection and where the exchange on it stands. -/
structure Peer where
  link : Link := {}
  phase : Phase := .calling
deriving DecidableEq, Repr

/-- The peer after the host has left the connection. -/
def Peer.leave (p : Peer) : Peer := ⟨p.link.close, .gone⟩

/-- Whether there is something on the connection for the host to learn of. -/
def Peer.hasNews (p : Peer) : Bool :=
  p.phase = .calling ||
    p.phase ≠ .gone && (!p.link.toHost.unread.isEmpty || p.link.toHost.closed)

/-- The peers of a host in the order in which they came, the numbers of those on which the host has
learnt that something has come, and the requests that were read and not answered, each with the
number of its peer. -/
structure Host where
  limit : Nat
  peers : List Peer := []
  heard : List Nat := []
  queue : List (Nat × List UInt8) := []
  listening : Bool := true
deriving DecidableEq, Repr

/-- What is done with a request. -/
inductive Answer
  | reply (octets : List UInt8)
  | refuse
  | wait
deriving DecidableEq, Repr

namespace Host

/-- How many requests the queue has room for. -/
def depth : Nat := 64

/-- Calls the host and gives the number of the peer. -/
def call (h : Host) : Host × Nat := ({ h with peers := h.peers ++ [{}] }, h.peers.length)

/-- Replaces a peer. -/
def set (h : Host) (i : Nat) (p : Peer) : Host := { h with peers := h.peers.set i p }

/-- Takes in a peer that has called. -/
def accept? (h : Host) (i : Nat) : Option Host := do
  let p ← h.peers[i]?
  guard (h.listening ∧ p.phase = .calling)
  return h.set i { p with phase := .reading }

/-- Reads the next request of a peer, or leaves it where there is none to be had. -/
def read? (h : Host) (i : Nat) : Option Host := do
  let p ← h.peers[i]?
  guard (p.phase = .reading)
  match ← Frame.read h.limit p.link.toHost with
  | (.ok (some request), rest) =>
    return h.set i ⟨{ p.link with toHost := rest }, .holding request⟩
  | (_, rest) => return h.set i (Peer.leave { p with link.toHost := rest })

/-- Puts the request of a peer into the queue, if there is room. -/
def enqueue? (h : Host) (i : Nat) : Option Host := do
  let p ← h.peers[i]?
  match p.phase with
  | .holding request =>
    guard (h.queue.length < depth)
    return { h.set i { p with phase := .waiting } with queue := h.queue ++ [(i, request)] }
  | _ => none

/-- Takes the oldest request out of the queue. -/
def take? (h : Host) : Option ((Nat × List UInt8) × Host) :=
  match h.queue with
  | [] => none
  | r :: rs => some (r, { h with queue := rs })

/-- Hands an answer over to a peer, unless the host has left it. -/
def hand (h : Host) (i : Nat) (a : Answer) : Host :=
  match h.peers[i]? with
  | some p =>
    if p.phase = .waiting then
      match a with
      | .reply octets => h.set i { p with phase := .answering octets }
      | .refuse => h.set i p.leave
      | .wait => h
    else h
  | none => h

/-- Writes the answer to a peer; one over the limit is not written, and the peer is left. -/
def write? (h : Host) (i : Nat) : Option Host := do
  let p ← h.peers[i]?
  match p.phase with
  | .answering reply =>
    match Frame.write h.limit reply with
    | .ok frame =>
      return h.set i ⟨{ p.link with toGuest := p.link.toGuest.write frame }, .reading⟩
    | .error _ => return h.set i p.leave
  | _ => none

/-- Learns on which connections something has come. -/
def look (h : Host) : Host :=
  { h with heard := (List.range h.peers.length).filter fun i => h.peers[i]?.any Peer.hasNews }

@[simp] theorem peers_look (h : Host) : h.look.peers = h.peers := rfl

/-- Takes in everybody whose call has been heard. -/
def takeIn (h : Host) : Host := h.heard.foldl (fun h i => (h.accept? i).getD h) h

/-- The host after it was told to stop: no request is answered and nobody is taken in any more. -/
def stop (h : Host) : Host := { h with listening := false }

/-- The host after it has left every peer. -/
def close (h : Host) : Host :=
  { h with peers := h.peers.map Peer.leave, listening := false }

/-- More steps than can be taken before something else comes. -/
def workload (h : Host) : Nat :=
  h.peers.foldl (fun n p => n + p.link.toHost.unread.length + 8) (h.queue.length + 1)

end Host

/-- A step of a host, by the number of the peer it is about. -/
inductive Action
  | accept (i : Nat)
  | read (i : Nat)
  | enqueue (i : Nat)
  | dispatch
  | write (i : Nat)
deriving DecidableEq, Repr

/-- A host, and what the one who answers its requests remembers. -/
structure Desk (σ : Type) where
  host : Host
  state : σ

namespace Desk

variable {σ : Type}

/-- Takes a step, if it can be taken. -/
def step? (respond : σ → List UInt8 → Answer × σ) (d : Desk σ) : Action → Option (Desk σ)
  | .accept i => (d.host.accept? i).map fun h => { d with host := h }
  | .read i => (d.host.read? i).map fun h => { d with host := h }
  | .enqueue i => (d.host.enqueue? i).map fun h => { d with host := h }
  | .write i => (d.host.write? i).map fun h => { d with host := h }
  | .dispatch =>
    if d.host.listening then
      d.host.take?.map fun ((i, request), h) =>
        let (a, s) := respond d.state request
        ⟨h.hand i a, s⟩
    else none

/-- The steps that may be possible on the connections that were taken in, in the order in which the
peers came. -/
def actions (d : Desk σ) : List Action :=
  .dispatch :: (List.range d.host.peers.length).flatMap fun i =>
    if d.host.heard.contains i then [.write i, .read i, .enqueue i] else [.write i, .enqueue i]

/-- Takes the first step that can be taken. -/
def next? (respond : σ → List UInt8 → Answer × σ) (d : Desk σ) : Option (Desk σ) :=
  d.actions.findSome? (d.step? respond)

/-- Takes the first step that can be taken, at most `fuel` times. -/
def run (respond : σ → List UInt8 → Answer × σ) : Nat → Desk σ → Desk σ
  | 0, d => d
  | fuel + 1, d =>
    match d.next? respond with
    | some d => run respond fuel d
    | none => d

/-- Learns on which connections something has come. -/
def look (d : Desk σ) : Desk σ := { d with host := d.host.look }

/-- A turn: takes the steps that can be taken on the connections that were taken in, then takes in
who has called, or leaves everybody if it was told to stop. -/
def turn (respond : σ → List UInt8 → Answer × σ) (d : Desk σ) : Desk σ :=
  let d := run respond d.host.workload d
  { d with host := if d.host.listening then d.host.takeIn else d.host.close }

end Desk

end TopicDirectory.Exchange
