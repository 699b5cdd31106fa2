import TopicDirectory.Network.Parties
import TopicDirectory.Watch.Follow
import TopicDirectory.Watch.Lines

/-!
# The watch tool at work

Without a topic the tool shows every snapshot; with one it follows the publishers that declare the
topic and shows their messages.  It ends when it has shown as many as it was asked for, or when it
is interrupted.
-/

namespace TopicDirectory

/-- A publisher that is followed: the subscription to its topic, as long as it lasts. -/
structure Watch.Follower where
  publisher : Record
  subscription : Option Network.Subscribing
deriving DecidableEq, Repr

/-- The tool: what it observes and follows, what it has not shown yet, and what it has said. -/
structure Watch where
  arguments : Watch.Arguments
  /-- The time of day that its lines bear. -/
  clock : String
  observing : Network.Observing
  begun : Bool := false
  taken : Nat := 0
  followers : IdMap Watch.Follower := .empty
  waiting : List Watch.Echo := []
  shown : Nat := 0
  output : List String := []
  notices : List String := []
  exit : Option Nat := none

namespace Watch

open Network (Observing Subscribing)

/-- Adds to what is said on the side. -/
def notify (w : Watch) (lines : List String) : Watch :=
  { w with notices := w.notices ++ lines.flatMap linesOf }

/-- Adds to what is shown. -/
def print (w : Watch) (lines : List String) : Watch :=
  { w with output := w.output ++ lines.flatMap linesOf, shown := w.shown + 1 }

/-- A tool that has not begun. -/
def new (clock : String) (a : Arguments) : Watch :=
  { arguments := a, clock, observing := { observer := { config := a.config } } }

/-- Begins to observe the directory. -/
def start (w : Watch) (n : Network) : Watch × Network :=
  let w := { w with begun := true }
  let w := if w.arguments.quiet then w else w.notify (headerLines w.arguments)
  match w.observing.connect n with
  | (.error e, observing, n) =>
    ({ w.notify ["Error: " ++ e.message] with observing, exit := some 1 }, n)
  | (.ok (), observing, n) => ({ w with observing }, n)

/-- Leaves the subscription of a follower. -/
def stopFollower (f : Follower) (w : Watch × Network) : Watch × Network :=
  match f.subscription with
  | none => w
  | some s => (w.1, w.2.hangUp s.inlet)

/-- Subscribes to the topic of a publisher. -/
def startFollower (topic : String) (r : Record) (w : Watch × Network) :
    Follower × Watch × Network :=
  let (w, n) := w
  let w := if w.arguments.quiet then w else w.notify [followLine r]
  match Subscribing.connect n w.arguments.config r [topic] with
  | (.ok s, n) => (⟨r, some s⟩, w, n)
  | (.error e, n) =>
    (⟨r, none⟩, w.notify ["Warning: " ++ e.message ++ " (" ++ r.address ++ ")"], n)

/-- Ends: everything is left. -/
def finish (w : Watch) (n : Network) : Watch × Network :=
  let (w, n) := w.followers.values.foldl (fun world f => stopFollower f world) (w, n)
  let (_, observing, n) := w.observing.disconnect n
  let w := { w with observing, followers := .empty, exit := some 0 }
  (if w.arguments.quiet then w else w.notify (footerLines w.arguments w.shown), n)

/-- Takes the messages that have come for a follower, at most `fuel` of them; it has finished after
one that cannot be read. -/
def readFollower : Nat → Follower → Network → (Follower × List Echo) × Network
  | 0, f, n => ((f, []), n)
  | fuel + 1, f, n =>
    match f.subscription with
    | none => ((f, []), n)
    | some s =>
      match s.take n with
      | (none, n) => ((f, []), n)
      | (some (.error _), n) => (({ f with subscription := none }, []), n.hangUp s.inlet)
      | (some (.ok (topic, text)), n) =>
        let ((f, echoes), n) := readFollower fuel f n
        ((f, ⟨f.publisher.name, topic, text⟩ :: echoes), n)

/-- Takes the messages that have come for every follower. -/
def readFollowers (w : Watch) (n : Network) : Watch × Network :=
  w.followers.entries.foldl (fun (w, n) (id, f) =>
    let unread := match f.subscription with
      | some s => (n.link s.inlet).toGuest.unread.length
      | none => 0
    let ((f, echoes), n) := readFollower (unread + 1) f n
    ({ w with followers := w.followers.insert id f, waiting := w.waiting ++ echoes }, n)) (w, n)

/-- Whether as many have been shown as were asked for. -/
def complete (w : Watch) : Bool :=
  w.arguments.count ≠ 0 && w.arguments.count.toNat ≤ w.shown

/-- Deals with a snapshot. -/
def seeSnapshot (w : Watch) (n : Network) (s : Snapshot) : Watch × Network :=
  match w.arguments.topic with
  | none => (w.print (snapshotLines w.clock w.arguments.json s), n)
  | some topic =>
    let (followers, w, n) := follow (fun f => f.subscription.isNone) stopFollower
      (startFollower topic) w.followers s topic (w, n)
    ({ w with followers }, n)

/-- Deals with snapshots and messages that have come, at most `fuel` of them. -/
def work : Nat → Watch → Network → Watch × Network
  | 0, w, n => (w, n)
  | fuel + 1, w, n =>
    if w.complete then w.finish n
    else match w.observing.observer.handed[w.taken]? with
      | some s =>
        let (w, n) := seeSnapshot { w with taken := w.taken + 1 } n s
        work fuel w n
      | none =>
        match w.waiting with
        | e :: waiting =>
          let w := { w with waiting }
          work fuel (w.print [echoLine w.clock w.arguments.json (w.shown + 1) e]) n
        | [] => (w, n)

/-- Lets the tool begin, or deal with everything that has come. -/
def advance (w : Watch) (n : Network) : Watch × Network :=
  if w.exit.isSome then (w, n)
  else if !w.begun then w.start n
  else
    let (observing, n) := w.observing.listen n
    let (w, n) := { w with observing }.readFollowers n
    work (w.observing.observer.handed.length - w.taken + w.waiting.length + 1) w n

/-- Interrupts the tool. -/
def interrupt (w : Watch) (n : Network) : Watch × Network :=
  if w.exit.isSome then (w, n) else w.finish n

end Watch

end TopicDirectory
