import TopicDirectory.Client.Calls
import TopicDirectory.Client.Observer
import TopicDirectory.Feed.Subscription
import TopicDirectory.Proofs.Service.Basic

/-!
# A directory and one who observes it

An observer connects step by step: it calls the feed, greets it and waits until it is admitted; then
it calls the directory and asks for the current snapshot; then it listens (`Watched.Stage`).  Between
any two of these steps the directory, its other clients and the others who are attached to its feed
make whatever moves they can (`Watched.Move`); what they cannot do is to use the connections of the
observer.
-/

namespace TopicDirectory

open Client (Call Listener)

namespace Watched

/-- How far an observer has come, with the numbers of its attachment and of its connection. -/
inductive Stage
  /-- It has not begun to connect. -/
  | idle
  /-- It has called the feed. -/
  | called (a : Nat)
  /-- It has written its greeting. -/
  | greeted (a : Nat)
  /-- It has been admitted. -/
  | admitted (a : Nat)
  /-- It has called the directory. -/
  | dialled (a i : Nat)
  /-- It has asked for the current snapshot. -/
  | asked (a i : Nat)
  /-- It is connected. -/
  | connected (a i : Nat)
  /-- It could not connect. -/
  | failed
deriving DecidableEq

/-- The attachment of the observer. -/
def Stage.attachment? : Stage → Option Nat
  | called a | greeted a | admitted a | dialled a _ | asked a _ | connected a _ => some a
  | idle | failed => none

/-- The observer among the clients of the directory. -/
def Stage.client? : Stage → Option Nat
  | dialled _ i | asked _ i | connected _ i => some i
  | _ => none

/-- Whether a move is for the observer alone to make. -/
def Stage.owns (stage : Stage) : Service.Move → Bool
  | .issue i _ | .collect i | .timeOut i | .hangUp i => stage.client? = some i
  | .attend a _ => stage.attachment? = some a
  | _ => false

/-- What can be done next. -/
inductive Move
  /-- The others make a move. -/
  | others (m : Service.Move)
  /-- The observer calls the feed. -/
  | call
  /-- The observer writes its greeting. -/
  | greet
  /-- The observer reads whether it is admitted. -/
  | enter
  /-- The observer calls the directory. -/
  | dial
  /-- The observer asks for the current snapshot. -/
  | ask
  /-- The observer takes the answer, and is connected. -/
  | fetch
  /-- The listener takes up to so many messages. -/
  | hear (n : Nat)

end Watched

/-- A directory and an observer. -/
structure Watched where
  service : Service
  observer : Client.Observer
  stage : Watched.Stage := .idle

namespace Watched

/-- The largest frame that the observer reads or writes. -/
def limit (w : Watched) : Nat := w.observer.config.messageSize.toNat

/-- The connection of an attachment of the feed. -/
def inlet? (w : Watched) (a : Nat) : Option Link :=
  w.service.server.feed.attachments[a]?.map (·.link)

/-- Calls the feed. -/
def call (w : Watched) : Watched :=
  match w.stage, w.observer.connectFault? with
  | .idle, none =>
    { w with
      service := w.service.step .attach
      stage := .called w.service.server.feed.attachments.length }
  | _, _ => w

/-- Writes the greeting. -/
def greet (w : Watched) : Watched :=
  match w.stage with
  | .called a =>
    match (w.inlet? a).map fun l => Subscription.greet w.limit l [Directory.label] with
    | some (.ok l) => { w with service := w.service.step (.attend a l), stage := .greeted a }
    | _ => { w with stage := .failed }
  | _ => w

/-- Reads whether the greeting was accepted. -/
def enter (w : Watched) : Watched :=
  match w.stage with
  | .greeted a =>
    match (w.inlet? a).map fun l => Subscription.admitted w.limit l with
    | some (.ok (), l) => { w with service := w.service.step (.attend a l), stage := .admitted a }
    | _ => { w with stage := .failed }
  | _ => w

/-- Calls the directory. -/
def dial (w : Watched) : Watched :=
  match w.stage with
  | .admitted a =>
    { w with
      service := w.service.step (.join w.limit)
      stage := .dialled a w.service.clients.length }
  | _ => w

/-- Asks for the current snapshot. -/
def ask (w : Watched) : Watched :=
  match w.stage with
  | .dialled a i =>
    { w with service := w.service.step (.issue i Call.snapshot.request), stage := .asked a i }
  | _ => w

/-- What asking for the current snapshot has come to. -/
def answer? (w : Watched) (i : Nat) : Option (Except Link.Fault (List UInt8)) :=
  match w.service.clients[i]?, w.service.server.host.peers[i]? with
  | some c, some p => if c.waiting then some (c.caller.collect p.link).1 else none
  | _, _ => none

/-- Takes the answer to what was asked, and goes on with it. -/
def fetch (w : Watched) : Watched :=
  match w.stage with
  | .asked a i =>
    match (w.answer? i).map fun result => w.observer.connect (Call.snapshot.result result) with
    | some (.ok (), observer) =>
      { service := w.service.step (.collect i), observer, stage := .connected a i }
    | _ => { w with stage := .failed }
  | _ => w

/-- Takes messages that have come. -/
def hear (w : Watched) (n : Nat) : Watched :=
  match w.stage with
  | .connected a _ =>
    match w.observer.listener, w.inlet? a with
    | some listener, some l =>
      let ((listener, ss), rest) := listener.run w.limit n l.toGuest
      { w with
        service := w.service.step (.attend a { l with toGuest := rest })
        observer := { w.observer with
          listener := some listener
          handed := w.observer.handed ++ ss } }
    | _, _ => w
  | _ => w

/-- Makes a move, if it can be made. -/
def step (w : Watched) : Move → Watched
  | .others m => if w.stage.owns m then w else { w with service := w.service.step m }
  | .call => w.call
  | .greet => w.greet
  | .enter => w.enter
  | .dial => w.dial
  | .ask => w.ask
  | .fetch => w.fetch
  | .hear n => w.hear n

/-- Makes moves one after the other. -/
def run (w : Watched) (ms : List Move) : Watched := ms.foldl step w

/-- A directory that has just been started, and an observer that has not begun to connect. -/
def new (c : Config.Server) (config : Config.Client) : Watched :=
  { service := .new c, observer := { config } }

/-- With as many messages as there can be, listening is what the observer does by itself. -/
theorem observer_hear {w : Watched} {a i : Nat} {l : Link} (hstage : w.stage = .connected a i)
    (hinlet : w.inlet? a = some l) :
    (w.hear (l.toGuest.unread.length + 1)).observer = (w.observer.listen l.toGuest).1 := by
  rw [hear, hstage, Client.Observer.listen]
  cases hlistener : w.observer.listener with
  | none => rfl
  | some listener =>
    simp only [hinlet]
    rfl

end Watched

end TopicDirectory
