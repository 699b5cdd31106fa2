import TopicDirectory.Client.Calls
import TopicDirectory.Client.Publisher
import TopicDirectory.Proofs.Service.Basic

/-!
# A directory and one of its publishers

A publisher makes its calls to the directory step by step: it connects, writes a request, and waits
until the answer comes or it gives up (`Enrolment.Stage`).  Between any two of these steps the
directory and its other clients make whatever moves they can (`Enrolment.Move`); what they cannot do
is to use the connection of the publisher.  A call that has been given up leaves its request where it
is, and the directory may still deal with it.
-/

namespace TopicDirectory

open Client (Call)

namespace Enrolment

/-- What a publisher is doing, with the number of its connection to the directory. -/
inductive Stage
  /-- It has no connection. -/
  | away
  /-- It has connected, to register its feed at an address. -/
  | dialled (i : Nat) (address : String)
  /-- It waits for the answer to its registration. -/
  | registering (i : Nat) (address : String)
  /-- It is registered and no call is under way. -/
  | registered (i : Nat)
  /-- It waits for the answer to the declaration of other topics. -/
  | updating (i : Nat) (id : UInt32) (topics : List String)
  /-- It waits for the answer to its deregistration. -/
  | removing (i : Nat) (id : UInt32)
deriving DecidableEq

/-- The publisher among the clients of the directory. -/
def Stage.client? : Stage → Option Nat
  | away => none
  | dialled i _ | registering i _ | registered i | updating i _ _ | removing i _ => some i

/-- The connection on which the publisher waits for an answer. -/
def Stage.waits? : Stage → Option Nat
  | registering i _ | updating i _ _ | removing i _ => some i
  | _ => none

/-- Whether a move is for the publisher alone to make. -/
def Stage.owns (stage : Stage) : Service.Move → Bool
  | .issue i _ | .collect i | .timeOut i | .hangUp i => stage.client? = some i
  | _ => false

/-- What can be done next. -/
inductive Move
  /-- The others make a move. -/
  | others (m : Service.Move)
  /-- The publisher, which has bound its feed to an address, connects to the directory. -/
  | dial (address : String)
  /-- The publisher asks to be registered. -/
  | ask
  /-- The publisher declares other topics. -/
  | update (topics : List String)
  /-- The publisher asks to be deregistered. -/
  | remove
  /-- The publisher takes the answer, or finds that there is none. -/
  | finish
  /-- The publisher's time runs out. -/
  | giveUp

end Enrolment

/-- A directory, a publisher, and the topics of the first update on the publisher's connection whose
exchange has failed. -/
structure Enrolment where
  service : Service
  publisher : Client.Publisher
  stage : Enrolment.Stage := .away
  failed? : Option (List String) := none

namespace Enrolment

/-- Ends the call that is under way, given what its exchange came to. -/
def conclude (e : Enrolment) (outcome : Except Link.Fault (List UInt8)) : Enrolment :=
  match e.stage with
  | .registering i address =>
    let call := Call.register (e.publisher.candidate address)
    match e.publisher.register address (call.result outcome) with
    | (.ok _, publisher) => { e with publisher, stage := .registered i }
    | (.error _, publisher) =>
      { e with service := e.service.step (.hangUp i), publisher, stage := .away }
  | .updating i id topics =>
    let result := (Call.setTopics id topics).result outcome
    { e with
      publisher := (e.publisher.setTopics topics result).2
      stage := .registered i
      failed? := if result.isOk then e.failed? else e.failed?.or (some topics) }
  | .removing i id =>
    { e with
      service := e.service.step (.hangUp i)
      publisher := (e.publisher.deregister ((Call.deregister id).result outcome)).2
      stage := .away }
  | _ => e

/-- Makes a call; what keeps the request from being written ends it at once, and a caller that has
failed does not even try. -/
def call (e : Enrolment) (i : Nat) (stage : Stage) (request : List UInt8) : Enrolment :=
  match e.service.clients[i]?, e.service.server.host.peers[i]? with
  | some c, some p =>
    let service := if c.caller.broken then e.service else e.service.step (.issue i request)
    match (c.caller.post p.link request).1 with
    | .ok () => { e with service, stage }
    | .error fault => { e with service, stage }.conclude (.error fault)
  | _, _ => e

/-- Connects to register the feed at an address. -/
def dial (e : Enrolment) (address : String) : Enrolment :=
  match e.stage, e.publisher.registerFault? with
  | .away, none =>
    { e with
      service := e.service.step (.join e.publisher.config.messageSize.toNat)
      stage := .dialled e.service.clients.length address
      failed? := none }
  | _, _ => e

/-- Asks for the registration. -/
def ask (e : Enrolment) : Enrolment :=
  match e.stage with
  | .dialled i address =>
    e.call i (.registering i address) (Call.register (e.publisher.candidate address)).request
  | _ => e

/-- Declares other topics. -/
def update (e : Enrolment) (topics : List String) : Enrolment :=
  match e.stage, e.publisher.id? with
  | .registered i, some id => e.call i (.updating i id topics) (Call.setTopics id topics).request
  | _, _ => e

/-- Asks for the deregistration. -/
def remove (e : Enrolment) : Enrolment :=
  match e.stage, e.publisher.id? with
  | .registered i, some id => e.call i (.removing i id) (Call.deregister id).request
  | _, _ => e

/-- What the exchange that is under way on a connection has come to. -/
def answer? (e : Enrolment) (i : Nat) : Option (Except Link.Fault (List UInt8)) :=
  match e.service.clients[i]?, e.service.server.host.peers[i]? with
  | some c, some p => if c.waiting then some (c.caller.collect p.link).1 else none
  | _, _ => none

/-- Takes the answer to the call that is under way. -/
def finish (e : Enrolment) : Enrolment :=
  match e.stage.waits? with
  | some i =>
    match e.answer? i with
    | some outcome => { e with service := e.service.step (.collect i) }.conclude outcome
    | none => e
  | none => e

/-- Gives up the call that is under way. -/
def giveUp (e : Enrolment) : Enrolment :=
  match e.stage.waits? with
  | some i => { e with service := e.service.step (.timeOut i) }.conclude (.error .timeout)
  | none => e

/-- Makes a move, if it can be made. -/
def step (e : Enrolment) : Move → Enrolment
  | .others m => if e.stage.owns m then e else { e with service := e.service.step m }
  | .dial address => e.dial address
  | .ask => e.ask
  | .update topics => e.update topics
  | .remove => e.remove
  | .finish => e.finish
  | .giveUp => e.giveUp

/-- Makes moves one after the other. -/
def run (e : Enrolment) (ms : List Move) : Enrolment := ms.foldl step e

/-- A directory that has just been started, and a publisher that has not been registered. -/
def new (c : Config.Server) (config : Config.Client) (bindHost name : String)
    (topics : List String) : Enrolment :=
  { service := .new c, publisher := { config, bindHost, name, topics } }

end Enrolment

end TopicDirectory
