import TopicDirectory.Client.Error
import TopicDirectory.Config.Client
import TopicDirectory.Feed.Basic

/-!
# Publishers

A publisher binds a feed of its own, registers it with the directory, and from then on sends
messages on the topics it has declared, until it is deregistered for good.  The functions here are
the moves of that life, given what the bindings and exchanges came to; a move that fails leaves
the publisher as it was, deregistration apart.
-/

namespace TopicDirectory.Client

/-- What a publisher holds while it is registered. -/
structure Session where
  id : UInt32
  address : String
deriving DecidableEq, Repr

/-- The stages of a publisher's life. -/
inductive Stage
  | unregistered
  | registered (session : Session)
  | deregistered
deriving DecidableEq, Repr

/-- A publisher and the stage it has reached. -/
structure Publisher where
  config : Config.Client
  bindHost : String
  name : String
  topics : List String
  stage : Stage := .unregistered
deriving DecidableEq, Repr

namespace Publisher

/-- What is held while the publisher is registered. -/
def session? (p : Publisher) : Option Session :=
  match p.stage with
  | .registered s => some s
  | _ => none

/-- The publisher's id while it is registered. -/
def id? (p : Publisher) : Option UInt32 := p.session?.map (·.id)

/-- Where the publisher's messages can be had while it is registered. -/
def address? (p : Publisher) : Option String := p.session?.map (·.address)

/-- The publisher as the directory holds it while it is registered. -/
def record? (p : Publisher) : Option Record :=
  p.session?.map fun s => ⟨some s.id, s.address, p.name, p.topics⟩

/-- What keeps the publisher from registering, if anything does. -/
def registerFault? (p : Publisher) : Option Error :=
  match p.stage with
  | .registered _ => some .alreadyRegistered
  | .deregistered => some .notRegistered
  | .unregistered => p.config.invalid?.map fun cause => .config (.invalid cause)

/-- The record with which a publisher registers a feed at an address. -/
def candidate (p : Publisher) (address : String) : Record := ⟨none, address, p.name, p.topics⟩

/-- The error for a refused registration. -/
def registerError (address : String) : Wire.Refusal → Error
  | .addressTaken => .addressTaken address
  | .addressUnreadable => .addressUnreadable address
  | r => .refused r

/-- Registers the feed at an address, given what binding it and calling the directory came to. -/
def register (p : Publisher) (address : String) (outcome : Except Error Wire.RegisterReply) :
    Except Error UInt32 × Publisher :=
  match p.registerFault?, outcome with
  | some e, _ => (.error e, p)
  | none, .error e => (.error e, p)
  | none, .ok (.refused r) => (.error (registerError address r), p)
  | none, .ok (.registered id) => (.ok id, { p with stage := .registered ⟨id, address⟩ })

/-- The message that a publisher sends on a topic, if it may. -/
def message (p : Publisher) (topic text : String) : Except Error Message :=
  if topic = "" then .error (.invalidArgument .emptyTopic)
  else if !p.topics.contains topic then .error (.topicUndeclared topic)
  else if p.session?.isNone then .error .notRegistered
  else .ok ⟨topic, (Wire.Value.text text).encode⟩

/-- Declares other topics, given what the call for them came to. -/
def setTopics (p : Publisher) (topics : List String) (outcome : Except Error Wire.StatusReply) :
    Except Error Unit × Publisher :=
  match p.session?, outcome with
  | none, _ => (.error .notRegistered, p)
  | some _, .error e => (.error e, p)
  | some s, .ok (.refused _) => (.error (.topicsRefused s.id), p)
  | some _, .ok .done => (.ok (), { p with topics })

/-- What a call to deregister comes to for the caller. -/
def deregisterResult (id : UInt32) : Except Error Wire.StatusReply → Except Error Unit
  | .ok .done => .ok ()
  | .ok (.refused .idUnknown) => .error (.idUnknown id)
  | .ok (.refused r) => .error (.refused r)
  | .error e => .error e

/-- Deregisters for good, given what the call came to; nothing happens unless the publisher is
registered. -/
def deregister (p : Publisher) (outcome : Except Error Wire.StatusReply) :
    Except Error Unit × Publisher :=
  match p.session? with
  | none => (.ok (), p)
  | some s => (deregisterResult s.id outcome, { p with stage := .deregistered })

end Publisher

end TopicDirectory.Client
