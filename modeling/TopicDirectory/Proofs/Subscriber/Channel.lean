import TopicDirectory.Client.Publisher
import TopicDirectory.Proofs.Feed.Delivery
import TopicDirectory.Proofs.Subscriber.Receiving

/-!
# A publisher and one of its subscribers

A subscriber connects to the feed of a publisher step by step: it calls the feed, greets it and waits
until it is admitted (`Channel.Stage`); then it receives.  Between any two of these steps the
publisher sends and declares topics, the feed takes its steps, and others come and go
(`Channel.Move`); what they cannot do is to use the connection of the subscriber.  Octets come to the
subscriber in whatever portions.
-/

namespace TopicDirectory

open Client (Error Subscriber)

namespace Channel

/-- How far a subscriber has come, with the number of its attachment. -/
inductive Stage
  /-- It has not begun to connect. -/
  | idle
  /-- It has called the feed. -/
  | called (i : Nat)
  /-- It has written its greeting. -/
  | greeted (i : Nat)
  /-- It has been admitted. -/
  | admitted (i : Nat)
  /-- It could not connect. -/
  | failed
deriving DecidableEq

/-- The attachment of the subscriber. -/
def Stage.number? : Stage → Option Nat
  | called i | greeted i | admitted i => some i
  | idle | failed => none

/-- Whether a move of the audience is not for others to make: a message is sent by the publisher, and
the connection of the subscriber is its own. -/
def Stage.owns (stage : Stage) : Audience.Move → Bool
  | .send _ => true
  | .write i _ | .take i _ | .stray i _ => stage.number? = some i
  | .call | .serve _ => false

/-- What can be done next. -/
inductive Move
  /-- The others, or the feed, make a move. -/
  | others (m : Audience.Move)
  /-- The publisher sends a text on a topic, if it may. -/
  | publish (topic text : String)
  /-- The publisher declares other topics, and the call comes to something. -/
  | declare (topics : List String) (outcome : Except Error Wire.StatusReply)
  /-- The subscriber calls the feed at the address of a record of the publisher, if the topics that
  it is to subscribe to are declared there. -/
  | call (record : Record)
  /-- The subscriber writes its greeting. -/
  | greet
  /-- The subscriber reads whether it is admitted, or has waited for too long. -/
  | enter
  /-- Octets come to the subscriber, so many at most. -/
  | arrive (n : Nat)
  /-- The subscriber takes the next message, if it has come. -/
  | receive

/-- Whether a move sends a text. -/
def Move.publishes : Move → Bool
  | publish _ _ => true
  | _ => false

end Channel

/-- A publisher, its feed, a subscriber, what has come to the subscriber, what it has received, and the
topics and texts that were sent since the feed took the subscriber in. -/
structure Channel where
  publisher : Client.Publisher
  audience : Audience
  subscriber : Subscriber
  stage : Channel.Stage := .idle
  inlet : Pipe := {}
  results : List (Except Error (String × String)) := []
  published : List (String × String) := []

namespace Channel

variable (t : Channel)

/-- The feed's end of the subscriber's connection. -/
def link? : Option Link :=
  t.stage.number?.bind fun i => t.audience.feed.attachments[i]?.map (·.link)

/-- Whether the feed has taken the subscriber in. -/
def takenIn : Bool := t.stage.number?.any fun i => (Audience.Event.accepted i) ∈ t.audience.log

/-- Sends a text on a topic. -/
def publish (topic text : String) : Channel :=
  match t.publisher.message topic text with
  | .error _ => t
  | .ok m => { t with
    audience := t.audience.step (.send m)
    published := if t.takenIn then t.published ++ [(topic, text)] else t.published }

/-- Calls the feed. -/
def call (record : Record) : Channel :=
  match t.stage, Subscriber.endpoint record t.subscriber.topics with
  | .idle, .ok _ =>
    if t.publisher.address? = some record.address then
      { t with
        audience := t.audience.step .call
        subscriber := { t.subscriber with publisher := record }
        stage := .called t.audience.feed.attachments.length }
    else t
  | _, _ => t

/-- Writes the greeting. -/
def greet : Channel :=
  match t.stage with
  | .called i =>
    match t.link?.map fun l => Subscription.greet t.subscriber.limit l t.subscriber.topics with
    | some (.ok _) =>
      let octets := Frame.encode (Subscription.greeting t.subscriber.topics)
      { t with audience := t.audience.step (.write i octets), stage := .greeted i }
    | _ => { t with stage := .failed }
  | _ => t

/-- Reads whether the greeting was accepted. -/
def enter : Channel :=
  match t.stage with
  | .greeted i =>
    match Subscription.admitted t.subscriber.limit { toGuest := t.inlet } with
    | (.ok (), l) => { t with inlet := l.toGuest, stage := .admitted i }
    | (.error _, _) => { t with stage := .failed }
  | _ => t

/-- Lets octets come. -/
def arrive (n : Nat) : Channel :=
  match t.stage.number?, t.link? with
  | some i, some l =>
    { t with
      audience := t.audience.step (.take i n)
      inlet := ⟨t.inlet.unread ++ l.toGuest.unread.take n,
        l.toGuest.closed && (l.toGuest.unread.drop n).isEmpty⟩ }
  | _, _ => t

/-- Takes the next message. -/
def receive : Channel :=
  match t.stage with
  | .admitted _ =>
    let (result, inlet) := t.subscriber.receive t.inlet
    { t with inlet, results := t.results ++ result.toList }
  | _ => t

/-- Makes a move, if it can be made. -/
def step : Move → Channel
  | .others m => if t.stage.owns m then t else { t with audience := t.audience.step m }
  | .publish topic text => t.publish topic text
  | .declare topics outcome => { t with publisher := (t.publisher.setTopics topics outcome).2 }
  | .call record => t.call record
  | .greet => t.greet
  | .enter => t.enter
  | .arrive n => t.arrive n
  | .receive => t.receive

/-- Makes moves one after the other. -/
def run (ms : List Move) : Channel := ms.foldl step t

theorem run_append (ms ms' : List Move) : t.run (ms ++ ms') = (t.run ms).run ms' := List.foldl_append

/-- A publisher with the feed that it has bound, and a subscriber with a limit and topics of its own
that has not begun to connect. -/
def new (publisher : Client.Publisher) (limit : Nat) (topics : List String) : Channel where
  publisher
  audience := .new publisher.config.messageSize.toNat publisher.config.publishCapacity.toNat
  subscriber := ⟨limit, ⟨none, "", "", []⟩, topics⟩

end Channel

end TopicDirectory
