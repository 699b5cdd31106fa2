import TopicDirectory.Client.Error
import TopicDirectory.Config.Client
import TopicDirectory.Feed.Subscription

/-!
# Subscribers

A subscriber takes the messages of one publisher on topics that the publisher declares.  A feed
chooses labels by what they begin with, so messages on longer topics arrive as well; they are passed
over here.
-/

namespace TopicDirectory.Client

/-- A subscriber and the publisher it takes messages of. -/
structure Subscriber where
  limit : Nat
  publisher : Record
  topics : List String
deriving DecidableEq, Repr

namespace Subscriber

/-- Whether a topic can be subscribed to. -/
def checkTopic (publisher : Record) (topic : String) : Except Error Unit :=
  if topic = "" then .error (.invalidArgument .emptyTopic)
  else if publisher.hasTopic topic then .ok ()
  else .error (.topicUndeclared topic)

/-- The endpoint at which the topics of a publisher can be had. -/
def endpoint (publisher : Record) (topics : List String) : Except Error Endpoint := do
  if topics = [] then throw (.invalidArgument .noTopics)
  topics.forM (checkTopic publisher)
  match Endpoint.ofText? publisher.address with
  | some e => return e
  | none => throw (.addressUnreadable publisher.address)

/-- The text of a message. -/
def textOf (m : Message) : Except Error String :=
  match Wire.Value.decode m.payload >>= Wire.Value.asText with
  | .ok s => .ok s
  | .error fault => .error (.wire fault)

/-- What is done with a message: nothing if its label is not a topic of the subscriber. -/
def accept? (s : Subscriber) (m : Message) : Option (Except Error (String × String)) :=
  if s.topics.contains m.label then some ((textOf m).map fun text => (m.label, text)) else none

/-- Takes messages, at most `fuel` of them, up to one on a topic of the subscriber, or a failure.
Messages passed over are taken out of the pipe even if no other has come. -/
def receiveWithin (s : Subscriber) :
    Nat → Pipe → Option (Except Error (String × String)) × Pipe
  | 0, p => (none, p)
  | fuel + 1, p =>
    match Subscription.receive s.limit p with
    | none => (none, p)
    | some (.error fault, p) => (some (.error (.link fault)), p)
    | some (.ok m, p) =>
      match s.accept? m with
      | some result => (some result, p)
      | none => receiveWithin s fuel p

/-- Takes the next message on a topic of the subscriber, if it has come. -/
def receive (s : Subscriber) (p : Pipe) : Option (Except Error (String × String)) × Pipe :=
  receiveWithin s (p.unread.length + 1) p

end Subscriber

end TopicDirectory.Client
