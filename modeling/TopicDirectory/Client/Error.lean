import TopicDirectory.Config.Basic
import TopicDirectory.Link.Fault
import TopicDirectory.Wire.Reply

/-!
# Errors of the parties that call a directory
-/

namespace TopicDirectory.Client

/-- What is wrong with an argument. -/
inductive Argument
  | emptyTopic
  | noTopics
deriving DecidableEq, Repr

/-- The wording of a wrong argument. -/
def Argument.message : Argument → String
  | emptyTopic => "topic cannot be empty"
  | noTopics => "no topics to subscribe to"

/-- Why a call comes to nothing. -/
inductive Error
  | addressTaken (address : String)
  | addressUnreadable (address : String)
  | idUnknown (id : UInt32)
  | topicsRefused (id : UInt32)
  | topicUndeclared (topic : String)
  | invalidArgument (argument : Argument)
  | refused (r : Wire.Refusal)
  | notRegistered
  | alreadyRegistered
  | notConnected
  | alreadyConnected
  | wire (fault : Wire.Fault)
  | link (fault : Link.Fault)
  | config (fault : Config.Fault)
deriving DecidableEq, Repr

/-- The wording of an error. -/
def Error.message : Error → String
  | addressTaken address => "address already registered at the directory: " ++ address
  | addressUnreadable address => "directory could not parse address: " ++ address
  | idUnknown id => "publisher " ++ toString id ++ " not found at the directory"
  | topicsRefused id => "topic update of publisher " ++ toString id ++ " rejected"
  | topicUndeclared topic => "topic not registered: " ++ topic
  | invalidArgument argument => "invalid argument: " ++ argument.message
  | refused r => "directory rejected the request: " ++ r.name
  | notRegistered => "publisher is not registered"
  | alreadyRegistered => "publisher is already registered"
  | notConnected => "observer is not connected"
  | alreadyConnected => "observer is already connected"
  | wire fault => "protocol error: " ++ fault.message
  | link fault => "transport error: " ++ fault.message
  | config fault => "configuration error: " ++ fault.message

end TopicDirectory.Client
