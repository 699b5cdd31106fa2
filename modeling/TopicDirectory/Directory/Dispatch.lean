import TopicDirectory.Registry
import TopicDirectory.Wire.Command
import TopicDirectory.Wire.Reply

/-!
# Carrying out commands

What one command frame does to a registry, and the value that answers it.  A frame that cannot be
read changes nothing, and its answer has the form that the command of its header is answered in.
-/

namespace TopicDirectory.Directory

open Wire (Command Refusal RegisterReply StatusReply)

/-- How a refusal of the registry is sent. -/
def refusal : RegistryError → Refusal
  | .addressTaken _ => .addressTaken
  | .addressUnreadable _ => .addressUnreadable
  | .idUnknown _ => .idUnknown
  | .topicsRefused _ => .topicsRefused
  | .idsExhausted => .idsExhausted

/-- What a command frame came to: its answer, and the registry if it was changed. -/
structure Outcome where
  reply : Wire.Value
  changed : Option Registry
deriving DecidableEq

/-- Carries out a command. -/
def carryOut (r : Registry) : Command → Outcome
  | .register candidate =>
    match r.register candidate with
    | .ok (id, r) => ⟨(RegisterReply.registered id).toValue, some r⟩
    | .error e => ⟨(RegisterReply.refused (refusal e)).toValue, none⟩
  | .deregister id =>
    match r.deregister id with
    | .ok (_, r) => ⟨StatusReply.done.toValue, some r⟩
    | .error e => ⟨(StatusReply.refused (refusal e)).toValue, none⟩
  | .setTopics id topics =>
    match r.setTopics id topics with
    | .ok r => ⟨StatusReply.done.toValue, some r⟩
    | .error e => ⟨(StatusReply.refused (refusal e)).toValue, none⟩
  | .snapshot => ⟨.directory r.snapshot, none⟩

/-- The answer to a frame that cannot be read, by its header. -/
def unreadable (header : Option UInt8) (fault : Wire.Fault) : Wire.Value :=
  match header, fault with
  | none, _ => (StatusReply.refused .malformedCommand).toValue
  | _, .unknownHeader _ => (StatusReply.refused .unknownCommand).toValue
  | some header, _ =>
    if header = 0x01 then (RegisterReply.refused .addressUnreadable).toValue
    else if header = 0x02 then (StatusReply.refused .idUnknown).toValue
    else if header = 0x04 then (StatusReply.refused .topicsRefused).toValue
    else (StatusReply.refused .malformedCommand).toValue

/-- Carries out the command of a frame. -/
def dispatch (r : Registry) (frame : List UInt8) : Outcome :=
  match Command.decode frame with
  | .ok c => carryOut r c
  | .error fault => ⟨unreadable frame.head? fault, none⟩

/-- The registry after a frame. -/
def Outcome.registry (o : Outcome) (before : Registry) : Registry := o.changed.getD before

end TopicDirectory.Directory
