import TopicDirectory.Client.Error
import TopicDirectory.Wire.Command

/-!
# Calls to a directory

A call is a request frame and a way to read its answer.
-/

namespace TopicDirectory.Client

open Wire (Command RegisterReply StatusReply)

/-- A call whose answer is an `α`. -/
structure Call (α : Type) where
  request : List UInt8
  answer : List UInt8 → Except Wire.Fault α

namespace Call

/-- Any request, answered by a value. -/
def ofFrame (frame : List UInt8) : Call Wire.Value := ⟨frame, Wire.Value.decode⟩

/-- Registers a publisher. -/
def register (candidate : Record) : Call RegisterReply :=
  ⟨(Command.register candidate).encode, fun b => Wire.Value.decode b >>= RegisterReply.ofValue⟩

/-- Removes a publisher. -/
def deregister (id : UInt32) : Call StatusReply :=
  ⟨(Command.deregister id).encode, fun b => Wire.Value.decode b >>= StatusReply.ofValue⟩

/-- Replaces the topics of a publisher. -/
def setTopics (id : UInt32) (topics : List String) : Call StatusReply :=
  ⟨(Command.setTopics id topics).encode, fun b => Wire.Value.decode b >>= StatusReply.ofValue⟩

/-- Asks for the current snapshot. -/
def snapshot : Call Snapshot := ⟨Command.snapshot.encode, Wire.decodeSnapshot⟩

/-- Reads the answer of a call from what the exchange came to. -/
def result {α : Type} (c : Call α) : Except Link.Fault (List UInt8) → Except Error α
  | .error fault => .error (.link fault)
  | .ok reply =>
    match c.answer reply with
    | .error fault => .error (.wire fault)
    | .ok a => .ok a

end Call

end TopicDirectory.Client
