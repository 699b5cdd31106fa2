import TopicDirectory.Endpoint
import TopicDirectory.Snapshot

/-!
# The registry

The live publishers of one directory.  Ids are given out in ascending order and never a second time;
two live records never have one address.  Every change makes the generation grow by one, and what is
refused changes nothing.
-/

namespace TopicDirectory

/-- Why the registry refuses a change. -/
inductive RegistryError
  | addressTaken (address : String)
  | addressUnreadable (address : String)
  | idUnknown (id : UInt32)
  | topicsRefused (id : UInt32)
  | idsExhausted
deriving DecidableEq, Repr

/-- The wording of a refusal. -/
def RegistryError.message : RegistryError → String
  | addressTaken address => "address already registered: " ++ address
  | addressUnreadable address => "invalid publisher address: " ++ address
  | idUnknown id => "publisher " ++ toString id ++ " not found"
  | topicsRefused id => "update of publisher " ++ toString id ++ " failed"
  | idsExhausted => "publisher id space exhausted"

/-- The live records, the id that comes next, and the number of changes so far. -/
structure Registry where
  records : IdMap Record := .empty
  nextId : UInt32 := 0
  generation : UInt64 := 0
deriving DecidableEq, Inhabited

namespace Registry

/-- The live record of an id. -/
def get? (r : Registry) (id : UInt32) : Option Record := r.records.get? id

/-- The live record with an address. -/
def withAddress? (r : Registry) (address : String) : Option Record :=
  r.records.values.find? fun p => p.address = address

/-- Takes in a publisher and gives it its id. -/
def register (r : Registry) (candidate : Record) : Except RegistryError (UInt32 × Registry) :=
  if (Endpoint.ofText? candidate.address).isNone then
    .error (.addressUnreadable candidate.address)
  else if (r.withAddress? candidate.address).isSome then
    .error (.addressTaken candidate.address)
  else if r.nextId + 1 = 0 then .error .idsExhausted
  else
    .ok (r.nextId,
      { records := r.records.insert r.nextId { candidate with id := some r.nextId }
        nextId := r.nextId + 1
        generation := r.generation + 1 })

/-- Removes a publisher and gives back its record. -/
def deregister (r : Registry) (id : UInt32) : Except RegistryError (Record × Registry) :=
  match r.get? id with
  | none => .error (.idUnknown id)
  | some record =>
    .ok (record, { r with records := r.records.erase id, generation := r.generation + 1 })

/-- Replaces the topics of a publisher. -/
def setTopics (r : Registry) (id : UInt32) (topics : List String) :
    Except RegistryError Registry :=
  match r.get? id with
  | none => .error (.topicsRefused id)
  | some _ =>
    .ok { r with
      records := r.records.adjust id fun p => { p with topics }
      generation := r.generation + 1 }

/-- A copy of the current state. -/
def snapshot (r : Registry) : Snapshot := ⟨r.generation, r.records⟩

/-- The number of live publishers. -/
def size (r : Registry) : Nat := r.records.size

@[simp] theorem get?_snapshot (r : Registry) (id : UInt32) : r.snapshot.get? id = r.get? id := rfl

@[simp] theorem generation_snapshot (r : Registry) : r.snapshot.generation = r.generation := rfl

end Registry

end TopicDirectory
