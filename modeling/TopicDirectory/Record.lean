import TopicDirectory.Json.Fields

/-!
# Publisher records

What the directory knows of a publisher, and its form in JSON.
-/

namespace TopicDirectory

/-- A publisher: its id once it has one, where its messages can be had, its label, and the topics of
its messages. -/
structure Record where
  id : Option UInt32 := none
  address : String := ""
  name : String := ""
  topics : List String := []
deriving DecidableEq, Repr, Inhabited

namespace Record

/-- Whether the publisher declares a topic. -/
def hasTopic (r : Record) (topic : String) : Bool := r.topics.contains topic

/-- The names of the fields, in the order in which they are written. -/
def fieldNames : List String := ["id", "address", "name", "topics"]

/-- The value of an id that may be absent. -/
def idToJson : Option UInt32 → Json
  | none => .null
  | some id => .ofInt id.toNat

/-- A record as it is sent. -/
def toJson (r : Record) : Json :=
  .ofFields [("id", idToJson r.id), ("address", .ofString r.address), ("name", .ofString r.name),
    ("topics", .ofStrings r.topics)]

/-- Reads an id that may be absent. -/
def idOfJson? : Json → Option (Option UInt32)
  | .null => some none
  | j => (j.natBelow? UInt32.size).map fun n => some (UInt32.ofNat n)

/-- Reads a record; a field left out takes its default. -/
def ofJson? (j : Json) : Option Record := do
  match ← j.fields? fieldNames with
  | [id, address, name, topics] =>
    return {
      id := ← Json.fieldOr none idOfJson? id
      address := ← Json.fieldOr "" Json.string? address
      name := ← Json.fieldOr "" Json.string? name
      topics := ← Json.fieldOr [] Json.strings? topics }
  | _ => none

end Record

end TopicDirectory
