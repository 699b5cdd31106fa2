import TopicDirectory.IdMap
import TopicDirectory.Record
import TopicDirectory.Text.Decimal

/-!
# Snapshots

A copy of the directory at one moment.  Its generation counts the changes made before that moment,
so of two copies of one directory the newer one has the greater generation.
-/

namespace TopicDirectory

/-- The publishers of the directory, by id, after so many changes. -/
structure Snapshot where
  generation : UInt64 := 0
  publishers : IdMap Record := .empty
deriving DecidableEq, Inhabited

namespace Snapshot

/-- The record of an id. -/
def get? (s : Snapshot) (id : UInt32) : Option Record := s.publishers.get? id

/-- The number of publishers. -/
def size (s : Snapshot) : Nat := s.publishers.size

/-- The publishers that declare a topic, in the order of their ids. -/
def withTopic (s : Snapshot) (topic : String) : List Record :=
  s.publishers.values.filter fun r => r.hasTopic topic

/-- The names of the fields, in the order in which they are written. -/
def fieldNames : List String := ["generation", "publishers"]

/-- A snapshot as it is sent. -/
def toJson (s : Snapshot) : Json :=
  .ofFields [("generation", .ofInt s.generation.toNat),
    ("publishers", .ofFields <| s.publishers.entries.map fun e =>
      (String.ofList (Decimal.digits e.1.toNat), e.2.toJson))]

/-- Reads the name of a publisher's member: the digits of its id as they are written. -/
def idOfName? (name : Json.Text) : Option UInt32 := do
  let cs ← name.unescaped?
  let n ← Decimal.row? cs
  if n < UInt32.size ∧ cs = Decimal.digits n then some (UInt32.ofNat n) else none

/-- Reads the member of a publisher. -/
def entryOfMember? (m : Json.Text × Json) : Option (UInt32 × Record) := do
  return (← idOfName? m.1, ← Record.ofJson? m.2)

/-- Reads the publishers; of two members with one id the later one counts. -/
def publishersOfJson? : Json → Option (IdMap Record)
  | .object members => (members.mapM entryOfMember?).map IdMap.ofList
  | _ => none

/-- Reads a snapshot; it has to have both fields. -/
def ofJson? (j : Json) : Option Snapshot := do
  match ← j.fields? fieldNames with
  | [generation, publishers] =>
    return {
      generation := UInt64.ofNat (← Json.required (Json.natBelow? UInt64.size) generation)
      publishers := ← Json.required publishersOfJson? publishers }
  | _ => none

end Snapshot

end TopicDirectory
