import TopicDirectory.Json.Printer
import TopicDirectory.Json.Reader
import TopicDirectory.Snapshot

/-!
# Wire values

Every payload is one tagged value: an object of the members `type` and `value`, in that order when
it is written.  A reader takes the members in either order; a body that comes before its tag is kept
until the tag is known, and only a body that can be kept is accepted there (`heldBody`).
-/

namespace TopicDirectory.Wire

/-- The kinds of values. -/
inductive Kind
  | int
  | text
  | texts
  | record
  | directory
deriving DecidableEq, Repr

/-- The tag of a kind. -/
def Kind.tag : Kind → String
  | int => "int"
  | text => "str"
  | texts => "strings"
  | record => "record"
  | directory => "directory"

/-- The kind of a tag. -/
def Kind.ofTag? (tag : String) : Option Kind :=
  [int, text, texts, record, directory].find? fun k => k.tag = tag

@[simp] theorem Kind.ofTag?_tag (k : Kind) : ofTag? k.tag = some k := by
  cases k <;> decide

/-- A value that can be sent. -/
inductive Value
  | int (n : Int64)
  | text (s : String)
  | texts (ss : List String)
  | record (r : Record)
  | directory (s : Snapshot)
deriving DecidableEq

namespace Value

/-- The kind of a value. -/
def kind : Value → Kind
  | int _ => .int
  | text _ => .text
  | texts _ => .texts
  | record _ => .record
  | directory _ => .directory

/-- The body of a value. -/
def body : Value → Json
  | int n => .ofInt n.toInt
  | text s => .ofString s
  | texts ss => .ofStrings ss
  | record r => r.toJson
  | directory s => s.toJson

/-- A value with its tag. -/
def toJson (v : Value) : Json := .ofFields [("type", .ofString v.kind.tag), ("value", v.body)]

/-- The octets of a value. -/
def encode (v : Value) : List UInt8 := v.toJson.render

/-- Reads an integer of 64 bits. -/
def int64? (j : Json) : Option Int64 := do
  let n ← j.int?
  if Int64.minValue.toInt ≤ n ∧ n ≤ Int64.maxValue.toInt then some (Int64.ofInt n) else none

/-- Reads the body of a value of a known kind. -/
def ofBody? (j : Json) : Kind → Option Value
  | .int => (int64? j).map int
  | .text => j.string?.map text
  | .texts => j.strings?.map texts
  | .record => (Record.ofJson? j).map record
  | .directory => (Snapshot.ofJson? j).map directory

/-- How many containers a body may nest that is kept for later. -/
def heldDepth : Nat := 126

/-- Whether a value is an object without members. -/
def isEmptyObject : Json → Bool
  | .object [] => true
  | _ => false

/-- The publishers that a snapshot's body gives. -/
def publishers? (j : Json) : Option Json :=
  match j.fields? Snapshot.fieldNames with
  | some [_, publishers] => publishers
  | _ => none

/-- Reads a body that was kept until its tag was known: publishers cannot be kept, since their names
are numbers there. -/
def ofHeldBody? (j : Json) (k : Kind) : Option Value :=
  if j.keepable heldDepth then
    if k = .directory ∧ (publishers? j).any fun p => !isEmptyObject p then none
    else ofBody? j k
  else none

/-- Reads the tag of an object: a string, or an object whose one member has the tag for its name and
no value. -/
def kindOfJson? : Json → Option Kind
  | .string t => t.string?.bind Kind.ofTag?
  | .object [(name, .null)] => name.string?.bind Kind.ofTag?
  | _ => none

/-- Whether the body of a value comes before its tag. -/
def bodyFirst (members : List (String × Json)) : Bool :=
  (members.find? fun m => m.1 = "type" ∨ m.1 = "value").any fun m => m.1 = "value"

/-- Reads a tagged value: an array of tag and body, or an object of both and any other members. -/
def ofJson? : Json → Option Value
  | .array [.string tag, body] => do ofBody? body (← kindOfJson? (.string tag))
  | .object members => do
    let members ← Json.named? members
    let tag ← ← Json.unique? members "type"
    let body ← ← Json.unique? members "value"
    let kind ← kindOfJson? tag
    if bodyFirst members then ofHeldBody? body kind else ofBody? body kind
  | _ => none

/-- Reads the octets of a value. -/
def decode? (octets : List UInt8) : Option Value := (Json.parse? octets).bind ofJson?

end Value

end TopicDirectory.Wire
