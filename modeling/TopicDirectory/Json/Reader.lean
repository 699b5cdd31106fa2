import TopicDirectory.Json.Basic
import TopicDirectory.Json.Token

/-!
# Reading JSON

The reader takes one token at a time and keeps the containers that are still open on a stack
(`Builder.step`), so values may nest to any depth.  `parse?` accepts exactly one value with nothing
but blanks around it.
-/

namespace TopicDirectory.Json

/-- The value of a bare token: one of the three words, or a number. -/
def ofBare? (octets : List UInt8) : Option Json :=
  let cs := octets.map Char.ofUInt8
  if cs = ['n', 'u', 'l', 'l'] then some .null
  else if cs = ['t', 'r', 'u', 'e'] then some (.bool true)
  else if cs = ['f', 'a', 'l', 's', 'e'] then some (.bool false)
  else (Numeral.ofText? cs).map .number

/-- A container that is not closed yet, with what it holds so far, last first; an object also with
the name whose value is under way. -/
inductive Open
  | array (items : List Json)
  | object (members : List (Text × Json)) (name : Text)

/-- What the reader has read and what may come next inside the open containers, innermost first. -/
inductive Builder
  /-- A value has to come. -/
  | value (outer : List Open)
  /-- An array has just been opened. -/
  | arrayStart (outer : List Open)
  /-- An object has just been opened. -/
  | objectStart (outer : List Open)
  /-- The name of another member has to come. -/
  | name (members : List (Text × Json)) (outer : List Open)
  /-- The colon after a name has to come. -/
  | colon (members : List (Text × Json)) (name : Text) (outer : List Open)
  /-- A value is complete. -/
  | complete (v : Json) (outer : List Open)

namespace Builder

/-- Takes the token with which a value begins. -/
def begin? (outer : List Open) : Token → Option Builder
  | .openArray => some (.arrayStart outer)
  | .openObject => some (.objectStart outer)
  | .string t => some (.complete (.string t) outer)
  | .bare octets => (ofBare? octets).map fun v => .complete v outer
  | _ => none

/-- Takes one token; `none` where the grammar allows no such token. -/
def step : Builder → Token → Option Builder
  | .value outer, t => begin? outer t
  | .arrayStart outer, .closeArray => some (.complete (.array []) outer)
  | .arrayStart outer, t => begin? (.array [] :: outer) t
  | .objectStart outer, .closeObject => some (.complete (.object []) outer)
  | .objectStart outer, .string k => some (.colon [] k outer)
  | .name ms outer, .string k => some (.colon ms k outer)
  | .colon ms k outer, .colon => some (.value (.object ms k :: outer))
  | .complete v (.array vs :: outer), .comma => some (.value (.array (v :: vs) :: outer))
  | .complete v (.array vs :: outer), .closeArray =>
    some (.complete (.array (v :: vs).reverse) outer)
  | .complete v (.object ms k :: outer), .comma => some (.name ((k, v) :: ms) outer)
  | .complete v (.object ms k :: outer), .closeObject =>
    some (.complete (.object ((k, v) :: ms).reverse) outer)
  | _, _ => none

/-- The value read, if it is complete and nothing is open. -/
def finish? : Builder → Option Json
  | .complete v [] => some v
  | _ => none

end Builder

/-- The value of a row of tokens. -/
def ofTokens? (ts : List Token) : Option Json :=
  (ts.foldlM Builder.step (.value [])).bind Builder.finish?

/-- The value of a text. -/
def parse? (octets : List UInt8) : Option Json := (tokens? octets).bind ofTokens?

end TopicDirectory.Json
