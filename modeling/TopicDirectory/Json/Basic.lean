import TopicDirectory.Json.Numeral
import TopicDirectory.Json.Text

/-!
# JSON values

A value as it is written: numbers keep their digits, strings their escapes, objects the order of
their members and the repeated ones.  What the values mean is decided by those who ask for a string
(`string?`), an integer (`int?`) or named fields.
-/

namespace TopicDirectory

/-- A JSON value as written. -/
inductive Json
  | null
  | bool (b : Bool)
  | number (n : Json.Numeral)
  | string (t : Json.Text)
  | array (items : List Json)
  | object (members : List (Json.Text × Json))

namespace Json

/-- The value of a string. -/
def ofString (s : String) : Json := .string (.ofString s)

/-- The value of an integer. -/
def ofInt (n : Int) : Json := .number (.ofInt n)

/-- The value of a list of strings. -/
def ofStrings (ss : List String) : Json := .array (ss.map ofString)

/-- An object with the given members, in the given order. -/
def ofFields (fs : List (String × Json)) : Json :=
  .object (fs.map fun f => (Text.ofString f.1, f.2))

/-- The string that a value stands for. -/
def string? : Json → Option String
  | .string t => t.string?
  | _ => none

/-- The integer that a value stands for. -/
def int? : Json → Option Int
  | .number n => n.int?
  | _ => none

/-- The natural number below `bound` that a value stands for. -/
def natBelow? (bound : Nat) (j : Json) : Option Nat :=
  match j.int? with
  | some (.ofNat n) => if n < bound then some n else none
  | _ => none

/-- The strings that an array holds, if it holds nothing else. -/
def strings? : Json → Option (List String)
  | .array items => items.mapM string?
  | _ => none

end Json

end TopicDirectory
