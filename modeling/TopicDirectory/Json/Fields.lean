import TopicDirectory.Json.Basic

/-!
# Named fields

Values with named fields are sent as objects, or as arrays of the fields in their declared order.
`fields?` brings both to one form.
-/

namespace TopicDirectory.Json

/-- The members of an object whose names are all strings. -/
def named? (members : List (Text × Json)) : Option (List (String × Json)) :=
  members.mapM fun m => m.1.string?.map fun k => (k, m.2)

/-- The value of a name that occurs at most once: `some none` if it does not occur. -/
def unique? (members : List (String × Json)) (name : String) : Option (Option Json) :=
  match members.filter fun m => m.1 = name with
  | [] => some none
  | [m] => some (some m.2)
  | _ => none

/-- The values of the fields called `names`, in that order, each `none` where it is left out.  An
object gives them in any order, each at most once, among members of any other names; an array gives
as many of the first ones as it has items. -/
def fields? (names : List String) : Json → Option (List (Option Json))
  | .array items =>
    if items.length ≤ names.length then
      some (items.map some ++ List.replicate (names.length - items.length) none)
    else none
  | .object members => do
    let members ← named? members
    names.mapM (unique? members)
  | _ => none

/-- A field that takes a default where it is left out. -/
def fieldOr {α : Type} (default : α) (read : Json → Option α) : Option Json → Option α
  | none => some default
  | some j => read j

/-- A field that has to be there. -/
def required {α : Type} (read : Json → Option α) (field : Option Json) : Option α :=
  field.bind read

/-! ### Values that are kept before they are asked for -/

mutual

/-- Whether a value can be kept for later: its strings are text, its numbers fit into a double, and
it nests at most `depth` containers. -/
def keepable (depth : Nat) : Json → Bool
  | .null | .bool _ => true
  | .number n => n.fitsDouble
  | .string t => t.string?.isSome
  | .array items => match depth with
    | 0 => false
    | depth + 1 => keepableItems depth items
  | .object members => match depth with
    | 0 => false
    | depth + 1 => keepableMembers depth members

/-- Whether every item can be kept. -/
def keepableItems (depth : Nat) : List Json → Bool
  | [] => true
  | v :: vs => keepable depth v && keepableItems depth vs

/-- Whether the name and the value of a member can be kept. -/
def keepableMember (depth : Nat) : Text × Json → Bool
  | (k, v) => k.string?.isSome && keepable depth v

/-- Whether every member can be kept. -/
def keepableMembers (depth : Nat) : List (Text × Json) → Bool
  | [] => true
  | m :: ms => keepableMember depth m && keepableMembers depth ms

end

end TopicDirectory.Json
