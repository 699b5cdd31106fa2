import TopicDirectory.Json.Basic

/-!
# Writing JSON

`render` writes a value without blanks, in the order in which it holds its members; `renderLines`
puts every item and member on a line of its own, two blanks deeper than its container.
-/

namespace TopicDirectory.Json

/-- The octets of ASCII characters. -/
def asciiText (cs : List Char) : List UInt8 := cs.map ascii

/-- Octets put between items. -/
def joined (separator : List UInt8) : List (List UInt8) → List UInt8
  | [] => []
  | [item] => item
  | item :: items => item ++ separator ++ joined separator items

mutual

/-- The shortest text of a value. -/
def render : Json → List UInt8
  | .null => asciiText ['n', 'u', 'l', 'l']
  | .bool true => asciiText ['t', 'r', 'u', 'e']
  | .bool false => asciiText ['f', 'a', 'l', 's', 'e']
  | .number n => asciiText n.text
  | .string t => t.render
  | .array items => ascii '[' :: (joined [ascii ','] (renderItems items) ++ [ascii ']'])
  | .object members =>
    ascii '\x7b' :: (joined [ascii ','] (renderMembers members) ++ [ascii '\x7d'])

/-- The texts of items. -/
def renderItems : List Json → List (List UInt8)
  | [] => []
  | v :: vs => render v :: renderItems vs

/-- The text of a member. -/
def renderMember : Text × Json → List UInt8
  | (k, v) => k.render ++ ascii ':' :: render v

/-- The texts of members. -/
def renderMembers : List (Text × Json) → List (List UInt8)
  | [] => []
  | m :: ms => renderMember m :: renderMembers ms

end

/-- A new line and the blanks that open it at a depth. -/
def newLine (depth : Nat) : List UInt8 := ascii '\n' :: List.replicate (2 * depth) (ascii ' ')

/-- A container that lists its parts on lines of their own. -/
def bracketed (depth : Nat) (opening closing : Char) (parts : List (List UInt8)) : List UInt8 :=
  if parts = [] then [ascii opening, ascii closing]
  else ascii opening :: (newLine (depth + 1) ++ joined (ascii ',' :: newLine (depth + 1)) parts
    ++ newLine depth ++ [ascii closing])

mutual

/-- The text of a value whose containers spread over lines. -/
def renderLines (depth : Nat) : Json → List UInt8
  | .array items => bracketed depth '[' ']' (renderItemLines (depth + 1) items)
  | .object members => bracketed depth '\x7b' '\x7d' (renderMemberLines (depth + 1) members)
  | v => render v

/-- The texts of items that spread over lines. -/
def renderItemLines (depth : Nat) : List Json → List (List UInt8)
  | [] => []
  | v :: vs => renderLines depth v :: renderItemLines depth vs

/-- The text of a member whose value spreads over lines. -/
def renderMemberLine (depth : Nat) : Text × Json → List UInt8
  | (k, v) => k.render ++ ascii ':' :: ascii ' ' :: renderLines depth v

/-- The texts of members that spread over lines. -/
def renderMemberLines (depth : Nat) : List (Text × Json) → List (List UInt8)
  | [] => []
  | m :: ms => renderMemberLine depth m :: renderMemberLines depth ms

end

end TopicDirectory.Json
