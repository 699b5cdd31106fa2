import TopicDirectory.Wire.Error

/-!
# Replies

The directory answers a registration with an integer, the new id or a negative code, and every other
change with a text, `OK` or the digits of a code.
-/

namespace TopicDirectory.Wire

/-- Why the directory refuses a command. -/
inductive Refusal
  | addressTaken
  | addressUnreadable
  | idUnknown
  | topicsRefused
  | idsExhausted
  | malformedCommand
  | unknownCommand
deriving DecidableEq, Repr

namespace Refusal

/-- The code of a refusal, negative so that it is never an id. -/
def code : Refusal → Int64
  | addressTaken => -1
  | addressUnreadable => -2
  | idUnknown => -3
  | topicsRefused => -4
  | idsExhausted => -5
  | malformedCommand => -6
  | unknownCommand => -7

/-- Every refusal. -/
def all : List Refusal :=
  [addressTaken, addressUnreadable, idUnknown, topicsRefused, idsExhausted, malformedCommand,
    unknownCommand]

/-- The refusal of a code. -/
def ofCode? (n : Int) : Option Refusal := all.find? fun r => r.code.toInt = n

/-- The name under which a refusal is reported. -/
def name : Refusal → String
  | addressTaken => "AddressAlreadyRegistered"
  | addressUnreadable => "AddressParseError"
  | idUnknown => "IdNotFound"
  | topicsRefused => "UpdateFailed"
  | idsExhausted => "IdSpaceExhausted"
  | malformedCommand => "MalformedCommand"
  | unknownCommand => "UnknownCommand"

/-- The digits of an integer, with a minus sign in front of a negative one. -/
def codeText (n : Int) : List Char :=
  (if n < 0 then ['-'] else []) ++ Decimal.digits n.natAbs

/-- The code as a text. -/
def text (r : Refusal) : String := String.ofList (codeText r.code.toInt)

@[simp] theorem ofCode?_code (r : Refusal) : ofCode? r.code.toInt = some r := by
  cases r <;> decide

/-- The refusal whose code a text gives. -/
def ofText? (s : String) : Option Refusal := (Decimal.int? s.toList).bind ofCode?

@[simp] theorem ofText?_text (r : Refusal) : ofText? r.text = some r := by
  cases r <;> decide

end Refusal

/-- The answer to a registration. -/
inductive RegisterReply
  | registered (id : UInt32)
  | refused (r : Refusal)
deriving DecidableEq, Repr

/-- The value of an answer to a registration. -/
def RegisterReply.toValue : RegisterReply → Value
  | registered id => .int (Int64.ofInt id.toNat)
  | refused r => .int r.code

/-- Reads the answer to a registration. -/
def RegisterReply.ofValue : Value → Except Fault RegisterReply
  | .int n =>
    match n.toInt with
    | .ofNat m =>
      if m < UInt32.size then .ok (registered (UInt32.ofNat m))
      else .error (.invalidId (String.ofList (Decimal.digits m)))
    | c =>
      match Refusal.ofCode? c with
      | some r => .ok (refused r)
      | none => .error (.unknownRefusal (String.ofList (Refusal.codeText c)))
  | v => .error (.unexpectedKind .int v.kind)

/-- The answer to a removal or to new topics. -/
inductive StatusReply
  | done
  | refused (r : Refusal)
deriving DecidableEq, Repr

/-- The text of success. -/
def StatusReply.success : String := "OK"

/-- The value of an answer to a removal or to new topics. -/
def StatusReply.toValue : StatusReply → Value
  | done => .text success
  | refused r => .text r.text

/-- Reads the answer to a removal or to new topics. -/
def StatusReply.ofValue : Value → Except Fault StatusReply
  | .text s =>
    if s = success then .ok done
    else match Refusal.ofText? s with
      | some r => .ok (refused r)
      | none => .error (.unknownRefusal s)
  | v => .error (.unexpectedKind .text v.kind)

end TopicDirectory.Wire
