import TopicDirectory.Json.Printer
import TopicDirectory.Snapshot
import TopicDirectory.Watch.Arguments

/-!
# The lines of the watch tool

How snapshots and messages are shown, as text or one JSON object a line, and what the tool says of
itself.
-/

namespace TopicDirectory.Watch

/-- A message as it is shown. -/
structure Echo where
  publisher : String
  topic : String
  text : String
deriving DecidableEq, Repr

/-- The digits of a number. -/
def digits (n : Nat) : String := String.ofList (Decimal.digits n)

/-- A text with blanks in front of it, to fill `width` characters. -/
def padFront (width : Nat) (s : String) : String :=
  String.ofList (List.replicate (width - s.length) ' ') ++ s

/-- A text with blanks after it, to fill `width` characters. -/
def padBack (width : Nat) (s : String) : String :=
  s ++ String.ofList (List.replicate (width - s.length) ' ')

/-- A value in one line. -/
def jsonLine (j : Json) : String := Utf8.decodeLossy j.render

/-- The line of a publisher. -/
def publisherLine (e : UInt32 × Record) : String :=
  "  " ++ padFront 4 (digits e.1.toNat) ++ "  " ++ padBack 20 e.2.name ++ " "
    ++ padBack 28 e.2.address ++ " " ++ ", ".intercalate e.2.topics

/-- The lines of a snapshot. -/
def snapshotLines (clock : String) (json : Bool) (s : Snapshot) : List String :=
  if json then [jsonLine s.toJson]
  else
    ["[" ++ clock ++ "] generation " ++ digits s.generation.toNat ++ " (" ++ digits s.size
      ++ " publishers)"]
    ++ (if s.publishers.isEmpty then ["  (empty)"] else [])
    ++ s.publishers.entries.map publisherLine ++ [""]

/-- The line of a message, which is the `number`-th one shown. -/
def echoLine (clock : String) (json : Bool) (number : Nat) (e : Echo) : String :=
  if json then
    jsonLine (.ofFields [("message", .ofString e.text), ("publisher", .ofString e.publisher),
      ("seq", .ofInt number), ("topic", .ofString e.topic)])
  else
    "[" ++ clock ++ "] #" ++ digits number ++ " " ++ e.publisher ++ "/" ++ e.topic ++ ": " ++ e.text

/-- What is said before anything is shown. -/
def headerLines (a : Arguments) : List String :=
  let target := match a.topic with
    | some topic => "topic " ++ topic
    | none => "directory"
  [">>> Watching " ++ target ++ " (directory=" ++ a.host ++ ":" ++ digits a.commandPort.toNat
      ++ ")",
    "Press Ctrl+C to stop", ""]

/-- What is said after everything has been shown. -/
def footerLines (a : Arguments) (shown : Nat) : List String :=
  let what := if a.topic.isSome then "message" else "snapshot"
  ["", "--- Printed " ++ digits shown ++ " " ++ what ++ "(s)"]

/-- What is said when a publisher is followed. -/
def followLine (r : Record) : String := "+++ Following '" ++ r.name ++ "' at " ++ r.address

/-- A text cut at its line ends. -/
def linesOf (s : String) : List String := (s.toList.splitOn '\n').map String.ofList

end TopicDirectory.Watch
