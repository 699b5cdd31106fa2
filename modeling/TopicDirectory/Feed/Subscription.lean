import TopicDirectory.Feed.Basic
import TopicDirectory.Json.Printer

/-!
# Subscriptions

The receiving side of a feed: it greets the feed with its stems, waits until it is admitted, and
then takes two frames at a time, label and payload.  What has come only in part is left where it
is.
-/

namespace TopicDirectory.Subscription

open Link (Fault)

/-- The greeting for labels that begin with one of the stems. -/
def greeting (stems : List String) : List UInt8 := (Json.ofStrings stems).render

/-- Writes the greeting. -/
def greet (limit : Nat) (l : Link) (stems : List String) : Except Fault Link :=
  match Frame.write limit (greeting stems) with
  | .error fault => .error fault
  | .ok frame =>
    if l.toHost.closed then .error (.system .reset)
    else .ok { l with toHost := l.toHost.write frame }

/-- Reads the answer to the greeting, when its time has come or run out. -/
def admitted (limit : Nat) (l : Link) : Except Fault Unit × Link :=
  match Frame.expect limit l.toGuest with
  | none => (.error .timeout, l)
  | some (.error fault, rest) => (.error fault, { l with toGuest := rest })
  | some (.ok body, rest) =>
    (if body = Feed.admission then .ok () else .error (.notAdmitted (Utf8.decodeLossy body)),
      { l with toGuest := rest })

/-- Takes the next message: `none` if more octets have to come first. -/
def receive (limit : Nat) (p : Pipe) : Option (Except Fault Message × Pipe) := do
  match ← Frame.expect limit p with
  | (.error fault, rest) => return (.error fault, rest)
  | (.ok label, rest) =>
    match ← Frame.expect limit rest with
    | (.error fault, rest) => return (.error fault, rest)
    | (.ok payload, rest) => return (.ok ⟨Utf8.decodeLossy label, payload⟩, rest)

end TopicDirectory.Subscription
